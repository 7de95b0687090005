import ModuleBoundary.Command
import ModuleBoundary.Proofs.Configuration
import ModuleBoundary.Proofs.FileSystem.Tree
import ModuleBoundary.Proofs.Verification

/-! What the commands tell by their exit codes, and what they leave behind.

Each command writes one file at most. Where files are kept in directories, that may take directories
too, which is why more can change than what is at the path of the file.
-/

set_option autoImplicit false

namespace ModuleBoundary

open FileTree (HoldsDirectoryOf IsUpFrom IsWritten Grows Spares directoryOf namesOf)

variable {σ : Type}

namespace VerifyCommand

/-- Nothing is reported: the verification fails, or its report cannot be written. -/
def Fails (command : VerifyCommand) (files : FileSystem (StateM σ)) (state : σ) : Prop :=
  (∃ e, (verify files command.request state).1 = .error e) ∨
    ∃ analysis path e, (verify files command.request state).1 = .ok analysis ∧
      command.reportFile = some path ∧
      (files.write path (analysis.render command.format) state).1 = .error e

/-- What an exit code of the verify command tells, and what the command did to the files. -/
structure EndsWith (command : VerifyCommand) (files : FileSystem (StateM σ)) (before : σ)
    (code : Nat) (after : σ) : Prop where
  failure : code = 2 ↔ command.Fails files before
  violations : ¬command.Fails files before →
    (code = 1 ↔ ∃ analysis, (verify files command.request before).1 = .ok analysis ∧
      analysis.violations.entries ≠ [])
  compliant : ¬command.Fails files before →
    (code = 0 ↔ ∃ analysis, (verify files command.request before).1 = .ok analysis ∧
      analysis.violations.entries = [])
  kept : code = 2 → files.FailsCleanly before → after = before
  shown : command.reportFile = none → after = before
  touched : after = before ∨ ∃ analysis path,
    (verify files command.request before).1 = .ok analysis ∧ command.reportFile = some path ∧
      (files.write path (analysis.render command.format) before).2 = after
  written : code ≠ 2 → ∀ path, command.reportFile = some path →
    ∃ analysis, (verify files command.request before).1 = .ok analysis ∧
      files.write path (analysis.render command.format) before = (.ok (), after)

/-- What the command leaves where files are kept in directories: with a failure nothing but
directories on the way to the report, and else the report at the place that its path leads to. -/
structure LeavesTree (command : VerifyCommand) (before : FileTree) (code : Nat) (after : FileTree) :
    Prop where
  failed : code = 2 → after = before ∨
    ∃ path, command.reportFile = some path ∧ Grows (IsUpFrom (directoryOf path)) before after
  reported : code ≠ 2 → ∀ path, command.reportFile = some path → ∃ analysis place,
    (verify FileTree.system command.request before).1 = .ok analysis ∧
      FileTree.system.look after path = some (.ok (analysis.render command.format)) ∧
      IsWritten before after path (analysis.render command.format) place ∧
      ∀ other, Spares before after place other →
        FileTree.system.look after other = FileTree.system.look before other

/-- What the command leaves where files are kept by the texts of their paths. -/
structure LeavesMemory (command : VerifyCommand) (before : MemoryFiles) (code : Nat)
    (after : MemoryFiles) : Prop where
  failed : code = 2 → after = before
  reported : code ≠ 2 → ∀ path, command.reportFile = some path → ∃ analysis,
    (verify MemoryFiles.system command.request before).1 = .ok analysis ∧
      MemoryFiles.system.look after = Function.update (MemoryFiles.system.look before) path
        (some (.ok (analysis.render command.format)))

section
variable {command : VerifyCommand} {files : FileSystem (StateM σ)} {before after : σ}
  {analysis : Analysis}

theorem fails_iff (verified : (verify files command.request before).1 = .ok analysis) :
    command.Fails files before ↔ ∃ path e, command.reportFile = some path ∧
      (files.write path (analysis.render command.format) before).1 = .error e := by
  simp [Fails, verified]

theorem EndsWith.of_unverified {e : VerificationError}
    (failed : (verify files command.request before).1 = .error e) :
    command.EndsWith files before 2 before := by
  have fails : command.Fails files before := .inl ⟨e, failed⟩
  exact {
    failure := iff_of_true rfl fails
    violations := fun fine => absurd fails fine
    compliant := fun fine => absurd fails fine
    kept := fun _ _ => rfl
    shown := fun _ => rfl
    touched := .inl rfl
    written := fun ended => absurd rfl ended }

theorem EndsWith.of_unwritten {path : String} {e : FileError}
    (verified : (verify files command.request before).1 = .ok analysis)
    (given : command.reportFile = some path)
    (refused : files.write path (analysis.render command.format) before = (.error e, after)) :
    command.EndsWith files before 2 after := by
  have fails : command.Fails files before :=
    (fails_iff verified).mpr ⟨path, e, given, by rw [refused]⟩
  exact {
    failure := iff_of_true rfl fails
    violations := fun fine => absurd fails fine
    compliant := fun fine => absurd fails fine
    kept := fun _ clean => clean path _ e after refused
    shown := by simp [given]
    touched := .inr ⟨analysis, path, verified, given, by rw [refused]⟩
    written := fun ended => absurd rfl ended }

/-- Once a report is out, the exit code tells whether it is empty. -/
theorem EndsWith.of_finished (color : Bool) (transcript : Transcript)
    (verified : (verify files command.request before).1 = .ok analysis)
    (shown : command.reportFile = none → after = before)
    (written : ∀ path, command.reportFile = some path →
      files.write path (analysis.render command.format) before = (.ok (), after)) :
    command.EndsWith files before
      (Command.finished color analysis.violations transcript).status.code after := by
  have code : (Command.finished color analysis.violations transcript).status.code =
      if analysis.violations.entries = [] then 0 else 1 := by
    unfold Command.finished Report.isCompliant
    cases analysis.violations.entries <;> rfl
  have fine : ¬command.Fails files before := by
    rw [fails_iff verified]
    rintro ⟨path, e, given, refused⟩
    rw [written path given] at refused
    cases refused
  rw [code]
  exact {
    failure := iff_of_false (by split <;> simp) fine
    violations := fun _ => by simp [verified]
    compliant := fun _ => by simp [verified]
    kept := fun ended => absurd ended (by split <;> simp)
    shown := shown
    touched := by
      cases given : command.reportFile with
      | none => exact .inl (shown given)
      | some path => exact .inr ⟨analysis, path, verified, rfl, by rw [written path given]⟩
    written := fun _ path given => ⟨analysis, verified, written path given⟩ }

end

end VerifyCommand

namespace Command

theorem endsWith_of_looksOnly {files : FileSystem (StateM σ)} (looks : files.LooksOnly)
    (color : Bool) (command : VerifyCommand) (before : σ) :
    command.EndsWith files before (runVerify files color command before).1.status.code
      (runVerify files color command before).2 := by
  have run : ModuleBoundary.verify files command.request before =
      ((ModuleBoundary.verify files command.request before).1, before) :=
    Prod.ext rfl (by rw [verify_run looks])
  unfold runVerify
  rw [runs_bind run]
  cases verified : (ModuleBoundary.verify files command.request before).1 with
  | error e => exact .of_unverified verified
  | ok analysis =>
    cases given : command.reportFile with
    | none => exact .of_finished color _ verified (fun _ => rfl) (by simp [given])
    | some path =>
      rcases stored : files.write path (analysis.render command.format) before with ⟨answer, after⟩
      dsimp only
      rw [runs_bind stored]
      cases answer with
      | error e => exact .of_unwritten verified given stored
      | ok _ =>
        refine .of_finished color _ verified (by simp [given]) fun other givenToo => ?_
        rwa [Option.some.inj (givenToo.symm.trans given)]

section
variable {command : VerifyCommand} {code : Nat}

theorem leavesTree_of_endsWith {before after : FileTree}
    (ended : command.EndsWith FileTree.system before code after) :
    command.LeavesTree before code after where
  failed failure := by
    obtain same | ⟨analysis, path, verified, given, rfl⟩ := ended.touched
    · exact .inl same
    · refine .inr ⟨path, given, ?_⟩
      obtain ⟨e, refused⟩ :
          ∃ e, (before.write path (analysis.render command.format)).2 = .error e := by
        obtain ⟨e, failed⟩ | ⟨_, _, e, again, givenToo, refused⟩ := ended.failure.mp failure
        · rw [verified] at failed
          cases failed
        · obtain rfl := Except.ok.inj (again.symm.trans verified)
          obtain rfl := Option.some.inj (givenToo.symm.trans given)
          exact ⟨e, refused⟩
      exact FileTree.grows_of_write_error (Prod.ext rfl refused)
  reported fine path given := by
    obtain ⟨analysis, verified, stored⟩ := ended.written fine path given
    obtain ⟨place, written⟩ := FileTree.exists_isWritten_of_run stored
    exact ⟨analysis, place, verified, written.look_of_led written.led, written,
      fun _ => written.look_eq_of_spares⟩

theorem leavesMemory_of_endsWith {before after : MemoryFiles}
    (ended : command.EndsWith MemoryFiles.system before code after) :
    command.LeavesMemory before code after where
  failed failure := ended.kept failure (MemoryFiles.system_failsCleanly before)
  reported fine path given := by
    obtain ⟨analysis, verified, stored⟩ := ended.written fine path given
    exact ⟨analysis, verified, MemoryFiles.look_of_written stored⟩

end

/-- The exit code of a verification can be trusted: 2 tells that there is no report, 1 and 0 that
there is one, with and without violations. The report is all that is written, and what that changes
is told for files in directories and for files in memory. -/
theorem runVerify_endsWith (color : Bool) (command : VerifyCommand) :
    (∀ {σ : Type} (files : FileSystem (StateM σ)) (before : σ), files.LooksOnly →
      let ended := runVerify files color command before
      command.EndsWith files before ended.1.status.code ended.2) ∧
    (∀ before : FileTree,
      let ended := runVerify FileTree.system color command before
      command.EndsWith FileTree.system before ended.1.status.code ended.2 ∧
        command.LeavesTree before ended.1.status.code ended.2) ∧
    ∀ before : MemoryFiles,
      let ended := runVerify MemoryFiles.system color command before
      command.EndsWith MemoryFiles.system before ended.1.status.code ended.2 ∧
        command.LeavesMemory before ended.1.status.code ended.2 := by
  refine ⟨fun files before looks => endsWith_of_looksOnly looks color command before,
    fun before => ?_, fun before => ?_⟩
  · have ended := endsWith_of_looksOnly FileTree.system_looksOnly color command before
    exact ⟨ended, leavesTree_of_endsWith ended⟩
  · have ended := endsWith_of_looksOnly MemoryFiles.system_looksOnly color command before
    exact ⟨ended, leavesMemory_of_endsWith ended⟩

/-- An order refers to a shelf in the store rooms. -/
def orderClasses : String :=
  "[\x7b\"name\": \"shop.order.Order\", \"references\": [\"shop.stock.room.Shelf\"]\x7d,
    \x7b\"name\": \"shop.stock.room.Shelf\"\x7d]"

def noCycles : String := "rules = \x7b cycles = false \x7d"

/-- The classes with their configuration, and no directory for reports. -/
def shopFiles : FileTree :=
  .ofFiles ["work"]
    [("shop/classes.json", .file (Text.toUtf8 orderClasses)),
     ("shop/.modbound.toml", .file (Text.toUtf8 noCycles))]

def verifyOrders : VerifyCommand where
  request := { classes := "shop/classes.json", basePackage := some "shop" }
  format := .json
  reportFile := some "reports/orders.json"

/-- The store rooms are closed to orders, so a report with a violation is written. -/
theorem verifyOrders_endsWith_violation :
    let ended := runVerify FileTree.system false verifyOrders shopFiles
    FileTree.system.LooksOnly ∧ ended.1.status.code = 1 ∧
      verifyOrders.EndsWith FileTree.system shopFiles ended.1.status.code ended.2 ∧
      verifyOrders.LeavesTree shopFiles ended.1.status.code ended.2 := by
  have looks := FileTree.system_looksOnly
  obtain ⟨generally, inDirectories, -⟩ := runVerify_endsWith false verifyOrders
  exact ⟨looks, by decide +kernel, generally FileTree.system shopFiles looks,
    (inDirectories shopFiles).2⟩

/-- More has changed then than what is at the path of the report: there is a directory for it. -/
theorem verifyOrders_makes_directory :
    let ended := runVerify FileTree.system false verifyOrders shopFiles
    verifyOrders.reportFile = some "reports/orders.json" ∧ ended.1.status.code = 1 ∧
      FileTree.system.look shopFiles "reports" = none ∧
      FileTree.system.look ended.2 "reports" = some (.error .isADirectory) := by
  decide +kernel

section
variable {files : FileSystem (StateM σ)} (looks : files.LooksOnly) (color : Bool) {directory : String}
  {before : σ}

include looks

/-- A configuration that is there is left as it is. -/
theorem runInit_of_exists
    (there : (files.exists? (Path.child directory Configuration.fileName) before).1 = true) :
    (runInit files color directory before).1.status.code = 2 ∧
      (runInit files color directory before).2 = before := by
  have run : files.exists? (Path.child directory Configuration.fileName) before = (true, before) :=
    Prod.ext there (looks.exists?_keeps _ _)
  unfold runInit
  rw [runs_bind run]
  exact ⟨rfl, rfl⟩

/-- The command is done once the template is written, where nothing was. -/
theorem written_of_runInit (done : (runInit files color directory before).1.status.code = 0) :
    (files.exists? (Path.child directory Configuration.fileName) before).1 = false ∧
      files.write (Path.child directory Configuration.fileName) Configuration.template before =
        (.ok (), (runInit files color directory before).2) := by
  have absent : (files.exists? (Path.child directory Configuration.fileName) before).1 = false := by
    rw [Bool.eq_false_iff]
    intro there
    rw [(runInit_of_exists looks color there).1] at done
    cases done
  have run : files.exists? (Path.child directory Configuration.fileName) before = (false, before) :=
    Prod.ext absent (looks.exists?_keeps _ _)
  refine ⟨absent, ?_⟩
  unfold runInit at done ⊢
  rw [runs_bind run] at done ⊢
  rcases stored : files.write (Path.child directory Configuration.fileName) Configuration.template
    before with ⟨answer, after⟩
  simp only [Bool.false_eq_true, if_false] at done ⊢
  rw [runs_bind stored] at done ⊢
  cases answer with
  | error e => cases done
  | ok _ => rfl

end

end Command

namespace VerificationRequest

theorem verify_eq_of_looks {files : FileSystem (StateM σ)} (looks : files.LooksOnly)
    {before after : σ} (request : VerificationRequest)
    (classes : files.look after request.classes = files.look before request.classes)
    (configuration : Configuration.ofFound (files.look after request.configurationPath) =
      Configuration.ofFound (files.look before request.configurationPath)) :
    (verify files request after).1 = (verify files request before).1 := by
  rw [verify_run looks, verify_run looks, verdict, verdict, classes, configuration]

/-- The template makes no difference to a request. It spares the path of the classes, and that of the
configuration unless the template is what comes to be found there. -/
structure IsSpared (request : VerificationRequest) (before after : FileTree) (place : Place) : Prop where
  classes : Spares before after place request.classes
  configuration : Spares before after place request.configurationPath ∨
    before.has request.configurationPath = false ∧
      after.locate request.configurationPath (namesOf request.configurationPath) = .ok place

variable {before after : FileTree} {path : String} {place : Place}

theorem IsSpared.verify_eq {request : VerificationRequest}
    (spared : request.IsSpared before after place)
    (written : IsWritten before after path Configuration.template place) :
    (verify FileTree.system request after).1 = (verify FileTree.system request before).1 := by
  refine request.verify_eq_of_looks FileTree.system_looksOnly
    (written.look_eq_of_spares spared.classes) ?_
  obtain spares | ⟨absent, led⟩ := spared.configuration
  · rw [written.look_eq_of_spares spares]
  · rw [written.look_of_led led, FileSystem.look_eq_none.mpr absent, Configuration.ofFound_template]

/-- Where the directory was there, the classes only have to be elsewhere. -/
theorem isSpared_of_holdsDirectory (request : VerificationRequest)
    (written : IsWritten before after path Configuration.template place)
    (absent : before.has path = false) (there : before.HoldsDirectoryOf path)
    (elsewhere : before.locate request.classes (namesOf request.classes) ≠ .ok place) :
    request.IsSpared before after place where
  classes := .inr ⟨written.avoids_of_holdsDirectory there _, elsewhere⟩
  configuration := by
    by_cases led : after.locate request.configurationPath (namesOf request.configurationPath) = .ok place
    · refine .inr ⟨Bool.eq_false_iff.mpr fun found => ?_, led⟩
      obtain ⟨other, ledBefore, here⟩ := FileTree.has_iff.mp found
      obtain rfl := Except.ok.inj ((written.keepsDirectories.locate ledBefore).symm.trans led)
      -- What is there would have been found at the path of the template.
      rw [FileTree.has_iff.mpr ⟨other, (written.alone there).1, here⟩] at absent
      cases absent
    · exact .inl (.inr ⟨written.avoids_of_holdsDirectory there _,
        fun ledBefore => led (written.keepsDirectories.locate ledBefore)⟩)

end VerificationRequest

namespace Command

/-- The classes without a configuration. -/
def plainShop : FileTree :=
  .ofFiles ["work"] [("shop/classes.json", .file (Text.toUtf8 orderClasses))]

end Command

end ModuleBoundary
