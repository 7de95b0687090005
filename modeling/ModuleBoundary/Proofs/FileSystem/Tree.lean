import Mathlib.Data.List.Induction
import Mathlib.Data.List.TakeWhile
import Mathlib.Logic.Relation
import ModuleBoundary.FileSystem.Tree
import ModuleBoundary.Proofs.FileSystem
import ModuleBoundary.Proofs.Text.Utf8

/-! What reading and writing come to where files are kept in directories.

Several paths may lead to one place, so what a write changes is told by places. It puts its text at
the place that its path leads to, and it makes the directories that are missing on the way there.
Directories stay directories, so a path still leads where it led before, and one that met no place
where a directory was made finds what it found before.
-/

set_option autoImplicit false

namespace ModuleBoundary.FileTree

variable {before middle after tree made : FileTree} {path above content name : String}
  {place other : Place} {names : List String}

theorem lookup_filter_ne (entries : List (Place × FileNode)) (place other : Place) :
    (entries.filter (·.1 != place)).lookup other =
      if other = place then none else entries.lookup other := by
  induction entries with
  | nil => simp
  | cons entry rest ih =>
    obtain ⟨first, node⟩ := entry
    by_cases dropped : first = place
    · rw [List.filter_cons_of_neg (by simpa using dropped), ih]
      by_cases same : other = place
      · simp [same]
      · simp [same, List.lookup_cons, dropped, beq_false_of_ne same]
    · rw [List.filter_cons_of_pos (by simpa using dropped), List.lookup_cons, List.lookup_cons, ih]
      by_cases same : other = place
      · simp [same, beq_false_of_ne (Ne.symm dropped)]
      · simp [same]

theorem node?_put {node : FileNode} (inside : place ≠ []) (other : Place) :
    (tree.put place node).node? other = if other = place then some node else tree.node? other := by
  by_cases root : other = []
  · subst root
    simp [node?, Ne.symm inside]
  · simp only [node?, put, List.isEmpty_iff, root, if_false, List.lookup_append, lookup_filter_ne]
    by_cases same : other = place
    · simp [same]
    · simp [same, List.lookup_cons, beq_false_of_ne same]

theorem ne_nil_of_node? (other : tree.node? place ≠ some .directory) : place ≠ [] := by
  rintro rfl
  exact other rfl

/-! Where paths lead. -/

theorem node?_of_follow (followed : tree.follow place name = .ok other) :
    tree.node? place = some .directory := by
  unfold follow at followed
  split at followed
  · cases followed
  · cases followed
  · assumption

theorem follow_eq (same : after.node? place = before.node? place) :
    after.follow place name = before.follow place name := by
  rw [follow, follow, same]

/-- A name is followed as before where there is a directory still. -/
theorem follow_mono (stays : ∀ place, before.node? place = some .directory →
    after.node? place = some .directory) (followed : before.follow place name = .ok other) :
    after.follow place name = .ok other := by
  have here := node?_of_follow followed
  rwa [follow_eq ((stays place here).trans here.symm)]

theorem foldlM_follow_append {more : List String} :
    (names ++ more).foldlM tree.follow place = .ok other ↔
      ∃ middle, names.foldlM tree.follow place = .ok middle ∧
        more.foldlM tree.follow middle = .ok other := by
  rw [List.foldlM_append]
  cases names.foldlM tree.follow place <;> simp [bind, Except.bind]

theorem foldlM_follow_cons : (name :: names).foldlM tree.follow place = .ok other ↔
    ∃ next, tree.follow place name = .ok next ∧ names.foldlM tree.follow next = .ok other := by
  rw [List.foldlM_cons]
  cases tree.follow place name <;> simp [bind, Except.bind]

/-- Everything that was a directory is one, and paths begin where they began. -/
structure KeepsDirectories (before after : FileTree) : Prop where
  working : after.working = before.working
  stays : ∀ place, before.node? place = some .directory → after.node? place = some .directory

theorem KeepsDirectories.foldlM_follow (keeps : KeepsDirectories before after)
    (led : names.foldlM before.follow place = .ok other) :
    names.foldlM after.follow place = .ok other := by
  induction names generalizing place with
  | nil => exact led
  | cons name rest ih =>
    obtain ⟨next, first, led⟩ := foldlM_follow_cons.mp led
    exact foldlM_follow_cons.mpr ⟨next, follow_mono keeps.stays first, ih led⟩

/-- A path that an operating system follows at all. -/
def IsFollowed (path : String) : Prop :=
  '\x00' ∉ path.toList ∧ path ≠ "" ∧ path.utf8ByteSize ≤ 4095

theorem locate_eq_ok : tree.locate path names = .ok place ↔
    IsFollowed path ∧ names.foldlM tree.follow (tree.start path) = .ok place := by
  simp only [locate, IsFollowed, List.contains_eq_mem, decide_eq_true_eq, String.isEmpty_iff]
  split
  · next nul => simp [nul]
  · next noNul =>
    split
    · next blank => simp [blank]
    · next some =>
      split
      · next long => simp [Nat.not_le_of_lt long]
      · next short => simp [noNul, some, Nat.le_of_not_lt short]

theorem start_eq (same : after.working = before.working) (path : String) :
    after.start path = before.start path := by
  rw [start, start, same]

theorem KeepsDirectories.locate (keeps : KeepsDirectories before after)
    (led : before.locate path names = .ok place) : after.locate path names = .ok place := by
  rw [locate_eq_ok] at led ⊢
  rw [start_eq keeps.working]
  exact ⟨led.1, keeps.foldlM_follow led.2⟩

/-! Directories that are made. -/

/-- Nothing but directories came about, each where one of some paths leads to. -/
structure Grows (along : String → Prop) (before after : FileTree) : Prop where
  working : after.working = before.working
  places : ∀ place, after.node? place = before.node? place ∨
    before.node? place = none ∧ after.node? place = some .directory ∧
      ∃ path, along path ∧ after.locate path (namesToMake path) = .ok place

namespace Grows

variable {along wider : String → Prop}

theorem refl (along : String → Prop) (tree : FileTree) : Grows along tree tree where
  working := rfl
  places _ := .inl rfl

theorem keepsDirectories (grows : Grows along before after) : KeepsDirectories before after where
  working := grows.working
  stays place here := by
    obtain same | ⟨-, made, -⟩ := grows.places place
    · rwa [same]
    · exact made

theorem trans (grows : Grows along before middle) (further : Grows along middle after) :
    Grows along before after where
  working := further.working.trans grows.working
  places place := by
    obtain same | ⟨absent, made, way⟩ := further.places place
    · obtain sameToo | ⟨absent, made, path, listed, led⟩ := grows.places place
      · exact .inl (same.trans sameToo)
      · exact .inr ⟨absent, same.trans made, path, listed, further.keepsDirectories.locate led⟩
    · obtain sameToo | ⟨_, madeToo, _⟩ := grows.places place
      · exact .inr ⟨sameToo.symm.trans absent, made, way⟩
      · rw [absent] at madeToo
        cases madeToo

theorem mono (grows : Grows along before after) (more : ∀ path, along path → wider path) :
    Grows wider before after where
  working := grows.working
  places place := by
    refine (grows.places place).imp id ?_
    rintro ⟨absent, made, path, listed, led⟩
    exact ⟨absent, made, path, more path listed, led⟩

end Grows

theorem put_keepsDirectories {node : FileNode} (here : tree.node? place ≠ some .directory) :
    KeepsDirectories tree (tree.put place node) where
  working := rfl
  stays other directory := by
    rw [node?_put (ne_nil_of_node? here), if_neg]
    · exact directory
    · rintro rfl
      exact here directory

theorem makeDirectory_eq_ok : tree.makeDirectory path = .ok made ↔
    ∃ place, tree.locate path (namesToMake path) = .ok place ∧ tree.node? place = none ∧
      made = tree.put place .directory := by
  unfold makeDirectory
  cases tree.locate path (namesToMake path) with
  | error e => simp [bind, Except.bind]
  | ok place =>
    simp only [bind, Except.bind, Except.ok.injEq, exists_eq_left']
    cases tree.node? place <;> simp [eq_comm]

theorem makeDirectory_grows (done : tree.makeDirectory path = .ok made) :
    Grows (· = path) tree made := by
  obtain ⟨place, led, absent, rfl⟩ := makeDirectory_eq_ok.mp done
  have here : tree.node? place ≠ some .directory := by simp [absent]
  refine ⟨rfl, fun other => ?_⟩
  rw [node?_put (ne_nil_of_node? here)]
  by_cases same : other = place
  · subst same
    exact .inr ⟨absent, if_pos rfl, path, rfl, (put_keepsDirectories here).locate led⟩
  · exact .inl (if_neg same)

/-- A path, and those above it. -/
def IsUpFrom (path above : String) : Prop :=
  Relation.ReflTransGen (fun inner outer => Path.parent? inner = some outer) path above

theorem IsUpFrom.head {outer : String} (parent : Path.parent? path = some outer)
    (up : IsUpFrom outer above) : IsUpFrom path above :=
  Relation.ReflTransGen.head parent up

theorem makeDirectoriesWithin_grows (fuel : Nat) (tree : FileTree) (path : String) :
    Grows (IsUpFrom path) tree (tree.makeDirectoriesWithin fuel path).1 := by
  induction fuel generalizing tree path with
  | zero => exact .refl _ tree
  | succ fuel ih =>
    have itself {tree made : FileTree} (done : tree.makeDirectory path = .ok made) :
        Grows (IsUpFrom path) tree made :=
      (makeDirectory_grows done).mono fun _ same => same ▸ .refl
    unfold makeDirectoriesWithin
    dsimp only
    split
    · exact .refl _ tree
    · cases done : tree.makeDirectory path with
      | ok made => exact itself done
      | error e =>
        dsimp only
        split
        · exact .refl _ tree
        · cases parent : Path.parent? path with
          | none => exact .refl _ tree
          | some outer =>
            have grows : Grows (IsUpFrom path) tree (makeDirectoriesWithin fuel tree outer).1 :=
              (ih tree outer).mono fun _ => IsUpFrom.head parent
            dsimp only
            rcases inner : makeDirectoriesWithin fuel tree outer with ⟨grown, answer⟩
            rw [inner] at grows
            cases answer with
            | error e => exact grows
            | ok _ =>
              dsimp only at grows ⊢
              cases again : grown.makeDirectory path with
              | ok made => exact grows.trans (itself again)
              | error e => exact grows

/-- A name of nothing leads nowhere else. -/
theorem eq_of_follow_empty (followed : tree.follow place "" = .ok other) : other = place := by
  rw [follow, node?_of_follow followed] at followed
  exact (Except.ok.inj followed).symm

theorem eq_of_foldlM_follow_empty (silent : ∀ name ∈ names, name = "")
    (led : names.foldlM tree.follow place = .ok other) : other = place := by
  induction names generalizing place with
  | nil => exact (Except.ok.inj led).symm
  | cons name rest ih =>
    obtain ⟨rfl, restSilent⟩ := List.forall_mem_cons.mp silent
    obtain ⟨next, first, led⟩ := foldlM_follow_cons.mp led
    rw [ih restSilent led, eq_of_follow_empty first]

theorem exists_namesOf_eq_append (path : String) :
    ∃ silent, namesOf path = namesToMake path ++ silent ∧ ∀ name ∈ silent, name = "" := by
  refine ⟨((namesOf path).reverse.takeWhile (· == "")).reverse, ?_, ?_⟩
  · rw [namesToMake, ← List.reverse_append, List.takeWhile_append_dropWhile, List.reverse_reverse]
  · intro name member
    have silent := List.mem_takeWhile_imp (List.mem_reverse.mp member)
    exact beq_iff_eq.mp silent

/-- Slashes at the end of a path change nothing about where it leads. -/
theorem locate_namesToMake (led : tree.locate path (namesOf path) = .ok place) :
    tree.locate path (namesToMake path) = .ok place := by
  obtain ⟨silent, split, none⟩ := exists_namesOf_eq_append path
  rw [locate_eq_ok] at led ⊢
  rw [split, foldlM_follow_append] at led
  obtain ⟨followed, middle, first, led⟩ := led
  rw [eq_of_foldlM_follow_empty none led]
  exact ⟨followed, first⟩

theorem find_eq_ok {node : FileNode} : tree.find path = .ok node ↔
    ∃ place, tree.locate path (namesOf path) = .ok place ∧ tree.node? place = some node := by
  unfold find
  cases tree.locate path (namesOf path) with
  | error e => simp [bind, Except.bind]
  | ok place =>
    simp only [bind, Except.bind, Except.ok.injEq, exists_eq_left']
    cases tree.node? place <;> simp

theorem isDirectory_iff : tree.isDirectory path = true ↔ tree.find path = .ok .directory := by
  unfold isDirectory
  split <;> simp_all

/-- Nothing is made of a directory that is there. -/
theorem makeDirectories_of_isDirectory (there : path = "" ∨ tree.isDirectory path = true) :
    tree.makeDirectories path = (tree, .ok ()) := by
  unfold makeDirectories makeDirectoriesWithin
  dsimp only
  split
  · rfl
  · next some =>
    have directory : tree.isDirectory path = true := there.resolve_left (by simpa using some)
    obtain ⟨place, led, here⟩ := find_eq_ok.mp (isDirectory_iff.mp directory)
    have refused : tree.makeDirectory path = .error .alreadyExists := by
      unfold makeDirectory
      rw [locate_namesToMake led]
      simp [bind, Except.bind, here]
    rw [refused]
    simp [directory]

/-! Files that are written. -/

/-- The path that a path is in; empty where it is in the directory that paths begin from. -/
def directoryOf (path : String) : String := (Path.parent? path).getD ""

/-- The directory of a path is there. -/
def HoldsDirectoryOf (tree : FileTree) (path : String) : Prop :=
  directoryOf path = "" ∨ tree.isDirectory (directoryOf path) = true

/-- What a write leaves of a tree: the text where its path leads, and elsewhere what was there or,
where nothing was, directories on the way. There are none of these where the directory of the path
was there. -/
structure IsWritten (before after : FileTree) (path content : String) (place : Place) : Prop where
  led : after.locate path (namesOf path) = .ok place
  free : before.node? place ≠ some .directory
  holds : after.node? place = some (.file (Text.toUtf8 content))
  working : after.working = before.working
  others : ∀ other ≠ place, after.node? other = before.node? other ∨
    before.node? other = none ∧ after.node? other = some .directory ∧
      ∃ above, IsUpFrom (directoryOf path) above ∧ after.locate above (namesToMake above) = .ok other
  alone : before.HoldsDirectoryOf path → before.locate path (namesOf path) = .ok place ∧
    ∀ other ≠ place, after.node? other = before.node? other

theorem writeFile_eq_ok {written : FileTree} (done : tree.writeFile path content = .ok written) :
    ∃ place, tree.locate path (namesOf path) = .ok place ∧ tree.node? place ≠ some .directory ∧
      written = tree.put place (.file (Text.toUtf8 content)) := by
  unfold writeFile at done
  simp only [bind, Except.bind] at done
  split at done
  · split at done <;> cases done
  · next plain =>
    rw [Decidable.not_not.mp plain] at done
    cases led : tree.locate path (namesOf path) with
    | error e =>
      rw [led] at done
      cases done
    | ok place =>
      rw [led] at done
      dsimp only at done
      split at done
      · cases done
      · next other => exact ⟨place, rfl, other, (Except.ok.inj done).symm⟩

theorem makeDirectories_grows (tree : FileTree) (path : String) :
    Grows (IsUpFrom path) tree (tree.makeDirectories path).1 :=
  makeDirectoriesWithin_grows _ tree path

theorem write_cases (tree : FileTree) (path content : String) :
    (∃ error grown, tree.write path content = (grown, .error error) ∧
      Grows (IsUpFrom (directoryOf path)) tree grown) ∨
    ∃ grown written, tree.write path content = (written, .ok ()) ∧
      Grows (IsUpFrom (directoryOf path)) tree grown ∧
      (tree.HoldsDirectoryOf path → grown = tree) ∧ grown.writeFile path content = .ok written := by
  have grows := tree.makeDirectories_grows (directoryOf path)
  unfold write
  rw [← directoryOf]
  rcases made : tree.makeDirectories (directoryOf path) with ⟨grown, answer⟩
  rw [made] at grows
  cases answer with
  | error e => exact .inl ⟨e, grown, rfl, grows⟩
  | ok _ =>
    dsimp only
    cases done : grown.writeFile path content with
    | error e => exact .inl ⟨e, grown, rfl, grows⟩
    | ok written =>
      refine .inr ⟨grown, written, rfl, grows, fun there => ?_, done⟩
      exact (Prod.mk.inj (made.symm.trans (makeDirectories_of_isDirectory there))).1

theorem grows_of_write_error {error : FileError} (failed : tree.write path content = (after, .error error)) :
    Grows (IsUpFrom (directoryOf path)) tree after := by
  obtain ⟨_, grown, run, grows⟩ | ⟨_, _, run, -⟩ := tree.write_cases path content
  · rw [failed] at run
    exact (Prod.mk.inj run).1 ▸ grows
  · rw [failed] at run
    cases run

theorem exists_isWritten (done : tree.write path content = (after, .ok ())) :
    ∃ place, IsWritten tree after path content place := by
  obtain ⟨_, _, run, -⟩ | ⟨grown, written, run, grows, ready, stored⟩ := tree.write_cases path content
  · rw [done] at run
    cases run
  · obtain rfl : after = written := (Prod.mk.inj (done.symm.trans run)).1
    obtain ⟨place, led, free, rfl⟩ := writeFile_eq_ok stored
    have inside := ne_nil_of_node? free
    have keeps : KeepsDirectories grown (grown.put place (.file (Text.toUtf8 content))) :=
      put_keepsDirectories free
    have elsewhere (other : Place) (different : other ≠ place) :
        (grown.put place (.file (Text.toUtf8 content))).node? other = grown.node? other := by
      rw [node?_put inside, if_neg different]
    refine ⟨place, ?_⟩
    exact {
      led := keeps.locate led
      free := fun directory => free (grows.keepsDirectories.stays place directory)
      holds := by rw [node?_put inside, if_pos rfl]
      working := grows.working
      others := by
        intro other different
        rw [elsewhere other different]
        refine (grows.places other).imp id ?_
        rintro ⟨absent, made, above, up, ledAbove⟩
        exact ⟨absent, made, above, up, keeps.locate ledAbove⟩
      alone := by
        intro there
        obtain rfl := ready there
        exact ⟨led, elsewhere⟩ }

/-! What is seen at paths. -/

/-- What reading comes to where something is. -/
def read? : FileNode → Except FileError String
  | .directory => .error .isADirectory
  | .file octets => (Text.ofUtf8? octets).elim (.error .notText) .ok

theorem system_looksOnly : system.LooksOnly where
  exists?_keeps _ _ := rfl
  read_keeps _ _ := rfl

theorem write_run (tree : FileTree) (path content : String) :
    system.write path content tree = (tree.write path content).swap := rfl

theorem exists_isWritten_of_run (stored : system.write path content tree = (.ok (), after)) :
    ∃ place, IsWritten tree after path content place := by
  rw [write_run] at stored
  exact exists_isWritten (Prod.swap_inj.mp stored)

theorem look_system (tree : FileTree) (path : String) :
    system.look tree path = (tree.find path).toOption.map read? := by
  change (if tree.has path then some (tree.read path) else none) = _
  unfold has read
  cases tree.find path with
  | error e => rfl
  | ok node => cases node <;> rfl

theorem toOption_find (tree : FileTree) (path : String) :
    (tree.find path).toOption = (tree.locate path (namesOf path)).toOption.bind tree.node? := by
  unfold find
  cases tree.locate path (namesOf path) with
  | error e => rfl
  | ok place =>
    simp only [bind, Except.bind, Except.toOption, Option.bind_some]
    cases tree.node? place <;> rfl

theorem look_eq (tree : FileTree) (path : String) :
    system.look tree path =
      ((tree.locate path (namesOf path)).toOption.bind tree.node?).map read? := by
  rw [look_system, toOption_find]

theorem look_of_locate (led : tree.locate path (namesOf path) = .ok place) :
    system.look tree path = (tree.node? place).map read? := by
  rw [look_eq, led]
  rfl

/-- What was written is what is read, by whatever path that leads there. -/
theorem IsWritten.look_of_led (written : IsWritten before after path content place) {way : String}
    (led : after.locate way (namesOf way) = .ok place) : system.look after way = some (.ok content) := by
  rw [look_of_locate led, written.holds]
  simp [read?, Text.ofUtf8?_toUtf8]

/-- Some of the names of a path, from its first on, lead to a place. -/
def Meets (tree : FileTree) (path : String) (place : Place) : Prop :=
  ∃ names, names <+: namesOf path ∧ tree.locate path names = .ok place

/-- A path met no place where a directory was made. -/
def Avoids (before after : FileTree) (path : String) : Prop :=
  ∀ place, before.Meets path place → before.node? place = none → after.node? place ≠ some .directory

/-- A path that a text at a place makes no difference to: it finds nothing still, or it met no place
where a directory was made and does not lead to that of the text. -/
def Spares (before after : FileTree) (place : Place) (path : String) : Prop :=
  after.has path = false ∨ Avoids before after path ∧ before.locate path (namesOf path) ≠ .ok place

theorem has_iff : tree.has path = true ↔
    ∃ place, tree.locate path (namesOf path) = .ok place ∧ tree.node? place ≠ none := by
  unfold has
  constructor
  · intro found
    cases there : tree.find path with
    | error e =>
      rw [there] at found
      cases found
    | ok node =>
      obtain ⟨place, led, here⟩ := find_eq_ok.mp there
      exact ⟨place, led, by simp [here]⟩
  · rintro ⟨place, led, here⟩
    obtain ⟨node, here⟩ := Option.ne_none_iff_exists'.mp here
    rw [find_eq_ok.mpr ⟨place, led, here⟩]
    rfl

/-- Something is wherever a path that finds something has led. -/
theorem avoids_of_has (there : before.has path = true) : Avoids before after path := by
  rintro middle ⟨names, ⟨rest, all⟩, first⟩ absent
  obtain ⟨place, led, here⟩ := has_iff.mp there
  rw [locate_eq_ok] at first led
  rw [← all, foldlM_follow_append] at led
  obtain ⟨-, _, again, led⟩ := led
  obtain rfl := Except.ok.inj (first.2.symm.trans again)
  cases rest with
  | nil =>
    cases led
    exact absurd absent here
  | cons name rest =>
    obtain ⟨next, followed, -⟩ := foldlM_follow_cons.mp led
    rw [node?_of_follow followed] at absent
    cases absent

namespace IsWritten

variable (written : IsWritten before after path content place) {way : String}

include written

theorem node?_eq (avoids : Avoids before after way) (met : before.Meets way other)
    (different : other ≠ place) : after.node? other = before.node? other := by
  obtain same | ⟨absent, made, -⟩ := written.others other different
  · exact same
  · exact absurd made (avoids other met absent)

-- From the last name back: a directory that a name is followed from was one before, as the path
-- met it.
theorem locate_back (avoids : Avoids before after way) (initial : names <+: namesOf way)
    (led : after.locate way names = .ok other) : before.locate way names = .ok other := by
  induction names using List.reverseRecOn generalizing other with
  | nil =>
    rw [locate_eq_ok, start_eq written.working] at led
    exact locate_eq_ok.mpr led
  | append_singleton names name ih =>
    obtain ⟨followed, led⟩ := locate_eq_ok.mp led
    obtain ⟨middle, first, last⟩ := foldlM_follow_append.mp led
    have earlier : names <+: namesOf way := (List.prefix_append _ _).trans initial
    have met := ih earlier (locate_eq_ok.mpr ⟨followed, first⟩)
    have here := node?_of_follow (by simpa using last)
    have different : middle ≠ place := by
      rintro rfl
      rw [written.holds] at here
      cases here
    have same := written.node?_eq avoids ⟨names, earlier, met⟩ different
    refine locate_eq_ok.mpr ⟨followed, foldlM_follow_append.mpr ⟨middle, (locate_eq_ok.mp met).2, ?_⟩⟩
    simpa [follow_eq same] using last

theorem keepsDirectories : KeepsDirectories before after where
  working := written.working
  stays other directory := by
    have different : other ≠ place := by
      rintro rfl
      exact written.free directory
    obtain same | ⟨-, made, -⟩ := written.others other different
    · rwa [same]
    · exact made

/-- A path that does not lead to the place of the text finds what it found before. -/
theorem look_eq_of_avoids (avoids : Avoids before after way)
    (elsewhere : before.locate way (namesOf way) ≠ .ok place) :
    system.look after way = system.look before way := by
  cases led : before.locate way (namesOf way) with
  | ok other =>
    have different : other ≠ place := fun same => elsewhere (same ▸ led)
    rw [look_of_locate led, look_of_locate (written.keepsDirectories.locate led),
      written.node?_eq avoids ⟨_, List.prefix_refl _, led⟩ different]
  | error e =>
    rw [FileTree.look_eq, FileTree.look_eq, led]
    cases ledToo : after.locate way (namesOf way) with
    | error e => rfl
    | ok other =>
      rw [written.locate_back avoids (List.prefix_refl _) ledToo] at led
      cases led

theorem has_of_has (there : before.has way = true) : after.has way = true := by
  obtain ⟨other, led, here⟩ := has_iff.mp there
  refine has_iff.mpr ⟨other, written.keepsDirectories.locate led, ?_⟩
  by_cases same : other = place
  · simp [same, written.holds]
  · obtain kept | ⟨absent, -⟩ := written.others other same
    · rwa [kept]
    · exact absurd absent here

theorem look_eq_of_spares (spares : Spares before after place way) :
    system.look after way = system.look before way := by
  obtain absent | ⟨avoids, elsewhere⟩ := spares
  · have absentToo : before.has way = false :=
      Bool.eq_false_iff.mpr fun there => by simp [written.has_of_has there] at absent
    rw [FileSystem.look_eq_none.mpr absent, FileSystem.look_eq_none.mpr absentToo]
  · exact written.look_eq_of_avoids avoids elsewhere

/-- Where the directory of the path was there, every path avoids what was made. -/
theorem avoids_of_holdsDirectory (there : before.HoldsDirectoryOf path) (way : String) :
    Avoids before after way := by
  intro other _ absent made
  by_cases same : other = place
  · rw [same, written.holds] at made
    cases made
  · rw [(written.alone there).2 other same, absent] at made
    cases made

end IsWritten

end ModuleBoundary.FileTree
