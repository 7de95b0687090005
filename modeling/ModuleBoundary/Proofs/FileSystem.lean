import Mathlib.Logic.Function.Basic
import ModuleBoundary.FileSystem.Memory

/-! What commands see of files.

A file system is seen through its paths: at each there is nothing, a text, or something that
cannot be read. Looking changes nothing. What a write changes is for each file system to tell: where
files are kept by the texts of their paths, it is what is at its own path.
-/

set_option autoImplicit false

namespace ModuleBoundary

/-- An action goes on from where the one before it ended. -/
theorem runs_bind {σ α β : Type} {first : StateM σ α} {next : α → StateM σ β} {state later : σ}
    {value : α} (ran : first state = (value, later)) :
    (first >>= next) state = next value later := by
  change next (first state).1 (first state).2 = next value later
  rw [ran]

namespace FileSystem

variable {σ : Type} {files : FileSystem (StateM σ)} {state : σ} {path : String}

/-- What is at a path, and what reading it gives. -/
def look (files : FileSystem (StateM σ)) (state : σ) (path : String) :
    Option (Except FileError String) :=
  if (files.exists? path state).1 then some (files.read path state).1 else none

theorem look_eq_none : files.look state path = none ↔ (files.exists? path state).1 = false := by
  simp [look]

theorem look_eq_some {found : Except FileError String} : files.look state path = some found ↔
    (files.exists? path state).1 = true ∧ (files.read path state).1 = found := by
  simp [look]

/-- To look for a file and to read it changes nothing. -/
structure LooksOnly (files : FileSystem (StateM σ)) : Prop where
  exists?_keeps : ∀ path state, (files.exists? path state).2 = state
  read_keeps : ∀ path state, (files.read path state).2 = state

namespace LooksOnly

variable (looks : files.LooksOnly)

include looks

theorem exists?_run : files.exists? path state = ((files.look state path).isSome, state) := by
  refine Prod.ext ?_ (looks.exists?_keeps path state)
  unfold look
  cases (files.exists? path state).1 <;> rfl

theorem read_run {found : Except FileError String} (seen : files.look state path = some found) :
    files.read path state = (found, state) :=
  Prod.ext (look_eq_some.mp seen).2 (looks.read_keeps path state)

end LooksOnly

/-- A write that fails changes nothing. -/
def FailsCleanly (files : FileSystem (StateM σ)) (state : σ) : Prop :=
  ∀ path content error later,
    files.write path content state = (.error error, later) → later = state

end FileSystem

namespace MemoryFiles

theorem lookup_replaced (files : List (String × Option String)) (path content other : String) :
    (files.map fun file => if file.1 = path then (path, some content) else file).lookup other =
      if other = path then (files.lookup path).map fun _ => some content
      else files.lookup other := by
  induction files with
  | nil => simp
  | cons file rest ih =>
    obtain ⟨name, found⟩ := file
    rw [List.map_cons]
    by_cases here : name = path
    · subst here
      by_cases same : other = name
      · simp [same]
      · simp [List.lookup_cons, ih, same, beq_false_of_ne same]
    · by_cases same : other = path
      · subst same
        simp [List.lookup_cons, ih, here, beq_false_of_ne (Ne.symm here)]
      · simp only [here, if_false, List.lookup_cons, ih, same]

theorem lookup_put (memory : MemoryFiles) (path content other : String) :
    (memory.put path content).files.lookup other =
      if other = path then some (some content) else memory.files.lookup other := by
  unfold put has
  split
  · next there =>
    obtain ⟨found, listed⟩ := Option.isSome_iff_exists.mp there
    simp [lookup_replaced, listed]
  · next absent =>
    rw [Bool.not_eq_true, Option.isSome_eq_false_iff, Option.isNone_iff_eq_none] at absent
    by_cases same : other = path
    · subst same
      simp [List.lookup_append, absent]
    · simp [List.lookup_append, List.lookup_cons, same, beq_false_of_ne same]

theorem look_system (memory : MemoryFiles) (path : String) :
    system.look memory path = (memory.files.lookup path).map fun
      | none => .error (.locked path)
      | some content => .ok content := by
  change (if memory.has path then some (memory.read path) else none) = _
  unfold has read
  cases memory.files.lookup path with
  | none => rfl
  | some content => cases content <;> rfl

theorem write_run (memory : MemoryFiles) (path content : String) :
    system.write path content memory = match memory.write path content with
      | .ok later => (.ok (), later)
      | .error e => (.error e, memory) := by
  simp only [system, bind, StateT.bind, get, getThe, MonadStateOf.get, StateT.get, pure]
  cases memory.write path content <;> rfl

theorem system_looksOnly : system.LooksOnly where
  exists?_keeps _ _ := rfl
  read_keeps _ _ := rfl

theorem system_failsCleanly (memory : MemoryFiles) : system.FailsCleanly memory := by
  intro path content error later failed
  rw [write_run] at failed
  cases stored : memory.write path content with
  | error cause =>
    rw [stored] at failed
    exact (Prod.mk.inj failed).2.symm
  | ok after =>
    rw [stored] at failed
    cases failed

/-- A write that succeeds puts its text at its path and changes nothing elsewhere. -/
theorem look_of_written {memory after : MemoryFiles} {path content : String}
    (stored : system.write path content memory = (.ok (), after)) :
    system.look after = Function.update (system.look memory) path (some (.ok content)) := by
  have placed : after = memory.put path content := by
    rw [write_run, write] at stored
    cases locked : memory.readOnly with
    | true =>
      rw [locked, if_pos rfl] at stored
      cases stored
    | false =>
      rw [locked, if_neg Bool.false_ne_true] at stored
      exact (Prod.mk.inj stored).2.symm
  funext other
  rw [placed, look_system, lookup_put]
  by_cases same : other = path
  · subst same
    simp
  · rw [if_neg same, Function.update_of_ne same, look_system]

end MemoryFiles

end ModuleBoundary
