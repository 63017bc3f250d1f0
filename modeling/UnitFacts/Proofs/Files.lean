import UnitFacts.Files

/-!
Writing a file and reading it again. A path that could be followed can be followed after a file has been
put anywhere, and to the same place, since only directories are on the way. What the files hold does not matter on
the way either, so reading what has been made of every file is reading the file and making that of it.
-/

namespace UnitFacts.FileTable

variable {α : Type} {table : FileTable α} {here place next : Place} {content : α}

theorem ok_of_bind {β γ : Type} {x : Except FileError β} {f : β → Except FileError γ} {result : γ}
    (h : x >>= f = .ok result) : ∃ value, x = .ok value ∧ f value = .ok result := by
  cases x with
  | error reason => cases h
  | ok value => exact ⟨value, rfl, h⟩

@[simp] theorem isDir_put : (table.put place content).isDir = table.isDir := rfl

theorem file?_put : (table.put place content).file? place = some content := by
  simp [file?, put]

theorem follow_put {name : String} (h : table.follow here name = .ok next) :
    (table.put place content).follow here name = .ok next := by
  unfold follow at h ⊢
  split at h
  · rwa [if_pos ‹_›]
  rw [if_neg ‹_›]
  split at h
  · rwa [if_pos ‹_›]
  rw [if_neg ‹_›]
  split at h
  · cases h
  rw [if_neg ‹_›]
  -- the one case left is that of a directory, which no file replaces
  by_cases hdir : table.isDir (here ++ [name])
  · simpa only [isDir_put, hdir, if_true] using h
  · by_cases hfile : table.isFile (here ++ [name]) <;> simp [hdir, hfile] at h

theorem followAll_put {names : List String} (h : table.followAll here names = .ok next) :
    (table.put place content).followAll here names = .ok next := by
  induction names generalizing here with
  | nil => exact h
  | cons name rest ih =>
    obtain ⟨dir, hstep, hrest⟩ := ok_of_bind h
    rw [followAll, follow_put hstep]
    exact ih hrest

theorem locate_put {cwd : Place} {path : String} (h : table.locate cwd path = .ok next) :
    (table.put place content).locate cwd path = .ok next := by
  obtain ⟨top, htop, h⟩ := ok_of_bind h
  obtain ⟨dir, hdir, h⟩ := ok_of_bind h
  simp only [locate, htop, bind, Except.bind, followAll_put hdir]
  split at h
  · rw [if_pos ‹_›]
    exact follow_put h
  · rwa [if_neg ‹_›]

/-- A file that could be written holds what was written to it. -/
theorem read_write {table' : FileTable α} {cwd : Place} {path : String}
    (h : table.write cwd path content = .ok table') : table'.read cwd path = .ok content := by
  unfold write at h
  split at h
  · obtain ⟨top, -, h⟩ := ok_of_bind h
    obtain ⟨dir, -, h⟩ := ok_of_bind h
    cases h
  · obtain ⟨place, hplace, h⟩ := ok_of_bind h
    split at h
    · cases h
    · cases h
      simp only [read, locate_put hplace, bind, Except.bind, file?_put]

/-! ### What is made of every file -/

section Map

variable {β : Type} (f : α → β)

theorem file?_map : (table.map f).file? place = (table.file? place).map f := by
  rw [file?, file?, map]
  induction table.files with
  | nil => rfl
  | cons entry rest ih =>
    rw [List.map_cons, List.lookup_cons, List.lookup_cons, ih]
    cases place == entry.1 <;> rfl

@[simp] theorem isDir_map : (table.map f).isDir = table.isDir := rfl

@[simp] theorem isFile_map : (table.map f).isFile place = table.isFile place := by
  rw [isFile, isFile, file?_map, Option.isSome_map]

theorem follow_map (name : String) : (table.map f).follow here name = table.follow here name := by
  simp only [follow, isDir_map, isFile_map]

theorem followAll_map (names : List String) : (table.map f).followAll here names = table.followAll here names := by
  induction names generalizing here with
  | nil => rfl
  | cons name rest ih => simp only [followAll, follow_map, ih]

theorem locate_map (cwd : Place) (path : String) : (table.map f).locate cwd path = table.locate cwd path := by
  simp only [locate, followAll_map, follow_map]

theorem read_map (cwd : Place) (path : String) : (table.map f).read cwd path = (table.read cwd path).map f := by
  rw [read, read, locate_map]
  cases table.locate cwd path with
  | error reason => rfl
  | ok place =>
    simp only [bind, Except.bind, file?_map, isDir_map]
    cases table.file? place with
    | some content => rfl
    | none =>
      by_cases hdir : table.isDir place <;> simp [hdir, Except.map]

end Map

end UnitFacts.FileTable
