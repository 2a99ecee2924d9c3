import Mathlib.Data.List.Basic
import Relational.Files.Writing
import Relational.Proofs.Action
/-
What is still there when a file was added.

Making directories changes no file, and what was a directory stays one.  So a path that
led somewhere leads there still, and the directory that was made is where its path leads.
A file under a name that was free comes in addition to all others, wherever one looks for
files from.
-/
namespace Relational.FileSystem

variable {fs fs' : FileSystem} {place entry : List String} {path : String}

/-! ### More files and directories -/

/-- Everything in the first is in the second. -/
structure Within (fs fs' : FileSystem) : Prop where
  files : fs.files ⊆ fs'.files
  directories : fs.directories ⊆ fs'.directories

namespace Within

theorem refl (fs : FileSystem) : fs.Within fs :=
  ⟨List.Subset.refl _, List.Subset.refl _⟩

theorem trans {mid : FileSystem} (h : fs.Within mid) (h' : mid.Within fs') : fs.Within fs' :=
  ⟨List.Subset.trans h.files h'.files, List.Subset.trans h.directories h'.directories⟩

theorem entries (h : fs.Within fs') : fs.entries ⊆ fs'.entries := by
  intro entry hentry
  rcases List.mem_append.mp hentry with hfile | hdirectory
  · obtain ⟨file, hmem, rfl⟩ := List.mem_map.mp hfile
    exact List.mem_append_left _ (List.mem_map_of_mem (h.files hmem))
  · exact List.mem_append_right _ (h.directories hdirectory)

theorem isDirectory (h : fs.Within fs') (hplace : fs.isDirectory place = true) :
    fs'.isDirectory place = true := by
  rw [FileSystem.isDirectory, Bool.or_eq_true, List.any_eq_true] at hplace ⊢
  rcases hplace with hown | ⟨entry, hentry, hbelow⟩
  · exact .inl (List.contains_iff_mem.mpr (h.directories (List.contains_iff_mem.mp hown)))
  · exact .inr ⟨entry, h.entries hentry, hbelow⟩

theorem follow? (h : fs.Within fs') {steps found : List String}
    (hfound : fs.follow? place steps = some found) : fs'.follow? place steps = some found := by
  induction steps generalizing place with
  | nil =>
      rw [FileSystem.follow?] at hfound ⊢
      split at hfound
      · rename_i hplace
        rw [if_pos (h.isDirectory hplace)]
        exact hfound
      · cases hfound
  | cons name rest ih =>
      rw [FileSystem.follow?] at hfound ⊢
      split at hfound
      · rename_i habove
        rw [if_pos habove]
        split at hfound
        · rename_i hplace
          rw [if_pos (h.isDirectory hplace)]
          exact ih hfound
        · cases hfound
      · rename_i habove
        rw [if_neg habove]
        exact ih hfound

/-- A path that leads to a directory leads there still. -/
theorem directoryAt? (h : fs.Within fs') (hplace : fs.directoryAt? path = some place) :
    fs'.directoryAt? path = some place := by
  unfold FileSystem.directoryAt? at hplace ⊢
  split at hplace
  · rename_i husable
    rw [if_pos husable]
    exact h.follow? hplace
  · cases hplace

end Within

/-! ### Where paths lead -/

theorem ne_empty_of_directoryAt? (h : fs.directoryAt? path = some place) : path ≠ "" := by
  rintro rfl
  cases h

theorem follow?_eq_of_forward {steps : List String} (h : Path.above ∉ steps) :
    fs.follow? place steps =
      if fs.isDirectory (place ++ steps) then some (place ++ steps) else none := by
  induction steps generalizing place with
  | nil => simp [follow?]
  | cons name rest ih =>
      have hname : name ≠ Path.above := fun hname => h (by simp [hname])
      rw [follow?, if_neg hname, ih fun hmem => h (by simp [hmem]), List.append_assoc]
      rfl

/-- Names are followed one part after another. -/
theorem follow?_append {steps more found : List String} (h : fs.follow? place steps = some found) :
    fs.follow? place (steps ++ more) = fs.follow? found more := by
  induction steps generalizing place with
  | nil =>
      rw [follow?] at h
      split at h
      · cases h
        rfl
      · cases h
  | cons name rest ih =>
      rw [follow?] at h
      rw [List.cons_append, follow?]
      split at h
      · rename_i habove
        rw [if_pos habove]
        split at h
        · rename_i hplace
          rw [if_pos hplace]
          exact ih h
        · cases h
      · rename_i habove
        rw [if_neg habove]
        exact ih h

/-- A path without two dots leads nowhere only where its directory is missing. -/
theorem isDirectory_eq_false (hforward : Path.above ∉ Path.steps path)
    (hfound : fs'.directoryAt? path = some place) (hmissing : fs.directoryAt? path = none) :
    fs.isDirectory place = false := by
  unfold directoryAt? at hfound hmissing
  split at hfound
  · rename_i husable
    rw [if_pos husable, follow?_eq_of_forward hforward] at hmissing
    rw [follow?_eq_of_forward hforward] at hfound
    split at hfound
    · cases hfound
      simpa using hmissing
    · cases hfound
  · cases hfound

/-! ### Making directories -/

/-- Directories were made, and nothing else. -/
structure Furnished (fs fs' : FileSystem) : Prop where
  files : fs'.files = fs.files
  directories : fs.directories ⊆ fs'.directories

namespace Furnished

theorem within (h : fs.Furnished fs') : fs.Within fs' :=
  ⟨h.files ▸ List.Subset.refl _, h.directories⟩

theorem refl (fs : FileSystem) : fs.Furnished fs :=
  ⟨rfl, List.Subset.refl _⟩

theorem trans {mid : FileSystem} (h : fs.Furnished mid) (h' : mid.Furnished fs') :
    fs.Furnished fs' :=
  ⟨h'.files.trans h.files, List.Subset.trans h.directories h'.directories⟩

theorem makeDirectory (fs : FileSystem) (place : List String) :
    fs.Furnished (fs.makeDirectory place) := by
  unfold FileSystem.makeDirectory
  split
  · exact refl fs
  · exact ⟨rfl, List.subset_append_left _ _⟩

end Furnished

theorem isDirectory_makeDirectory (fs : FileSystem) (place : List String) :
    (fs.makeDirectory place).isDirectory place = true := by
  unfold makeDirectory
  split
  · assumption
  · simp [isDirectory]

theorem reach_eq_ok {done : Unit} (h : (reach path place).outcome fs = (.ok done, fs')) :
    fs' = fs.makeDirectory place := by
  obtain ⟨_, _, hget, h⟩ := Action.outcome_bind_eq_ok h
  cases hget
  split at h
  · cases h
  · obtain ⟨_, _, hmade, h⟩ := Action.outcome_bind_eq_ok h
    cases hmade
    split at h
    · cases h
    · rename_i hlength
      cases h
      have husable : place.takeWhile Path.isUsableName = place :=
        (List.takeWhile_prefix _).eq_of_length_le (Nat.not_lt.mp hlength)
      rw [husable]

theorem makeSteps_eq_ok {steps found : List String}
    (h : (makeSteps path place steps).outcome fs = (.ok found, fs')) :
    fs.Furnished fs' ∧ fs'.follow? place steps = some found := by
  induction steps generalizing fs place with
  | nil =>
      obtain ⟨_, _, hreach, h⟩ := Action.outcome_bind_eq_ok h
      cases h
      obtain rfl := reach_eq_ok hreach
      exact ⟨.makeDirectory fs found, if_pos (isDirectory_makeDirectory fs found)⟩
  | cons name rest ih =>
      rw [makeSteps] at h
      split at h
      · rename_i habove
        obtain ⟨_, _, hreach, h⟩ := Action.outcome_bind_eq_ok h
        obtain rfl := reach_eq_ok hreach
        obtain ⟨hfurnished, hfollow⟩ := ih h
        refine ⟨(Furnished.makeDirectory fs place).trans hfurnished, ?_⟩
        have hplace := hfurnished.within.isDirectory (isDirectory_makeDirectory fs place)
        rw [follow?, if_pos habove, if_pos hplace, hfollow]
      · rename_i habove
        obtain ⟨hfurnished, hfollow⟩ := ih h
        refine ⟨hfurnished, ?_⟩
        rw [follow?, if_neg habove, hfollow]

/-- The directory that was made is where its path leads. -/
theorem makeDirectories_eq_ok {found : List String}
    (h : (makeDirectories path).outcome fs = (.ok found, fs')) :
    fs.Furnished fs' ∧ fs'.directoryAt? path = some found := by
  unfold makeDirectories at h
  dsimp only at h
  split at h
  · cases h
  · rename_i husable
    rw [Bool.not_eq_true, Bool.not_eq_false'] at husable
    rw [directoryAt?, if_pos husable]
    split at h
    · obtain ⟨_, mid, hmade, h⟩ := Action.outcome_bind_eq_ok h
      obtain ⟨_, _, hget, h⟩ := Action.outcome_bind_eq_ok h
      cases hget
      obtain ⟨before, hsteps⟩ := Action.outcome_discard_eq_ok hmade
      split at h
      · rename_i hfollow
        cases h
        exact ⟨(makeSteps_eq_ok hsteps).1, hfollow⟩
      · cases h
    · exact makeSteps_eq_ok h

/-! ### A file more -/

/-- What is below a place has at least one name. -/
theorem below_eq_some {names : List String} (h : below place entry = some names) :
    entry = place ++ names ∧ names ≠ [] := by
  unfold below at h
  split at h
  · rename_i hbelow
    cases h
    obtain ⟨rest, rfl⟩ := List.isPrefixOf_iff_prefix.mp hbelow.1
    rw [List.drop_left]
    refine ⟨rfl, ?_⟩
    rintro rfl
    simp at hbelow
  · cases h

theorem below_append {names : List String} (h : names ≠ []) :
    below place (place ++ names) = some names := by
  have hlength : 0 < names.length := List.length_pos_iff.mpr h
  rw [below, if_pos ⟨List.isPrefixOf_iff_prefix.mpr (List.prefix_append _ _), by simp; omega⟩,
    List.drop_left]

theorem mem_namesIn {file content : String} (h : (place ++ [file], content) ∈ fs.files) :
    file ∈ fs.namesIn place := by
  refine List.mem_filterMap.mpr ⟨place ++ [file], ?_, ?_⟩
  · exact List.mem_append_left _ (List.mem_map_of_mem (f := Prod.fst) h)
  · rw [below_append (by simp)]
    rfl

/-- A file as it is seen from a place that it is below. -/
def fileBelow? (place : List String) (file : List String × String) :
    Option (List String × String) :=
  (below place file.1).map fun names => (names, file.2)

/-- Up to their order the files below a place are those that are seen from there. -/
theorem filesBelow_perm_filterMap (fs : FileSystem) (place : List String) :
    (fs.filesBelow place).Perm (fs.files.filterMap (fileBelow? place)) :=
  List.mergeSort_perm _ _

/-- No file is inside of what is no directory. -/
theorem filesBelow_eq_nil (h : fs.isDirectory place = false) : fs.filesBelow place = [] := by
  rw [isDirectory, Bool.or_eq_false_iff, List.any_eq_false] at h
  have hnone : fs.files.filterMap (fileBelow? place) = [] := by
    refine List.filterMap_eq_nil_iff.mpr fun file hfile => ?_
    have hentry := h.2 file.1 (List.mem_append_left _ (List.mem_map_of_mem hfile))
    rw [Bool.not_eq_true, Option.isSome_eq_false_iff, Option.isNone_iff_eq_none] at hentry
    rw [fileBelow?, hentry, Option.map_none]
  exact List.perm_nil.mp (hnone ▸ fs.filesBelow_perm_filterMap place)

/-- A file under a free name comes in addition. -/
theorem files_writeFile {content : String} (hfree : ∀ file ∈ fs.files, file.1 ≠ entry) :
    (fs.writeFile entry content).files = fs.files ++ [(entry, content)] := by
  have hkept : fs.files.filter (·.1 != entry) = fs.files :=
    List.filter_eq_self.mpr fun file hfile => by simpa using hfree file hfile
  rw [writeFile, hkept]

theorem writeInto_eq_ok {file content : String} {done : Unit}
    (h : (writeInto place file path content).outcome fs = (.ok done, fs')) :
    fs' = fs.writeFile (place ++ [file]) content := by
  unfold writeInto at h
  split at h
  · cases h
    rfl
  · cases h

theorem within_writeFile {content : String} (hfree : ∀ file ∈ fs.files, file.1 ≠ entry) :
    fs.Within (fs.writeFile entry content) := by
  refine ⟨?_, List.Subset.refl _⟩
  rw [files_writeFile hfree]
  exact List.subset_append_left _ _

/-- The files below a place are those that were there, and the new one if it is below. -/
theorem filesBelow_perm {content : String} (hfiles : fs'.files = fs.files ++ [(entry, content)]) :
    (fs'.filesBelow place).Perm
      (fs.filesBelow place ++ ((below place entry).map fun names => (names, content)).toList) := by
  have hadded : [(entry, content)].filterMap (fileBelow? place) =
      ((below place entry).map fun names => (names, content)).toList := by
    cases hbelow : below place entry <;> simp [fileBelow?, hbelow]
  have hseen : fs'.files.filterMap (fileBelow? place) = fs.files.filterMap (fileBelow? place) ++
      ((below place entry).map fun names => (names, content)).toList := by
    rw [hfiles, List.filterMap_append, hadded]
  refine (fs'.filesBelow_perm_filterMap place).trans ?_
  rw [hseen]
  exact (fs.filesBelow_perm_filterMap place).symm.append_right _

end Relational.FileSystem
