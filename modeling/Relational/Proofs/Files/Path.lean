import Relational.Files.Path
/-
What the names of a path come to.

A file that is named for something has that name in front of its extension.  The names of a
path that is seen from another are those of the other and its own.  The text between may be
a slash or nothing, so this is said of the parts first, where it makes no difference.
-/
namespace Relational.Path

variable {outer inner : String}

/-! ### Names of files -/

theorem splitExtension_append {stem ending : String} (hstem : stem ≠ "")
    (hdot : '.' ∉ ending.toList) :
    splitExtension (stem ++ "." ++ ending) = (stem, some ending) := by
  have hreversed : (stem ++ "." ++ ending).toList.reverse =
      ending.toList.reverse ++ '.' :: stem.toList.reverse := by
    simp
  have hending : ∀ c ∈ ending.toList.reverse, (c == '.') = false := by
    intro c hc
    rw [List.mem_reverse] at hc
    exact beq_false_of_ne fun hcdot => hdot (hcdot ▸ hc)
  have hne : stem.toList.reverse.isEmpty = false := by
    simpa using hstem
  rw [splitExtension, hreversed, Text.cutAt_append hending (beq_self_eq_true _)]
  simp [hne]

/-! ### Paths seen from another -/

theorem parts_append_slash (outer inner : String) :
    parts (outer ++ "/" ++ inner) = parts outer ++ parts inner := by
  have hsplit : (outer ++ "/" ++ inner).toList.splitOn '/' =
      outer.toList.splitOn '/' ++ inner.toList.splitOn '/' := by
    have htext : (outer ++ "/" ++ inner).toList = outer.toList ++ '/' :: inner.toList := by simp
    rw [htext]
    exact List.splitOnP_append_cons _ _ (beq_self_eq_true _)
  rw [parts, hsplit, List.map_append, List.filter_append]
  rfl

theorem parts_empty : parts "" = [] := rfl

theorem startsWith_slash_iff {path : String} :
    path.startsWith "/" = true ↔ ∃ rest, path.toList = '/' :: rest := by
  rw [String.startsWith_string_iff]
  constructor
  · rintro ⟨rest, hrest⟩
    exact ⟨rest, hrest.symm⟩
  · rintro ⟨rest, hrest⟩
    exact ⟨rest, hrest.symm⟩

theorem endsWith_iff {text ending : String} :
    text.endsWith ending = true ↔ ending.toList <:+ text.toList := by
  rw [← String.endsWith_toSlice, String.Slice.endsWith_string_iff, String.copy_toSlice]

/-- A path that says something has parts, unless it is all slashes. -/
theorem parts_ne_nil {path : String} (hpath : path ≠ "") (hrelative : path.startsWith "/" = false) :
    parts path ≠ [] := by
  have hne : path.toList ≠ [] := by simpa using hpath
  obtain ⟨c, rest, htext⟩ := List.exists_cons_of_ne_nil hne
  have hc : (c == '/') = false := by
    refine beq_false_of_ne fun hslash => ?_
    rw [startsWith_slash_iff.mpr ⟨rest, hslash ▸ htext⟩] at hrelative
    cases hrelative
  obtain ⟨first, others, hsplit⟩ :=
    List.exists_cons_of_ne_nil (List.splitOnP_ne_nil (· == '/') rest)
  have hfirst : path.toList.splitOn '/' = (c :: first) :: others := by
    rw [htext, List.splitOn, List.splitOnP_cons_eq_if_modifyHead, hc, if_neg Bool.false_ne_true,
      hsplit, List.modifyHead_cons]
  rw [parts, hfirst]
  simp

theorem parts_join (hinner : inner.startsWith "/" = false) :
    parts (join outer inner) = parts outer ++ parts inner := by
  unfold join
  rw [if_neg (by simp [hinner])]
  split
  · rename_i hend
    rw [Bool.or_eq_true] at hend
    rcases hend with hempty | hslash
    · rw [String.isEmpty_iff.mp hempty, parts_empty]
      simp
    · obtain ⟨front, hfront⟩ := endsWith_iff.mp hslash
      have houter : outer = String.ofList front ++ "/" := by
        rw [← String.toList_inj, ← hfront]
        simp
      have hparts := parts_append_slash (String.ofList front) ""
      rw [String.append_empty, parts_empty, List.append_nil, ← houter] at hparts
      rw [hparts, houter, parts_append_slash]
  · exact parts_append_slash outer inner

theorem startsWith_join (houter : outer ≠ "") (hinner : inner.startsWith "/" = false) :
    (join outer inner).startsWith "/" = outer.startsWith "/" := by
  have hne : outer.toList ≠ [] := by simpa using houter
  obtain ⟨c, rest, htext⟩ := List.exists_cons_of_ne_nil hne
  have hjoin : ∃ more, (join outer inner).toList = c :: more := by
    unfold join
    rw [if_neg (by simp [hinner])]
    split <;> simp [htext]
  obtain ⟨more, hmore⟩ := hjoin
  rw [Bool.eq_iff_iff, startsWith_slash_iff, startsWith_slash_iff, hmore, htext]
  simp

/-- The names of a path seen from another are the other's names and then its own. -/
theorem names_join (houter : outer ≠ "") (hinner : inner.startsWith "/" = false) :
    names (join outer inner) = names outer ++ (parts inner).filter (· != here) := by
  unfold names
  rw [startsWith_join houter hinner, parts_join hinner]
  split
  · rw [List.filter_append]
    rfl
  · rename_i hrelative
    rcases hparts : parts outer with _ | ⟨first, rest⟩
    · exact absurd hparts (parts_ne_nil houter (by simpa using hrelative))
    · simp only [List.cons_append, List.filter_append]

end Relational.Path
