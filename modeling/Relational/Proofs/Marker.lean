import Relational.Marker
/-
Markers are counted and numbered part by part.

A scan that has come out of every quoted text goes on behind a fragment as if nothing
had been there, so fragments with closed texts can be put one behind the other: their
markers add up, and the numbers go on where the fragment before stopped.
-/
namespace Relational.Marker

/-- Whether a quoted text is open behind the characters. -/
def quotedAfter (quoted : Bool) : List Char → Bool
  | [] => quoted
  | c :: rest => quotedAfter (if c = '\'' then !quoted else quoted) rest

/-- Only the number of quotes counts. -/
theorem quotedAfter_eq (quoted : Bool) (s : List Char) :
    quotedAfter quoted s = (quoted ^^ decide (s.count '\'' % 2 = 1)) := by
  induction s generalizing quoted with
  | nil => simp [quotedAfter]
  | cons c rest ih =>
      rw [quotedAfter, ih]
      by_cases hc : c = '\''
      · rw [if_pos hc, hc, List.count_cons_self]
        rcases Nat.mod_two_eq_zero_or_one (rest.count '\'') with h | h
        · simp [Nat.add_mod, h]
        · simp [Nat.add_mod, h]
      · rw [if_neg hc, List.count_cons_of_ne hc]

/-- Has an even number of single quotes. -/
def Even (sql : String) : Prop :=
  sql.toList.count '\'' % 2 = 0

instance (sql : String) : Decidable (Even sql) :=
  inferInstanceAs (Decidable (_ = _))

theorem Even.quotedAfter_eq {sql : String} (h : Even sql) :
    quotedAfter false sql.toList = false := by
  rw [Marker.quotedAfter_eq, show sql.toList.count '\'' % 2 = 0 from h]
  rfl

theorem countFrom_append (quoted : Bool) (a b : List Char) :
    countFrom quoted (a ++ b) = countFrom quoted a + countFrom (quotedAfter quoted a) b := by
  induction a generalizing quoted with
  | nil => simp [countFrom, quotedAfter]
  | cons c rest ih =>
      rw [List.cons_append, countFrom, countFrom, quotedAfter]
      by_cases hquote : c = '\''
      · simp only [hquote, if_true]
        exact ih _
      · simp only [hquote, if_false]
        split
        · rw [ih]
          omega
        · exact ih _

theorem renumberFrom_append (placeholder : Nat → String) (quoted : Bool) (n : Nat)
    (a b : List Char) :
    renumberFrom placeholder quoted n (a ++ b) =
      renumberFrom placeholder quoted n a ++
        renumberFrom placeholder (quotedAfter quoted a) (n + countFrom quoted a) b := by
  induction a generalizing quoted n with
  | nil => simp [renumberFrom, countFrom, quotedAfter]
  | cons c rest ih =>
      rw [List.cons_append, renumberFrom, renumberFrom, countFrom, quotedAfter]
      by_cases hquote : c = '\''
      · simp only [hquote, if_true, List.cons_append]
        rw [ih]
      · simp only [hquote, if_false]
        split
        · rw [ih, List.append_assoc, Nat.add_comm (countFrom quoted rest) 1, Nat.add_assoc]
        · rw [ih, List.cons_append]

/-- Numbered with markers, a fragment stays as it is. -/
theorem renumberFrom_mark (quoted : Bool) (n : Nat) (s : List Char) :
    renumberFrom (fun _ => "?") quoted n s = s := by
  induction s generalizing quoted n with
  | nil => rfl
  | cons c rest ih =>
      rw [renumberFrom]
      split
      · rw [ih]
      · split
        · rename_i hmark
          rw [ih, hmark.1]
          rfl
        · rw [ih]

/-! ### Text without quotes and markers -/

/-- Neither opens or closes a text nor has a marker. -/
def Silent (s : List Char) : Prop :=
  ∀ c ∈ s, c ≠ '\'' ∧ c ≠ '?'

instance (s : List Char) : Decidable (Silent s) :=
  decidable_of_iff (s.all fun c => c != '\'' && c != '?') (by simp [Silent])

namespace Silent

theorem nil : Silent [] := by
  simp [Silent]

theorem append {a b : List Char} (ha : Silent a) (hb : Silent b) : Silent (a ++ b) := by
  intro c hc
  rcases List.mem_append.mp hc with hc | hc
  · exact ha c hc
  · exact hb c hc

variable {s : List Char}

theorem quotedAfter_eq (h : Silent s) (quoted : Bool) : quotedAfter quoted s = quoted := by
  induction s with
  | nil => rfl
  | cons c rest ih =>
      rw [quotedAfter, if_neg (h c (by simp)).1]
      exact ih fun x hx => h x (by simp [hx])

theorem countFrom_eq (h : Silent s) (quoted : Bool) : countFrom quoted s = 0 := by
  induction s with
  | nil => rfl
  | cons c rest ih =>
      have hc := h c (by simp)
      rw [countFrom, if_neg hc.1, if_neg (fun hmark => hc.2 hmark.1)]
      exact ih fun x hx => h x (by simp [hx])

theorem renumberFrom_eq (h : Silent s) (placeholder : Nat → String) (quoted : Bool) (n : Nat) :
    renumberFrom placeholder quoted n s = s := by
  induction s with
  | nil => rfl
  | cons c rest ih =>
      have hc := h c (by simp)
      rw [renumberFrom, if_neg hc.1, if_neg (fun hmark => hc.2 hmark.1),
        ih fun x hx => h x (by simp [hx])]

end Silent

/-! ### Where the markers are -/

/-- There is a question mark at the place, and every text in front of it is closed. -/
def IsMarker (s : List Char) (i : Nat) : Prop :=
  s[i]? = some '?' ∧ (s.take i).count '\'' % 2 = 0

instance (s : List Char) : DecidablePred (IsMarker s) := fun _ =>
  inferInstanceAs (Decidable (_ ∧ _))

/-- The places of the markers, in order. -/
def places (s : List Char) : List Nat :=
  (List.range s.length).filter (IsMarker s ·)

/-- Number of markers in front of a place. -/
def markersBefore (s : List Char) (i : Nat) : Nat :=
  (List.range i).countP (IsMarker s ·)

/-! A scan can start inside a text.  The places are those of a scan that starts outside. -/

/-- Whether a scan finds a marker at the place. -/
def marked (quoted : Bool) (s : List Char) (i : Nat) : Bool :=
  s[i]? == some '?' && !quotedAfter quoted (s.take i)

theorem decide_isMarker (s : List Char) (i : Nat) : decide (IsMarker s i) = marked false s i := by
  rw [marked, quotedAfter_eq, Bool.eq_iff_iff, decide_eq_true_iff]
  unfold IsMarker
  rcases Nat.mod_two_eq_zero_or_one ((s.take i).count '\'') with h | h <;> simp [h]

/-- Whether the first character is a marker, and how the scan goes on behind it. -/
theorem countFrom_cons (quoted : Bool) (c : Char) (rest : List Char) :
    countFrom quoted (c :: rest) =
      (c == '?' && !quoted).toNat + countFrom (quotedAfter quoted [c]) rest := by
  rw [countFrom, quotedAfter, quotedAfter]
  by_cases hquote : c = '\''
  · simp [hquote]
  · by_cases hmark : c = '?' ∧ (!quoted) = true
    · simp [hmark.1, hmark.2, Nat.add_comm]
    · have hnone : (c == '?' && !quoted) = false := by simpa using hmark
      rw [if_neg hquote, if_neg hmark, if_neg hquote, hnone, Bool.toNat_false, Nat.zero_add]

theorem renumberFrom_cons (placeholder : Nat → String) (quoted : Bool) (n : Nat) (c : Char)
    (rest : List Char) :
    renumberFrom placeholder quoted n (c :: rest) =
      (if c == '?' && !quoted then (placeholder (n + 1)).toList else [c]) ++
        renumberFrom placeholder (quotedAfter quoted [c]) (n + (c == '?' && !quoted).toNat)
          rest := by
  rw [renumberFrom, quotedAfter, quotedAfter]
  by_cases hquote : c = '\''
  · simp [hquote]
  · by_cases hmark : c = '?' ∧ (!quoted) = true
    · simp [hmark.1, hmark.2]
    · have hnone : (c == '?' && !quoted) = false := by simpa using hmark
      rw [if_neg hquote, if_neg hmark, if_neg hquote, hnone]
      rfl

theorem marked_zero (quoted : Bool) (c : Char) (rest : List Char) :
    marked quoted (c :: rest) 0 = (c == '?' && !quoted) := by
  rfl

theorem marked_succ (quoted : Bool) (c : Char) (rest : List Char) (i : Nat) :
    marked quoted (c :: rest) (i + 1) = marked (quotedAfter quoted [c]) rest i := by
  rfl

theorem countP_range_succ (p : Nat → Bool) (n : Nat) :
    (List.range (n + 1)).countP p = (p 0).toNat + (List.range n).countP (fun i => p (i + 1)) := by
  rw [List.range_succ_eq_map, List.countP_cons, List.countP_map, Nat.add_comm]
  cases p 0 <;> rfl

theorem countFrom_eq_countP (quoted : Bool) (s : List Char) :
    countFrom quoted s = (List.range s.length).countP (marked quoted s) := by
  induction s generalizing quoted with
  | nil => rfl
  | cons c rest ih =>
      rw [countFrom_cons, ih, List.length_cons, countP_range_succ]
      rfl

/-- Every character is copied but the markers, which take the numbers behind `n`. -/
theorem renumberFrom_eq_mapIdx (placeholder : Nat → String) (quoted : Bool) (n : Nat)
    (s : List Char) :
    renumberFrom placeholder quoted n s =
      (s.mapIdx fun i c =>
        if marked quoted s i then
          (placeholder (n + (List.range i).countP (marked quoted s) + 1)).toList
        else [c]).flatten := by
  induction s generalizing quoted n with
  | nil => rfl
  | cons c rest ih =>
      have hbefore : ∀ i, n + (c == '?' && !quoted).toNat +
          (List.range i).countP (marked (quotedAfter quoted [c]) rest) =
            n + (List.range (i + 1)).countP (marked quoted (c :: rest)) := by
        intro i
        rw [countP_range_succ, Nat.add_assoc]
        rfl
      rw [renumberFrom_cons, ih, List.mapIdx_cons, List.flatten_cons]
      simp only [hbefore]
      rfl

/-- Places that are picked are numbered by how many are picked before them. -/
theorem map_countP_filter_range (p : Nat → Bool) (n : Nat) :
    ((List.range n).filter p).map (fun i => (List.range i).countP p) =
      List.range ((List.range n).countP p) := by
  induction n with
  | zero => rfl
  | succ n ih =>
      rw [List.range_succ, List.filter_append, List.map_append, ih, List.countP_append]
      cases hn : p n with
      | false => simp [hn]
      | true => simp [hn, List.range_succ]

theorem count_eq_markersBefore (sql : String) :
    count sql = markersBefore sql.toList sql.toList.length := by
  simp only [count, countFrom_eq_countP, markersBefore, decide_isMarker]

theorem mem_places (s : List Char) (i : Nat) : i ∈ places s ↔ marked false s i = true := by
  rw [places, List.mem_filter, List.mem_range, ← decide_isMarker]
  refine and_iff_right_of_imp fun h => ?_
  exact (List.getElem?_eq_some_iff.mp (of_decide_eq_true h).1).1

/-- **Markers are numbered in their places.**  They are the question marks outside quoted texts, and
they get the numbers behind `start` in their order.  A fragment is written with the placeholders of
these numbers in the places of its markers and every other character as it is, so with markers for
placeholders it stays as it is.  Behind a fragment whose texts are closed, another one is counted
and numbered as if it stood by itself, with the numbers that follow. -/
theorem markers_numbered_in_place (placeholder : Nat → String) (start : Nat) (sql : String) :
    (places sql.toList).map (fun i => start + markersBefore sql.toList i + 1) =
        List.range' (start + 1) (count sql) ∧
      (renumber placeholder start sql).toList =
        (sql.toList.mapIdx fun i c =>
          if i ∈ places sql.toList then
            (placeholder (start + markersBefore sql.toList i + 1)).toList
          else [c]).flatten ∧
      renumber (fun _ => "?") start sql = sql ∧
      ∀ behind, Even sql →
        count (sql ++ behind) = count sql + count behind ∧
          renumber placeholder start (sql ++ behind) =
            renumber placeholder start sql ++ renumber placeholder (start + count sql) behind := by
  refine ⟨?_, ?_, ?_, fun behind heven => ⟨?_, ?_⟩⟩
  · have hplaces : (places sql.toList).map (markersBefore sql.toList) = List.range (count sql) := by
      rw [count_eq_markersBefore]
      exact map_countP_filter_range _ _
    rw [List.range'_eq_map_range, ← hplaces, List.map_map]
    refine List.map_congr_left fun i _ => ?_
    simp only [Function.comp_apply]
    omega
  · rw [renumber, String.toList_ofList, renumberFrom_eq_mapIdx]
    simp only [mem_places, markersBefore, decide_isMarker]
  · rw [renumber, renumberFrom_mark, String.ofList_toList]
  · rw [count, String.toList_append, countFrom_append, heven.quotedAfter_eq]
    rfl
  · rw [renumber, String.toList_append, renumberFrom_append, heven.quotedAfter_eq,
      String.ofList_append]
    rfl

/-- A mark inside a quoted text is no marker, and the fragment behind goes on with the numbers. -/
theorem fragments_numbered_in_turn :
    Even "a = ? AND b = '?'" ∧
      count ("a = ? AND b = '?'" ++ " OR c = ?") = 1 + 1 ∧
      renumber (fun n => "$" ++ String.ofList [Nat.digitChar n]) 3
          ("a = ? AND b = '?'" ++ " OR c = ?") = "a = $4 AND b = '?'" ++ " OR c = $5" := by
  have heven : Even "a = ? AND b = '?'" := by decide
  obtain ⟨hcount, hrenumber⟩ := (markers_numbered_in_place
    (fun n => "$" ++ String.ofList [Nat.digitChar n]) 3 "a = ? AND b = '?'").2.2.2 " OR c = ?" heven
  refine ⟨heven, hcount, ?_⟩
  rw [hrenumber]
  decide

end Relational.Marker
