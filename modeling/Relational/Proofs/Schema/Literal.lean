import Relational.Proofs.Decimal.Digits
import Relational.Proofs.Schema.Cutting
import Relational.Proofs.Text.Folded
import Relational.Schema.Compiler
/-
Names and literals inside a definition.

A quoted name holds no blanks if the name has none.  A literal that is no text, as a
default is written, is one word of characters that mean nothing to the cutter, or are
quoted; and no keyword that is looked for in a definition starts like one of these words.
-/
namespace Relational

open TableSnapshot

/-! ### Names -/

namespace Name

theorem isBlank_of_isMark {c : Char} (h : isMark c = true) : Text.isBlank c = false := by
  have hletter : c.isAlpha = (decide (c.val ≥ 'A'.val ∧ c.val ≤ 'Z'.val) ||
      (decide (c.val ≥ 'a'.val) && decide (c.val ≤ 'z'.val))) := rfl
  have hbounds : 33 ≤ c.toNat ∧ c.toNat ≤ 126 := by
    simp only [isMark, isPart, Char.isAlphanum, hletter, Char.isDigit, Bool.or_eq_true,
      Bool.and_eq_true, decide_eq_true_eq, beq_iff_eq, ge_iff_le, UInt32.le_iff_toNat_le] at h
    rcases h with (((((⟨hlow, hhigh⟩ | ⟨hlow, hhigh⟩) | ⟨hlow, hhigh⟩) | rfl) | rfl) | rfl) | rfl
    · exact ⟨le_trans (by decide) hlow, le_trans hhigh (by decide)⟩
    · exact ⟨le_trans (by decide) hlow, le_trans hhigh (by decide)⟩
    · exact ⟨le_trans (by decide) hlow, le_trans hhigh (by decide)⟩
    all_goals decide
  exact Text.isBlank_eq_false hbounds.1 hbounds.2

theorem splitOn_of_not_mem {s : List Char} (h : '.' ∉ s) : s.splitOn '.' = [s] := by
  refine List.splitOnP_eq_singleton fun x hx => ?_
  rw [beq_eq_false_iff_ne]
  rintro rfl
  exact h hx

/-- Without blanks there is no alias. -/
theorem splitAlias?_eq_none {name : String} (h : ∀ c ∈ name.toList, Text.isBlank c = false) :
    splitAlias? name = none := by
  have hnone : ∀ s : List Char, (∀ c ∈ s, Text.isBlank c = false) → aliasFrom? s = none := by
    intro s hs
    induction s with
    | nil => rfl
    | cons c rest ih =>
        have hafter : aliasAfter? rest = none := by
          unfold aliasAfter?
          rw [if_pos]
          cases rest with
          | nil => rfl
          | cons x others => simp [hs x (by simp)]
        rw [aliasFrom?, hafter, ih fun x hx => hs x (by simp [hx])]
        split
        · rfl
        · rfl
  rw [splitAlias?, hnone _ h]
  rfl

end Name

namespace Dialect

theorem quoteName_of_isColumn (d : Dialect) {name : String} (h : Name.isColumn name = true) :
    d.quoteName name = d.quoteDotted name := by
  rw [Name.isColumn, Bool.and_eq_true] at h
  have hsplit : Name.splitAlias? name = none := Name.splitAlias?_eq_none fun c hc =>
    Name.isBlank_of_isMark (Name.isMark_of_isIdentifier h.2 hc)
  exact d.quoteName_of_no_alias hsplit

/-- No blank comes from quoting a column's name. -/
theorem isBlank_of_mem_quoteName {name : String} (h : Name.isColumn name = true) :
    ∀ c ∈ (sqlite.quoteName name).toList, Text.isBlank c = false := by
  rw [quoteName_of_isColumn _ h]
  rw [Name.isColumn, Bool.and_eq_true] at h
  exact sqlite.forall_mem_quoteDotted (by decide) (by decide) (by decide) (by decide)
    fun c hc => Name.isBlank_of_isMark (Name.isMark_of_isIdentifier h.2 hc)

end Dialect

/-! ### Literals -/

/-- One word of ordinary characters that no keyword of a definition starts like. -/
structure BareWord (text : List Char) : Prop where
  passes : ∀ depth, Passes depth text
  unbroken : ∀ c ∈ text, Text.isBlank c = false
  start : ∃ c rest, text = c :: rest ∧ c.toUpper ∉ ['A', 'G', 'P', 'R']

theorem BareWord.of_ordinary {text : List Char} (hordinary : text.all isOrdinary = true)
    (hunbroken : text.any Text.isBlank = false)
    (hstart : ∃ c rest, text = c :: rest ∧ c.toUpper ∉ ['A', 'G', 'P', 'R']) : BareWord text :=
  ⟨fun _ => passes_of_ordinary hordinary, Text.unbroken_of_any hunbroken, hstart⟩

namespace Decimal

/-- A digit or the point. -/
def isNumeral (c : Char) : Bool :=
  c.isDigit || c == '.'

theorem toNat_of_isNumeral {c : Char} (h : isNumeral c = true) : 46 ≤ c.toNat ∧ c.toNat ≤ 57 := by
  simp only [isNumeral, Char.isDigit, Bool.or_eq_true, Bool.and_eq_true, decide_eq_true_eq,
    beq_iff_eq, ge_iff_le, UInt32.le_iff_toNat_le] at h
  rcases h with ⟨hlow, hhigh⟩ | rfl
  · exact ⟨le_trans (by decide) hlow, le_trans hhigh (by decide)⟩
  · decide

theorem isOrdinary_of_isNumeral {c : Char} (h : isNumeral c = true) : isOrdinary c = true := by
  by_contra hspecial
  have hmem : c ∈ ['\'', '"', Dialect.backtick, '[', '(', ')', ',', '-', '/'] := by
    rwa [isOrdinary, Bool.not_eq_true, Bool.not_eq_false', List.contains_iff_mem] at hspecial
  have hnone : ['\'', '"', Dialect.backtick, '[', '(', ')', ',', '-', '/'].any isNumeral = false := by
    decide
  rw [List.any_eq_true.mpr ⟨c, hmem, h⟩] at hnone
  cases hnone

theorem toUpper_of_isNumeral {c : Char} (h : isNumeral c = true) : c.toUpper = c := by
  rcases Text.toNat_toUpper c with heq | ⟨hlow, -, -⟩
  · exact heq
  · have := (toNat_of_isNumeral h).2
    omega

theorem isNumeral_of_mem_digitsOf {n : Nat} {c : Char} (h : c ∈ digitsOf n) : isNumeral c = true := by
  simp [isNumeral, isDigit_of_mem_digitsOf h]

theorem bareWord_numerals {body : List Char} (hne : body ≠ [])
    (hbody : ∀ c ∈ body, isNumeral c = true) (negative : Bool) : BareWord (signed negative body) := by
  obtain ⟨c, rest, rfl⟩ := List.exists_cons_of_ne_nil hne
  have hc := hbody c (by simp)
  have hpasses : ∀ depth, Passes depth (c :: rest) := fun depth =>
    passes_of_ordinary (List.all_eq_true.mpr fun x hx => isOrdinary_of_isNumeral (hbody x hx))
  have hunbroken : ∀ x ∈ c :: rest, Text.isBlank x = false := by
    intro x hx
    have := toNat_of_isNumeral (hbody x hx)
    exact Text.isBlank_eq_false (by omega) (by omega)
  cases negative with
  | false =>
      refine ⟨hpasses, hunbroken, c, rest, rfl, ?_⟩
      rw [toUpper_of_isNumeral hc]
      intro hmem
      have hnone : ['A', 'G', 'P', 'R'].any isNumeral = false := by
        decide
      rw [List.any_eq_true.mpr ⟨c, hmem, hc⟩] at hnone
      cases hnone
  | true =>
      refine ⟨fun depth => (hpasses depth).minus hne ?_, ?_, '-', c :: rest, rfl, by decide⟩
      · rw [List.head?_cons, ne_eq, Option.some.injEq]
        rintro rfl
        exact absurd hc (by decide)
      · intro x hx
        rcases List.mem_cons.mp hx with rfl | hx
        · rfl
        · exact hunbroken x hx

theorem forall_mem_positional (d : Scientific) :
    positional d ≠ [] ∧ ∀ c ∈ positional d, isNumeral c = true := by
  have hdigits : ∀ c ∈ digitsOf d.digits, isNumeral c = true := fun c hc =>
    isNumeral_of_mem_digitsOf hc
  have hzeros : ∀ n, ∀ c ∈ zeros n, isNumeral c = true := by
    intro n c hc
    rw [List.eq_of_mem_replicate hc]
    rfl
  unfold positional
  dsimp only
  split
  · refine ⟨by simp [digitsOf_ne_nil], fun c hc => ?_⟩
    exact (List.mem_append.mp hc).elim (hdigits c) (hzeros _ c)
  · split
    · refine ⟨by simp, fun c hc => ?_⟩
      rcases List.mem_append.mp hc with hc | hc
      · exact hdigits c (List.mem_of_mem_take hc)
      · rcases List.mem_cons.mp hc with rfl | hc
        · rfl
        · exact hdigits c (List.mem_of_mem_drop hc)
    · refine ⟨by simp, fun c hc => ?_⟩
      simp only [List.mem_cons, List.mem_append] at hc
      rcases hc with rfl | rfl | hc | hc
      · rfl
      · rfl
      · exact hzeros _ c hc
      · exact hdigits c hc

theorem bareWord_ofInt (n : Int) : BareWord (ofInt n) := by
  unfold ofInt
  split
  · exact bareWord_numerals (digitsOf_ne_nil _) (fun c hc => isNumeral_of_mem_digitsOf hc) true
  · exact bareWord_numerals (digitsOf_ne_nil _) (fun c hc => isNumeral_of_mem_digitsOf hc) false

theorem bareWord_inlineText (x : Binary64) : BareWord (inlineText x).toList := by
  unfold inlineText
  split
  · exact .of_ordinary (by decide) (by decide) ⟨'N', ['a', 'N'], rfl, by decide⟩
  · rw [String.toList_ofList]
    split
    · cases x.isNegative with
      | false => exact .of_ordinary (by decide) (by decide) ⟨'i', ['n', 'f'], rfl, by decide⟩
      | true =>
          refine ⟨fun depth => ?_, Text.unbroken_of_any (by decide), '-', ['i', 'n', 'f'], rfl,
            by decide⟩
          exact (passes_of_ordinary (by decide)).minus (by decide) (by decide)
    · split
      · exact bareWord_numerals (by decide) (List.all_eq_true.mp (by decide)) _
      · exact bareWord_numerals (forall_mem_positional _).1 (forall_mem_positional _).2 _

end Decimal

namespace Value

theorem doubled_of_not_mem {quote : Char} {s : List Char} (h : quote ∉ s) :
    Text.doubled quote s = s := by
  induction s with
  | nil => rfl
  | cons c rest ih =>
      rw [List.mem_cons, not_or] at h
      rw [Text.doubled, if_neg (Ne.symm h.1), ih h.2]

theorem mem_hexByte {b : UInt8} {c : Char} (h : c ∈ hexByte b) :
    Text.isBlank c = false ∧ c ≠ '\'' := by
  have hdigit : ∀ n < 16, Text.isBlank (Nat.digitChar n).toUpper = false ∧
      (Nat.digitChar n).toUpper ≠ '\'' := by
    decide
  have hb := b.toNat_lt
  simp only [hexByte, List.mem_cons, List.not_mem_nil, or_false] at h
  rcases h with rfl | rfl
  · exact hdigit _ (by omega)
  · exact hdigit _ (by omega)

theorem bareWord_blob (bytes : List UInt8) :
    BareWord ('X' :: '\'' :: (bytes.flatMap hexByte ++ ['\''])) := by
  have hhex : ∀ c ∈ bytes.flatMap hexByte, Text.isBlank c = false ∧ c ≠ '\'' := by
    intro c hc
    obtain ⟨b, -, hc⟩ := List.mem_flatMap.mp hc
    exact mem_hexByte hc
  refine ⟨fun depth => ?_, fun c hc => ?_, 'X', _, rfl, by decide⟩
  · have hquoted : Passes depth
        (Text.enclosed '\'' '\'' (String.ofList (bytes.flatMap hexByte))).toList :=
      passes_enclosed (.inl rfl) _
    rw [Text.enclosed, String.toList_ofList, String.toList_ofList,
      doubled_of_not_mem fun hmem => (hhex _ hmem).2 rfl] at hquoted
    have hx : Passes depth ['X'] := passes_of_ordinary (by decide)
    exact hx.append hquoted
  · simp only [List.mem_cons, List.mem_append, List.not_mem_nil, or_false] at hc
    rcases hc with rfl | rfl | hc | rfl
    · rfl
    · rfl
    · exact (hhex c hc).1
    · rfl

end Value

namespace Dialect

/-- A literal that is no text is one word. -/
theorem bareWord_renderDefault {v : Value} (h : ∀ s, v ≠ .text s) :
    BareWord (sqlite.renderDefault (.literal v)).toList := by
  cases v with
  | null => exact .of_ordinary (by decide) (by decide) ⟨'N', ['U', 'L', 'L'], rfl, by decide⟩
  | bool b =>
      cases b with
      | true => exact .of_ordinary (by decide) (by decide) ⟨'1', [], rfl, by decide⟩
      | false => exact .of_ordinary (by decide) (by decide) ⟨'0', [], rfl, by decide⟩
  | int n =>
      show BareWord (String.ofList _).toList
      rw [String.toList_ofList]
      exact Decimal.bareWord_ofInt n.toInt
  | float x => exact Decimal.bareWord_inlineText x
  | text s => exact absurd rfl (h s)
  | blob bytes =>
      show BareWord (String.ofList _).toList
      rw [String.toList_ofList]
      exact Value.bareWord_blob bytes

end Dialect

end Relational
