import Relational.Text.Base64Url
/-
Bytes survive being written in base64 and read again, and so does every text that is read:
bytes have one spelling.
-/
namespace Relational.Base64Url

theorem value?_digit {n : Nat} (h : n < 64) : value? (digit n) = some n := by
  have hall : ∀ k < 64, value? (digit k) = some k := by decide
  exact hall n h

theorem digit_ne_dot {n : Nat} (h : n < 64) : digit n ≠ '.' := by
  intro hdot
  have hvalue := value?_digit h
  rw [hdot] at hvalue
  cases hvalue

theorem dot_notMem_encode (bytes : List UInt8) : '.' ∉ encode bytes := by
  fun_induction encode bytes with
  | case1 a b c rest n ih =>
      have ha := a.toNat_lt
      have hn : n = a.toNat * 65536 + b.toNat * 256 + c.toNat := rfl
      have hb := b.toNat_lt
      have hc := c.toNat_lt
      intro hmem
      simp only [List.mem_cons] at hmem
      rcases hmem with h | h | h | h | h
      · exact digit_ne_dot (by omega) h.symm
      · exact digit_ne_dot (by omega) h.symm
      · exact digit_ne_dot (by omega) h.symm
      · exact digit_ne_dot (by omega) h.symm
      · exact ih h
  | case2 a b n =>
      have ha := a.toNat_lt
      have hb := b.toNat_lt
      have hn : n = a.toNat * 256 + b.toNat := rfl
      intro hmem
      simp only [List.mem_cons, List.not_mem_nil, or_false] at hmem
      rcases hmem with h | h | h
      · exact digit_ne_dot (by omega) h.symm
      · exact digit_ne_dot (by omega) h.symm
      · exact digit_ne_dot (by omega) h.symm
  | case3 a =>
      have ha := a.toNat_lt
      intro hmem
      simp only [List.mem_cons, List.not_mem_nil, or_false] at hmem
      rcases hmem with h | h
      · exact digit_ne_dot (by omega) h.symm
      · exact digit_ne_dot (by omega) h.symm
  | case4 => exact List.not_mem_nil

/-- What is written is read. -/
theorem decode?_encode (bytes : List UInt8) : decode? (encode bytes) = some bytes := by
  fun_induction encode bytes with
  | case1 a b c rest n ih =>
      have ha := a.toNat_lt
      have hb := b.toNat_lt
      have hc := c.toNat_lt
      have hn : n = a.toNat * 65536 + b.toNat * 256 + c.toNat := rfl
      clear_value n
      have hjoined : n / 262144 * 262144 + n / 4096 % 64 * 4096 + n / 64 % 64 * 64 + n % 64 = n := by
        omega
      have hfirst : n / 65536 = a.toNat := by omega
      have hsecond : n / 256 % 256 = b.toNat := by omega
      have hthird : n % 256 = c.toNat := by omega
      rw [decode?, value?_digit (by omega), value?_digit (by omega), value?_digit (by omega),
        value?_digit (by omega), ih]
      simp only [Option.bind_eq_bind, Option.bind_some, hjoined, hfirst, hsecond, hthird,
        UInt8.ofNat_toNat]
      rfl
  | case2 a b n =>
      have ha := a.toNat_lt
      have hb := b.toNat_lt
      have hn : n = a.toNat * 256 + b.toNat := rfl
      clear_value n
      have hjoined : n / 1024 * 1024 + n / 16 % 64 * 16 + n % 16 * 4 / 4 = n := by omega
      have hfirst : n / 256 = a.toNat := by omega
      have hsecond : n % 256 = b.toNat := by omega
      rw [decode?, value?_digit (by omega), value?_digit (by omega), value?_digit (by omega)]
      simp only [Option.bind_eq_bind, Option.bind_some, hjoined, hfirst, hsecond,
        UInt8.ofNat_toNat]
      exact if_pos (by omega)
  | case3 a =>
      have ha := a.toNat_lt
      have hjoined : a.toNat / 4 * 4 + a.toNat % 4 * 16 / 16 = a.toNat := by omega
      rw [decode?, value?_digit (by omega), value?_digit (by omega)]
      simp only [Option.bind_eq_bind, Option.bind_some, hjoined, UInt8.ofNat_toNat]
      exact if_pos (by omega)
  | case4 => rfl

/-! ### One spelling -/

theorem ofNat_offset {c low : Char} (h : low ≤ c) (base : Nat) :
    Char.ofNat (low.toNat + (c.toNat - low.toNat + base - base)) = c := by
  have hlow : low.toNat ≤ c.toNat := h
  rw [Nat.add_sub_cancel, Nat.add_sub_cancel' hlow, Char.ofNat_toNat]

/-- A character with a value is the digit of six bits. -/
theorem digit_of_value? {c : Char} {n : Nat} (h : value? c = some n) : n < 64 ∧ digit n = c := by
  unfold value? at h
  split at h
  · rename_i hc
    have hhigh : c.toNat ≤ 90 := hc.2
    have hn : c.toNat - 65 = n := Option.some.inj h
    subst hn
    refine ⟨by omega, ?_⟩
    rw [digit, if_pos (by omega)]
    exact ofNat_offset hc.1 0
  split at h
  · rename_i hc
    have hhigh : c.toNat ≤ 122 := hc.2
    have hn : c.toNat - 97 + 26 = n := Option.some.inj h
    subst hn
    refine ⟨by omega, ?_⟩
    rw [digit, if_neg (by omega), if_pos (by omega)]
    exact ofNat_offset hc.1 26
  split at h
  · rename_i hc
    have hhigh : c.toNat ≤ 57 := hc.2
    have hn : c.toNat - 48 + 52 = n := Option.some.inj h
    subst hn
    refine ⟨by omega, ?_⟩
    rw [digit, if_neg (by omega), if_neg (by omega), if_pos (by omega)]
    exact ofNat_offset hc.1 52
  split at h
  · rename_i hc
    cases h
    exact ⟨by decide, hc.symm⟩
  split at h
  · rename_i hc
    cases h
    exact ⟨by decide, hc.symm⟩
  · cases h

theorem toNat_byte {n : Nat} (h : n < 256) : (UInt8.ofNat n).toNat = n :=
  UInt8.toNat_ofNat_of_lt' h

/-- What is read is written in the same way again: bytes have one spelling. -/
theorem eq_encode_of_decode? {s : List Char} {bytes : List UInt8} (h : decode? s = some bytes) :
    s = encode bytes := by
  fun_induction decode? s generalizing bytes with
  | case1 w x y z rest ih =>
      simp only [Option.bind_eq_bind, Option.bind_eq_some_iff] at h
      obtain ⟨a, hw, b, hx, c, hy, d, hz, tail, hrest, h⟩ := h
      obtain ⟨ha, rfl⟩ := digit_of_value? hw
      obtain ⟨hb, rfl⟩ := digit_of_value? hx
      obtain ⟨hc, rfl⟩ := digit_of_value? hy
      obtain ⟨hd, rfl⟩ := digit_of_value? hz
      obtain ⟨n, hn⟩ : ∃ n, n = a * 262144 + b * 4096 + c * 64 + d := ⟨_, rfl⟩
      rw [← hn] at h
      cases h
      have hjoined : n / 65536 * 65536 + n / 256 % 256 * 256 + n % 256 = n := by omega
      have hfirst : n / 262144 = a := by omega
      have hsecond : n / 4096 % 64 = b := by omega
      have hthird : n / 64 % 64 = c := by omega
      have hfourth : n % 64 = d := by omega
      rw [encode, ← ih hrest, toNat_byte (by omega), toNat_byte (by omega), toNat_byte (by omega),
        hjoined, hfirst, hsecond, hthird, hfourth]
  | case2 w x y =>
      simp only [Option.bind_eq_bind, Option.bind_eq_some_iff] at h
      obtain ⟨a, hw, b, hx, c, hy, h⟩ := h
      obtain ⟨ha, rfl⟩ := digit_of_value? hw
      obtain ⟨hb, rfl⟩ := digit_of_value? hx
      obtain ⟨hc, rfl⟩ := digit_of_value? hy
      obtain ⟨hzero, h⟩ := Option.ite_none_right_eq_some.mp h
      obtain ⟨n, hn⟩ : ∃ n, n = a * 1024 + b * 16 + c / 4 := ⟨_, rfl⟩
      rw [← hn] at h
      cases h
      have hjoined : n / 256 * 256 + n % 256 = n := by omega
      have hfirst : n / 1024 = a := by omega
      have hsecond : n / 16 % 64 = b := by omega
      have hthird : n % 16 * 4 = c := by omega
      rw [encode, toNat_byte (by omega), toNat_byte (by omega), hjoined, hfirst, hsecond, hthird]
  | case3 w x =>
      simp only [Option.bind_eq_bind, Option.bind_eq_some_iff] at h
      obtain ⟨a, hw, b, hx, h⟩ := h
      obtain ⟨ha, rfl⟩ := digit_of_value? hw
      obtain ⟨hb, rfl⟩ := digit_of_value? hx
      obtain ⟨hzero, h⟩ := Option.ite_none_right_eq_some.mp h
      cases h
      have hfirst : (a * 4 + b / 16) / 4 = a := by omega
      have hsecond : (a * 4 + b / 16) % 4 * 16 = b := by omega
      rw [encode, toNat_byte (by omega), hfirst, hsecond]
  | case4 => cases h
  | case5 =>
      cases h
      rfl

end Relational.Base64Url
