import Relational.Proofs.Json.Floats
import Relational.Proofs.Paging.Token
/-
A token brings a floating-point number back only nearly.

Such a number is written with the fewest digits that are rounded to it, and these are read with a
rounding for the digits and one for the power of ten before the last one.  So the number behind the
token is finite, has the same sign and is a few places away at most; where neither the digits nor
the power of ten have to be rounded, it is the number itself.
-/
namespace Relational.TokenCodec

open Binary64 (Beside)
open Decimal (roundings roundings_le)

variable {column : String} {direction : Direction} {x y : Binary64}

/-- The token of a finite number is read as what is read of its digits. -/
theorem decode_encode_of_binary64? (codec : TokenCodec) (column : String) (direction : Direction)
    (hfinite : x.isFinite = true) (hread : (Json.floatNumber x).binary64? = some y) :
    ∃ token, codec.encode column direction (.float x) = .ok token ∧
      ∀ other past, codec.decode token other past =
        if column ≠ other then .error (.invalidCursor .otherColumn)
        else if direction ≠ past then .error (.invalidCursor .otherDirection)
        else .ok (.float y) := by
  have hwritten : taggedText column (.float x) = .ok ("float", Decimal.jsonText x) :=
    if_pos hfinite
  refine ⟨_, codec.encode_eq hwritten, fun other past => ?_⟩
  rw [decode_payloadText codec (some (.number (Json.floatNumber x))) ?_, Option.bind_some]
  · have htagged : taggedValue? "float" (.number (Json.floatNumber x)) =
        (Json.floatNumber x).binary64?.map Value.float := rfl
    rw [htagged, hread, Option.map_some, orFault_bind]
  · intro fuel rest
    rw [Json.readValue?_jsonText x (Json.closes_brace rest), Json.padded_floatNumber,
      if_neg Bool.false_ne_true]
    rfl

/-- **A token brings a finite number back as a finite number near it.**  The two have the same sign,
and no more places are between them than there are roundings in reading the digits; without any
rounding they are the same. -/
theorem float_token_beside (codec : TokenCodec) (column : String) (direction : Direction)
    (hfinite : x.isFinite = true) :
    ∃ token y, codec.encode column direction (.float x) = .ok token ∧
      (∀ other past, codec.decode token other past =
        if column ≠ other then .error (.invalidCursor .otherColumn)
        else if direction ≠ past then .error (.invalidCursor .otherDirection)
        else .ok (.float y)) ∧
      Beside (roundings (Json.floatNumber x).decimal) x y ∧
      roundings (Json.floatNumber x).decimal ≤ 4 ∧
      (roundings (Json.floatNumber x).decimal = 0 → y = x) := by
  obtain ⟨y, hread, hbeside⟩ := Json.binary64?_floatNumber hfinite
  obtain ⟨token, hencode, hdecode⟩ :=
    codec.decode_encode_of_binary64? column direction hfinite hread
  refine ⟨token, y, hencode, hdecode, hbeside, roundings_le _, fun hexact => ?_⟩
  rw [hexact] at hbeside
  exact hbeside.eq

/-- The sixteen digits of an eleventh are rounded, and its power of ten is not, so what comes back is
one place away at most. -/
theorem eleventh_token_beside :
    (⟨0x3fb745d1745d1746⟩ : Binary64).isFinite = true ∧
      ∃ token y, ({} : TokenCodec).encode "score" .asc (.float ⟨0x3fb745d1745d1746⟩) = .ok token ∧
        ({} : TokenCodec).decode token "score" .asc = .ok (.float y) ∧
        Beside 1 ⟨0x3fb745d1745d1746⟩ y := by
  have hfinite : (⟨0x3fb745d1745d1746⟩ : Binary64).isFinite = true := by decide +kernel
  obtain ⟨token, y, hencode, hdecode, hbeside, -, -⟩ :=
    float_token_beside {} "score" .asc hfinite
  have hroundings : roundings (Json.floatNumber ⟨0x3fb745d1745d1746⟩).decimal = 1 := by
    decide +kernel
  rw [hroundings] at hbeside
  exact ⟨hfinite, token, y, hencode, hdecode "score" .asc, hbeside⟩

/-- And it is the next one that comes back. -/
theorem eleventh_token_brings_next : ∃ token,
    ({} : TokenCodec).encode "score" .asc (.float ⟨0x3fb745d1745d1746⟩) = .ok token ∧
      ({} : TokenCodec).decode token "score" .asc = .ok (.float ⟨0x3fb745d1745d1747⟩) ∧
      ({} : TokenCodec).decode token "score" .asc ≠ .ok (.float ⟨0x3fb745d1745d1746⟩) := by
  have hread : (Json.floatNumber ⟨0x3fb745d1745d1746⟩).binary64? = some ⟨0x3fb745d1745d1747⟩ := by
    decide +kernel
  obtain ⟨token, hencode, hdecode⟩ :=
    decode_encode_of_binary64? {} "score" .asc (by decide +kernel) hread
  have hnext := hdecode "score" .asc
  rw [if_neg (not_not_intro rfl), if_neg (not_not_intro rfl)] at hnext
  refine ⟨token, hencode, hnext, fun hsame => ?_⟩
  rw [hnext] at hsame
  injection hsame with hvalue
  injection hvalue with hnumber
  exact absurd hnumber (by decide)

end Relational.TokenCodec
