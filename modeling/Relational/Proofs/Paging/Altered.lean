import Mathlib.Data.List.Basic
import Relational.Proofs.Paging.Token
/-
Altered tokens.

A token that is accepted is the one text that its payload makes: base64 spells bytes in
one way only, and the digest has to be that of the payload.  So two texts are accepted
only for two payloads, and whoever alters the payload of a token and keeps its digest has
found two payloads that the secret gives one digest.
-/
namespace Relational.TokenCodec

/-! ### The halves of a token -/

/-- What stands in front of the first dot of a token, and what stands behind it. -/
def halves? (token : String) : Option (List Char × List Char) :=
  Text.cutAt (· == '.') token.toList

/-- The bytes of a token's payload. -/
def payloadBytes? (token : String) : Option (List UInt8) :=
  (halves? token).bind fun halves => Base64Url.decode? halves.1

/-- The digest of a token, as it is written. -/
def digestText? (token : String) : Option (List Char) :=
  (halves? token).map Prod.snd

/-- The token of a payload. -/
def tokenOf (codec : TokenCodec) (payload : List UInt8) : String :=
  String.ofList (Base64Url.encode payload ++ '.' :: Base64Url.encode (codec.digest payload))

theorem halves?_tokenOf (codec : TokenCodec) (payload : List UInt8) :
    halves? (codec.tokenOf payload) =
      some (Base64Url.encode payload, Base64Url.encode (codec.digest payload)) := by
  rw [halves?, tokenOf, String.toList_ofList, cutAt_encode]

theorem payloadBytes?_tokenOf (codec : TokenCodec) (payload : List UInt8) :
    payloadBytes? (codec.tokenOf payload) = some payload := by
  rw [payloadBytes?, halves?_tokenOf, Option.bind_some, Base64Url.decode?_encode]

theorem digestText?_tokenOf (codec : TokenCodec) (payload : List UInt8) :
    digestText? (codec.tokenOf payload) = some (Base64Url.encode (codec.digest payload)) := by
  rw [digestText?, halves?_tokenOf, Option.map_some]

/-! ### Accepted tokens -/

theorem orFault_bind_eq_ok {α β : Type} {fault : TokenFault} {o : Option α}
    {f : α → Except PagingError β} {b : β} (h : (orFault fault o >>= f) = .ok b) :
    ∃ a, o = some a ∧ f a = .ok b := by
  cases o with
  | none => cases h
  | some a => exact ⟨a, rfl, h⟩

variable {codec : TokenCodec} {column : String} {direction : Direction}

/-- A token that is accepted is the token of its payload. -/
theorem eq_tokenOf_of_decode {token : String} {v : Value}
    (h : codec.decode token column direction = .ok v) :
    ∃ payload, token = codec.tokenOf payload := by
  obtain ⟨⟨front, back⟩, hcut, h⟩ := orFault_bind_eq_ok h
  obtain ⟨payload, hpayload, h⟩ := orFault_bind_eq_ok h
  obtain ⟨digest, hdigest, h⟩ := orFault_bind_eq_ok h
  have hsame : digest = codec.digest payload := by
    by_contra hother
    rw [if_pos hother] at h
    cases h
  obtain ⟨c, hc, -, hsplit⟩ := Text.cutAt_eq hcut
  refine ⟨payload, ?_⟩
  rw [tokenOf, ← hsame, ← Base64Url.eq_encode_of_decode? hpayload,
    ← Base64Url.eq_encode_of_decode? hdigest, ← eq_of_beq hc, ← hsplit, String.ofList_toList]

/-- **An altered token collides.**  Two texts that are accepted have two payloads, and they share
the digest only if these payloads have one under the secret. -/
theorem altered_token_collides (codec : TokenCodec) (column : String) (direction : Direction)
    {first second : String} {v w : Value} (hfirst : codec.decode first column direction = .ok v)
    (hsecond : codec.decode second column direction = .ok w) (hne : first ≠ second) :
    ∃ p q, payloadBytes? first = some p ∧ payloadBytes? second = some q ∧ p ≠ q ∧
      (digestText? first = digestText? second ↔
        (Sha256.hash (codec.secret ++ p)).take 12 = (Sha256.hash (codec.secret ++ q)).take 12) := by
  obtain ⟨p, rfl⟩ := eq_tokenOf_of_decode hfirst
  obtain ⟨q, rfl⟩ := eq_tokenOf_of_decode hsecond
  refine ⟨p, q, codec.payloadBytes?_tokenOf p, codec.payloadBytes?_tokenOf q, ?_, ?_⟩
  · rintro rfl
    exact hne rfl
  · rw [digestText?_tokenOf, digestText?_tokenOf, Option.some_inj]
    constructor
    · intro hspelled
      have hread := congrArg Base64Url.decode? hspelled
      rw [Base64Url.decode?_encode, Base64Url.decode?_encode] at hread
      exact Option.some.inj hread
    · intro hdigest
      exact congrArg Base64Url.encode hdigest

/-- A codec with a secret of its own. -/
def keyedCodec : TokenCodec :=
  ⟨[115, 51, 99, 114, 101, 116]⟩

/-- The token that `keyedCodec` issues behind the row ten of a list in ascending order. -/
def tenToken : String :=
  "eyJjIjoiaWQiLCJkIjoiYXNjIiwidiI6eyJ0IjoiaW50IiwidiI6MTB9fQ.opIRax0rESUCGW41"

/-- The one behind the row eleven. -/
def elevenToken : String :=
  "eyJjIjoiaWQiLCJkIjoiYXNjIiwidiI6eyJ0IjoiaW50IiwidiI6MTF9fQ.R2qoE5CyipZypj2k"

/-- Both are accepted, so their payloads differ, and their digests agree only in a collision. -/
theorem issued_tokens_differ :
    keyedCodec.decode tenToken "id" .asc = .ok (.int 10) ∧
    keyedCodec.decode elevenToken "id" .asc = .ok (.int 11) ∧ tenToken ≠ elevenToken ∧
    ∃ p q, payloadBytes? tenToken = some p ∧ payloadBytes? elevenToken = some q ∧ p ≠ q ∧
      (digestText? tenToken = digestText? elevenToken ↔
        (Sha256.hash (keyedCodec.secret ++ p)).take 12 =
          (Sha256.hash (keyedCodec.secret ++ q)).take 12) := by
  have hten : keyedCodec.decode tenToken "id" .asc = .ok (.int 10) := by
    decide +kernel
  have heleven : keyedCodec.decode elevenToken "id" .asc = .ok (.int 11) := by
    decide +kernel
  have hne : tenToken ≠ elevenToken := by
    decide
  exact ⟨hten, heleven, hne, altered_token_collides keyedCodec "id" .asc hten heleven hne⟩

end Relational.TokenCodec
