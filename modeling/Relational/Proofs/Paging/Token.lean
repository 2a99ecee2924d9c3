import Relational.Paging.Token
import Relational.Proofs.Json.Values
import Relational.Proofs.Text.Base64Url
/-
A token brings its value back.

The payload is read member by member as it was written, and the digest that comes with it
is the one that is asked for.  So a token is accepted for the column and direction it was
made for, and its value is the one it was made from.
-/
namespace Relational

open Json (quoted textOfUnits? readValue? readMembers?)

namespace TokenCodec

/-! ### Values -/

/-- A value is written in this way for every column, and what is read of it is the value again. -/
structure Spelled (v : Value) (tag : String) (text : List Char) (content : Json) : Prop where
  written : ∀ column, taggedText column v = .ok (tag, text)
  read : ∀ fuel rest, readValue? textOfUnits? (fuel + 1) (text ++ '\x7d' :: rest) =
    some (content, '\x7d' :: rest)
  denotes : taggedValue? tag content = some v

/-- A token can carry the value. -/
def Portable (v : Value) : Prop :=
  ∃ tag text content, Spelled v tag text content

theorem portable_bool (b : Bool) : Portable (.bool b) := by
  refine ⟨"bool", (if b then "true" else "false").toList, .bool b, fun _ => rfl, ?_, rfl⟩
  intro fuel rest
  rcases b with _ | _
  · rfl
  · rfl

theorem portable_int (n : Int64) : Portable (.int n) := by
  refine ⟨"int", Decimal.ofInt n.toInt, .number (Json.wholeNumber n.toInt), fun _ => rfl, ?_, ?_⟩
  · intro fuel rest
    exact Json.readValue?_ofInt n.toInt (Json.closes_brace rest)
  · show (Json.wholeNumber n.toInt).int64?.map Value.int = _
    rw [Json.int64?_wholeNumber]
    rfl

theorem portable_text (s : String) : Portable (.text s) := by
  refine ⟨"text", quoted s, .string (some s), fun _ => rfl, ?_, rfl⟩
  intro fuel rest
  exact Json.readValue?_quoted s ('\x7d' :: rest)

/-! ### Payloads -/

/-- What is read of a payload. -/
def payload (column : String) (direction : Direction) (tag : String) (content : Json) : Json :=
  .object [(some "c", .string (some column)), (some "d", .string (some (directionTag direction))),
    (some "v", .object [(some "t", .string (some tag)), (some "v", content)])]

variable {column : String} {direction : Direction} {v : Value} {tag : String} {text : List Char}
  {content : Json}

/-- The payload, member by member. -/
theorem payloadText_eq : payloadText column direction tag text =
    '\x7b' :: (quoted "c" ++ ':' :: (quoted column ++ ',' ::
      (quoted "d" ++ ':' :: (quoted (directionTag direction) ++ ',' ::
        (quoted "v" ++ ':' :: '\x7b' :: (quoted "t" ++ ':' :: (quoted tag ++ ',' ::
          (quoted "v" ++ ':' :: (text ++ ['\x7d', '\x7d']))))))))) := by
  have hcolumn : "\x7b\"c\":".toList = ['\x7b', '"', 'c', '"', ':'] := String.toList_ofList
  have hdirection : ",\"d\":".toList = [',', '"', 'd', '"', ':'] := String.toList_ofList
  have hvalue : ",\"v\":\x7b\"t\":".toList =
      [',', '"', 'v', '"', ':', '\x7b', '"', 't', '"', ':'] := String.toList_ofList
  have hcontent : ",\"v\":".toList = [',', '"', 'v', '"', ':'] := String.toList_ofList
  have hend : "\x7d\x7d".toList = ['\x7d', '\x7d'] := String.toList_ofList
  have hc : quoted "c" = ['"', 'c', '"'] := rfl
  have hd : quoted "d" = ['"', 'd', '"'] := rfl
  have hv : quoted "v" = ['"', 'v', '"'] := rfl
  have ht : quoted "t" = ['"', 't', '"'] := rfl
  unfold payloadText
  simp only [hcolumn, hdirection, hvalue, hcontent, hend, hc, hd, hv, ht, List.append_assoc,
    List.cons_append, List.nil_append]

/-- What is read of the value decides what is read of the payload, if anything is. -/
theorem readValue?_payloadText {content? : Option Json}
    (hread : ∀ fuel rest, readValue? textOfUnits? (fuel + 1) (text ++ '\x7d' :: rest) =
      content?.map (·, '\x7d' :: rest)) (fuel : Nat) :
    readValue? textOfUnits? (fuel + 8) (payloadText column direction tag text) =
      content?.map fun content => (payload column direction tag content, []) := by
  have hvalue : readValue? textOfUnits? (fuel + 4)
      ('\x7b' :: (quoted "t" ++ ':' :: (quoted tag ++ ',' :: (quoted "v" ++ ':' ::
        (text ++ ['\x7d', '\x7d']))))) =
      (content?.map fun content =>
        Json.object [(some "t", .string (some tag)), (some "v", content)]).map (·, ['\x7d']) := by
    rw [Json.readValue?_object, Json.readMembers?_more (Json.readValue?_quoted _ _),
      Json.readMembers?_last (hread fuel ['\x7d'])]
    cases content? with
    | none => rfl
    | some content => rfl
  rw [payloadText_eq, Json.readValue?_object, Json.readMembers?_more (Json.readValue?_quoted _ _),
    Json.readMembers?_more (Json.readValue?_quoted _ _), Json.readMembers?_last hvalue]
  cases content? with
  | none => rfl
  | some content => rfl

/-- The bytes of a payload are read as the payload. -/
theorem ofBytes?_payloadText {content? : Option Json}
    (hread : ∀ fuel rest, readValue? textOfUnits? (fuel + 1) (text ++ '\x7d' :: rest) =
      content?.map (·, '\x7d' :: rest)) :
    Json.ofBytes? (utf8 (payloadText column direction tag text)) =
      content?.map (payload column direction tag) := by
  have hlength : 8 ≤ (payloadText column direction tag text).length + 1 := by
    rw [payloadText_eq]
    simp only [List.length_cons, List.length_append]
    omega
  obtain ⟨fuel, hfuel⟩ := Nat.exists_eq_add_of_le' hlength
  rw [utf8, Json.ofBytes?_toUTF8, String.toList_ofList, Json.ofChars?, hfuel,
    readValue?_payloadText hread fuel]
  cases content? with
  | none => rfl
  | some content => rfl

theorem payloadOf?_payload (content : Json) :
    payloadOf? (payload column direction tag content) =
      (taggedValue? tag content).map fun v => ⟨column, directionTag direction, v⟩ := by
  have hvalue : valueOf? (.object [(some "t", .string (some tag)), (some "v", content)]) =
      taggedValue? tag content := by
    simp [valueOf?, only?, membersNamed, tagOf?]
  simp [payloadOf?, payload, only?, membersNamed, stringOf?, hvalue, Option.map_eq_bind]

/-! ### Tokens -/

theorem directionTag_injective {a b : Direction} (h : directionTag a = directionTag b) : a = b := by
  rcases a with _ | _ <;> rcases b with _ | _
  · rfl
  · exact absurd h (by decide)
  · exact absurd h (by decide)
  · rfl

theorem encode_eq (codec : TokenCodec) (h : taggedText column v = .ok (tag, text)) :
    codec.encode column direction v = .ok (String.ofList
      (Base64Url.encode (utf8 (payloadText column direction tag text)) ++ '.' ::
        Base64Url.encode (codec.digest (utf8 (payloadText column direction tag text))))) := by
  unfold encode
  rw [h]
  rfl

theorem orFault_bind {α β : Type} (fault : TokenFault) (a : α) (f : α → Except PagingError β) :
    (orFault fault (some a) >>= f) = f a := rfl

/-- No dot stands in front of the one behind the payload. -/
theorem cutAt_encode (payload : List UInt8) (rest : List Char) :
    Text.cutAt (· == '.') (Base64Url.encode payload ++ '.' :: rest) =
      some (Base64Url.encode payload, rest) := by
  have hdot : ∀ c ∈ Base64Url.encode payload, (c == '.') = false := by
    intro c hc
    rw [beq_eq_false_iff_ne]
    rintro rfl
    exact Base64Url.dot_notMem_encode payload hc
  exact Text.cutAt_append hdot (beq_self_eq_true _) rest

/-- A text with the right digest behind a dot is taken apart again. -/
theorem decode_ofList (codec : TokenCodec) (payload : List UInt8) (other : String)
    (past : Direction) : codec.decode (String.ofList
      (Base64Url.encode payload ++ '.' :: Base64Url.encode (codec.digest payload))) other past =
    (do
      let content ← orFault .payload ((Json.ofBytes? payload).bind payloadOf?)
      if content.column ≠ other then .error (.invalidCursor .otherColumn)
      else if content.direction ≠ directionTag past then .error (.invalidCursor .otherDirection)
      else .ok content.value) := by
  unfold decode
  rw [String.toList_ofList, cutAt_encode]
  simp only [orFault_bind, Base64Url.decode?_encode]
  exact if_neg fun hne => hne rfl

theorem directionTag_ne_iff (a b : Direction) : directionTag a ≠ directionTag b ↔ a ≠ b :=
  not_congr ⟨directionTag_injective, congrArg directionTag⟩

/-- The token of a payload is read as what is read of its value. -/
theorem decode_payloadText (codec : TokenCodec) (content? : Option Json)
    (hread : ∀ fuel rest, readValue? textOfUnits? (fuel + 1) (text ++ '\x7d' :: rest) =
      content?.map (·, '\x7d' :: rest)) (other : String) (past : Direction) :
    codec.decode (String.ofList
      (Base64Url.encode (utf8 (payloadText column direction tag text)) ++ '.' ::
        Base64Url.encode (codec.digest (utf8 (payloadText column direction tag text)))))
      other past =
    (do
      let v ← orFault .payload (content?.bind (taggedValue? tag))
      if column ≠ other then .error (.invalidCursor .otherColumn)
      else if direction ≠ past then .error (.invalidCursor .otherDirection)
      else .ok v) := by
  rw [decode_ofList, ofBytes?_payloadText hread]
  cases content? with
  | none => rfl
  | some content =>
      rw [Option.map_some, Option.bind_some, payloadOf?_payload, Option.bind_some]
      cases taggedValue? tag content with
      | none => rfl
      | some v =>
          rw [Option.map_some, orFault_bind, orFault_bind]
          simp only [directionTag_ne_iff]

/-- **A token brings its value back.**  It is accepted for the column and the direction it was made
for, and for no other. -/
theorem decode_encode (codec : TokenCodec) (column : String) (direction : Direction)
    (hportable : Portable v) : ∃ token, codec.encode column direction v = .ok token ∧
      ∀ other past, codec.decode token other past =
        if column ≠ other then .error (.invalidCursor .otherColumn)
        else if direction ≠ past then .error (.invalidCursor .otherDirection)
        else .ok v := by
  obtain ⟨tag, text, content, h⟩ := hportable
  refine ⟨_, codec.encode_eq (h.written column), fun other past => ?_⟩
  rw [decode_payloadText codec (some content) h.read, Option.bind_some, h.denotes,
    orFault_bind]

/-- The token of a floating-point number is read as such a number, if it can be read. -/
theorem decode_encode_float (codec : TokenCodec) {x : Binary64} {token : String}
    (h : codec.encode column direction (.float x) = .ok token) :
    (∃ y, codec.decode token column direction = .ok (.float y)) ∨
      codec.decode token column direction = .error (.invalidCursor .payload) := by
  have hfinite : x.isFinite = true := by
    cases hx : x.isFinite with
    | true => rfl
    | false =>
        rw [encode, taggedText, hx] at h
        cases h
  have htext : taggedText column (.float x) = .ok ("float", Decimal.jsonText x) := if_pos hfinite
  rw [codec.encode_eq htext, Except.ok.injEq] at h
  rw [← h, decode_payloadText codec
    (if (Json.floatNumber x).padded then none else some (.number (Json.floatNumber x))) ?_]
  · split
    · exact .inr rfl
    · have htagged : taggedValue? "float" (.number (Json.floatNumber x)) =
          (Json.floatNumber x).binary64?.map Value.float := rfl
      rw [Option.bind_some, htagged]
      cases (Json.floatNumber x).binary64? with
      | none => exact .inr rfl
      | some y => exact .inl ⟨y, by simp [orFault_bind]⟩
  · intro fuel rest
    rw [Json.readValue?_jsonText x (Json.closes_brace rest)]
    split
    · rfl
    · rfl

/-- A value has a token unless it has no tag. -/
theorem encode_eq_error_iff (codec : TokenCodec) (e : PagingError) :
    codec.encode column direction v = .error e ↔ taggedText column v = .error e := by
  unfold encode
  rcases taggedText column v with fault | ⟨tag, text⟩
  · simp [bind, Except.bind]
  · exact iff_of_false nofun nofun

/-- **A token keeps the type.**  Truth values, integers and texts come back as they are, for the
column and the direction they were given with and for no other; nothing is made into a token that
has no text in JSON. -/
theorem token_keeps_type (codec : TokenCodec) (column : String) (direction : Direction)
    (v : Value) :
    match v with
    | .bool _ | .int _ | .text _ =>
      ∃ token, codec.encode column direction v = .ok token ∧ ∀ other past,
        codec.decode token other past =
          if column = other ∧ direction = past then .ok v
          else .error (.invalidCursor (if column = other then .otherDirection else .otherColumn))
    | .null => codec.encode column direction v = .error (.unsupportedCursorValue column "null")
    | .blob _ => codec.encode column direction v = .error (.unsupportedCursorValue column "blob")
    | .float x =>
      codec.encode column direction v = .error (.unsupportedCursorValue column "non-finite float") ↔
        x.isFinite = false := by
  have hcarried : ∀ w, Portable w → ∃ token, codec.encode column direction w = .ok token ∧
      ∀ other past, codec.decode token other past =
        if column = other ∧ direction = past then .ok w
        else .error (.invalidCursor (if column = other then .otherDirection else .otherColumn)) := by
    intro w hw
    obtain ⟨token, htoken, hdecode⟩ := codec.decode_encode column direction hw
    refine ⟨token, htoken, fun other past => (hdecode other past).trans ?_⟩
    by_cases hcolumn : column = other
    · by_cases hdirection : direction = past
      · simp [hcolumn, hdirection]
      · simp [hcolumn, hdirection]
    · simp [hcolumn]
  cases v with
  | bool b => exact hcarried _ (portable_bool b)
  | int n => exact hcarried _ (portable_int n)
  | text s => exact hcarried _ (portable_text s)
  | null => rfl
  | blob bytes => rfl
  | float x =>
      show _ ↔ x.isFinite = false
      rw [encode_eq_error_iff, taggedText]
      by_cases hfinite : x.isFinite = true
      · simp [hfinite]
      · simp [hfinite]

end TokenCodec

end Relational
