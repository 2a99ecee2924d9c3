import Relational.Digest.Sha256
import Relational.Json.Reader
import Relational.Paging.Error
import Relational.Query.Basic
import Relational.Text.Base64Url
/-
Cursor tokens.

A token carries the last value of a page to the request for the next one.  It is a JSON payload
that names column, direction and value, and the start of a SHA-256 hash over a secret and that
payload, both in base64 with a dot between.  A token is refused unless the hash agrees and the
payload is for the column and direction at hand.
-/
namespace Relational

/-- Writes and checks tokens under a secret; without one the digest only detects damage. -/
structure TokenCodec where
  secret : List UInt8 := []
  deriving DecidableEq, Repr, Inhabited

namespace TokenCodec

/-- Number of bytes of the digest. -/
def digestLength : Nat := 12

/-- The digest of a payload. -/
def digest (codec : TokenCodec) (payload : List UInt8) : List UInt8 :=
  (Sha256.hash (codec.secret ++ payload)).take digestLength

/-- The word for a direction in a payload. -/
def directionTag : Direction → String
  | .asc => "asc"
  | .desc => "desc"

/-! ### Writing -/

/-- A value as a tag and JSON.  `NULL`, bytes and numbers that are not finite have none. -/
def taggedText (column : String) : Value → Except PagingError (String × List Char)
  | .bool b => .ok ("bool", (if b then "true" else "false").toList)
  | .int n => .ok ("int", Decimal.ofInt n.toInt)
  | .float x =>
    if x.isFinite then .ok ("float", Decimal.jsonText x)
    else .error (.unsupportedCursorValue column "non-finite float")
  | .text s => .ok ("text", Json.quoted s)
  | .null => .error (.unsupportedCursorValue column "null")
  | .blob _ => .error (.unsupportedCursorValue column "blob")

/-- The payload, as compact JSON. -/
def payloadText (column : String) (direction : Direction) (tag : String) (value : List Char) :
    List Char :=
  "\x7b\"c\":".toList ++ Json.quoted column ++ ",\"d\":".toList ++
    Json.quoted (directionTag direction) ++ ",\"v\":\x7b\"t\":".toList ++ Json.quoted tag ++
    ",\"v\":".toList ++ value ++ "\x7d\x7d".toList

/-- The bytes of a text. -/
def utf8 (s : List Char) : List UInt8 :=
  (String.ofList s).toUTF8.toList

/-- The token for a value of a column in a direction. -/
def encode (codec : TokenCodec) (column : String) (direction : Direction) (value : Value) :
    Except PagingError String := do
  let (tag, text) ← taggedText column value
  let payload := utf8 (payloadText column direction tag text)
  return String.ofList
    (Base64Url.encode payload ++ '.' :: Base64Url.encode (codec.digest payload))

/-! ### Reading -/

/-- Column, direction and value of a payload. -/
structure Payload where
  column : String
  direction : String
  value : Value

/-- The members with the given key. -/
def membersNamed (key : String) (members : List (Option String × Json)) : List Json :=
  members.filterMap fun (k, v) => if k = some key then some v else none

/-- The one member with the given key. -/
def only? (key : String) (members : List (Option String × Json)) : Option Json :=
  match membersNamed key members with
  | [v] => some v
  | _ => none

/-- The text of a string. -/
def stringOf? : Json → Option String
  | .string s => s
  | _ => none

/-- The tag of a tagged object: a string, or an object whose one key is the tag and holds
nothing. -/
def tagOf? : Json → Option String
  | .string s => s
  | .object [(key, .null)] => key
  | _ => none

/-- The value that a tag and JSON denote. -/
def taggedValue? (tag : String) (content : Json) : Option Value :=
  if tag = "bool" then
    match content with
    | .bool b => some (.bool b)
    | _ => none
  else if tag = "int" then
    match content with
    | .number n => n.int64?.map .int
    | _ => none
  else if tag = "float" then
    match content with
    | .number n => n.binary64?.map .float
    | _ => none
  else if tag = "text" then (stringOf? content).map .text
  else none

/-- A tagged value: an object with a tag, a content and perhaps more, or a pair of a string and a
content. -/
def valueOf? : Json → Option Value
  | .object members => do
    if members.any fun (k, _) => k.isNone then none
    else
      let tag ← tagOf? (← only? "t" members)
      taggedValue? tag (← only? "v" members)
  | .array [t, content] => do
    let tag ← stringOf? t
    taggedValue? tag content
  | _ => none

/-- A payload: an object with exactly the three members, or a triple. -/
def payloadOf? : Json → Option Payload
  | .object members => do
    if members.length ≠ 3 then none
    else
      let column ← stringOf? (← only? "c" members)
      let direction ← stringOf? (← only? "d" members)
      let value ← valueOf? (← only? "v" members)
      return ⟨column, direction, value⟩
  | .array [c, d, v] => do
    let column ← stringOf? c
    let direction ← stringOf? d
    let value ← valueOf? v
    return ⟨column, direction, value⟩
  | _ => none

/-- Some value, or the fault that there is none. -/
def orFault {α : Type} (fault : TokenFault) : Option α → Except PagingError α
  | some a => .ok a
  | none => .error (.invalidCursor fault)

/-- Checks a token and returns its value. -/
def decode (codec : TokenCodec) (token column : String) (direction : Direction) :
    Except PagingError Value := do
  let (payloadPart, digestPart) ← orFault .noDot (Text.cutAt (· == '.') token.toList)
  let payload ← orFault .payloadEncoding (Base64Url.decode? payloadPart)
  let digest ← orFault .digestEncoding (Base64Url.decode? digestPart)
  if digest ≠ codec.digest payload then .error (.invalidCursor .digestMismatch)
  else
    let content ← orFault .payload ((Json.ofBytes? payload).bind payloadOf?)
    if content.column ≠ column then .error (.invalidCursor .otherColumn)
    else if content.direction ≠ directionTag direction then .error (.invalidCursor .otherDirection)
    else .ok content.value

end TokenCodec

end Relational
