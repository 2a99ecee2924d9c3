import Relational.Config.Basic
import Relational.Proofs.Decimal.Digits
import Relational.Proofs.Text.Percent
/-
What is read back from the address of a connection.

An address is read by its marks: the scheme ends at the first colon, the authority at the first
slash, user and password at the last `@` of the authority, the user at the first colon, and the host
at the last colon if digits are behind it.  What stands between the marks may be percent-encoded.

The fields of a connection are put between the marks as they are.  That parts are found again where
they were put is a matter of the marks alone (`divided?_eq_some_iff`).  That nothing else is read the
same is a matter of length: decoding makes nothing longer, so what is read as it was put in has
parts of the same lengths, and these are then the same texts, without an escape.
-/
namespace Relational

/-! ### Cutting at a mark -/

namespace Text

variable {s front behind : List Char} {mark : Char}

theorem cutAt_eq_some_iff :
    cutAt (· == mark) s = some (front, behind) ↔ s = front ++ mark :: behind ∧ mark ∉ front := by
  constructor
  · intro h
    obtain ⟨c, hc, hfront, rfl⟩ := cutAt_eq h
    rw [beq_iff_eq] at hc
    subst hc
    exact ⟨rfl, fun hmem => by simpa using hfront c hmem⟩
  · rintro ⟨rfl, hmark⟩
    refine cutAt_append (fun c hc => ?_) (by simp) behind
    rw [beq_eq_false_iff_ne]
    rintro rfl
    exact hmark hc

theorem cutAt_eq_none_iff : cutAt (· == mark) s = none ↔ mark ∉ s := by
  constructor
  · intro h hmem
    simpa using forall_of_cutAt_eq_none h mark hmem
  · intro h
    refine cutAt_eq_none fun c hc => ?_
    rw [beq_eq_false_iff_ne]
    rintro rfl
    exact h hc

/-- Cuts a text at the last mark. -/
def cutAtLast (mark : Char) (s : List Char) : Option (List Char × List Char) :=
  (cutAt (· == mark) s.reverse).map fun (behind, front) => (front.reverse, behind.reverse)

theorem cutAtLast_eq_some_iff :
    cutAtLast mark s = some (front, behind) ↔ s = front ++ mark :: behind ∧ mark ∉ behind := by
  unfold cutAtLast
  simp only [Option.map_eq_some_iff, Prod.mk.injEq, Prod.exists]
  constructor
  · rintro ⟨b, f, hcut, rfl, rfl⟩
    obtain ⟨hs, hmark⟩ := cutAt_eq_some_iff.mp hcut
    refine ⟨?_, by simpa using hmark⟩
    rw [← List.reverse_reverse s, hs]
    simp
  · rintro ⟨rfl, hmark⟩
    refine ⟨behind.reverse, front.reverse, cutAt_eq_some_iff.mpr ⟨by simp, by simpa using hmark⟩, ?_⟩
    simp

theorem cutAtLast_eq_none_iff : cutAtLast mark s = none ↔ mark ∉ s := by
  rw [cutAtLast, Option.map_eq_none_iff, cutAt_eq_none_iff, List.mem_reverse]

end Text

/-! ### The parts of an address -/

/-- What an address says. -/
structure Address where
  scheme : String
  username : Option String
  password : Option String
  host : String
  port : Option Nat
  path : String
  deriving DecidableEq

namespace Address

/-- The parts of an address as they are written. -/
structure Division where
  scheme : List Char
  username : Option (List Char)
  password : Option (List Char)
  host : List Char
  port : Option (List Char)
  path : List Char
  deriving DecidableEq

namespace Division

/-- User and password, with the mark that ends them. -/
def info (v : Division) : List Char :=
  match v.username, v.password with
  | some user, some password => user ++ ':' :: (password ++ ['@'])
  | some user, none => user ++ ['@']
  | none, _ => []

/-- Host and port. -/
def place (v : Division) : List Char :=
  v.host ++ (match v.port with
    | some digits => ':' :: digits
    | none => [])

/-- The parts put together. -/
def text (v : Division) : List Char :=
  v.scheme ++ ':' :: '/' :: '/' :: (v.info ++ v.place ++ '/' :: v.path)

end Division

/-- The text ends in a colon and digits, as a port is written. -/
def EndsInPort (s : List Char) : Prop :=
  ∃ host digits, s = host ++ ':' :: digits ∧ Decimal.isDigits digits = true

/-- The user, up to the first colon, and the password behind it. -/
def userOf (info : List Char) : List Char × Option (List Char) :=
  match Text.cutAt (· == ':') info with
  | some (user, password) => (user, some password)
  | none => (info, none)

/-- The host, and the digits behind the last colon. -/
def hostOf (place : List Char) : List Char × Option (List Char) :=
  match Text.cutAtLast ':' place with
  | some (host, digits) => if Decimal.isDigits digits then (host, some digits) else (place, none)
  | none => (place, none)

/-- The parts of an authority: user and password stand in front of its last `@`. -/
def divideAuthority (scheme authority path : List Char) : Division :=
  match Text.cutAtLast '@' authority with
  | some (info, place) =>
    { scheme, username := some (userOf info).1, password := (userOf info).2
      host := (hostOf place).1, port := (hostOf place).2, path }
  | none =>
    { scheme, username := none, password := none
      host := (hostOf authority).1, port := (hostOf authority).2, path }

/-- The parts of an address: the scheme, the authority up to the first slash, and the path. -/
def divided? (s : List Char) : Option Division := do
  let (scheme, rest) ← Text.cutAt (· == ':') s
  let rest ← Text.afterLead? ['/', '/'] rest
  let (authority, path) ← Text.cutAt (· == '/') rest
  return divideAuthority scheme authority path

/-- What the parts say. -/
def Division.address? (v : Division) : Option Address := do
  let username ← v.username.mapM Percent.decoded?
  let password ← v.password.mapM Percent.decoded?
  let host ← Percent.decoded? v.host
  let path ← Percent.decoded? v.path
  return { scheme := String.ofList v.scheme, username, password, host
           port := v.port.map Decimal.natOfDigits, path }

/-- Reads an address. -/
def read? (url : String) : Option Address :=
  (divided? url.toList).bind Division.address?

/-! ### Every part is found where it ends -/

/-- The marks between the parts are told apart from the parts. -/
structure Division.Separated (v : Division) : Prop where
  scheme : ':' ∉ v.scheme
  authority : '/' ∉ v.info ++ v.place
  username : ∀ user, v.username = some user → ':' ∉ user
  password : v.username = none → v.password = none
  place : '@' ∉ v.place
  digits : ∀ digits, v.port = some digits → Decimal.isDigits digits = true
  host : v.port = none → ¬EndsInPort v.host

theorem not_mem_of_isDigits {digits : List Char} (h : Decimal.isDigits digits = true) {c : Char}
    (hc : c.isDigit = false) : c ∉ digits := by
  intro hmem
  rw [(Decimal.isDigits_iff.mp h).2 c hmem] at hc
  cases hc

theorem userOf_alone {user : List Char} (h : ':' ∉ user) : userOf user = (user, none) := by
  rw [userOf, Text.cutAt_eq_none_iff.mpr h]

theorem userOf_password {user : List Char} (h : ':' ∉ user) (password : List Char) :
    userOf (user ++ ':' :: password) = (user, some password) := by
  rw [userOf, Text.cutAt_eq_some_iff.mpr ⟨rfl, h⟩]

/-- User and password are all that is in front of the mark. -/
theorem info_of_userOf {v : Division} {info : List Char} (husername : v.username = some (userOf info).1)
    (hpassword : v.password = (userOf info).2) :
    v.info = info ++ ['@'] ∧ ':' ∉ (userOf info).1 := by
  unfold userOf at *
  cases hcut : Text.cutAt (· == ':') info with
  | none =>
      rw [hcut] at husername hpassword
      exact ⟨by simp only [Division.info, husername, hpassword], Text.cutAt_eq_none_iff.mp hcut⟩
  | some cut =>
      obtain ⟨user, password⟩ := cut
      obtain ⟨rfl, huser⟩ := Text.cutAt_eq_some_iff.mp hcut
      rw [hcut] at husername hpassword
      exact ⟨by simp [Division.info, husername, hpassword], huser⟩

theorem hostOf_port {digits : List Char} (h : Decimal.isDigits digits = true) (host : List Char) :
    hostOf (host ++ ':' :: digits) = (host, some digits) := by
  have hcut : Text.cutAtLast ':' (host ++ ':' :: digits) = some (host, digits) :=
    Text.cutAtLast_eq_some_iff.mpr ⟨rfl, not_mem_of_isDigits h (by decide)⟩
  simp [hostOf, hcut, h]

theorem hostOf_alone {host : List Char} (h : ¬EndsInPort host) : hostOf host = (host, none) := by
  unfold hostOf
  cases hcut : Text.cutAtLast ':' host with
  | none => rfl
  | some cut =>
      obtain ⟨front, digits⟩ := cut
      have hdigits : ¬Decimal.isDigits digits = true := fun hdigits =>
        h ⟨front, digits, (Text.cutAtLast_eq_some_iff.mp hcut).1, hdigits⟩
      simp [hdigits]

/-- Every text is a host with a port, or a host alone. -/
theorem host_cases (place : List Char) :
    (∃ host digits, Decimal.isDigits digits = true ∧ place = host ++ ':' :: digits ∧
      hostOf place = (host, some digits)) ∨ ¬EndsInPort place ∧ hostOf place = (place, none) := by
  by_cases hport : EndsInPort place
  · obtain ⟨host, digits, rfl, hdigits⟩ := hport
    exact Or.inl ⟨host, digits, hdigits, rfl, hostOf_port hdigits host⟩
  · exact Or.inr ⟨hport, hostOf_alone hport⟩

theorem place_of_hostOf {v : Division} {place : List Char} (hhost : v.host = (hostOf place).1)
    (hport : v.port = (hostOf place).2) :
    v.place = place ∧ (∀ digits, v.port = some digits → Decimal.isDigits digits = true) ∧
      (v.port = none → ¬EndsInPort v.host) := by
  rcases host_cases place with ⟨host, digits, hdigits, hplace, hread⟩ | ⟨hnone, hread⟩
  · rw [hread] at hhost hport
    simp [Division.place, hhost, hport, hplace, hdigits]
  · rw [hread] at hhost hport
    simp [Division.place, hhost, hport, hnone]

/-- The parts of an authority are all of it, and each ends where it is found to end. -/
theorem divideAuthority_spec {scheme authority : List Char} (hscheme : ':' ∉ scheme)
    (hauthority : '/' ∉ authority) (path : List Char) :
    let v := divideAuthority scheme authority path
    v.scheme = scheme ∧ v.path = path ∧ v.info ++ v.place = authority ∧ v.Separated := by
  intro v
  cases hcut : Text.cutAtLast '@' authority with
  | none =>
      have hv : v = { scheme, username := none, password := none, host := (hostOf authority).1
                      port := (hostOf authority).2, path } := by
        show divideAuthority scheme authority path = _
        rw [divideAuthority, hcut]
      obtain ⟨hplace, hdigits, hhost⟩ := place_of_hostOf (v := v) (by rw [hv]) (by rw [hv])
      have hinfo : v.info = [] := by rw [hv]; rfl
      have hwhole : v.info ++ v.place = authority := by rw [hinfo, hplace, List.nil_append]
      refine ⟨by rw [hv], by rw [hv], hwhole, ?_⟩
      exact {
        scheme := by rwa [hv]
        authority := by rwa [hwhole]
        username := fun user huser => by rw [hv] at huser; cases huser
        password := fun _ => by rw [hv]
        place := by rw [hplace]; exact Text.cutAtLast_eq_none_iff.mp hcut
        digits := hdigits
        host := hhost }
  | some cut =>
      obtain ⟨info, place⟩ := cut
      obtain ⟨rfl, hat⟩ := Text.cutAtLast_eq_some_iff.mp hcut
      have hv : v = { scheme, username := some (userOf info).1, password := (userOf info).2
                      host := (hostOf place).1, port := (hostOf place).2, path } := by
        show divideAuthority scheme (info ++ '@' :: place) path = _
        rw [divideAuthority, hcut]
      obtain ⟨hplace, hdigits, hhost⟩ := place_of_hostOf (v := v) (by rw [hv]) (by rw [hv])
      obtain ⟨hinfo, huser⟩ := info_of_userOf (v := v) (by rw [hv]) (by rw [hv])
      have hwhole : v.info ++ v.place = info ++ '@' :: place := by rw [hinfo, hplace]; simp
      refine ⟨by rw [hv], by rw [hv], hwhole, ?_⟩
      exact {
        scheme := by rwa [hv]
        authority := by rwa [hwhole]
        username := fun user h => by rw [hv] at h; cases h; exact huser
        password := fun h => by rw [hv] at h; cases h
        place := by rwa [hplace]
        digits := hdigits
        host := hhost }

/-- Parts that are told apart are found again. -/
theorem divideAuthority_of_separated {v : Division} (h : v.Separated) :
    divideAuthority v.scheme (v.info ++ v.place) v.path = v := by
  have hhost : hostOf v.place = (v.host, v.port) := by
    unfold Division.place
    cases hport : v.port with
    | none =>
        simp only [List.append_nil]
        exact hostOf_alone (h.host hport)
    | some digits => exact hostOf_port (h.digits digits hport) v.host
  unfold divideAuthority Division.info
  cases husername : v.username with
  | none =>
      have hpassword := h.password husername
      have hcut : Text.cutAtLast '@' v.place = none := Text.cutAtLast_eq_none_iff.mpr h.place
      simp only [List.nil_append, hcut, hhost]
      cases v
      simp_all
  | some user =>
      have huser := h.username user husername
      cases hpassword : v.password with
      | none =>
          have hcut : Text.cutAtLast '@' (user ++ ['@'] ++ v.place) = some (user, v.place) :=
            Text.cutAtLast_eq_some_iff.mpr ⟨by simp, h.place⟩
          simp only [hcut, userOf_alone huser, hhost]
          cases v
          simp_all
      | some password =>
          have hcut : Text.cutAtLast '@' (user ++ ':' :: (password ++ ['@']) ++ v.place) =
              some (user ++ ':' :: password, v.place) :=
            Text.cutAtLast_eq_some_iff.mpr ⟨by simp, h.place⟩
          simp only [hcut, userOf_password huser, hhost]
          cases v
          simp_all

/-- An address is divided into parts exactly if it is these parts, told apart. -/
theorem divided?_eq_some_iff {s : List Char} {v : Division} :
    divided? s = some v ↔ s = v.text ∧ v.Separated := by
  constructor
  · intro h
    obtain ⟨⟨scheme, rest⟩, hscheme, h⟩ := Option.bind_eq_some_iff.mp h
    obtain ⟨behind, hbehind, h⟩ := Option.bind_eq_some_iff.mp h
    obtain ⟨⟨authority, path⟩, hauthority, h⟩ := Option.bind_eq_some_iff.mp h
    cases h
    obtain ⟨rfl, hcolon⟩ := Text.cutAt_eq_some_iff.mp hscheme
    rw [Text.afterLead?_eq_some] at hbehind
    obtain ⟨rfl, hslash⟩ := Text.cutAt_eq_some_iff.mp hauthority
    obtain ⟨hscheme, hpath, hwhole, hseparated⟩ := divideAuthority_spec hcolon hslash path
    refine ⟨?_, hseparated⟩
    rw [Division.text, hscheme, hpath, hwhole, show rest = _ from hbehind]
    simp
  · rintro ⟨rfl, h⟩
    have hscheme : Text.cutAt (· == ':') v.text =
        some (v.scheme, '/' :: '/' :: (v.info ++ v.place ++ '/' :: v.path)) :=
      Text.cutAt_eq_some_iff.mpr ⟨rfl, h.scheme⟩
    have hbehind : Text.afterLead? ['/', '/'] ('/' :: '/' :: (v.info ++ v.place ++ '/' :: v.path)) =
        some (v.info ++ v.place ++ '/' :: v.path) := Text.afterLead?_eq_some.mpr rfl
    have hauthority : Text.cutAt (· == '/') (v.info ++ v.place ++ '/' :: v.path) =
        some (v.info ++ v.place, v.path) := Text.cutAt_eq_some_iff.mpr ⟨rfl, h.authority⟩
    unfold divided?
    simp only [hscheme, hbehind, hauthority, Option.bind_eq_bind, Option.bind_some,
      divideAuthority_of_separated h]
    rfl



/-! ### Nothing is lost between the marks

Decoding never makes a text longer.  So if the parts of an address say what was put into it, they
have as many bytes as what was put in, and are the same texts. -/

/-- The number of bytes of a part and of its mark, if there is such a part. -/
def partLength (part : Option (List Char)) : Nat :=
  (part.map (Text.byteLength · + 1)).getD 0

namespace Division

variable {v : Division}

theorem slash_mem_info (h : v.username = none → v.password = none) :
    '/' ∈ v.info ↔ (∃ user, v.username = some user ∧ '/' ∈ user) ∨
      ∃ password, v.password = some password ∧ '/' ∈ password := by
  unfold info
  cases husername : v.username with
  | none => simp [h husername]
  | some user => cases v.password <;> simp

theorem mem_place {mark : Char} (hcolon : mark ≠ ':') (hdigit : mark.isDigit = false)
    (h : ∀ digits, v.port = some digits → Decimal.isDigits digits = true) :
    mark ∈ v.place ↔ mark ∈ v.host := by
  unfold place
  cases hport : v.port with
  | none => simp
  | some digits => simp [hcolon, not_mem_of_isDigits (h digits hport) hdigit]

theorem address?_eq_some_iff {a : Address} : v.address? = some a ↔
    v.username.mapM Percent.decoded? = some a.username ∧
      v.password.mapM Percent.decoded? = some a.password ∧
      Percent.decoded? v.host = some a.host ∧ Percent.decoded? v.path = some a.path ∧
      String.ofList v.scheme = a.scheme ∧ v.port.map Decimal.natOfDigits = a.port := by
  obtain ⟨scheme, username, password, host, port, path⟩ := a
  simp only [address?, Option.bind_eq_bind, Option.bind_eq_some_iff, Option.pure_def,
    Option.some.injEq, Address.mk.injEq]
  constructor
  · rintro ⟨_, husername, _, hpassword, _, hhost, _, hpath, hscheme, rfl, rfl, rfl, hport, rfl⟩
    exact ⟨husername, hpassword, hhost, hpath, hscheme, hport⟩
  · rintro ⟨husername, hpassword, hhost, hpath, hscheme, hport⟩
    exact ⟨_, husername, _, hpassword, _, hhost, _, hpath, hscheme, rfl, rfl, rfl, hport, rfl⟩

theorem byteLength_info (h : v.username = none → v.password = none) :
    Text.byteLength v.info = partLength v.username + partLength v.password := by
  have hcolon : ':'.utf8Size = 1 := by decide
  have hat : '@'.utf8Size = 1 := by decide
  have hnil : Text.byteLength [] = 0 := rfl
  unfold info
  cases husername : v.username with
  | none => simp [partLength, h husername, hnil]
  | some user =>
      cases v.password with
      | none => simp [partLength, Text.byteLength_append, Text.byteLength_cons, hat, hnil]
      | some password =>
          simp [partLength, Text.byteLength_append, Text.byteLength_cons, hcolon, hat, hnil]
          omega

theorem byteLength_place : Text.byteLength v.place = Text.byteLength v.host + partLength v.port := by
  have hcolon : ':'.utf8Size = 1 := by decide
  unfold place
  cases v.port with
  | none => simp [partLength]
  | some digits =>
      simp [partLength, Text.byteLength_append, Text.byteLength_cons, hcolon]
      omega

theorem byteLength_text (h : v.username = none → v.password = none) :
    Text.byteLength v.text =
      Text.byteLength v.scheme + partLength v.username + partLength v.password +
        Text.byteLength v.host + partLength v.port + Text.byteLength v.path + 4 := by
  have hcolon : ':'.utf8Size = 1 := by decide
  have hslash : '/'.utf8Size = 1 := by decide
  simp only [text, Text.byteLength_append, Text.byteLength_cons, byteLength_info h, byteLength_place,
    hcolon, hslash]
  omega

end Division

/-- A part that may be missing and what it says. -/
theorem partLength_le {part : Option (List Char)} {said : Option String}
    (h : part.mapM Percent.decoded? = some said) :
    partLength (said.map String.toList) ≤ partLength part := by
  cases part with
  | none =>
      cases h
      exact Nat.le_refl _
  | some s =>
      obtain ⟨t, ht, rfl⟩ := Option.map_eq_some_iff.mp h
      exact Nat.succ_le_succ (Percent.byteLength_le_of_decoded? ht)

theorem eq_of_partLength_le {part : Option (List Char)} {said : Option String}
    (h : part.mapM Percent.decoded? = some said)
    (hlength : partLength part ≤ partLength (said.map String.toList)) :
    part = said.map String.toList ∧ ∀ t, said = some t → ¬Percent.HasEscape t.toList := by
  cases part with
  | none =>
      cases h
      exact ⟨rfl, fun _ ht => nomatch ht⟩
  | some s =>
      obtain ⟨t, ht, rfl⟩ := Option.map_eq_some_iff.mp h
      obtain ⟨rfl, hescape⟩ := Percent.eq_of_decoded? ht (Nat.le_of_succ_le_succ hlength)
      refine ⟨rfl, fun u hu => ?_⟩
      cases hu
      exact hescape

theorem eq_none_of_mapM {part : Option (List Char)} (h : part.mapM Percent.decoded? = some none) :
    part = none := by
  cases part with
  | none => rfl
  | some s =>
      obtain ⟨t, -, ht⟩ := Option.map_eq_some_iff.mp h
      cases ht

theorem mapM_decoded? {said : Option String}
    (h : ∀ t, said = some t → ¬Percent.HasEscape t.toList) :
    (said.map String.toList).mapM Percent.decoded? = some said := by
  cases said with
  | none => rfl
  | some t =>
      show Option.map some (Percent.decoded? t.toList) = some (some t)
      rw [Percent.decoded?_toList.mpr (h t rfl)]
      rfl

/-- A port is never written with more digits than it was read from. -/
theorem partLength_digitsOf_le {port : Option (List Char)}
    (h : ∀ digits, port = some digits → Decimal.isDigits digits = true) :
    partLength ((port.map Decimal.natOfDigits).map Decimal.digitsOf) ≤ partLength port := by
  cases port with
  | none => exact Nat.le_refl _
  | some digits =>
      have hdigits := h digits rfl
      have hwritten : Text.byteLength (Decimal.digitsOf (Decimal.natOfDigits digits)) =
          (Decimal.digitsOf (Decimal.natOfDigits digits)).length :=
        Text.byteLength_of_isDigit fun c hc => Decimal.isDigit_of_mem_digitsOf hc
      have hread : Text.byteLength digits = digits.length :=
        Text.byteLength_of_isDigit (Decimal.isDigits_iff.mp hdigits).2
      show Text.byteLength _ + 1 ≤ Text.byteLength digits + 1
      rw [hwritten, hread]
      exact Nat.succ_le_succ (Decimal.length_digitsOf_natOfDigits hdigits)

/-- The parts an address is put together from: what each of them says, as it is. -/
def division (a : Address) : Division where
  scheme := a.scheme.toList
  username := a.username.map String.toList
  password := a.password.map String.toList
  host := a.host.toList
  port := a.port.map Decimal.digitsOf
  path := a.path.toList

/-- No part is lost or taken for a mark, for a piece of its neighbour or for an escape. -/
structure Unambiguous (a : Address) : Prop where
  scheme : ':' ∉ a.scheme.toList
  user : a.username = none → a.password = none
  username : ∀ user, a.username = some user → '/' ∉ user.toList ∧ ':' ∉ user.toList
  password : ∀ password, a.password = some password → '/' ∉ password.toList
  host : '/' ∉ a.host.toList ∧ '@' ∉ a.host.toList
  port : a.port = none → ¬EndsInPort a.host.toList
  escapes : ∀ text ∈ a.username.toList ++ a.password.toList ++ [a.host, a.path],
    ¬Percent.HasEscape text.toList

variable {a : Address}

/-- Parts that cannot be mistaken are told apart. -/
theorem separated_division (h : a.Unambiguous) : a.division.Separated := by
  have hdigits : ∀ digits, a.division.port = some digits → Decimal.isDigits digits = true := by
    intro digits hport
    obtain ⟨port, -, rfl⟩ := Option.map_eq_some_iff.mp hport
    exact Decimal.isDigits_digitsOf port
  have hpassword : a.division.username = none → a.division.password = none := by
    intro husername
    exact Option.map_eq_none_iff.mpr (h.user (Option.map_eq_none_iff.mp husername))
  have hinfo : '/' ∉ a.division.info := by
    rw [Division.slash_mem_info hpassword]
    rintro (⟨user, huser, hmem⟩ | ⟨password, hpassword, hmem⟩)
    · obtain ⟨text, htext, rfl⟩ := Option.map_eq_some_iff.mp huser
      exact (h.username text htext).1 hmem
    · obtain ⟨text, htext, rfl⟩ := Option.map_eq_some_iff.mp hpassword
      exact h.password text htext hmem
  exact {
    scheme := h.scheme
    authority := by
      rw [List.mem_append, Division.mem_place (by decide) (by decide) hdigits]
      exact not_or.mpr ⟨hinfo, h.host.1⟩
    username := by
      intro user huser
      obtain ⟨text, htext, rfl⟩ := Option.map_eq_some_iff.mp huser
      exact (h.username text htext).2
    password := hpassword
    place := by
      rw [Division.mem_place (by decide) (by decide) hdigits]
      exact h.host.2
    digits := hdigits
    host := fun hport => h.port (Option.map_eq_none_iff.mp hport) }

/-- What cannot be mistaken is read as it was put in. -/
theorem read?_of_unambiguous (h : a.Unambiguous) : read? (String.ofList a.division.text) = some a := by
  have hescapes := h.escapes
  simp only [List.mem_append, Option.mem_toList, List.mem_cons, List.not_mem_nil, or_false] at hescapes
  have husername : (a.username.map String.toList).mapM Percent.decoded? = some a.username :=
    mapM_decoded? fun t ht => hescapes t (.inl (.inl ht))
  have hpassword : (a.password.map String.toList).mapM Percent.decoded? = some a.password :=
    mapM_decoded? fun t ht => hescapes t (.inl (.inr ht))
  have hhost := Percent.decoded?_toList.mpr (hescapes _ (.inr (.inl rfl)))
  have hpath := Percent.decoded?_toList.mpr (hescapes _ (.inr (.inr rfl)))
  have hport : a.division.port.map Decimal.natOfDigits = a.port := by
    simp [division, Function.comp_def, Decimal.natOfDigits_digitsOf]
  rw [read?, String.toList_ofList, divided?_eq_some_iff.mpr ⟨rfl, separated_division h⟩,
    Option.bind_some]
  exact Division.address?_eq_some_iff.mpr
    ⟨husername, hpassword, hhost, hpath, String.ofList_toList, hport⟩

/-- What is read as it was put in has the same parts. -/
theorem unambiguous_of_read? (h : read? (String.ofList a.division.text) = some a) :
    a.Unambiguous := by
  rw [read?, String.toList_ofList] at h
  obtain ⟨v, hdivided, h⟩ := Option.bind_eq_some_iff.mp h
  obtain ⟨htext, hv⟩ := divided?_eq_some_iff.mp hdivided
  obtain ⟨husername, hpassword, hhost, hpath, hscheme, hport⟩ := Division.address?_eq_some_iff.mp h
  have huser : a.username = none → a.password = none := by
    intro hnone
    rw [hnone] at husername
    rw [hv.password (eq_none_of_mapM husername)] at hpassword
    exact (Option.some.inj hpassword).symm
  have huser' : a.division.username = none → a.division.password = none := fun hnone =>
    Option.map_eq_none_iff.mpr (huser (Option.map_eq_none_iff.mp hnone))
  have hschemes : a.division.scheme = v.scheme := by
    rw [division, ← hscheme, String.toList_ofList]
  -- No part is longer than what it was read from, and all together are as long.
  have husernameLe : partLength a.division.username ≤ partLength v.username := partLength_le husername
  have hpasswordLe : partLength a.division.password ≤ partLength v.password := partLength_le hpassword
  have hhostLe : Text.byteLength a.division.host ≤ Text.byteLength v.host :=
    Percent.byteLength_le_of_decoded? hhost
  have hpathLe : Text.byteLength a.division.path ≤ Text.byteLength v.path :=
    Percent.byteLength_le_of_decoded? hpath
  have hportLe : partLength a.division.port ≤ partLength v.port := by
    rw [division, ← hport]
    exact partLength_digitsOf_le hv.digits
  have hlength := congrArg Text.byteLength htext
  rw [Division.byteLength_text huser', Division.byteLength_text hv.password, hschemes] at hlength
  obtain ⟨husernames, husernameEscape⟩ :=
    eq_of_partLength_le husername (show partLength v.username ≤ partLength a.division.username by omega)
  obtain ⟨hpasswords, hpasswordEscape⟩ :=
    eq_of_partLength_le hpassword (show partLength v.password ≤ partLength a.division.password by omega)
  obtain ⟨hhosts, hhostEscape⟩ := Percent.eq_of_decoded? hhost
    (show Text.byteLength v.host ≤ Text.byteLength a.division.host by omega)
  obtain ⟨hpaths, hpathEscape⟩ := Percent.eq_of_decoded? hpath
    (show Text.byteLength v.path ≤ Text.byteLength a.division.path by omega)
  have hslash := hv.authority
  rw [List.mem_append, Division.slash_mem_info hv.password,
    Division.mem_place (by decide) (by decide) hv.digits, not_or, not_or] at hslash
  obtain ⟨⟨hslashUser, hslashPassword⟩, hslashHost⟩ := hslash
  have hat := hv.place
  rw [Division.mem_place (by decide) (by decide) hv.digits, hhosts] at hat
  exact {
    scheme := by
      have := hv.scheme
      rwa [← hschemes] at this
    user := huser
    username := by
      intro user hsome
      rw [hsome] at husernames
      exact ⟨fun hmem => hslashUser ⟨_, husernames, hmem⟩, hv.username _ husernames⟩
    password := by
      intro password hsome hmem
      rw [hsome] at hpasswords
      exact hslashPassword ⟨_, hpasswords, hmem⟩
    host := ⟨hhosts ▸ hslashHost, hat⟩
    port := by
      intro hnone
      rw [← hhosts]
      exact hv.host (Option.map_eq_none_iff.mp (hport.trans hnone))
    escapes := by
      simp only [List.mem_append, Option.mem_toList, List.mem_cons, List.not_mem_nil, or_false]
      rintro text ((htext | htext) | (rfl | rfl))
      · exact husernameEscape text htext
      · exact hpasswordEscape text htext
      · rwa [← hhosts]
      · rwa [← hpaths] }

/-- An address is read as it was put together exactly if none of its parts can be mistaken. -/
theorem read?_division_iff : read? (String.ofList a.division.text) = some a ↔ a.Unambiguous :=
  ⟨unambiguous_of_read?, read?_of_unambiguous⟩

end Address

/-! ### The address of a connection -/

namespace ConnectionConfig

/-- What the fields are meant to say. -/
def meant (c : ConnectionConfig) (database : String) : Address where
  scheme := scheme c.dialect
  username := c.username
  password := c.password
  host := c.host.getD "localhost"
  port := c.port.map UInt16.toNat
  path := database

variable {c : ConnectionConfig} {database : String}

theorem toList_port (port : UInt16) : (toString port).toList = Decimal.digitsOf port.toNat := by
  show (toString port.toNat).toList = _
  rw [Nat.toString_eq_repr, Nat.toList_repr]
  rfl

/-- The fields are put together as they are. -/
theorem address_eq (hdialect : c.dialect ≠ .sqlite) (hurl : c.url = none)
    (hdatabase : c.database = some database) :
    c.address = .ok (String.ofList (c.meant database).division.text) := by
  have htext : ∀ s : String, s.toList = (c.meant database).division.text →
      (.ok s : Except ConfigError String) = .ok (String.ofList (c.meant database).division.text) := by
    intro s hs
    rw [← hs, String.ofList_toList]
  unfold address
  simp only [hurl, hdatabase, if_neg hdialect]
  refine htext _ ?_
  have hmark : "://".toList = [':', '/', '/'] := rfl
  have hslash : "/".toList = ['/'] := rfl
  have hcolon : ":".toList = [':'] := rfl
  have hat : "@".toList = ['@'] := rfl
  unfold Address.Division.text Address.Division.info Address.Division.place Address.division meant
    credentials
  cases c.username with
  | none =>
      cases c.port with
      | none => simp [hmark, hslash]
      | some port => simp [hmark, hslash, hcolon, toList_port]
  | some user =>
      cases c.password with
      | none =>
          cases c.port with
          | none => simp [hmark, hslash, hat]
          | some port => simp [hmark, hslash, hcolon, hat, toList_port]
      | some password =>
          cases c.port with
          | none => simp [hmark, hslash, hcolon, hat]
          | some port => simp [hmark, hslash, hcolon, hat, toList_port]

/-- **What is read back from the address of a connection is what its fields say exactly if no field
is lost and none can be mistaken for something else.** -/
theorem address_read_back_iff (hdialect : c.dialect ≠ .sqlite) (hurl : c.url = none)
    (hdatabase : c.database = some database) :
    ∃ url, c.address = .ok url ∧
      (Address.read? url = some (c.meant database) ↔ (c.meant database).Unambiguous) :=
  ⟨_, address_eq hdialect hurl hdatabase, Address.read?_division_iff⟩

/-- A colon and an `@` inside a password are no marks. -/
theorem marked_password_read_back :
    let c : ConnectionConfig :=
      { dialect := .mysql, host := some "db", port := some 3306, database := some "app/live"
        username := some "ops", password := some "p@ss:100%" }
    c.address = .ok "mysql://ops:p@ss:100%@db:3306/app/live" ∧
      Address.read? "mysql://ops:p@ss:100%@db:3306/app/live" = some (c.meant "app/live") := by
  intro c
  obtain ⟨url, haddress, hread⟩ :=
    address_read_back_iff (c := c) (show c.dialect ≠ .sqlite by decide) rfl rfl
  have hurl : c.address = .ok "mysql://ops:p@ss:100%@db:3306/app/live" := by decide +kernel
  have hsame : url = "mysql://ops:p@ss:100%@db:3306/app/live" := by
    rw [hurl] at haddress
    exact (Except.ok.inj haddress).symm
  refine ⟨hurl, hsame ▸ hread.mpr ?_⟩
  exact {
    scheme := by decide +kernel
    user := by decide +kernel
    username := fun user h => by cases h; decide +kernel
    password := fun password h => by cases h; decide +kernel
    host := by decide +kernel
    port := fun h => nomatch h
    escapes := fun text h => Percent.decoded?_toList.mp (by revert text; decide +kernel) }

/-- A password without a user is lost. -/
theorem password_without_user_dropped :
    let c : ConnectionConfig :=
      { dialect := .postgres, database := some "app", password := some "secret" }
    c.address = .ok "postgres://localhost/app" ∧
      (Address.read? "postgres://localhost/app").map (·.password) = some none := by
  decide +kernel

end ConnectionConfig

end Relational
