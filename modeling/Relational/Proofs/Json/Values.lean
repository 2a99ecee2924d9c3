import Relational.Proofs.Json.Numbers
import Relational.Proofs.Json.Strings
/-
Values survive being written as JSON and read again.

A member of an object is read by what is read of its value and stands behind it: a comma,
or the closing brace.
-/
namespace Relational.Json

variable {fuel : Nat}

/-! ### Strings -/

theorem readValue?_quoted (s : String) (rest : List Char) :
    readValue? textOfUnits? (fuel + 1) (quoted s ++ rest) = some (.string (some s), rest) := by
  rw [quoted, List.cons_append, List.append_assoc, readValue?, skipSpace_cons rfl]
  exact congrArg (Option.map _) (readString?_quoted s rest)

/-! ### Objects -/

/-- The last member of an object, whatever is read of its value. -/
theorem readMembers?_last {key : String} {s rest : List Char} {v? : Option Json}
    (h : readValue? textOfUnits? fuel s = v?.map (·, '\x7d' :: rest)) :
    readMembers? textOfUnits? (fuel + 1) (quoted key ++ ':' :: s) =
      v?.map fun v => ([(some key, v)], rest) := by
  rw [quoted, List.cons_append, List.append_assoc, readMembers?, skipSpace_cons rfl]
  simp only [List.singleton_append, readString?_quoted, Option.bind_eq_bind, Option.bind_some,
    skipSpace_cons (show isSpace ':' = false from rfl), h]
  cases v? with
  | none => rfl
  | some v =>
      simp only [Option.map_some, Option.bind_some,
        skipSpace_cons (show isSpace '\x7d' = false from rfl)]
      rfl

/-- A member with others behind it. -/
theorem readMembers?_more {key : String} {s rest : List Char} {v : Json}
    (h : readValue? textOfUnits? fuel s = some (v, ',' :: rest)) :
    readMembers? textOfUnits? (fuel + 1) (quoted key ++ ':' :: s) =
      (readMembers? textOfUnits? fuel rest).map fun (members, tail) =>
        ((some key, v) :: members, tail) := by
  rw [quoted, List.cons_append, List.append_assoc, readMembers?, skipSpace_cons rfl]
  simp only [List.singleton_append, readString?_quoted, Option.bind_eq_bind, Option.bind_some,
    skipSpace_cons (show isSpace ':' = false from rfl), h,
    skipSpace_cons (show isSpace ',' = false from rfl)]
  cases readMembers? textOfUnits? fuel rest with
  | none => rfl
  | some read => rfl

/-- An object with members. -/
theorem readValue?_object {key : String} {rest : List Char} :
    readValue? textOfUnits? (fuel + 1) ('\x7b' :: (quoted key ++ rest)) =
      (readMembers? textOfUnits? fuel (quoted key ++ rest)).map fun (members, tail) =>
        (.object members, tail) := by
  rw [readValue?, skipSpace_cons rfl, quoted, List.cons_append]
  simp only [skipSpace_cons (show isSpace '"' = false from rfl)]
  rfl

/-! ### Whole texts -/

theorem toList_loop (bytes : ByteArray) (i : Nat) (seen : List UInt8) :
    ByteArray.toList.loop bytes i seen = seen.reverse ++ bytes.data.toList.drop i := by
  fun_induction ByteArray.toList.loop bytes i seen with
  | case1 i seen hlt ih =>
      have hlength : i < bytes.data.toList.length := hlt
      have hget : bytes.get! i = bytes.data.toList[i] := getElem!_pos bytes.data i hlt
      rw [ih, List.drop_eq_getElem_cons hlength, hget, List.reverse_cons, List.append_assoc,
        List.singleton_append]
  | case2 i seen hge =>
      have hlength : bytes.data.toList.length ≤ i := Nat.le_of_not_lt hge
      rw [List.drop_eq_nil_of_le hlength, List.append_nil]

theorem mk_toList (bytes : ByteArray) : (⟨bytes.toList.toArray⟩ : ByteArray) = bytes := by
  rw [ByteArray.toList, toList_loop]
  simp

/-- The bytes of a text are read as the text. -/
theorem ofBytes?_toUTF8 (s : String) : ofBytes? s.toUTF8.toList = ofChars? textOfUnits? s.toList := by
  have htext : String.fromUTF8? ⟨s.toUTF8.toList.toArray⟩ = some s := by
    rw [mk_toList]
    exact dif_pos s.isValidUTF8
  rw [ofBytes?, htext]

end Relational.Json
