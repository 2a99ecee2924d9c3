import Relational.Value
/-
Rows: columns with their values, in the order of the select list.

A column name stands for one value, so a name that comes twice keeps its first place and takes the
last value.
-/
namespace Relational

/-- Columns and their values in order, no column twice. -/
structure Row where
  entries : List (String × Value)
  nodup : (entries.map Prod.fst).Nodup := by simp

namespace Row

/-- Sets a column: in place if the row has it, at the end otherwise. -/
def put {α : Type} (column : String) (value : α) : List (String × α) → List (String × α)
  | [] => [(column, value)]
  | (c, v) :: rest => if c = column then (c, value) :: rest else (c, v) :: put column value rest

theorem mem_keys_put {α : Type} {column : String} {value : α} {entries : List (String × α)}
    {c : String} (h : c ∈ (put column value entries).map Prod.fst) :
    c = column ∨ c ∈ entries.map Prod.fst := by
  induction entries with
  | nil => simpa [put] using h
  | cons e rest ih =>
    by_cases he : e.1 = column
    · simp only [put, he, if_true, List.map_cons, List.mem_cons] at h ⊢
      exact h.elim Or.inl fun h => .inr (.inr h)
    · simp only [put, he, if_false, List.map_cons, List.mem_cons] at h ⊢
      rcases h with h | h
      · exact .inr (.inl h)
      · exact (ih h).imp id Or.inr

theorem nodup_keys_put {α : Type} {column : String} {value : α} {entries : List (String × α)}
    (h : (entries.map Prod.fst).Nodup) : ((put column value entries).map Prod.fst).Nodup := by
  induction entries with
  | nil => simp [put]
  | cons e rest ih =>
    simp only [List.map_cons, List.nodup_cons] at h
    by_cases he : e.1 = column
    · simp only [put, he, if_true, List.map_cons, List.nodup_cons]
      exact ⟨he ▸ h.1, h.2⟩
    · simp only [put, he, if_false, List.map_cons, List.nodup_cons]
      refine ⟨fun hmem => ?_, ih h.2⟩
      rcases mem_keys_put hmem with hc | hc
      · exact he hc
      · exact h.1 hc

/-- The row without columns. -/
def empty : Row := ⟨[], by simp⟩

instance : Inhabited Row := ⟨empty⟩

/-- The row with one column set. -/
def insert (row : Row) (column : String) (value : Value) : Row :=
  ⟨put column value row.entries, nodup_keys_put row.nodup⟩

/-- The row with the given columns set one after the other. -/
def ofList (entries : List (String × Value)) : Row :=
  entries.foldl (fun row (column, value) => row.insert column value) empty

/-- Columns with their values, in order. -/
def toList (row : Row) : List (String × Value) :=
  row.entries

/-- The column names, in order. -/
def columns (row : Row) : List String :=
  row.entries.map Prod.fst

/-- Number of columns. -/
def size (row : Row) : Nat :=
  row.entries.length

/-- The value of a column. -/
def get? (row : Row) (column : String) : Option Value :=
  row.entries.lookup column

/-- The value of the first column. -/
def first? (row : Row) : Option Value :=
  row.entries.head?.map Prod.snd

/-- The row with every value replaced. -/
def mapValues (f : Value → Value) (row : Row) : Row :=
  ⟨row.entries.map fun (c, v) => (c, f v), by
    have h : (row.entries.map fun (c, v) => (c, f v)).map Prod.fst = row.entries.map Prod.fst := by
      simp
    rw [h]; exact row.nodup⟩

/-- The row with numbers for texts that plainly denote them. -/
def normalized (row : Row) : Row :=
  row.mapValues Value.normalized

end Row

end Relational
