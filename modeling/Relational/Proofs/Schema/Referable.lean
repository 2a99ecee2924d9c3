import Relational.Config.Basic
import Relational.Proofs.Schema.Keyed
import Relational.Proofs.Schema.MadeUp
import Relational.Proofs.Schema.Prefixed
/-
Prefixes under which tables can be referred to.

The name of a table that is made is checked as it was given, and the prefix is put in front of it
later.  The name of a table that a foreign key refers to is checked with the prefix in front.  So
a table is made under every prefix, but it is referred to only under one that leaves each name a
name: up to a dot it is a name itself, and behind that it begins a segment.
-/
namespace Relational

/-! ### What can stand in front of a name -/

namespace Name

/-- The text leaves a name behind it a name: it is a name and a dot, or nothing, and behind that a
segment, or nothing. -/
def IsLead (p : String) : Prop :=
  ∃ front last : List Char, p.toList = front ++ last ∧
    (front = [] ∨ ∃ name, front = name ++ ['.'] ∧ isDotted name = true) ∧
    (last = [] ∨ isSegment last = true)

theorem isLead_empty : IsLead "" :=
  ⟨[], [], rfl, .inl rfl, .inl rfl⟩

theorem dot_not_mem_of_isSegment {s : List Char} (h : isSegment s = true) : '.' ∉ s :=
  fun hmem => absurd (isPart_of_isSegment h hmem) (by decide)

theorem isColumn_iff_isDotted {name : String} :
    isColumn name = true ↔ isDotted name.toList = true := by
  by_cases hstar : name = "*"
  · subst hstar
    decide
  · simp [isColumn, isIdentifier, hstar]

theorem isSegment_append_iff {u t : List Char} (ht : isSegment t = true) :
    isSegment (u ++ t) = true ↔ u = [] ∨ isSegment u = true := by
  constructor
  · intro h
    cases u with
    | nil => exact .inl rfl
    | cons c rest =>
        rw [List.cons_append, isSegment, List.all_append] at h
        rw [isSegment]
        simp only [Bool.and_eq_true] at h ⊢
        exact .inr ⟨h.1, h.2.1⟩
  · rintro (rfl | hu)
    · exact ht
    · exact isSegment_append hu ht

/-- The first segment takes what is put in front. -/
theorem splitOn_append_of_not_mem {u t first : List Char} {rest : List (List Char)}
    (hu : '.' ∉ u) (h : t.splitOn '.' = first :: rest) :
    (u ++ t).splitOn '.' = (u ++ first) :: rest := by
  by_cases hdot : '.' ∈ t
  · obtain ⟨opening, others, rfl, hopening⟩ := List.eq_append_cons_of_mem hdot
    rw [List.splitOn_append_cons_self_of_not_mem hopening] at h
    cases h
    rw [← List.append_assoc, List.splitOn_append_cons_self_of_not_mem]
    simp [hu, hopening]
  · rw [splitOn_of_not_mem hdot] at h
    cases h
    rw [splitOn_of_not_mem]
    simp [hu, hdot]

theorem exists_of_isDotted {s : List Char} (h : isDotted s = true) : ∃ first rest,
    s.splitOn '.' = first :: rest ∧ isSegment first = true ∧
      ∀ t ∈ rest, isSegment t = true ∨ t = ['*'] := by
  unfold isDotted at h
  split at h
  · cases h
  · rename_i first rest hsplit
    simp only [Bool.and_eq_true, List.all_eq_true, Bool.or_eq_true, beq_iff_eq] at h
    exact ⟨first, rest, hsplit, h⟩

theorem isDotted_append_iff {u t : List Char} (hu : '.' ∉ u) (ht : isDotted t = true) :
    isDotted (u ++ t) = true ↔ u = [] ∨ isSegment u = true := by
  obtain ⟨first, rest, hsplit, hfirst, hrest⟩ := exists_of_isDotted ht
  rw [isDotted, splitOn_append_of_not_mem hu hsplit, ← isSegment_append_iff hfirst]
  simpa using fun _ => hrest

/-- Behind a name and a dot, a dotted name has its first segment continued. -/
theorem isDotted_behind_dot_iff {name u t : List Char} (hu : '.' ∉ u) (ht : isDotted t = true) :
    isDotted (name ++ '.' :: (u ++ t)) = true ↔
      isDotted name = true ∧ (u = [] ∨ isSegment u = true) := by
  obtain ⟨first, rest, hsplit, hfirst, hrest⟩ := exists_of_isDotted ht
  obtain ⟨opening, others, hname⟩ :=
    List.exists_cons_of_ne_nil (List.splitOnP_ne_nil (· == '.') name)
  have hstar : u ++ first ≠ ['*'] := by
    intro hwild
    cases first with
    | nil => cases hfirst
    | cons c more =>
        have hmem : c ∈ ['*'] := hwild ▸ by simp
        rw [List.mem_singleton.mp hmem] at hfirst
        cases hfirst
  rw [← isSegment_append_iff hfirst, isDotted, isDotted, List.splitOn_append_cons_self,
    splitOn_append_of_not_mem hu hsplit, List.splitOn, hname]
  simp only [List.cons_append, List.all_append, List.all_cons, Bool.and_eq_true, Bool.or_eq_true,
    beq_iff_eq, hstar, or_false, List.all_eq_true, and_assoc]
  constructor
  · rintro ⟨hopening, hothers, hlast, -⟩
    exact ⟨hopening, hothers, hlast⟩
  · rintro ⟨hopening, hothers, hlast⟩
    exact ⟨hopening, hothers, hlast, hrest⟩

/-- A text leaves one name a name if and only if it leaves each of them one. -/
theorem isColumn_append_iff {p name : String} (h : isColumn name = true) :
    isColumn (p ++ name) = true ↔ IsLead p := by
  rw [isColumn_iff_isDotted] at h ⊢
  rw [String.toList_append]
  constructor
  · intro hboth
    by_cases hdot : '.' ∈ p.toList
    · -- Everything up to the last dot is a name of its own.
      obtain ⟨last, front, hreverse, hlast⟩ :=
        List.eq_append_cons_of_mem (List.mem_reverse.mpr hdot)
      have hp : p.toList = front.reverse ++ '.' :: last.reverse := by
        rw [← List.reverse_reverse p.toList, hreverse]
        simp
      rw [hp, List.append_assoc, List.cons_append,
        isDotted_behind_dot_iff (by simpa using hlast) h] at hboth
      exact ⟨front.reverse ++ ['.'], last.reverse, by simp [hp], .inr ⟨_, rfl, hboth.1⟩, hboth.2⟩
    · exact ⟨[], p.toList, rfl, .inl rfl, (isDotted_append_iff hdot h).mp hboth⟩
  · rintro ⟨front, last, hp, hfront, hlast⟩
    have hdot : '.' ∉ last := by
      rcases hlast with rfl | hlast
      · exact List.not_mem_nil
      · exact dot_not_mem_of_isSegment hlast
    rw [hp]
    rcases hfront with rfl | ⟨front, rfl, hname⟩
    · exact (isDotted_append_iff hdot h).mpr hlast
    · rw [List.append_assoc, List.append_assoc]
      exact (isDotted_behind_dot_iff hdot h).mpr ⟨hname, hlast⟩

end Name

/-- The foreign key is over columns and refers to as many, all of them named. -/
structure ForeignKey.WellFormed (fk : ForeignKey) : Prop where
  nonempty : fk.columns ≠ []
  arity : fk.referencedColumns.length = fk.columns.length
  names : ∀ column ∈ fk.columns ++ fk.referencedColumns, Name.isColumn column = true

namespace SchemaCompiler

/-! ### What a foreign key asks of the prefix -/

theorem checkName_eq_ok_iff {name : String} :
    checkName name = .ok () ↔ Name.isColumn name = true :=
  ⟨isColumn_of_checkName, fun h => if_pos h⟩

theorem forM_checkName_eq_ok_iff {names : List String} :
    names.forM checkName = .ok () ↔ ∀ name ∈ names, Name.isColumn name = true := by
  induction names with
  | nil => exact ⟨fun _ _ hmem => absurd hmem List.not_mem_nil, fun _ => rfl⟩
  | cons name rest ih =>
      rw [List.forM, List.forall_mem_cons, ← ih, ← checkName_eq_ok_iff]
      constructor
      · intro h
        obtain ⟨⟨⟩, hname, hrest⟩ := exists_of_bind h
        exact ⟨hname, hrest⟩
      · rintro ⟨hname, hrest⟩
        rw [hname]
        exact hrest

/-- Of a well-formed foreign key only the name of the table is left to check. -/
theorem checkForeign_of_wellFormed {fk : ForeignKey} (h : fk.WellFormed)
    (hset : fk.referencedTable ≠ "") : checkForeign fk = checkName fk.referencedTable := by
  have hcolumns : ¬fk.columns.isEmpty = true := by
    simpa using h.nonempty
  have htable : ¬fk.referencedTable.isEmpty = true := by
    simpa using hset
  unfold checkForeign
  rw [if_neg hcolumns, if_neg htable, if_neg (not_not_intro h.arity),
    forM_checkName_eq_ok_iff.mpr h.names]
  cases checkName fk.referencedTable with
  | error fault => rfl
  | ok _ => rfl

theorem wellFormed_of_checkForeign {fk : ForeignKey} (h : checkForeign fk = .ok ()) :
    fk.WellFormed := by
  unfold checkForeign at h
  split at h
  · cases h
  rename_i hcolumns
  split at h
  · cases h
  split at h
  · cases h
  rename_i harity
  obtain ⟨⟨⟩, -, hnames⟩ := exists_of_bind h
  exact ⟨by simpa using hcolumns, not_not.mp harity, forM_checkName_eq_ok_iff.mp hnames⟩

theorem wellFormed_prefixedForeign {k : SchemaCompiler} {fk : ForeignKey} :
    (k.prefixedForeign fk).WellFormed ↔ fk.WellFormed :=
  ⟨fun h => ⟨h.nonempty, h.arity, h.names⟩, fun h => ⟨h.nonempty, h.arity, h.names⟩⟩

section Referring

variable (k : SchemaCompiler) {fk : ForeignKey} (hname : Name.isColumn fk.referencedTable = true)
include hname

theorem referencedTable_prefixedForeign :
    (k.prefixedForeign fk).referencedTable = k.tableName fk.referencedTable := by
  have hset : ¬fk.referencedTable.isEmpty = true := by
    rw [String.isEmpty_iff]
    intro hempty
    rw [hempty] at hname
    cases hname
  exact if_neg hset

/-- The name that is left to check has the prefix in front. -/
theorem checkForeign_prefixedForeign (hfk : fk.WellFormed) :
    checkForeign (k.prefixedForeign fk) = checkName (k.tableName fk.referencedTable) := by
  rw [← k.referencedTable_prefixedForeign hname]
  refine checkForeign_of_wellFormed (wellFormed_prefixedForeign.mpr hfk) fun hempty => ?_
  rw [k.referencedTable_prefixedForeign hname, tableName, String.append_eq_empty_iff] at hempty
  rw [hempty.2] at hname
  cases hname

theorem checkForeign_prefixedForeign_eq_ok_iff :
    checkForeign (k.prefixedForeign fk) = .ok () ↔ fk.WellFormed ∧ Name.IsLead k.tablePrefix := by
  constructor
  · intro h
    have hfk := wellFormed_prefixedForeign.mp (wellFormed_of_checkForeign h)
    rw [k.checkForeign_prefixedForeign hname hfk, checkName_eq_ok_iff, tableName,
      Name.isColumn_append_iff hname] at h
    exact ⟨hfk, h⟩
  · rintro ⟨hfk, hlead⟩
    rwa [k.checkForeign_prefixedForeign hname hfk, checkName_eq_ok_iff, tableName,
      Name.isColumn_append_iff hname]

end Referring

/-! ### Nothing else asks anything of it -/

/-- The command can be compiled for a new table. -/
def Creatable (k : SchemaCompiler) (table : String) (command : BlueprintCommand) : Prop :=
  ∃ part, k.createPart (k.tableName table) command = .ok part

theorem creatable_foreign_iff (k : SchemaCompiler) (table : String) {fk : ForeignKey}
    (hname : Name.isColumn fk.referencedTable = true) :
    k.Creatable table (.foreign fk) ↔ fk.WellFormed ∧ Name.IsLead k.tablePrefix := by
  rw [← k.checkForeign_prefixedForeign_eq_ok_iff hname]
  constructor
  · rintro ⟨part, h⟩
    obtain ⟨⟨⟩, hcheck, -⟩ := exists_of_bind h
    exact hcheck
  · intro hcheck
    refine ⟨{ constraints := [k.dialect.foreignKeyClause (k.prefixedForeign fk)] }, ?_⟩
    rw [createPart, hcheck]
    rfl

/-- Whether a dialect has an index does not depend on the table. -/
theorem exists_createIndex_on {d : Dialect} {table : String} {i : Index} {statement : String}
    (h : d.createIndex table i = .ok statement) (other : String) :
    ∃ moved, d.createIndex other i = .ok moved := by
  unfold Dialect.createIndex Dialect.createPostgresIndex Dialect.addPrimary at h ⊢
  cases d <;> cases hkind : i.kind <;> simp_all

theorem exists_columnIndexes_on {k moved : SchemaCompiler} (hdialect : moved.dialect = k.dialect)
    {table : String} {c : Column} {statements : List String}
    (h : k.columnIndexes table c = .ok statements) (other : String) :
    ∃ those, moved.columnIndexes other c = .ok those := by
  refine exists_mapM_eq_ok_iff.mpr fun i hi => ?_
  obtain ⟨statement, -, hstatement⟩ := exists_mapM_of_mem h hi
  rw [hdialect]
  exact exists_createIndex_on hstatement other

theorem checkIndex_moved {table : String} {i : Index} (h : checkIndex table i = .ok ())
    (other : String) : checkIndex other i = .ok () := by
  unfold checkIndex at h ⊢
  split at h
  · cases h
  · rename_i hsome
    rwa [if_neg hsome]

/-- What is no foreign key is compiled for every table, or for none. -/
theorem Creatable.moved {k moved : SchemaCompiler} (hdialect : moved.dialect = k.dialect)
    {table : String} {command : BlueprintCommand} (hforeign : command.foreign? = none)
    (h : k.Creatable table command) (other : String) : moved.Creatable other command := by
  obtain ⟨part, h⟩ := h
  cases command with
  | column c =>
      obtain ⟨⟨⟩, hcheck, h⟩ := exists_of_bind h
      change (if c.change then _ else _) = _ at h
      split at h
      · cases h
      rename_i hchange
      obtain ⟨definition, hdefinition, h⟩ := exists_of_bind h
      obtain ⟨indexes, hindexes, -⟩ := exists_of_bind h
      obtain ⟨those, hthose⟩ :=
        exists_columnIndexes_on hdialect hindexes (moved.tableName other)
      rw [← hdialect] at hdefinition
      refine exists_bind hcheck ?_
      change ∃ part, (if c.change then _ else _) = _
      rw [if_neg hchange]
      exact exists_bind hdefinition (exists_bind hthose ⟨_, rfl⟩)
  | index i =>
      obtain ⟨⟨⟩, hcheck, h⟩ := exists_of_bind h
      refine exists_bind (checkIndex_moved hcheck _) ?_
      change (if i.kind = .primary then _ else _) = _ at h
      change ∃ part, (if i.kind = .primary then _ else _) = _
      split at h
      · rename_i hkind
        rw [if_pos hkind]
        exact ⟨_, rfl⟩
      · rename_i hkind
        obtain ⟨statement, hstatement, -⟩ := exists_of_bind h
        obtain ⟨those, hthose⟩ := exists_createIndex_on hstatement (moved.tableName other)
        rw [← hdialect] at hthose
        rw [if_neg hkind]
        exact exists_bind hthose ⟨_, rfl⟩
  | foreign fk => cases hforeign
  | _ => cases h

/-! ### New tables -/

/-- A new table is compiled if it has a column and one key at most, and if each command is. -/
theorem exists_compileCreate_iff {k : SchemaCompiler} {b : Blueprint} :
    (∃ statements, k.compileCreate b = .ok statements) ↔
      b.columns ≠ [] ∧ b.primarySources ≤ 1 ∧
        ∀ command ∈ b.commands, k.Creatable b.table command := by
  constructor
  · rintro ⟨statements, h⟩
    obtain ⟨parts, hparts, hcolumns, -⟩ := compileCreate_eq_ok h
    obtain ⟨_, _, -, hkey⟩ := oneKey_compileCreate h
    exact ⟨hcolumns, hkey.sources, exists_mapM_eq_ok_iff.mp ⟨parts, hparts⟩⟩
  · rintro ⟨hcolumns, hsources, hcommands⟩
    obtain ⟨parts, hparts⟩ := exists_mapM_eq_ok_iff.mpr hcommands
    have hsome : ¬b.columns.isEmpty = true := by
      simpa using hcolumns
    have hcount : ¬1 < primarySources parts := by
      rw [primarySources_parts (forall₂_of_mapM hparts)]
      exact Nat.not_lt.mpr hsources
    unfold compileCreate
    rw [if_neg hsome, hparts]
    change ∃ statements, (if 1 < primarySources parts then _ else _) = _
    rw [if_neg hcount]
    exact ⟨_, rfl⟩

theorem exists_compile_iff {k : SchemaCompiler} {b : Blueprint} (hcreate : b.mode = .create) :
    (∃ statements, k.compile b = .ok statements) ↔
      Name.isColumn b.table = true ∧ b.columns ≠ [] ∧ b.primarySources ≤ 1 ∧
        ∀ command ∈ b.commands, k.Creatable b.table command := by
  rw [← exists_compileCreate_iff]
  constructor
  · rintro ⟨statements, h⟩
    obtain ⟨⟨⟩, hname, h⟩ := exists_of_bind h
    rw [hcreate] at h
    exact ⟨isColumn_of_checkName hname, statements, h⟩
  · rintro ⟨hname, hstatements⟩
    refine exists_bind (checkName_eq_ok_iff.mpr hname) ?_
    rw [hcreate]
    exact hstatements

/-- A prefix is asked for by foreign keys, and by nothing else. -/
theorem creatable_iff_unprefixed {k : SchemaCompiler} {table : String} {command : BlueprintCommand}
    (hnames : ∀ fk ∈ command.foreign?, Name.isColumn fk.referencedTable = true) :
    k.Creatable table command ↔
      k.unprefixed.Creatable table command ∧
        (command.foreign? = none ∨ Name.IsLead k.tablePrefix) := by
  cases hforeign : command.foreign? with
  | none =>
      have hdialect : k.unprefixed.dialect = k.dialect := rfl
      exact ⟨fun h => ⟨h.moved hdialect hforeign table, .inl rfl⟩,
        fun h => h.1.moved hdialect.symm hforeign table⟩
  | some fk =>
      cases command with
      | foreign key =>
          cases hforeign
          have hname := hnames fk rfl
          rw [k.creatable_foreign_iff table hname, k.unprefixed.creatable_foreign_iff table hname]
          exact ⟨fun h => ⟨⟨h.1, Name.isLead_empty⟩, .inr h.2⟩,
            fun h => ⟨h.1.1, h.2.resolve_left (by simp)⟩⟩
      | _ => cases hforeign

theorem compile_iff_unprefixed {k : SchemaCompiler} {b : Blueprint} (hcreate : b.mode = .create)
    (hnames : ∀ fk ∈ b.foreignKeys, Name.isColumn fk.referencedTable = true) :
    (∃ statements, k.compile b = .ok statements) ↔
      (∃ statements, k.unprefixed.compile b = .ok statements) ∧
        (b.foreignKeys = [] ∨ Name.IsLead k.tablePrefix) := by
  have hcommands : (∀ command ∈ b.commands, k.Creatable b.table command) ↔
      (∀ command ∈ b.commands, k.unprefixed.Creatable b.table command) ∧
        (b.foreignKeys = [] ∨ Name.IsLead k.tablePrefix) := by
    have hnone : b.foreignKeys = [] ↔ ∀ command ∈ b.commands, command.foreign? = none :=
      List.filterMap_eq_nil_iff
    simp only [hnone, ← forall_or_right, ← forall₂_and]
    refine forall₂_congr fun command hcommand => creatable_iff_unprefixed fun fk hfk => ?_
    exact hnames fk (List.mem_filterMap.mpr ⟨command, hcommand, hfk⟩)
  rw [exists_compile_iff hcreate, exists_compile_iff hcreate, hcommands]
  simp only [and_assoc]

/-! ### One foreign key more -/

end SchemaCompiler

namespace Blueprint

/-- The blueprint with a foreign key behind the first commands. -/
def withForeign (b : Blueprint) (n : Nat) (fk : ForeignKey) : Blueprint :=
  { b with commands := b.commands.take n ++ .foreign fk :: b.commands.drop n }

variable (b : Blueprint) (n : Nat) (fk : ForeignKey)

theorem filterMap_withForeign {α : Type} {f : BlueprintCommand → Option α}
    (h : f (.foreign fk) = none) :
    (b.withForeign n fk).commands.filterMap f = b.commands.filterMap f := by
  rw [withForeign, List.filterMap_append, List.filterMap_cons_none h, ← List.filterMap_append,
    List.take_append_drop]

@[simp] theorem columns_withForeign : (b.withForeign n fk).columns = b.columns :=
  b.filterMap_withForeign n fk rfl

@[simp] theorem primarySources_withForeign :
    (b.withForeign n fk).primarySources = b.primarySources := by
  have hindexes : (b.withForeign n fk).indexes = b.indexes := b.filterMap_withForeign n fk rfl
  rw [primarySources, columns_withForeign, hindexes, primarySources]

theorem mem_withForeign {command : BlueprintCommand} :
    command ∈ (b.withForeign n fk).commands ↔ command = .foreign fk ∨ command ∈ b.commands := by
  conv_rhs => rw [← List.take_append_drop n b.commands]
  simp only [withForeign, List.mem_append, List.mem_cons]
  exact or_left_comm

end Blueprint

namespace SchemaCompiler

section Added

variable {k : SchemaCompiler} {owner : Blueprint} {fk : ForeignKey} {statements : List String}
  (hcreate : owner.mode = .create) (howner : k.compile owner = .ok statements)
  (hname : Name.isColumn fk.referencedTable = true) (hfk : fk.WellFormed)
include hcreate howner hname hfk

theorem exists_compile_withForeign (hlead : Name.IsLead k.tablePrefix) (n : Nat) :
    ∃ more, k.compile (owner.withForeign n fk) = .ok more := by
  obtain ⟨htable, hcolumns, hsources, hrest⟩ := (exists_compile_iff hcreate).mp ⟨_, howner⟩
  have hmode : (owner.withForeign n fk).mode = .create := hcreate
  refine (exists_compile_iff hmode).mpr ⟨htable, ?_, ?_, fun command hcommand => ?_⟩
  · rwa [owner.columns_withForeign]
  · rwa [owner.primarySources_withForeign]
  · rcases (owner.mem_withForeign n fk).mp hcommand with rfl | hmem
    · exact (k.creatable_foreign_iff owner.table hname).mpr ⟨hfk, hlead⟩
    · exact hrest command hmem

/-- Where the name with the prefix is none, that is the fault. -/
theorem compile_withForeign_of_not_lead (hlead : ¬Name.IsLead k.tablePrefix) (n : Nat) :
    k.compile (owner.withForeign n fk) =
      .error (.invalidIdentifier (k.tableName fk.referencedTable)) := by
  obtain ⟨htable, hcolumns, -, hrest⟩ := (exists_compile_iff hcreate).mp ⟨_, howner⟩
  have hsome : ¬(owner.withForeign n fk).columns.isEmpty = true := by
    simpa using hcolumns
  have hpart : k.createPart (k.tableName owner.table) (.foreign fk) =
      .error (.invalidIdentifier (k.tableName fk.referencedTable)) := by
    have hboth : ¬Name.isColumn (k.tableName fk.referencedTable) = true := by
      rwa [tableName, Name.isColumn_append_iff hname]
    rw [createPart, k.checkForeign_prefixedForeign hname hfk, checkName, if_neg hboth]
    rfl
  have hparts : (owner.withForeign n fk).commands.mapM (k.createPart (k.tableName owner.table)) =
      .error (.invalidIdentifier (k.tableName fk.referencedTable)) :=
    mapM_append_cons_of_error
      (fun command hmem => hrest command (List.mem_of_mem_take hmem)) hpart
  have hmode : (owner.withForeign n fk).mode = .create := hcreate
  have hcompile : k.compileCreate (owner.withForeign n fk) =
      .error (.invalidIdentifier (k.tableName fk.referencedTable)) := by
    unfold compileCreate
    rw [if_neg hsome]
    exact congrArg (· >>= _) hparts
  rw [compile, hmode, hcompile]
  exact congrArg (· >>= _) (checkName_eq_ok_iff.mpr htable)

end Added

/-- **A table is made under every prefix, and referred to under those that leave names names.**  A
blueprint for a new table whose foreign keys are on named tables is compiled under a prefix if and
only if it is without one and either it has no foreign keys or the prefix can stand in front of a
name.  If a blueprint is compiled and another one for a new table as well, and this one has a
well-formed foreign key on the first one's table added in any place, then it is still compiled if
the prefix can stand in front of a name, and otherwise the fault is the name with the prefix. -/
theorem referable_iff_lead (k : SchemaCompiler) :
    (∀ b : Blueprint, b.mode = .create →
      (∀ fk ∈ b.foreignKeys, Name.isColumn fk.referencedTable = true) →
      ((∃ statements, k.compile b = .ok statements) ↔
        (∃ statements, k.unprefixed.compile b = .ok statements) ∧
          (b.foreignKeys = [] ∨ Name.IsLead k.tablePrefix))) ∧
    ∀ (b owner : Blueprint) (made others : List String), k.compile b = .ok made →
      owner.mode = .create → k.compile owner = .ok others →
      ∀ (fk : ForeignKey) (n : Nat), fk.WellFormed → fk.referencedTable = b.table →
        (Name.IsLead k.tablePrefix ∧
          ∃ statements, k.compile (owner.withForeign n fk) = .ok statements) ∨
        (¬Name.IsLead k.tablePrefix ∧
          k.compile (owner.withForeign n fk) =
            .error (.invalidIdentifier (k.tableName b.table))) := by
  refine ⟨fun b hcreate hnames => compile_iff_unprefixed hcreate hnames, ?_⟩
  intro b owner made others hmade hcreate howner fk n hfk htable
  have hname : Name.isColumn fk.referencedTable = true := by
    rw [htable]
    exact isColumn_table hmade
  rw [← htable]
  by_cases hlead : Name.IsLead k.tablePrefix
  · exact .inl ⟨hlead, exists_compile_withForeign hcreate howner hname hfk hlead n⟩
  · exact .inr ⟨hlead, compile_withForeign_of_not_lead hcreate howner hname hfk hlead n⟩

/-- The users that posts belong to. -/
def users : Blueprint :=
  (Blueprint.create "users").add { name := "id", type := .integer }

/-- Posts, and whose they are. -/
def userPosts : Blueprint :=
  (Blueprint.create "posts").add { name := "user_id", type := .integer }

/-- The user of a post. -/
def postUser : ForeignKey :=
  { table := "posts", columns := ["user_id"], referencedTable := "users"
    referencedColumns := ["id"] }

theorem postUser_wellFormed : postUser.WellFormed :=
  ⟨by decide, rfl, by decide⟩

/-- Behind the dot of a schema, posts refer to users. -/
theorem app_users_referable :
    let k : SchemaCompiler := { dialect := .postgres, tablePrefix := "app.my_" }
    Name.IsLead k.tablePrefix ∧ k.compile users =
        .ok ["CREATE TABLE \"app\".\"my_users\" (\"id\" INTEGER NOT NULL)"] ∧
      (∃ statements, k.unprefixed.compile (userPosts.withForeign 1 postUser) = .ok statements) ∧
      ∃ statements, k.compile (userPosts.withForeign 1 postUser) = .ok statements := by
  intro k
  have hlead : Name.IsLead k.tablePrefix :=
    ⟨"app.".toList, "my_".toList, by decide, .inr ⟨"app".toList, by decide, by decide⟩,
      .inr (by decide)⟩
  have hmade : k.compile users =
      .ok ["CREATE TABLE \"app\".\"my_users\" (\"id\" INTEGER NOT NULL)"] := by
    decide +kernel
  have hposts : k.compile userPosts =
      .ok ["CREATE TABLE \"app\".\"my_posts\" (\"user_id\" INTEGER NOT NULL)"] := by
    decide +kernel
  obtain ⟨hmakes, hrefers⟩ := referable_iff_lead k
  have hreferred := hrefers users userPosts _ _ hmade rfl hposts postUser 1 postUser_wellFormed rfl
  obtain ⟨-, hreferred⟩ := hreferred.resolve_right fun hnot => hnot.1 hlead
  exact ⟨hlead, hmade, ((hmakes (userPosts.withForeign 1 postUser) rfl (by decide)).mp hreferred).1,
    hreferred⟩

/-- A configuration whose tables have a prefix with a dash in front. -/
def dashed : Config :=
  { default := "main", connections := [("main", { dialect := .sqlite, tablePrefix := some "my-" })] }

/-- The configuration is accepted, and users and posts are made under the prefix, but posts cannot
refer to users. -/
theorem dashed_users_not_referable :
    let k : SchemaCompiler := { dialect := .sqlite, tablePrefix := dashed.tablePrefixFor "main" }
    dashed.validate = .ok () ∧ k.tablePrefix = "my-" ∧
      k.compile users =
        .ok ["CREATE TABLE \"my-users\" (\"id\" INTEGER NOT NULL)"] ∧
      k.compile userPosts = .ok ["CREATE TABLE \"my-posts\" (\"user_id\" INTEGER NOT NULL)"] ∧
      postUser.WellFormed ∧
      k.compile (userPosts.withForeign 1 postUser) = .error (.invalidIdentifier "my-users") := by
  intro k
  exact ⟨by decide +kernel, by decide +kernel, by decide +kernel, by decide +kernel,
    postUser_wellFormed, by decide +kernel⟩

end SchemaCompiler

end Relational
