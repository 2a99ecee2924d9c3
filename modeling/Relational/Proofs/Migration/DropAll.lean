import Relational.Proofs.Migration.Traced
import Relational.Proofs.Quoted
import Relational.Session.Mock
/-
What is dropped when all tables are.

For each name that was listed one statement is sent, between the two that switch the
checking of foreign keys.  The name is written as names in blueprints are, so a dot in it, an
alias or a star as the whole of it mean what they mean there.  What is written opens with the
quotes of its first segment, so it is read as the listed name exactly if that segment is the
whole name and nothing else is written behind it.
-/
namespace Relational

namespace Dialect

variable {d : Dialect} {name : String}

/-! ### Reading the statement -/

/-- What stands behind the table when all are dropped. -/
def wipeTail : Dialect → String
  | postgres => " CASCADE"
  | _ => ""

/-- The statement drops the table of that name: this is the only name it has, in quotes. -/
def DropsTable (d : Dialect) (sql name : String) : Prop :=
  ∃ quoted, sql.toList = "DROP TABLE IF EXISTS ".toList ++ d.quotes.1 :: quoted ∧
    readQuoted? d.quotes.2 quoted = some (name.toList, d.wipeTail.toList)

/-- The statement that drops a table under its name as one identifier. -/
def dropQuoted (d : Dialect) (name : String) : String :=
  "DROP TABLE IF EXISTS " ++ Text.enclosed d.quotes.1 d.quotes.2 name ++ d.wipeTail

theorem wipeTail_head (d : Dialect) : d.wipeTail.toList.head? ≠ some d.quotes.2 := by
  cases d <;> decide

/-- Any name can be dropped under its name as one identifier. -/
theorem dropsTable_dropQuoted (d : Dialect) (name : String) :
    d.DropsTable (d.dropQuoted name) name := by
  refine ⟨Text.doubled d.quotes.2 name.toList ++ d.quotes.2 :: d.wipeTail.toList, ?_,
    readQuoted?_doubled _ _ d.wipeTail_head⟩
  unfold dropQuoted
  simp only [String.toList_append, toList_enclosed, List.append_assoc, List.cons_append,
    List.nil_append]

theorem dropTableForWipe_eq (d : Dialect) (name : String) :
    d.dropTableForWipe name = "DROP TABLE IF EXISTS " ++ d.quoteName name ++ d.wipeTail := by
  cases d with
  | postgres => rfl
  | _ => exact (String.append_empty).symm

/-! ### Names that are read back -/

theorem dropTableForWipe_of_isPlain (h : IsPlain name) :
    d.dropTableForWipe name = d.dropQuoted name := by
  unfold dropQuoted
  rw [← quoteName_of_isPlain h]
  exact d.dropTableForWipe_eq name

/-- The statement that is sent drops the table exactly if its name is plain. -/
theorem dropsTable_iff : d.DropsTable (d.dropTableForWipe name) name ↔ IsPlain name := by
  constructor
  · rintro ⟨quoted, hquoted, hread⟩
    rw [dropTableForWipe_eq, String.toList_append, String.toList_append,
      List.append_assoc] at hquoted
    exact (isPlain_of_read d.wipeTail_head (List.append_cancel_left hquoted) hread).1
  · intro h
    rw [dropTableForWipe_of_isPlain h]
    exact d.dropsTable_dropQuoted name

/-- The name is written as one identifier exactly if it is plain. -/
theorem dropTableForWipe_eq_iff : d.dropTableForWipe name = d.dropQuoted name ↔ IsPlain name := by
  refine ⟨fun h => (dropsTable_iff (d := d)).mp ?_, dropTableForWipe_of_isPlain⟩
  rw [h]
  exact d.dropsTable_dropQuoted name

/-- What is executed to drop the tables of these names. -/
def wipe (d : Dialect) (names : List String) : List String :=
  d.disableForeignKeys.toList ++ names.map d.dropTableForWipe ++ d.enableForeignKeys.toList

end Dialect

/-! ### Statements and how they are traced -/

open Action

variable {σ : Type}

/-- The requests that execute statements, in order. -/
def Route.sends (route : Route) (statements : List String) : List Request :=
  statements.map (.execute route · [])

namespace Executor

/-- In some state the statement is refused with this failure. -/
def Refuses (e : Executor σ) (sql : String) (failure : Failure) : Prop :=
  ∃ s, ((e.execute sql []).outcome s).1 = .error failure

variable {e : Executor σ} {route : Route}

theorem ensures_executeText_traced (sql : String) (before : List Request) :
    Ensures (·.requests = before) ((e.traced route).executeText sql)
      (fun _ t => t.requests = before ++ route.sends [sql])
      (fun failure t => e.Refuses sql failure ∧ t.requests = before ++ route.sends [sql]) := by
  rintro s rfl
  rw [executeText, outcome_discard, traced]
  dsimp only
  rw [outcome_tracing]
  rcases hresult : (e.execute sql []).outcome s.state with ⟨failure | n, state⟩
  · exact ⟨⟨s.state, by rw [hresult]⟩, rfl⟩
  · rfl

/-- Statements are sent up to the first that is refused. -/
theorem ensures_executeAll_traced (statements : List String) (before : List Request) :
    Ensures (·.requests = before) ((e.traced route).executeAll statements)
      (fun _ t => t.requests = before ++ route.sends statements)
      (fun failure t => ∃ sent sql, sent ++ [sql] <+: statements ∧ e.Refuses sql failure ∧
        t.requests = before ++ route.sends (sent ++ [sql])) := by
  induction statements generalizing before with
  | nil => exact ensures_pure fun s hs => by simp [hs, Route.sends]
  | cons sql rest ih =>
      have hsplit : ∀ more, before ++ route.sends [sql] ++ route.sends more =
          before ++ route.sends (sql :: more) :=
        fun more => List.append_assoc ..
      have hfirst : Ensures (·.requests = before) ((e.traced route).executeText sql)
          (fun _ t => t.requests = before ++ route.sends [sql])
          (fun failure t => ∃ sent refused, sent ++ [refused] <+: sql :: rest ∧
            e.Refuses refused failure ∧ t.requests = before ++ route.sends (sent ++ [refused])) :=
        (ensures_executeText_traced sql before).weaken (fun _ h => h) (fun _ _ h => h)
          fun _ _ h => ⟨[], sql, ⟨rest, rfl⟩, h⟩
      refine hfirst.bind fun _ => (ih (before ++ route.sends [sql])).weaken (fun _ h => h) ?_ ?_
      · intro _ t ht
        rw [ht, hsplit]
      · rintro failure t ⟨sent, refused, hprefix, hrefuses, ht⟩
        refine ⟨sql :: sent, refused, ?_, hrefuses, ?_⟩
        · exact List.cons_prefix_cons.mpr ⟨rfl, hprefix⟩
        · rw [ht, hsplit]
          rfl

/-- All of what is to follow a failure is sent. -/
theorem ensures_recover_traced (recover : List String) (before : List Request) :
    Ensures (·.requests = before)
      (recover.forM fun sql => ((e.traced route).executeText sql).regardless)
      (fun _ t => t.requests = before ++ route.sends recover) (fun _ _ => False) := by
  induction recover generalizing before with
  | nil => exact ensures_pure fun s hs => by simp [hs, Route.sends]
  | cons sql rest ih =>
      have hfirst : Ensures (·.requests = before) ((e.traced route).executeText sql).regardless
          (fun _ t => t.requests = before ++ route.sends [sql]) (fun _ _ => False) :=
        (ensures_executeText_traced sql before).tryCatch fun _ => ensures_pure fun _ h => h.2
      refine hfirst.bind fun _ => (ih (before ++ route.sends [sql])).weaken (fun _ h => h) ?_
        fun _ _ h => h
      intro _ t ht
      rw [ht, List.append_assoc]
      rfl

theorem ensures_executeScript_traced (statements recover : List String) (before : List Request) :
    Ensures (·.requests = before) ((e.traced route).executeScript statements recover)
      (fun _ t => t.requests = before ++ route.sends statements)
      (fun failure t => ∃ sent sql, sent ++ [sql] <+: statements ∧ e.Refuses sql failure ∧
        t.requests = before ++ route.sends (sent ++ sql :: recover)) := by
  refine (ensures_executeAll_traced statements before).tryCatch fun failure s hs => ?_
  obtain ⟨sent, sql, hprefix, hrefuses, hs⟩ := hs
  have hrecover :=
    @ensures_recover_traced σ e route recover (before ++ route.sends (sent ++ [sql]))
  refine ((hrecover.weaken (fun _ h => h) (fun _ _ h => h) fun _ _ h => h.elim).bind
    fun _ => ensures_throw fun t ht => ?_) s hs
  refine ⟨sent, sql, hprefix, hrefuses, ?_⟩
  rw [ht]
  simp [Route.sends]

end Executor

/-! ### Dropping all tables -/

namespace Schema

variable {e : Executor σ} {route : Route} {s : Schema (Traced σ)}

theorem requests_tables (hs : s.executor = e.traced route) {r t : Traced σ} {names : List String}
    (h : s.tables.outcome r = (.ok names, t)) :
    t.requests = r.requests ++ [.query route e.dialect.listTables []] := by
  obtain ⟨rows, u, hrows, hnames⟩ := outcome_bind_eq_ok h
  cases hnames
  rw [hs] at hrows
  have htraced := congrArg (fun x => x.2.requests) hrows
  exact htraced.symm

/-- The names are dropped, or one of the statements is refused. -/
theorem ensures_drops (names : List String) (before : List Request) :
    Ensures (·.requests = before)
      ((e.traced route).executeScript (e.dialect.wipe names) e.dialect.enableForeignKeys.toList >>=
        fun _ => pure names)
      (fun dropped t => dropped = names ∧ t.requests = before ++ route.sends (e.dialect.wipe names))
      (fun failure t => ∃ sent sql, sent ++ [sql] <+: e.dialect.wipe names ∧
        e.Refuses sql failure ∧ t.requests =
          before ++ route.sends (sent ++ sql :: e.dialect.enableForeignKeys.toList)) :=
  (Executor.ensures_executeScript_traced _ _ before).bind fun _ =>
    ensures_pure fun _ hsent => ⟨rfl, hsent⟩

/-- **Each listed table gets one statement, which drops it if its name is plain.**  When the listing
gives some names, dropping all tables returns those names and has sent one drop statement for each
in order, between the switches of the foreign keys; or one of these statements was refused, and
then only the switch back is sent behind it.  A drop statement has the name as one identifier, and
is read as dropping just that table, exactly if the name is not the star, has no dot and no alias.
-/
theorem dropAll_drops_plain (hs : s.executor = e.traced route) {r t : Traced σ}
    {names : List String} (hlist : s.tables.outcome r = (.ok names, t)) :
    Ensures (· = r) s.dropAll
      (fun dropped final => dropped = names ∧ final.requests =
        r.requests ++ [.query route e.dialect.listTables []] ++ route.sends (e.dialect.wipe names))
      (fun failure final => ∃ sent sql, sent ++ [sql] <+: e.dialect.wipe names ∧
        e.Refuses sql failure ∧ final.requests =
          r.requests ++ [.query route e.dialect.listTables []] ++
            route.sends (sent ++ sql :: e.dialect.enableForeignKeys.toList)) ∧
    ∀ name ∈ names,
      (e.dialect.dropTableForWipe name = e.dialect.dropQuoted name ↔ Dialect.IsPlain name) ∧
      (e.dialect.DropsTable (e.dialect.dropTableForWipe name) name ↔ Dialect.IsPlain name) ∧
      e.dialect.DropsTable (e.dialect.dropQuoted name) name := by
  refine ⟨?_, fun name _ => ⟨Dialect.dropTableForWipe_eq_iff, Dialect.dropsTable_iff,
    e.dialect.dropsTable_dropQuoted name⟩⟩
  have hdialect : s.executor.dialect = e.dialect := by
    rw [hs]
    rfl
  have hrun : s.dropAll.outcome r = ((e.traced route).executeScript (e.dialect.wipe names)
      e.dialect.enableForeignKeys.toList >>= fun _ => pure names).outcome t := by
    rw [dropAll, outcome_bind, hlist, hdialect, hs]
    rfl
  rintro start rfl
  rw [hrun, ← requests_tables hs hlist]
  exact ensures_drops names t.requests t rfl

/-! ### A mock database -/

/-- A mock connection that lists these tables. -/
def listing (names : List String) : Traced Mock :=
  { state := { rules := [{
      on := "name NOT LIKE"
      rows := names.map fun name => { entries := [("name", .text name)] } }] } }

/-- The schema on a mock connection, which traces what it is asked for. -/
def wiping : Schema (Traced Mock) :=
  { executor := (Mock.executor "main" "" .sqlite).traced .direct }

/-- Two tables with plain names are dropped. -/
theorem people_and_posts_dropped : ∃ t,
    wiping.tables.outcome (listing ["people", "posts"]) = (.ok ["people", "posts"], t) ∧
      Ensures (· = listing ["people", "posts"]) wiping.dropAll
        (fun dropped final => dropped = ["people", "posts"] ∧ final.requests =
          .query .direct (Dialect.listTables .sqlite) [] :: Route.direct.sends
            ["PRAGMA foreign_keys = OFF", "DROP TABLE IF EXISTS \"people\"",
              "DROP TABLE IF EXISTS \"posts\"", "PRAGMA foreign_keys = ON"])
        (fun _ _ => True) ∧
      ∀ name ∈ ["people", "posts"],
        Dialect.DropsTable .sqlite (Dialect.dropTableForWipe .sqlite name) name := by
  have hlist : wiping.tables.outcome (listing ["people", "posts"]) =
      (.ok ["people", "posts"], (wiping.tables.outcome (listing ["people", "posts"])).2) :=
    rfl
  obtain ⟨hdropped, hnames⟩ := dropAll_drops_plain rfl hlist
  refine ⟨_, hlist, hdropped.weaken (fun _ h => h) (fun _ _ h => ⟨h.1, h.2.trans ?_⟩)
    (fun _ _ _ => trivial), fun name hname => (hnames name hname).2.1.mpr ?_⟩
  · decide +kernel
  · revert name
    decide +kernel

/-- A dot in the name: what is dropped is a table of another name. -/
theorem dotted_table_missed : ∃ t,
    wiping.tables.outcome (listing ["audit.log"]) = (.ok ["audit.log"], t) ∧
      (wiping.dropAll.outcome (listing ["audit.log"])).1 = .ok ["audit.log"] ∧
      (wiping.dropAll.outcome (listing ["audit.log"])).2.executed =
        ["PRAGMA foreign_keys = OFF", "DROP TABLE IF EXISTS \"audit\".\"log\"",
          "PRAGMA foreign_keys = ON"] ∧
      Dialect.DropsTable .sqlite "DROP TABLE IF EXISTS \"audit.log\"" "audit.log" ∧
      ¬ Dialect.DropsTable .sqlite "DROP TABLE IF EXISTS \"audit\".\"log\"" "audit.log" := by
  have hquoted : Dialect.dropQuoted .sqlite "audit.log" =
      "DROP TABLE IF EXISTS \"audit.log\"" := by
    decide +kernel
  have hsent : Dialect.dropTableForWipe .sqlite "audit.log" =
      "DROP TABLE IF EXISTS \"audit\".\"log\"" := by
    decide +kernel
  refine ⟨_, rfl, by decide +kernel, by decide +kernel, ?_, ?_⟩
  · rw [← hquoted]
    exact Dialect.dropsTable_dropQuoted .sqlite "audit.log"
  · rw [← hsent, Dialect.dropsTable_iff]
    decide

end Schema

end Relational
