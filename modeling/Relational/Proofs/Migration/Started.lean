import Mathlib.Data.Multiset.ZeroCons
import Relational.Migration.Migrator
import Relational.Migration.Scaffold
import Relational.Proofs.Migration.Consistency
import Relational.Proofs.Migration.Route
import Relational.Proofs.Migration.Skeleton
/-
What comes of a script that was started.

The file is put where the connection's own directory is, and else in the root with a header
that names the connection.  Where a file belongs is found out a second time when scripts are
searched for, from the directories the search goes through.  The two agree as far as the
search gets to the directory at all, and takes it for the connection's own.
-/
namespace Relational

/-! ### Units of different names -/

namespace MigrationUnit

variable {units collected : List MigrationUnit}

theorem firstRepeated?_eq_none {seen ids : List String} (hnodup : ids.Nodup)
    (hseen : ∀ id ∈ ids, id ∉ seen) : firstRepeated? seen ids = none := by
  induction ids generalizing seen with
  | nil => rfl
  | cons id rest ih =>
      obtain ⟨hid, hrest⟩ := List.nodup_cons.mp hnodup
      rw [firstRepeated?, if_neg (by simpa using hseen id (by simp))]
      refine ih hrest fun other hother hmem => ?_
      rcases List.mem_cons.mp hmem with rfl | hmem
      · exact hid hother
      · exact hseen other (by simp [hother]) hmem

theorem collect_perm (h : collect units = .ok collected) : collected.Perm units := by
  unfold collect at h
  split at h
  · cases h
  · cases h
    exact List.mergeSort_perm _ _

/-- Units of different names can be collected. -/
theorem exists_collect (h : (units.map (·.id)).Nodup) :
    ∃ collected, collect units = .ok collected ∧ collected.Perm units := by
  have hnone : firstRepeated? [] (units.map (·.id)) = none :=
    firstRepeated?_eq_none h fun _ _ => List.not_mem_nil
  refine ⟨units.mergeSort fun a b => !decide (b.id < a.id), ?_, List.mergeSort_perm _ _⟩
  rw [collect, hnone]

end MigrationUnit

namespace Discovery

/-- The units of the scripts that are found and of those that are written in code. -/
def units (c : Config) (fs : FileSystem) (registered : List MigrationUnit) :
    Except Failure (List MigrationUnit) := do
  let found ← scripts c fs
  let units := found.map fun s => MigrationUnit.ofScript s.id s.script
  (MigrationUnit.collect (units ++ registered)).mapError .configuration

/-- These are the units that there are to migrate, once their connections are checked. -/
theorem migrator_units {σ : Type} (m : Migrator σ) :
    m.units = do
      let units ← Discovery.units m.config m.files m.registered
      units.forM fun u => (m.checkUnit u).mapError .configuration
      return units := by
  unfold Migrator.units Discovery.units
  rw [bind_assoc]

theorem units_eq_ok {c : Config} {fs : FileSystem} {registered collected : List MigrationUnit} :
    units c fs registered = .ok collected ↔ ∃ found, scripts c fs = .ok found ∧
      MigrationUnit.collect ((found.map fun s => .ofScript s.id s.script) ++ registered) =
        .ok collected := by
  constructor
  · intro h
    obtain ⟨found, hfound, h⟩ := exists_of_bind h
    refine ⟨found, hfound, ?_⟩
    dsimp only at h
    rcases hcollect : MigrationUnit.collect
        ((found.map fun s => .ofScript s.id s.script) ++ registered) with e | units
    · rw [hcollect] at h
      cases h
    · rw [hcollect] at h
      cases h
      exact hcollect
  · rintro ⟨found, hfound, hcollect⟩
    rw [units, hfound]
    show (MigrationUnit.collect ((found.map fun s => .ofScript s.id s.script) ++
      registered)).mapError Failure.configuration = _
    rw [hcollect]
    rfl

end Discovery

namespace Scaffold

open FileSystem

variable {c : Config} {name : String} {connection : Option String} {date : Date} {clock : Clock}
  {fs fs' : FileSystem} {started : Started}

/-! ### Where a script is put -/

/-- The name of a unit that is started. -/
def unitName (name : String) (date : Date) (clock : Clock) : String :=
  timeText date clock ++ "_" ++ snakeCase name

/-- The name of its file. -/
def fileName (name : String) (date : Date) (clock : Clock) : String :=
  unitName name date clock ++ "." ++ Discovery.extension

/-- The directory that the script of a connection is put in. -/
def directory (c : Config) (connection : Option String) : String :=
  (connection.bind c.directoryFor).getD c.migrations.root

/-- The connection that a script names itself; it names none where its directory tells. -/
def header (c : Config) (connection : Option String) : Option String :=
  if (connection.bind c.directoryFor).isSome then none else connection

/-- What there is when a script was started: all that was there before, and a skeleton under a name
that was free. -/
structure Placed (c : Config) (connection : Option String) (fs fs' : FileSystem)
    (place : List String) (file : String) : Prop where
  within : fs.Within fs'
  reached : fs'.directoryAt? (directory c connection) = some place
  free : ∀ other ∈ fs.files, other.1 ≠ place ++ [file]
  files : fs'.files = fs.files ++ [(place ++ [file], skeleton (header c connection))]

/-- Puts a script where it belongs, whatever becomes of the name and the connection that it is
started for. -/
def put (c : Config) (name : String) (connection : Option String) (date : Date) (clock : Clock) :
    Action FileSystem Started := do
  let place ← makeDirectories (directory c connection)
  let ending := "_" ++ snakeCase name ++ "." ++ Discovery.extension
  match ((← get).namesIn place).find? fun other => other.endsWith ending with
  | some other => throw (.fileExists (Path.join (directory c connection) other))
  | none =>
    let file := timeText date clock ++ ending
    let path := Path.join (directory c connection) file
    writeInto place file path (skeleton (header c connection))
    return ⟨path, skeleton (header c connection)⟩

theorem put_of_start (h : (start c name connection date clock).outcome fs = (.ok started, fs')) :
    (put c name connection date clock).outcome fs = (.ok started, fs') := by
  unfold start at h
  dsimp only at h
  split at h
  · cases h
  · split at h
    · obtain ⟨_, _, hknown, h⟩ := Action.outcome_bind_eq_ok h
      obtain ⟨_, hknown⟩ := Action.outcome_discard_eq_ok hknown
      obtain ⟨-, rfl⟩ := Action.outcome_ofExcept_eq_ok hknown
      exact h
    · exact h

theorem fileName_eq (name : String) (date : Date) (clock : Clock) :
    timeText date clock ++ ("_" ++ snakeCase name ++ "." ++ Discovery.extension) =
      fileName name date clock := by
  simp only [fileName, unitName, String.append_assoc]

/-- A script that was started is an additional file, in the directory where it belongs. -/
theorem start_eq_ok (h : (start c name connection date clock).outcome fs = (.ok started, fs')) :
    ∃ place, Placed c connection fs fs' place (fileName name date clock) ∧
      started = ⟨Path.join (directory c connection) (fileName name date clock),
        skeleton (header c connection)⟩ := by
  obtain ⟨place, made, hmade, h⟩ := Action.outcome_bind_eq_ok (put_of_start h)
  obtain ⟨hfurnished, hplace⟩ := makeDirectories_eq_ok hmade
  obtain ⟨_, _, hget, h⟩ := Action.outcome_bind_eq_ok h
  cases hget
  split at h
  · cases h
  · rename_i hnone
    obtain ⟨_, written, hwritten, h⟩ := Action.outcome_bind_eq_ok h
    cases h
    rw [fileName_eq] at hwritten
    have hends : (fileName name date clock).endsWith
        ("_" ++ snakeCase name ++ "." ++ Discovery.extension) = true := by
      rw [← fileName_eq, Path.endsWith_iff]
      exact ⟨(timeText date clock).toList, String.toList_append.symm⟩
    have hfree : ∀ other ∈ made.files, other.1 ≠ place ++ [fileName name date clock] := by
      rintro ⟨entry, content⟩ hother rfl
      exact List.find?_eq_none.mp hnone _ (mem_namesIn hother) hends
    obtain rfl := writeInto_eq_ok hwritten
    have hwithin : made.Within (made.writeFile _ (skeleton (header c connection))) :=
      within_writeFile hfree
    refine ⟨place, ⟨hfurnished.within.trans hwithin, hwithin.directoryAt? hplace, ?_, ?_⟩, ?_⟩
    · rwa [← hfurnished.files]
    · rw [← hfurnished.files]
      exact files_writeFile hfree
    · rw [fileName_eq]

/-! ### What is found of it -/

variable {place : List String} {registered units : List MigrationUnit}

/-- The unit of a started script, in a directory of `owner`. -/
def startedUnit (c : Config) (name : String) (connection : Option String) (date : Date)
    (clock : Clock) (owner : Option String) : MigrationUnit :=
  .ofScript (unitName name date clock)
    { connection := (header c connection).or owner, up := [], down := [] }

theorem splitExtension_fileName (name : String) (date : Date) (clock : Clock) :
    Path.splitExtension (fileName name date clock) =
      (unitName name date clock, some Discovery.extension) := by
  refine Path.splitExtension_append ?_ (by decide)
  rw [← String.toList_inj.ne, unitName]
  simp

theorem read_skeleton {owner : Option String} {names : List String}
    (hcarried : ∀ n, header c connection = some n → Script.IsCarried n)
    (hnames : names.getLastD "" = fileName name date clock) :
    Discovery.read c owner names (skeleton (header c connection)) =
      .ok (some ⟨Path.join c.migrations.root (String.intercalate "/" names),
        unitName name date clock,
        { connection := (header c connection).or owner, up := [], down := [] }⟩) := by
  have hload : ∀ path, Discovery.load path (skeleton (header c connection)) owner =
      .ok { connection := (header c connection).or owner, up := [], down := [] } := by
    intro path
    rw [Discovery.load, parse_skeleton hcarried]
    rfl
  rw [Discovery.read, hnames, splitExtension_fileName]
  dsimp only
  rw [if_pos rfl, hload]
  rfl

/-- The scripts that are found are those that were found before, and the one that was started if
the search gets to it. -/
theorem scripts_started {old : List FoundScript}
    (hold : Discovery.scripts c fs = .ok old) (hsettled : Discovery.IsSettled c fs)
    (hcarried : ∀ n, header c connection = some n → Script.IsCarried n)
    (h : Placed c connection fs fs' place (fileName name date clock)) :
    ∃ found, Discovery.scripts c fs' = .ok found ∧
      (found.map fun s => MigrationUnit.ofScript s.id s.script).Perm
        (((Discovery.route? c fs' (place ++ [fileName name date clock])).map
          (startedUnit c name connection date clock)).toList ++
            old.map fun s => MigrationUnit.ofScript s.id s.script) := by
  rcases hroute : Discovery.route? c fs' (place ++ [fileName name date clock]) with _ | owner
  · obtain ⟨found, hfound, hperm⟩ := Discovery.scripts_added hold h.within h.files hsettled
      (Discovery.visitAt_of_missed hroute)
    rw [Option.toList_none, List.append_nil] at hperm
    exact ⟨found, hfound, hperm.map _⟩
  · obtain ⟨names, hnames, hvisit⟩ := Discovery.visitAt_of_reached hroute
    obtain ⟨root, -, hbelow⟩ := Option.bind_eq_some_iff.mp hnames
    obtain ⟨hentry, hne⟩ := below_eq_some hbelow
    have hlast : names.getLastD "" = fileName name date clock := by
      have hlasts := congrArg List.getLast? hentry
      rw [List.getLast?_concat, List.getLast?_append_of_ne_nil _ hne] at hlasts
      rw [List.getLastD_eq_getLast?, ← hlasts]
      rfl
    rw [read_skeleton hcarried hlast] at hvisit
    obtain ⟨found, hfound, hperm⟩ := Discovery.scripts_added hold h.within h.files hsettled hvisit
    refine ⟨found, hfound, (hperm.map _).trans ?_⟩
    rw [List.map_append]
    exact List.perm_append_comm

/-- A script in the root is of no connection but the one that it names itself. -/
theorem route?_of_root {file : String} (hroot : fs.directoryAt? c.migrations.root = some place) :
    Discovery.route? c fs (place ++ [file]) = some none := by
  rw [Discovery.route?, Discovery.namesTo?, hroot, Option.bind_some, below_append (by simp)]
  rfl

/-- The units behind a started script are those that were there, and its own if the search gets to
it; they only have to differ in their names. -/
theorem units_started (hunits : Discovery.units c fs registered = .ok units)
    (hsettled : Discovery.IsSettled c fs)
    (hcarried : ∀ n, header c connection = some n → Script.IsCarried n)
    (h : Placed c connection fs fs' place (fileName name date clock)) :
    ∃ listed, listed.Perm (((Discovery.route? c fs' (place ++ [fileName name date clock])).map
        (startedUnit c name connection date clock)).toList ++ units) ∧
      ∀ collected, Discovery.units c fs' registered = .ok collected ↔
        MigrationUnit.collect listed = .ok collected := by
  obtain ⟨old, hold, hcollect⟩ := Discovery.units_eq_ok.mp hunits
  obtain ⟨found, hfound, hperm⟩ := scripts_started hold hsettled hcarried h
  refine ⟨(found.map fun s => .ofScript s.id s.script) ++ registered, ?_, fun collected => ?_⟩
  · refine (hperm.append_right registered).trans ?_
    rw [List.append_assoc]
    exact List.Perm.append_left _ (MigrationUnit.collect_perm hcollect).symm
  · rw [Discovery.units_eq_ok]
    constructor
    · rintro ⟨other, hother, hcollected⟩
      cases hfound.symm.trans hother
      exact hcollected
    · exact fun hcollected => ⟨found, hfound, hcollected⟩

/-- The unit of a started script runs where it was asked for, if a directory of its own is taken for
that connection's.  A script without one names the connection itself, in the root. -/
theorem runs_on_iff (h : Placed c connection fs fs' place (fileName name date clock)) :
    (∃ owner, Discovery.route? c fs' (place ++ [fileName name date clock]) = some owner ∧
        (startedUnit c name connection date clock owner).connection.getD c.default =
          connection.getD c.default) ↔
      ((connection.bind c.directoryFor).isSome → ∃ owner,
        Discovery.route? c fs' (place ++ [fileName name date clock]) = some owner ∧
          owner.getD c.default = connection.getD c.default) := by
  have hconnection : ∀ owner, (startedUnit c name connection date clock owner).connection =
      (header c connection).or owner := fun _ => rfl
  simp only [hconnection]
  rcases hown : connection.bind c.directoryFor with _ | own
  · have hheader : header c connection = connection := by
      rw [header, hown, Option.isSome_none, if_neg Bool.false_ne_true]
    have hroot : fs'.directoryAt? c.migrations.root = some place := by
      have hreached := h.reached
      rwa [directory, hown] at hreached
    refine iff_of_true ⟨none, route?_of_root hroot, ?_⟩ (by simp)
    rw [hheader, Option.or_none]
  · have hheader : header c connection = none := by
      rw [header, hown, Option.isSome_some, if_pos rfl]
    simp [hheader]

/-- There is one unit more exactly if the search gets to the script and its name is new; it is the
script's. -/
theorem units_gained (hunits : Discovery.units c fs registered = .ok units)
    (hsettled : Discovery.IsSettled c fs)
    (hcarried : ∀ n, header c connection = some n → Script.IsCarried n)
    (h : Placed c connection fs fs' place (fileName name date clock)) (u : MigrationUnit) :
    (∃ collected, Discovery.units c fs' registered = .ok collected ∧
        collected.Perm (u :: units)) ↔
      (∃ owner, Discovery.route? c fs' (place ++ [fileName name date clock]) = some owner ∧
        u = startedUnit c name connection date clock owner) ∧
      unitName name date clock ∉ units.map (·.id) := by
  obtain ⟨listed, hlisted, hcollects⟩ := units_started hunits hsettled hcarried h
  constructor
  · rintro ⟨collected, hcollected, hperm⟩
    have hcollect := (hcollects collected).mp hcollected
    have hmore := hperm.symm.trans ((MigrationUnit.collect_perm hcollect).trans hlisted)
    rcases hroute : Discovery.route? c fs' (place ++ [fileName name date clock]) with _ | owner
    · rw [hroute] at hmore
      have hlength := hmore.length_eq
      simp at hlength
    · rw [hroute] at hmore
      have hunit : u = startedUnit c name connection date clock owner :=
        (Multiset.cons_inj_left (units : Multiset MigrationUnit)).mp (Multiset.coe_eq_coe.mpr hmore)
      refine ⟨⟨owner, rfl, hunit⟩, ?_⟩
      have hids : ((u :: units).map (·.id)).Nodup :=
        (hperm.map _).nodup_iff.mp (MigrationUnit.nodup_collect hcollect)
      rw [hunit] at hids
      exact (List.nodup_cons.mp hids).1
  · rintro ⟨⟨owner, hroute, rfl⟩, hfresh⟩
    rw [hroute] at hlisted
    have hids : (listed.map (·.id)).Nodup := by
      refine (hlisted.map _).nodup_iff.mpr (List.nodup_cons.mpr ⟨hfresh, ?_⟩)
      obtain ⟨old, -, hcollect⟩ := Discovery.units_eq_ok.mp hunits
      exact MigrationUnit.nodup_collect hcollect
    obtain ⟨collected, hcollected, hperm⟩ := MigrationUnit.exists_collect hids
    exact ⟨collected, (hcollects collected).mpr hcollected, hperm.trans hlisted⟩

/-- One unit more is found, of that name, and it runs where the connection says. -/
def Gains (c : Config) (fs : FileSystem) (registered units : List MigrationUnit) (id : String)
    (connection : Option String) : Prop :=
  ∃ collected u, Discovery.units c fs registered = .ok collected ∧ collected.Perm (u :: units) ∧
    u.id = id ∧ u.connection.getD c.default = connection.getD c.default

theorem gains_iff (hunits : Discovery.units c fs registered = .ok units)
    (hsettled : Discovery.IsSettled c fs)
    (hcarried : ∀ n, header c connection = some n → Script.IsCarried n)
    (h : Placed c connection fs fs' place (fileName name date clock)) :
    Gains c fs' registered units (unitName name date clock) connection ↔
      ((connection.bind c.directoryFor).isSome → ∃ owner,
        Discovery.route? c fs' (place ++ [fileName name date clock]) = some owner ∧
          owner.getD c.default = connection.getD c.default) ∧
        unitName name date clock ∉ units.map (·.id) := by
  have hgained := units_gained hunits hsettled hcarried h
  rw [← runs_on_iff h]
  constructor
  · rintro ⟨collected, u, hcollected, hperm, -, heffective⟩
    obtain ⟨⟨owner, hroute, rfl⟩, hfresh⟩ := (hgained u).mp ⟨collected, hcollected, hperm⟩
    exact ⟨⟨owner, hroute, heffective⟩, hfresh⟩
  · rintro ⟨⟨owner, hroute, heffective⟩, hfresh⟩
    obtain ⟨collected, hcollected, hperm⟩ := (hgained _).mpr ⟨⟨owner, hroute, rfl⟩, hfresh⟩
    exact ⟨collected, _, hcollected, hperm, rfl, heffective⟩

/-- **A script that was started is one unit more, of its name and on its connection.**  No file
that was there is changed.  A script without a directory of its own is found in the root.  One that
is put into its connection's directory has to be where the search gets to, in a directory that the
search takes for the connection's; and no other unit may have the name. -/
theorem started_script_found (hunits : Discovery.units c fs registered = .ok units)
    (hsettled : Discovery.IsSettled c fs)
    (hcarried : ∀ n, header c connection = some n → Script.IsCarried n)
    (hstart : (start c name connection date clock).outcome fs = (.ok started, fs')) :
    ∃ place, Placed c connection fs fs' place (fileName name date clock) ∧
      started = ⟨Path.join (directory c connection) (fileName name date clock),
        skeleton (header c connection)⟩ ∧
      (Gains c fs' registered units (unitName name date clock) connection ↔
        ((connection.bind c.directoryFor).isSome → ∃ owner,
          Discovery.route? c fs' (place ++ [fileName name date clock]) = some owner ∧
            owner.getD c.default = connection.getD c.default) ∧
          unitName name date clock ∉ units.map (·.id)) := by
  obtain ⟨place, hplaced, hstarted⟩ := start_eq_ok hstart
  exact ⟨place, hplaced, hstarted, gains_iff hunits hsettled hcarried hplaced⟩

/-- **Which directories inside the root their scripts are found in.**  The search has to be
recursive, or every directory on the way has to belong to a connection; and among the connections
that share the directory the first has to be the one that was asked for.  The root itself belongs
to the default connection. -/
theorem started_inside_found {n path : String} {root : List String}
    (hunits : Discovery.units c fs registered = .ok units)
    (hsettled : Discovery.IsSettled c fs)
    (hroot : fs'.directoryAt? c.migrations.root = some root)
    (hown : c.migrations.directories.lookup n = some path)
    (hrelative : path.startsWith "/" = false) (hforward : Path.above ∉ Path.parts path)
    (hstart : (start c name (some n) date clock).outcome fs = (.ok started, fs')) :
    Gains c fs' registered units (unitName name date clock) (some n) ↔
      Discovery.IsSearched c path ∧ (Discovery.ownerInside c path).getD c.default = n ∧
        unitName name date clock ∉ units.map (·.id) := by
  have hdirectory : (some n).bind c.directoryFor = some (Path.join c.migrations.root path) := by
    rw [Option.bind_some, Config.directoryFor, hown, Option.map_some]
  have hcarried : ∀ other, header c (some n) = some other → Script.IsCarried other := by
    intro other hother
    rw [header, hdirectory] at hother
    cases hother
  obtain ⟨place, hplaced, -⟩ := start_eq_ok hstart
  have hreached := hplaced.reached
  rw [directory, hdirectory] at hreached
  have hmember : (n, path) ∈ c.migrations.directories := by
    obtain ⟨before, after, hsplit, -⟩ := List.lookup_eq_some_iff.mp hown
    rw [hsplit]
    simp
  have hroute : ∀ owner, Discovery.route? c fs' (place ++ [fileName name date clock]) = some owner ↔
      Discovery.IsSearched c path ∧ owner = Discovery.ownerInside c path :=
    fun _ => Discovery.route?_of_inside hroot hreached hmember hrelative hforward
  rw [gains_iff hunits hsettled hcarried hplaced, hdirectory]
  simp only [Option.isSome_some, forall_const, hroute, Option.getD_some, and_assoc,
    exists_and_left, exists_eq_left]

/-! ### A directory in the root, and one further inside -/

/-- A configuration with a directory for the scripts of one of two connections. -/
def auditedConfig (path : String) : Config :=
  { connections := [("default", { dialect := .sqlite }), ("audit", { dialect := .sqlite })]
    migrations := { directories := [("audit", path)] } }

/-- A root with one script. -/
def usersFiles : FileSystem :=
  { files := [(["migrations", "2024_01_01_000000_create_users.sql"],
      "-- migrate:up\nSELECT 1;\n")] }

/-- That script. -/
def usersScript : FoundScript :=
  ⟨"migrations/2024_01_01_000000_create_users.sql", "2024_01_01_000000_create_users",
    { up := ["SELECT 1"], down := [] }⟩

/-- The files when a script was started in a directory inside the root. -/
def flightsFiles (inside : List String) : FileSystem :=
  { files := usersFiles.files ++
      [("migrations" :: inside ++ ["2024_03_09_140507_create_flights.sql"], skeleton none)]
    directories := ["migrations" :: inside] }

theorem units_of_users (h : Discovery.scripts c fs = .ok [usersScript]) :
    Discovery.units c fs [] = .ok [.ofScript usersScript.id usersScript.script] :=
  Discovery.units_eq_ok.mpr
    ⟨_, h, by simp [MigrationUnit.collect, MigrationUnit.firstRepeated?]⟩

theorem flights_started_found :
    (start (auditedConfig "audit") "CreateFlights" (some "audit") ⟨2024, 3, 9⟩
        ⟨14, 5, 7, 0⟩).outcome usersFiles =
      (.ok ⟨"migrations/audit/2024_03_09_140507_create_flights.sql", skeleton none⟩,
        flightsFiles ["audit"]) ∧
    Gains (auditedConfig "audit") (flightsFiles ["audit"]) []
      [.ofScript usersScript.id usersScript.script] "2024_03_09_140507_create_flights"
      (some "audit") := by
  have hstart : (start (auditedConfig "audit") "CreateFlights" (some "audit") ⟨2024, 3, 9⟩
      ⟨14, 5, 7, 0⟩).outcome usersFiles =
        (.ok ⟨"migrations/audit/2024_03_09_140507_create_flights.sql", skeleton none⟩,
          flightsFiles ["audit"]) := by
    decide +kernel
  have hunits : Discovery.units (auditedConfig "audit") usersFiles [] = .ok _ :=
    units_of_users (by decide +kernel)
  have hheader : header (auditedConfig "audit") (some "audit") = none := by decide +kernel
  have hcarried : ∀ n, header (auditedConfig "audit") (some "audit") = some n →
      Script.IsCarried n := by
    simp [hheader]
  obtain ⟨place, hplaced, -, hfound⟩ :=
    started_script_found hunits (.inl (by decide +kernel)) hcarried hstart
  obtain rfl : place = ["migrations", "audit"] :=
    Option.some.inj (hplaced.reached.symm.trans (by decide +kernel))
  exact ⟨hstart, hfound.mpr ⟨fun _ => ⟨some "audit", by decide +kernel, rfl⟩, by decide +kernel⟩⟩

/-- The search does not go through a directory of no connection, so it does not get to one that is
inside, although that belongs to a connection. -/
theorem nested_script_missed :
    (auditedConfig "teams/audit").validate = .ok () ∧
    (start (auditedConfig "teams/audit") "CreateFlights" (some "audit") ⟨2024, 3, 9⟩
        ⟨14, 5, 7, 0⟩).outcome usersFiles =
      (.ok ⟨"migrations/teams/audit/2024_03_09_140507_create_flights.sql", skeleton none⟩,
        flightsFiles ["teams", "audit"]) ∧
    Discovery.units (auditedConfig "teams/audit") usersFiles [] =
      .ok [.ofScript usersScript.id usersScript.script] ∧
    Discovery.units (auditedConfig "teams/audit") (flightsFiles ["teams", "audit"]) [] =
      .ok [.ofScript usersScript.id usersScript.script] := by
  have hold : Discovery.scripts (auditedConfig "teams/audit") usersFiles = .ok [usersScript] := by
    decide +kernel
  have hwithin : usersFiles.Within (flightsFiles ["teams", "audit"]) :=
    ⟨List.subset_append_left _ _, List.nil_subset _⟩
  obtain ⟨found, hfound, hperm⟩ := Discovery.scripts_added hold hwithin rfl
    (.inl (by decide +kernel)) (Discovery.visitAt_of_missed (by decide +kernel))
  rw [Option.toList_none, List.append_nil] at hperm
  obtain rfl := List.perm_singleton.mp hperm
  exact ⟨by decide +kernel, by decide +kernel, units_of_users hold, units_of_users hfound⟩

end Scaffold

end Relational
