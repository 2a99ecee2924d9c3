import Mathlib.Data.List.Perm.Basic
import Relational.Migration.Discovery
import Relational.Proofs.Files.Kept
import Relational.Proofs.Files.Path
import Relational.Proofs.Schema.Definition
/-
How the search for scripts gets to a file.

A file is visited by itself: what becomes of it depends on the directories on the way, and
not on other files.  So a file more is a script more, if the search gets to it, and what was
found before is found again.

In a search that is not recursive the way ends at the first directory that belongs to no
connection, whatever is inside.  Of the directories on the way the innermost that belongs to
a connection decides where the script runs.
-/
namespace Relational

/-! ### Lists -/

/-- Results of a list in another order are its results, in another order. -/
theorem exists_mapM_of_perm {ε α β : Type} {f : α → Except ε β} {xs ys : List α} {us : List β}
    (hperm : ys.Perm xs) (h : xs.mapM f = .ok us) : ∃ vs, ys.mapM f = .ok vs ∧ vs.Perm us := by
  obtain ⟨vs, hvs, hus⟩ := List.perm_comp_forall₂ hperm (forall₂_of_mapM h)
  exact ⟨vs, mapM_of_forall₂ hvs, hus⟩

theorem mapM_append_of_ok {ε α β : Type} {f : α → Except ε β} {xs ys : List α} {us vs : List β}
    (hxs : xs.mapM f = .ok us) (hys : ys.mapM f = .ok vs) :
    (xs ++ ys).mapM f = .ok (us ++ vs) :=
  mapM_of_forall₂ (List.rel_append (forall₂_of_mapM hxs) (forall₂_of_mapM hys))

/-- What holds of the front parts of a list holds of the first entry, and of the front parts behind
it. -/
theorem forall_prefix_cons {α : Type} {P : List α → Prop} {x : α} {xs : List α} :
    (∀ ys, ys ≠ [] → ys <+: x :: xs → P ys) ↔
      P [x] ∧ ∀ ys, ys ≠ [] → ys <+: xs → P (x :: ys) := by
  constructor
  · intro h
    exact ⟨h [x] (by simp) (by simp), fun ys _ hys => h (x :: ys) (by simp) (by simpa using hys)⟩
  · rintro ⟨hfirst, hrest⟩ ys hne hys
    rcases List.prefix_cons_iff.mp hys with rfl | ⟨rest, rfl, hprefixed⟩
    · exact absurd rfl hne
    · rcases eq_or_ne rest [] with rfl | hrest'
      · exact hfirst
      · exact hrest rest hrest' hprefixed

namespace Discovery

open FileSystem

variable {c : Config} {fs fs' : FileSystem} {entry : List String} {content : String}

/-! ### One file -/

/-- What becomes of a file that is found below the root. -/
def visit (c : Config) (names : List String) (content : String) :
    Except Failure (Option FoundScript) :=
  match follow? c none (Path.names c.migrations.root) names with
  | some connection => read c connection names content
  | none => .ok none

/-- The names that lead to an entry from the root. -/
def namesTo? (c : Config) (fs : FileSystem) (entry : List String) : Option (List String) :=
  (fs.directoryAt? c.migrations.root).bind fun root => below root entry

/-- The way of the search to an entry: the connection of the directories that it goes through, and
nothing if it does not get there. -/
def route? (c : Config) (fs : FileSystem) (entry : List String) : Option (Option String) :=
  (namesTo? c fs entry).bind (Discovery.follow? c none (Path.names c.migrations.root))

/-- What becomes of a file, wherever it is. -/
def visitAt (c : Config) (fs : FileSystem) (entry : List String) (content : String) :
    Except Failure (Option FoundScript) :=
  match namesTo? c fs entry with
  | some names => visit c names content
  | none => .ok none

/-- A file that the search does not get to is passed over. -/
theorem visitAt_of_missed (h : route? c fs entry = none) :
    visitAt c fs entry content = .ok none := by
  unfold visitAt
  split
  · rename_i names hnames
    rw [route?, hnames] at h
    rw [visit, show Discovery.follow? c none _ names = none from h]
  · rfl

/-- A file that the search gets to is read. -/
theorem visitAt_of_reached {connection : Option String} (h : route? c fs entry = some connection) :
    ∃ names, namesTo? c fs entry = some names ∧
      visitAt c fs entry content = read c connection names content := by
  obtain ⟨names, hnames, hfollow⟩ := Option.bind_eq_some_iff.mp h
  refine ⟨names, hnames, ?_⟩
  simp only [visitAt, hnames, visit, hfollow]

/-! ### A file more -/

/-- The files that a search looks at. -/
def candidates (c : Config) (fs : FileSystem) : List (List String × String) :=
  ((fs.directoryAt? c.migrations.root).map fs.filesBelow).getD []

theorem scripts_eq (c : Config) (fs : FileSystem) :
    scripts c fs = do
      let found ← (candidates c fs).mapM fun file => visit c file.1 file.2
      return found.filterMap id :=
  rfl

/-- Whether there is a root does not hang on what will be made: there is one, or nothing is found
on the way to it. -/
def IsSettled (c : Config) (fs : FileSystem) : Prop :=
  Path.above ∉ Path.steps c.migrations.root ∨ (fs.directoryAt? c.migrations.root).isSome

/-- The new file is looked at if it is below the root; the others are looked at as before. -/
theorem candidates_perm (hwithin : fs.Within fs')
    (hfiles : fs'.files = fs.files ++ [(entry, content)]) (hsettled : IsSettled c fs) :
    (candidates c fs').Perm
      (candidates c fs ++ ((namesTo? c fs' entry).map fun names => (names, content)).toList) := by
  unfold candidates namesTo?
  rcases hroot : fs.directoryAt? c.migrations.root with _ | root
  · rcases hroot' : fs'.directoryAt? c.migrations.root with _ | root
    · exact List.Perm.refl _
    · -- a root that was just made had nothing below it
      have hforward : Path.above ∉ Path.steps c.migrations.root :=
        hsettled.resolve_right (by simp [hroot])
      have hnone := filesBelow_eq_nil (isDirectory_eq_false hforward hroot' hroot)
      have hbelow : (fs'.filesBelow root).Perm _ := filesBelow_perm hfiles
      simpa [hnone] using hbelow
  · rw [hwithin.directoryAt? hroot]
    exact filesBelow_perm hfiles

/-- What was found before is found again, together with what the new file comes to. -/
theorem scripts_added {old : List FoundScript} {added : Option FoundScript}
    (hold : scripts c fs = .ok old) (hwithin : fs.Within fs')
    (hfiles : fs'.files = fs.files ++ [(entry, content)]) (hsettled : IsSettled c fs)
    (hvisit : visitAt c fs' entry content = .ok added) :
    ∃ found, scripts c fs' = .ok found ∧ found.Perm (old ++ added.toList) := by
  have hcandidates := candidates_perm hwithin hfiles hsettled
  have hnew : ∃ results, ((namesTo? c fs' entry).map fun names => (names, content)).toList.mapM
      (fun file => visit c file.1 file.2) = .ok results ∧ results.filterMap id = added.toList := by
    unfold visitAt at hvisit
    split at hvisit
    · rename_i names hnames
      refine ⟨[added], by simp [hnames, hvisit], ?_⟩
      cases added <;> rfl
    · rename_i hnames
      cases hvisit
      exact ⟨[], by rw [hnames]; rfl, rfl⟩
  obtain ⟨results, hresults, hadded⟩ := hnew
  rw [scripts_eq] at hold
  obtain ⟨before, hbefore, hold⟩ := exists_of_bind hold
  cases hold
  obtain ⟨after, hafter, hperm⟩ :=
    exists_mapM_of_perm hcandidates (mapM_append_of_ok hbefore hresults)
  refine ⟨after.filterMap id, ?_, ?_⟩
  · rw [scripts_eq, hafter]
    rfl
  · rw [← hadded, ← List.filterMap_append]
    exact hperm.filterMap id

/-! ### Directories on the way -/

section Follow

variable {connection : Option String} {place dirs : List String} {file : String}

theorem follow?_cons {directory : String} {names : List String} (hnames : names ≠ []) :
    Discovery.follow? c connection place (directory :: names) =
      match owner? c (place ++ [directory]) with
      | some name => Discovery.follow? c (some name) (place ++ [directory]) names
      | none =>
        if c.migrations.recursive then
          Discovery.follow? c connection (place ++ [directory]) names
        else none := by
  cases names with
  | nil => exact absurd rfl hnames
  | cons inner rest => rfl

/-- The search gets to a file if it is recursive, or if every directory on the way belongs to a
connection. -/
theorem isSome_follow? (connection : Option String) (place dirs : List String) (file : String) :
    (Discovery.follow? c connection place (dirs ++ [file])).isSome ↔
      c.migrations.recursive = true ∨
        ∀ inside, inside ≠ [] → inside <+: dirs → (owner? c (place ++ inside)).isSome := by
  induction dirs generalizing connection place with
  | nil =>
      have hnone : ∀ inside, inside ≠ [] → inside <+: ([] : List String) →
          (owner? c (place ++ inside)).isSome :=
        fun inside hne hinside => absurd (List.prefix_nil.mp hinside) hne
      exact iff_of_true rfl (.inr hnone)
  | cons directory dirs ih =>
      rw [List.cons_append, follow?_cons (by simp), forall_prefix_cons]
      rcases howner : owner? c (place ++ [directory]) with _ | name
      · by_cases hrecursive : c.migrations.recursive = true
        · simp [hrecursive, ih]
        · simp [hrecursive]
      · simp [ih]

/-- The innermost directory decides, if it belongs to a connection. -/
theorem follow?_owned {name : String} {found : Option String} (hdirs : dirs ≠ [])
    (howner : owner? c (place ++ dirs) = some name)
    (h : Discovery.follow? c connection place (dirs ++ [file]) = some found) :
    found = some name := by
  induction dirs generalizing connection place with
  | nil => exact absurd rfl hdirs
  | cons directory dirs ih =>
      rw [List.cons_append, follow?_cons (by simp)] at h
      rcases eq_or_ne dirs [] with rfl | hne
      · rw [howner] at h
        exact (Option.some.inj h).symm
      · rw [← List.singleton_append, ← List.append_assoc] at howner
        split at h
        · exact ih hne howner h
        · split at h
          · exact ih hne howner h
          · cases h

end Follow

/-! ### Directories inside the root -/

/-- The names of a path that is seen from the root, without dots that stand for the directory
itself. -/
def namesInside (path : String) : List String :=
  (Path.parts path).filter (· != Path.here)

/-- Whether the search goes through all directories on the way to one inside the root, and that
one. -/
def IsSearched (c : Config) (path : String) : Prop :=
  c.migrations.recursive = true ∨ ∀ inside, inside ≠ [] → inside <+: namesInside path →
    (owner? c (Path.names c.migrations.root ++ inside)).isSome

/-- The connection that the search gives to the files in a directory inside the root; the root
itself is no connection's. -/
def ownerInside (c : Config) (path : String) : Option String :=
  if namesInside path = [] then none else owner? c (Path.names (Path.join c.migrations.root path))

/-- A directory inside the root is where its names lead from there. -/
theorem place_of_inside {root place : List String} {path : String}
    (hroot : fs.directoryAt? c.migrations.root = some root)
    (hplace : fs.directoryAt? (Path.join c.migrations.root path) = some place)
    (hrelative : path.startsWith "/" = false) (hforward : Path.above ∉ Path.parts path) :
    place = root ++ namesInside path := by
  have hne := ne_empty_of_directoryAt? hroot
  have hsteps : Path.steps (Path.join c.migrations.root path) =
      Path.steps c.migrations.root ++ namesInside path := by
    rw [Path.steps, Path.names_join hne hrelative, List.filter_append, List.filter_filter]
    simp [Path.steps, namesInside]
  have hinside : Path.above ∉ namesInside path := fun h => hforward (List.mem_of_mem_filter h)
  unfold directoryAt? at hroot hplace
  split at hroot
  · split at hplace
    · rw [hsteps, FileSystem.follow?_append hroot, follow?_eq_of_forward hinside] at hplace
      split at hplace
      · exact (Option.some.inj hplace).symm
      · cases hplace
    · cases hplace
  · cases hroot

/-- A connection's directory belongs to some connection. -/
theorem isSome_owner? {name path : String} (h : (name, path) ∈ c.migrations.directories) :
    (owner? c (Path.names (Path.join c.migrations.root path))).isSome := by
  rw [owner?, Option.isSome_map, List.find?_isSome]
  exact ⟨_, h, by simp⟩

/-- **A file in a connection's directory inside the root is found if the search goes there.**  It is
a file of the first connection with that directory, and of none if the directory is the root
itself. -/
theorem route?_of_inside {name path file : String} {root place : List String}
    {owner : Option String} (hroot : fs.directoryAt? c.migrations.root = some root)
    (hplace : fs.directoryAt? (Path.join c.migrations.root path) = some place)
    (hmember : (name, path) ∈ c.migrations.directories)
    (hrelative : path.startsWith "/" = false) (hforward : Path.above ∉ Path.parts path) :
    route? c fs (place ++ [file]) = some owner ↔
      IsSearched c path ∧ owner = ownerInside c path := by
  have hne := ne_empty_of_directoryAt? hroot
  have hnames : Path.names (Path.join c.migrations.root path) =
      Path.names c.migrations.root ++ namesInside path := Path.names_join hne hrelative
  have hroute : route? c fs (place ++ [file]) =
      Discovery.follow? c none (Path.names c.migrations.root) (namesInside path ++ [file]) := by
    rw [route?, namesTo?, hroot, place_of_inside hroot hplace hrelative hforward,
      Option.bind_some, List.append_assoc, below_append (by simp), Option.bind_some]
  obtain ⟨decided, howner⟩ := Option.isSome_iff_exists.mp (isSome_owner? hmember)
  have hfound : ∀ found, Discovery.follow? c none (Path.names c.migrations.root)
      (namesInside path ++ [file]) = some found →
        found = if namesInside path = [] then none else some decided := by
    intro found hfound
    split
    · rename_i hdirs
      rw [hdirs] at hfound
      exact (Option.some.inj hfound).symm
    · rename_i hdirs
      exact follow?_owned hdirs (hnames ▸ howner) hfound
  rw [hroute, IsSearched, ← isSome_follow? none _ _ file, ownerInside, howner]
  constructor
  · intro h
    exact ⟨by rw [h]; rfl, hfound owner h⟩
  · rintro ⟨hsome, rfl⟩
    obtain ⟨found, h⟩ := Option.isSome_iff_exists.mp hsome
    rw [h, hfound found h]

end Discovery

end Relational
