import Realms.Build
import Realms.Proofs.Outcome

/-!
Sources with the same files. Two builds over them go step by step through the same modules, because they can only
tell the sources apart where a file is missing: there each gives a reason of its own.
-/
namespace Realms

/-- Errors that differ at most in the reason why a file cannot be read. -/
inductive BuildError.Alike : BuildError → BuildError → Prop
  | same (e : BuildError) : Alike e e
  | unreadable (file reason reason' : String) :
      Alike (.atFile (.unreadable reason) file) (.atFile (.unreadable reason') file)

/-- Only the messages of errors that are alike can differ, and only behind the words that they begin with. -/
theorem BuildError.Alike.report {e e' : BuildError} (alike : e.Alike e') : e.report = e'.report ∨
    e.report.code = "RB-ERR-READ" ∧ ∃ reason reason',
      e.report = { e'.report with message := "Failed to read module: " ++ reason } ∧
        e'.report = { e.report with message := "Failed to read module: " ++ reason' } := by
  cases alike with
  | same e => exact .inl rfl
  | unreadable file reason reason' => exact .inr ⟨rfl, reason, reason', rfl, rfl⟩

/-- Sources that have the same files, as far as a build can tell. -/
structure Sources.SameFiles (sources other : Sources) : Prop where
  length_eq : sources.files.length = other.files.length
  find?_eq : ∀ path, sources.find? path = other.find? path

namespace Project

variable {shared : SharedSet} {sources other : Sources} (same : sources.SameFiles other)

include same

theorem load_agree (path : ModulePath) :
    Agree BuildError.Alike (load ⟨shared, sources⟩ path) (load ⟨shared, other⟩ path) := by
  rw [load, load, Sources.read, Sources.read, same.find?_eq]
  cases other.find? path with
  | none => exact .error (.unreadable path.text _ _)
  | some content => exact .refl .same _

theorem resolve_agree (importer : ModulePath) (specifier : String) :
    resolve ⟨shared, sources⟩ importer specifier = resolve ⟨shared, other⟩ importer specifier := by
  have contains : sources.contains = other.contains := by
    funext path
    rw [Sources.contains, Sources.contains, same.find?_eq]
  rw [resolve, resolve, contains]

theorem destination_agree (importer : ModulePath) (found : ImportRecord) :
    Agree BuildError.Alike (destination ⟨shared, sources⟩ importer found)
      (destination ⟨shared, other⟩ importer found) := by
  rw [destination, destination, resolve_agree same]
  refine .bind (.refl .same _) fun resolution => ?_
  cases resolution with
  | package name => exact .ok _
  | unresolved => exact .error (.same _)
  | module target => exact .bind (load_agree same target) fun record => .ok _

end Project

namespace Walk

variable {shared : SharedSet} {sources other : Sources} (same : sources.SameFiles other)

include same

theorem visit_agree (walk : Walk) (path : ModulePath) :
    Agree BuildError.Alike (visit ⟨shared, sources⟩ walk path) (visit ⟨shared, other⟩ walk path) := by
  refine .bind (Project.load_agree same path) fun record => ?_
  refine .foldlM (fun walk found => ?_) record.imports (walk.addLoaded path)
  exact .bind (Project.destination_agree same path found) fun destination => .ok _

theorem run_agree (rounds : Nat) (walk : Walk) :
    Agree BuildError.Alike (run ⟨shared, sources⟩ rounds walk) (run ⟨shared, other⟩ rounds walk) := by
  induction rounds generalizing walk with
  | zero => exact .ok walk
  | succ rounds ih =>
      rw [run, run]
      split
      · exact .ok walk
      · exact .bind (visit_agree same _ _) ih

end Walk

namespace Project

variable {shared : SharedSet} {sources other : Sources} (same : sources.SameFiles other)

include same

theorem walk_agree (kind : GraphKind) (entries loaded : PathSet) :
    Agree BuildError.Alike (walk ⟨shared, sources⟩ kind entries loaded)
      (walk ⟨shared, other⟩ kind entries loaded) := by
  rw [walk, walk, same.length_eq]
  exact Walk.run_agree same _ _

theorem round_agree (entries : Entries) (loaded : PathSet) :
    Agree BuildError.Alike (round ⟨shared, sources⟩ entries loaded) (round ⟨shared, other⟩ entries loaded) := by
  refine .bind (walk_agree same _ _ _) fun server => ?_
  refine .bind (walk_agree same _ _ _) fun client => ?_
  exact .bind (walk_agree same _ _ _) fun serverFunctions => .ok _

theorem rounds_agree (left : Nat) (entries : Entries) (loaded : PathSet) :
    Agree BuildError.Alike (rounds ⟨shared, sources⟩ left entries loaded)
      (rounds ⟨shared, other⟩ left entries loaded) := by
  induction left generalizing entries loaded with
  | zero => exact round_agree same entries loaded
  | succ left ih =>
      refine .bind (round_agree same entries loaded) fun round => ?_
      dsimp only
      split
      · exact .ok round
      · exact ih _ _

theorem listedEntries_agree (listed : List ModulePath) (entries : Entries) :
    Agree BuildError.Alike (listedEntries ⟨shared, sources⟩ listed entries)
      (listedEntries ⟨shared, other⟩ listed entries) := by
  induction listed generalizing entries with
  | nil => exact .ok entries
  | cons path rest ih => exact .bind (load_agree same path) fun record => ih _

theorem records_agree (paths : PathSet) :
    records ⟨shared, sources⟩ paths = records ⟨shared, other⟩ paths := by
  rw [records, records]
  congr 1
  funext path
  have loads : Agree BuildError.Alike (load ⟨shared, sources⟩ path) (load ⟨shared, other⟩ path) :=
    load_agree same path
  generalize load ⟨shared, sources⟩ path = first at loads
  generalize load ⟨shared, other⟩ path = second at loads
  cases loads with
  | ok record => rfl
  | error => rfl

theorem partition_agree (listed : List ModulePath) :
    Agree BuildError.Alike (partition ⟨shared, sources⟩ listed) (partition ⟨shared, other⟩ listed) := by
  refine .bind (listedEntries_agree same listed _) fun entries => ?_
  refine .bind (same.length_eq ▸ rounds_agree same _ _ _) fun round => ?_
  rw [partitionOf, partitionOf, records_agree same]
  exact .refl .same _

end Project

/-- Sources with the same files have one build, or no build for reasons that are alike. -/
theorem Build.compile_agree {sources other : Sources} (same : sources.SameFiles other) (options : BuildOptions) :
    Agree BuildError.Alike (compile options sources) (compile options other) := by
  refine .bind (.refl .same _) fun shared => .bind (.refl .same _) fun entries => ?_
  exact .bind (Project.partition_agree same entries) fun partition => .refl .same _

end Realms
