import Realms.Proofs.Partition.Boundary

/-!
How partitions fail: by a module that cannot be loaded or an import that leads nowhere, and never because
of the boundary.
-/
namespace Realms

namespace BuildError

/-- An error that is not about the boundary. -/
def IsOrdinary (e : BuildError) : Prop := e.cause.guarantee ≠ .externalDivergence

/-- What keeps a module from being loaded: its path, its file, its text or an import of it. -/
def OfLoading (e : BuildError) : Prop := e.cause.guarantee ∈ [.outsideRoot, .read, .parse, .resolve]

end BuildError

open BuildError

namespace Resolution

theorem ofText_fails (raw : String) : FailsWith OfLoading (ModulePath.ofText raw) := by
  unfold ModulePath.ofText
  split
  · exact .ok _
  · exact .error (List.mem_of_elem_eq_true rfl)
  · exact .error (List.mem_of_elem_eq_true rfl)

theorem resolveAt_fails (importer : ModulePath) (specifier : String) :
    FailsWith OfLoading (importer.resolveAt specifier) := by
  unfold ModulePath.resolveAt
  split
  · exact .ok _
  · rename_i e failed
    exact .error (ofText_fails _ e failed)

theorem firstOf_fails (isFile : ModulePath → Bool) (candidates : List String) :
    FailsWith OfLoading (firstOf isFile candidates) := by
  induction candidates with
  | nil => exact .ok _
  | cons candidate rest ih =>
      apply FailsWith.bind (ofText_fails candidate)
      intro path _
      split
      · exact .ok _
      · exact ih

theorem resolve_fails (isFile : ModulePath → Bool) (importer : ModulePath) (specifier : String) :
    FailsWith OfLoading (resolve isFile importer specifier) := by
  unfold resolve
  split
  · exact .ok _
  · exact .bind (resolveAt_fails importer specifier) fun base _ => firstOf_fails isFile _

end Resolution

namespace Project

variable {project : Project}

theorem load_fails (path : ModulePath) : FailsWith OfLoading (project.load path) := by
  unfold load
  split
  · exact .error (List.mem_of_elem_eq_true rfl)
  · split
    · exact .ok _
    · exact .error (List.mem_of_elem_eq_true rfl)

theorem destination_fails (importer : ModulePath) (found : ImportRecord) :
    FailsWith OfLoading (project.destination importer found) := by
  apply FailsWith.bind (Resolution.resolve_fails _ importer found.specifier)
  intro resolution _
  cases resolution with
  | package name => exact .ok _
  | unresolved => exact .error (List.mem_of_elem_eq_true rfl)
  | module target => exact .bind (load_fails target) fun record _ => .ok _

theorem visit_fails (walk : Walk) (path : ModulePath) :
    FailsWith OfLoading (Walk.visit project walk path) :=
  .bind (load_fails path) fun record _ =>
    .foldlM (fun _ found => .bind (destination_fails path found) fun _ _ => .ok _) record.imports _

theorem run_fails (rounds : Nat) (walk : Walk) : FailsWith OfLoading (Walk.run project rounds walk) := by
  induction rounds generalizing walk with
  | zero => exact .ok walk
  | succ rounds ih =>
      rw [Walk.run]
      split
      · exact .ok walk
      · exact .bind (visit_fails _ _) fun next _ => ih next

theorem round_fails (entries : Entries) (loaded : PathSet) :
    FailsWith OfLoading (project.round entries loaded) :=
  .bind (run_fails _ _) fun _ _ => .bind (run_fails _ _) fun _ _ => .bind (run_fails _ _) fun _ _ => .ok _

theorem rounds_fails (left : Nat) (entries : Entries) (loaded : PathSet) :
    FailsWith OfLoading (project.rounds left entries loaded) := by
  induction left generalizing entries loaded with
  | zero => exact round_fails entries loaded
  | succ left ih =>
      apply FailsWith.bind (round_fails entries loaded)
      intro round _
      dsimp only
      split
      · exact .ok round
      · exact ih _ _

theorem listedEntries_fails (listed : List ModulePath) (entries : Entries) :
    FailsWith OfLoading (project.listedEntries listed entries) := by
  induction listed generalizing entries with
  | nil => exact .ok entries
  | cons path rest ih => exact .bind (load_fails path) fun record _ => ih _

theorem partition_fails_loading (listed : List ModulePath) : FailsWith OfLoading (project.partition listed) := by
  apply FailsWith.bind (listedEntries_fails listed .empty)
  intro entries start
  apply FailsWith.bind (rounds_fails _ entries _)
  intro round rounds
  have settled := rounds_settled (listedEntries_justified start) (by omega) rounds
  dsimp only
  rw [settled.checkBoundary]
  exact .ok _

theorem partition_fails (listed : List ModulePath) : FailsWith IsOrdinary (project.partition listed) :=
  (partition_fails_loading listed).mono fun e loading boundary => by simp [OfLoading, boundary] at loading

theorem code_eq_externalDivergence {guarantee : Guarantee}
    (code : guarantee.code = "RB-ERR-EXTERNAL-DIVERGENCE") : guarantee = .externalDivergence := by
  cases guarantee <;> first | rfl | exact absurd code (by decide)

/-- Every partition keeps to the boundary, and no project fails on it. -/
theorem partition_keepsBoundary (project : Project) (listed : List ModulePath) :
    (∀ partition, project.partition listed = .ok partition → partition.KeepsBoundary) ∧
      ∀ e, project.partition listed = .error e → e.report.code ≠ "RB-ERR-EXTERNAL-DIVERGENCE" := by
  constructor
  · intro partition h
    obtain ⟨round, settled, rfl, _⟩ := partition_eq_ok h
    exact settled.keepsBoundary
  · intro e h code
    exact partition_fails listed e h (code_eq_externalDivergence code)

/-- A page of the server with a component, a function that the component calls and a state they share. -/
def sharedState : Project where
  shared := [⟨"state.js"⟩]
  sources := .ofTexts [
    (⟨"page.js"⟩, "import './button.js'; import './state.js'"),
    (⟨"button.js"⟩, "'use client'; import './save.js'"),
    (⟨"save.js"⟩, "'use server'; import './state.js'; import './button.js'; export async function save() {}"),
    (⟨"state.js"⟩, "export const state = 0")]

/-- The page is split, and a list with a page that is not there is refused for that. -/
theorem sharedState_keepsBoundary :
    (∃ partition, sharedState.partition [⟨"page.js"⟩] = .ok partition ∧ partition.KeepsBoundary) ∧
      ∃ e, sharedState.partition [⟨"gone.js"⟩] = .error e ∧
        e.report.code ≠ "RB-ERR-EXTERNAL-DIVERGENCE" := by
  have succeeds : (sharedState.partition [⟨"page.js"⟩]).isOk = true := by decide +kernel
  have fails : (sharedState.partition [⟨"gone.js"⟩]).isOk = false := by decide +kernel
  obtain ⟨partition, splits⟩ := exists_of_isOk succeeds
  obtain ⟨e, refused⟩ := exists_of_not_isOk fails
  exact ⟨⟨partition, splits, (partition_keepsBoundary sharedState [⟨"page.js"⟩]).1 partition splits⟩,
    e, refused, (partition_keepsBoundary sharedState [⟨"gone.js"⟩]).2 e refused⟩

end Project
end Realms
