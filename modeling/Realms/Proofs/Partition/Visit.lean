import Realms.Proofs.Partition.Rules

/-!
Visits of modules. What a visit follows is a matter of the project alone: the walk at hand adds no import
to that of the module and leaves none out.
-/
namespace Realms

/-- An import that a walk has followed, and what it leads to. -/
structure Followed where
  importer : ModulePath
  found : ImportRecord
  destination : Destination

namespace Followed

/-- The edge of an import. -/
def edge (kind : GraphKind) (step : Followed) : Edge :=
  match step.destination with
  | .package _ => ⟨step.importer, step.found.specifier, none, .package, .none⟩
  | .module target realm =>
    let found := link kind realm
    ⟨step.importer, step.found.specifier, some target, found.linkage, found.crossing⟩

/-- The entries that an import asks for. -/
def wanted (kind : GraphKind) (step : Followed) : List (ModulePath × GraphKind) :=
  match step.destination with
  | .package _ => []
  | .module target realm => ((link kind realm).entryFor.map fun other => (target, other)).toList

/-- An import leads to a module over a link of some form. -/
def LeadsTo (step : Followed) (kind : GraphKind) (form : Link → Prop) (target : ModulePath) : Prop :=
  ∃ realm, step.destination = .module target realm ∧ form (link kind realm)

variable {step : Followed} {kind : GraphKind} {form : Link → Prop} {target path : ModulePath}
  {realm : Realm}

theorem not_leadsTo {name : String} (package : step.destination = .package name) :
    ¬ step.LeadsTo kind form path := by
  rintro ⟨realm, same, _⟩
  cases package.symm.trans same

theorem leadsTo_iff (module : step.destination = .module target realm) :
    step.LeadsTo kind form path ↔ path = target ∧ form (link kind realm) := by
  constructor
  · rintro ⟨realm, same, holds⟩
    cases module.symm.trans same
    exact ⟨rfl, holds⟩
  · rintro ⟨rfl, holds⟩
    exact ⟨realm, module, holds⟩

theorem exists_leadsTo_append {followed : List Followed} :
    (∃ other ∈ followed ++ [step], other.LeadsTo kind form path) ↔
      (∃ other ∈ followed, other.LeadsTo kind form path) ∨ step.LeadsTo kind form path := by
  simp only [List.mem_append, List.mem_singleton, or_and_right, exists_or, exists_eq_left]

end Followed

namespace Project

/-- The imports of a module that lead somewhere. -/
def followedFrom (project : Project) (path : ModulePath) (imports : List ImportRecord) :
    List Followed :=
  imports.filterMap fun found => match project.destination path found with
    | .ok destination => some ⟨path, found, destination⟩
    | .error _ => none

/-- What a visit of a module follows. -/
def visitSteps (project : Project) (path : ModulePath) : List Followed :=
  match project.load path with
  | .ok record => project.followedFrom path record.imports
  | .error _ => []

/-- A module that can be visited: it has a record, and each of its imports leads somewhere. -/
def Visitable (project : Project) (path : ModulePath) : Prop :=
  ∃ record, project.load path = .ok record ∧
    ∀ found ∈ record.imports, ∃ destination, project.destination path found = .ok destination

variable {project : Project}

theorem mem_visitSteps {path : ModulePath} {step : Followed} : step ∈ project.visitSteps path ↔
    step.importer = path ∧ ∃ record, project.load path = .ok record ∧ step.found ∈ record.imports ∧
      project.destination path step.found = .ok step.destination := by
  unfold visitSteps followedFrom
  constructor
  · intro member
    split at member
    · rename_i record loaded
      obtain ⟨found, listed, same⟩ := List.mem_filterMap.mp member
      split at same
      · rename_i destination leads
        obtain rfl := Option.some.inj same
        exact ⟨rfl, record, loaded, listed, leads⟩
      · cases same
    · cases member
  · rintro ⟨rfl, record, loaded, listed, leads⟩
    rw [loaded]
    exact List.mem_filterMap.mpr ⟨step.found, listed, by rw [leads]⟩

theorem imports_iff {importer target : ModulePath} {realm : Realm} :
    project.Imports importer target realm ↔
      ∃ step ∈ project.visitSteps importer, step.destination = .module target realm := by
  constructor
  · rintro ⟨record, loaded, found, listed, leads⟩
    exact ⟨⟨importer, found, .module target realm⟩,
      mem_visitSteps.mpr ⟨rfl, record, loaded, listed, leads⟩, rfl⟩
  · rintro ⟨step, member, same⟩
    obtain ⟨_, record, loaded, listed, leads⟩ := mem_visitSteps.mp member
    exact ⟨record, loaded, step.found, listed, same ▸ leads⟩

/-- Some import of a module leads to a target over a link of some form. -/
theorem leadsTo_iff {importer target : ModulePath} {kind : GraphKind} {form : Link → Prop} :
    (∃ step ∈ project.visitSteps importer, step.LeadsTo kind form target) ↔
      ∃ realm, project.Imports importer target realm ∧ form (link kind realm) := by
  constructor
  · rintro ⟨step, member, realm, same, holds⟩
    exact ⟨realm, imports_iff.mpr ⟨step, member, same⟩, holds⟩
  · rintro ⟨realm, imports, holds⟩
    obtain ⟨step, member, same⟩ := imports_iff.mp imports
    exact ⟨step, member, realm, same, holds⟩

end Project

namespace Walk

variable {project : Project} {walk : Walk}

/-- Adds an import that is followed. -/
def take (walk : Walk) (step : Followed) : Walk :=
  walk.add step.importer step.found.specifier step.destination

theorem foldlM_follow {path : ModulePath} {imports : List ImportRecord} {next : Walk}
    (h : imports.foldlM (follow project path) walk = .ok next) :
    (∀ found ∈ imports, ∃ destination, project.destination path found = .ok destination) ∧
      next = (project.followedFrom path imports).foldl take walk := by
  induction imports generalizing walk with
  | nil => exact ⟨by simp, (Except.ok.inj h).symm⟩
  | cons found rest ih =>
      obtain ⟨middle, first, later⟩ := bind_eq_ok.mp h
      obtain ⟨destination, leads, same⟩ := bind_eq_ok.mp first
      obtain ⟨lead, equal⟩ := ih later
      constructor
      · intro other member
        rcases List.mem_cons.mp member with rfl | member
        · exact ⟨destination, leads⟩
        · exact lead other member
      · rw [equal, ← pure_eq_ok.mp same]
        simp only [Project.followedFrom, List.filterMap_cons, leads, List.foldl_cons]
        rfl

theorem visit_eq_ok {path : ModulePath} {next : Walk} (h : visit project walk path = .ok next) :
    project.Visitable path ∧
      next = (project.visitSteps path).foldl take (walk.addLoaded path) := by
  obtain ⟨record, found, follows⟩ := bind_eq_ok.mp h
  obtain ⟨lead, equal⟩ := foldlM_follow follows
  refine ⟨⟨record, found, lead⟩, ?_⟩
  rw [equal, Project.visitSteps, found]

/-- Nothing else can keep a module from being visited. -/
theorem visit_isOk {path : ModulePath} (visitable : project.Visitable path) :
    ∃ next, visit project walk path = .ok next := by
  obtain ⟨record, loads, lead⟩ := visitable
  have follows (imports : List ImportRecord)
      (lead : ∀ found ∈ imports, ∃ destination, project.destination path found = .ok destination) (walk : Walk) :
      ∃ next, imports.foldlM (follow project path) walk = .ok next := by
    induction imports generalizing walk with
    | nil => exact ⟨walk, rfl⟩
    | cons found rest ih =>
        obtain ⟨destination, leads⟩ := lead found List.mem_cons_self
        have first : follow project path walk found = .ok (walk.add path found.specifier destination) := by
          rw [follow, leads]
          rfl
        obtain ⟨next, later⟩ := ih (fun other member => lead other (List.mem_cons_of_mem found member))
          (walk.add path found.specifier destination)
        exact ⟨next, bind_eq_ok.mpr ⟨_, first, later⟩⟩
  obtain ⟨next, done⟩ := follows record.imports lead (walk.addLoaded path)
  exact ⟨next, bind_eq_ok.mpr ⟨record, loads, done⟩⟩

end Walk
end Realms
