import Mathlib.Logic.Relation
import Mathlib.Order.Bounds.Basic
import Realms.Partition.Rounds
import Realms.Proofs.Outcome

/-!
The rules of the boundary, without any order of work: which modules are entries of a graph and which are
built into it, each by the other. The rules have a least solution, which is made from the listed entries
alone.
-/
namespace Realms

/-- A link builds its target in and asks for nothing, or leaves it to the graph of its realm. -/
theorem link_cases (graph : GraphKind) (realm : Realm) :
    ((link graph realm).linkage = .inline ∧ (link graph realm).crossing = .none ∧
      (link graph realm).entryFor = none) ∨
    ((link graph realm).linkage = .external ∧
      (link graph realm).entryFor = some (GraphKind.ofRealm realm)) := by
  cases graph <;> cases realm <;> simp [link, GraphKind.ofRealm]

theorem link_entryFor {graph kind : GraphKind} {realm : Realm}
    (asks : (link graph realm).entryFor = some kind) : GraphKind.ofRealm realm = kind := by
  rcases link_cases graph realm with ⟨_, _, none⟩ | ⟨_, some⟩
  · rw [none] at asks
    cases asks
  · exact Option.some.inj (some.symm.trans asks)

namespace Partition

/-- The graph of a kind. -/
def graph (partition : Partition) : GraphKind → BuildGraph
  | .server => partition.server
  | .client => partition.client
  | .serverFunction => partition.serverFunctions

/-- The entries and the modules of the graphs, as sets. -/
def membership (partition : Partition) :
    (GraphKind → Set ModulePath) × (GraphKind → Set ModulePath) :=
  (fun kind => {path | path ∈ (partition.graph kind).entries},
    fun kind => {path | path ∈ (partition.graph kind).modules})

end Partition

namespace Project

/-- A module has an import that leads to another module, which has a realm. -/
def Imports (project : Project) (importer target : ModulePath) (realm : Realm) : Prop :=
  ∃ record, project.load importer = .ok record ∧
    ∃ found ∈ record.imports, project.destination importer found = .ok (.module target realm)

/-- A module has an import that its graph builds in. -/
def Inlines (project : Project) (kind : GraphKind) (importer target : ModulePath) : Prop :=
  ∃ realm, project.Imports importer target realm ∧ (link kind realm).linkage = .inline

/-- A module of a graph has an import that another graph must take as an entry. -/
def Asks (project : Project) (graph kind : GraphKind) (importer target : ModulePath) : Prop :=
  ∃ realm, project.Imports importer target realm ∧ (link graph realm).entryFor = some kind

/-- A module is listed as an entry, and its realm belongs to a graph. -/
def Lists (project : Project) (listed : List ModulePath) (kind : GraphKind) (path : ModulePath) :
    Prop :=
  path ∈ listed ∧ ∃ record, project.load path = .ok record ∧ GraphKind.ofRealm record.realm = kind

/-- The rules. The entries of a graph are the listed ones and those that modules of some graph ask for,
and its modules are what its entries reach over imports that are built in. -/
structure Obeys (project : Project) (listed : List ModulePath)
    (graphs : (GraphKind → Set ModulePath) × (GraphKind → Set ModulePath)) : Prop where
  entries : ∀ kind path, path ∈ graphs.1 kind ↔ project.Lists listed kind path ∨
    ∃ graph, ∃ importer ∈ graphs.2 graph, project.Asks graph kind importer path
  modules : ∀ kind path, path ∈ graphs.2 kind ↔
    ∃ entry ∈ graphs.1 kind, Relation.ReflTransGen (project.Inlines kind) entry path

/-- What a module is to a graph. -/
inductive Standing where
  | entry
  | member

/-- What modules are to the graphs, if nothing is more than the rules say. -/
inductive Stands (project : Project) (listed : List ModulePath) :
    Standing → GraphKind → ModulePath → Prop
  | listed {kind path} : project.Lists listed kind path → Stands project listed .entry kind path
  | asked {graph kind importer path} : Stands project listed .member graph importer →
      project.Asks graph kind importer path → Stands project listed .entry kind path
  | entry {kind path} : Stands project listed .entry kind path → Stands project listed .member kind path
  | inlined {kind importer path} : Stands project listed .member kind importer →
      project.Inlines kind importer path → Stands project listed .member kind path

variable {project : Project} {listed : List ModulePath}

theorem destination_module {importer target : ModulePath} {found : ImportRecord} {realm : Realm}
    (leads : project.destination importer found = .ok (.module target realm)) :
    project.resolve importer found.specifier = .ok (.module target) ∧
      ∃ record, project.load target = .ok record ∧ record.realm = realm := by
  obtain ⟨resolution, resolves, leads⟩ := bind_eq_ok.mp leads
  cases resolution with
  | package name => cases leads
  | unresolved => cases leads
  | module path =>
      obtain ⟨record, loads, same⟩ := bind_eq_ok.mp leads
      cases same
      exact ⟨resolves, record, loads, rfl⟩

theorem Imports.loads {importer target : ModulePath} {realm : Realm}
    (imports : project.Imports importer target realm) :
    ∃ record, project.load target = .ok record ∧ record.realm = realm := by
  obtain ⟨_, _, _, _, leads⟩ := imports
  exact (destination_module leads).2

/-- An entry has a record, and the graph is that of its realm. -/
theorem Stands.entry_loads {kind : GraphKind} {path : ModulePath}
    (stands : project.Stands listed .entry kind path) :
    ∃ record, project.load path = .ok record ∧ GraphKind.ofRealm record.realm = kind := by
  cases stands with
  | listed lists => exact lists.2
  | asked _ asks =>
      obtain ⟨realm, imports, asks⟩ := asks
      obtain ⟨record, loads, rfl⟩ := imports.loads
      exact ⟨record, loads, link_entryFor asks⟩

theorem Stands.reaches {kind : GraphKind} {entry path : ModulePath}
    (stands : project.Stands listed .entry kind entry)
    (chain : Relation.ReflTransGen (project.Inlines kind) entry path) :
    project.Stands listed .member kind path := by
  induction chain with
  | refl => exact .entry stands
  | tail _ last ih => exact .inlined ih last

theorem Stands.entry_cases {kind : GraphKind} {path : ModulePath}
    (stands : project.Stands listed .entry kind path) : project.Lists listed kind path ∨
      ∃ graph importer, project.Stands listed .member graph importer ∧
        project.Asks graph kind importer path := by
  cases stands with
  | listed lists => exact .inl lists
  | asked member asks => exact .inr ⟨_, _, member, asks⟩

/-- A member is behind an entry. The induction is on how it came in, so the other cases are entries. -/
theorem Stands.behind_entry {standing : Standing} {kind : GraphKind} {path : ModulePath}
    (stands : project.Stands listed standing kind path) : ∃ entry,
      project.Stands listed .entry kind entry ∧
        Relation.ReflTransGen (project.Inlines kind) entry path := by
  induction stands with
  | listed lists => exact ⟨_, .listed lists, .refl⟩
  | asked member asks _ => exact ⟨_, .asked member asks, .refl⟩
  | entry stands _ => exact ⟨_, stands, .refl⟩
  | inlined _ inlines ih =>
      obtain ⟨entry, stands, chain⟩ := ih
      exact ⟨entry, stands, chain.tail inlines⟩

/-- Whatever obeys the rules has at least the modules that stand by them. -/
theorem Stands.within {graphs : (GraphKind → Set ModulePath) × (GraphKind → Set ModulePath)}
    (obeys : project.Obeys listed graphs) {standing : Standing} {kind : GraphKind} {path : ModulePath}
    (stands : project.Stands listed standing kind path) :
    match standing with
    | .entry => path ∈ graphs.1 kind
    | .member => path ∈ graphs.2 kind := by
  induction stands with
  | listed lists => exact (obeys.entries _ _).mpr (.inl lists)
  | asked _ asks ih => exact (obeys.entries _ _).mpr (.inr ⟨_, _, ih, asks⟩)
  | entry _ ih => exact (obeys.modules _ _).mpr ⟨_, ih, .refl⟩
  | inlined _ inlines ih =>
      obtain ⟨entry, member, chain⟩ := (obeys.modules _ _).mp ih
      exact (obeys.modules _ _).mpr ⟨entry, member, chain.tail inlines⟩

/-- Standing by the rules is their least solution. -/
theorem stands_isLeast (project : Project) (listed : List ModulePath) :
    IsLeast {graphs | project.Obeys listed graphs}
      (fun kind => {path | project.Stands listed .entry kind path},
        fun kind => {path | project.Stands listed .member kind path}) := by
  constructor
  · constructor
    · intro kind path
      constructor
      · intro stands
        rcases Stands.entry_cases stands with lists | ⟨graph, importer, member, asks⟩
        · exact .inl lists
        · exact .inr ⟨graph, importer, member, asks⟩
      · rintro (lists | ⟨graph, importer, member, asks⟩)
        · exact Stands.listed lists
        · exact Stands.asked member asks
    · intro kind path
      exact ⟨fun stands => Stands.behind_entry stands,
        fun ⟨_, stands, chain⟩ => Stands.reaches stands chain⟩
  · intro graphs obeys
    exact ⟨fun kind path stands => Stands.within obeys stands,
      fun kind path stands => Stands.within obeys stands⟩

end Project
end Realms
