import Mathlib.Data.List.Perm.Subperm
import Realms.Proofs.Partition.Visit
import Realms.Proofs.Sorted

/-!
What a walk holds. Every import that is followed adds to the parts of a walk independently of what is
there, so a walk is known from the modules it has visited. A walk that ends holds what its entries reach.
-/
namespace Realms
namespace Walk

variable {project : Project} {kind : GraphKind} {entries loaded : PathSet}
  {visited : List ModulePath} {followed : List Followed} {walk : Walk}

/-- What an import adds to a walk. -/
structure Adds (step : Followed) (walk next : Walk) : Prop where
  kind_eq : next.graph.kind = walk.graph.kind
  entries_eq : next.graph.entries = walk.graph.entries
  edges_eq : next.graph.edges = walk.graph.edges ++ [step.edge walk.graph.kind]
  wanted_eq : next.wanted = walk.wanted ++ step.wanted walk.graph.kind
  mem_modules : ∀ path, path ∈ next.graph.modules ↔
    path ∈ walk.graph.modules ∨ step.LeadsTo walk.graph.kind (·.linkage = .inline) path
  mem_fromClient : ∀ path, path ∈ next.fromClient ↔
    path ∈ walk.fromClient ∨ step.LeadsTo walk.graph.kind (·.crossing = .intoServerFunction) path
  mem_loaded : ∀ path, path ∈ next.loaded ↔
    path ∈ walk.loaded ∨ step.LeadsTo walk.graph.kind (fun _ => True) path
  mem_externals : ∀ path, path ∈ next.graph.externals ↔
    path ∈ walk.graph.externals ∨ step.LeadsTo walk.graph.kind (·.linkage = .external) path
  mem_packages : ∀ name, name ∈ next.graph.packages ↔
    name ∈ walk.graph.packages ∨ step.destination = .package name
  ascending : walk.graph.modules.Ascending → next.graph.modules.Ascending
  ascending_fromClient : walk.fromClient.Ascending → next.fromClient.Ascending
  ascending_loaded : walk.loaded.Ascending → next.loaded.Ascending
  /-- A module that is new to the graph is queued, and no other one. -/
  queued : walk.graph.modules.Ascending → ∀ visited : List ModulePath,
    walk.graph.modules.Perm (visited ++ walk.queue) → next.graph.modules.Perm (visited ++ next.queue)

theorem adds_package {step : Followed} {name : String} (package : step.destination = .package name) :
    Adds step walk (walk.take step) := by
  have nowhere {form : Link → Prop} {path : ModulePath} :
      ¬ step.LeadsTo walk.graph.kind form path := Followed.not_leadsTo package
  have taken : walk.take step = walk.addPackage step.importer step.found.specifier name := by
    rw [take, package]
    rfl
  rw [taken]
  exact {
    kind_eq := rfl
    entries_eq := rfl
    edges_eq := by
      rw [Followed.edge, package]
      rfl
    wanted_eq := by
      rw [Followed.wanted, package]
      exact (List.append_nil _).symm
    mem_modules := fun path => (or_iff_left nowhere).symm
    mem_fromClient := fun path => (or_iff_left nowhere).symm
    mem_loaded := fun path => (or_iff_left nowhere).symm
    mem_externals := fun path => (or_iff_left nowhere).symm
    mem_packages := fun other => by
      rw [package, Destination.package.injEq, or_comm, eq_comm]
      exact Sorted.mem_insert Function.injective_id name other walk.graph.packages
    ascending := id
    ascending_fromClient := id
    ascending_loaded := id
    queued := fun _ _ => id }

/-- What every import of a module does, whatever its link. -/
def linked (walk : Walk) (step : Followed) (target : ModulePath) : Walk :=
  (walk.addLoaded target).addEdge (step.edge walk.graph.kind)

section Inline

variable {target : ModulePath}

theorem addInline_present (present : target ∈ walk.graph.modules) : walk.addInline target = walk :=
  if_pos (List.contains_iff_mem.mpr present)

theorem addInline_new (new : target ∉ walk.graph.modules) : walk.addInline target =
    { walk with
      graph := { walk.graph with modules := walk.graph.modules.insert target }
      queue := walk.queue ++ [target] } :=
  if_neg fun contains => new (List.contains_iff_mem.mp contains)

/-- Only the modules of the graph and the queue change. -/
theorem addInline_eq (walk : Walk) (target : ModulePath) : walk.addInline target =
    { walk with
      graph := { walk.graph with modules := (walk.addInline target).graph.modules }
      queue := (walk.addInline target).queue } := by
  by_cases present : target ∈ walk.graph.modules
  · rw [addInline_present present]
  · rw [addInline_new present]

theorem mem_addInline {path : ModulePath} :
    path ∈ (walk.addInline target).graph.modules ↔ path ∈ walk.graph.modules ∨ path = target := by
  by_cases present : target ∈ walk.graph.modules
  · rw [addInline_present present, or_iff_left_of_imp fun same => same ▸ present]
  · rw [addInline_new present, or_comm]
    exact PathSet.mem_insert

theorem addInline_ascending (walk : Walk) (target : ModulePath) (ascending : walk.graph.modules.Ascending) :
    (walk.addInline target).graph.modules.Ascending := by
  by_cases present : target ∈ walk.graph.modules
  · rw [addInline_present present]
    exact ascending
  · rw [addInline_new present]
    exact ascending.insert target

theorem addInline_queued (walk : Walk) (target : ModulePath) (ascending : walk.graph.modules.Ascending)
    (queued : walk.graph.modules.Perm (visited ++ walk.queue)) :
    (walk.addInline target).graph.modules.Perm (visited ++ (walk.addInline target).queue) := by
  by_cases present : target ∈ walk.graph.modules
  · rw [addInline_present present]
    exact queued
  · have grown := (PathSet.insert_perm ascending present).trans (queued.cons target)
    rw [addInline_new present, ← List.append_assoc]
    exact grown.trans (List.perm_append_singleton target _).symm

end Inline

theorem adds_inline {step : Followed} {target : ModulePath} {realm : Realm}
    (module : step.destination = .module target realm)
    (inline : (link walk.graph.kind realm).linkage = .inline)
    (crossing : (link walk.graph.kind realm).crossing = .none)
    (unasked : (link walk.graph.kind realm).entryFor = none) :
    Adds step walk (walk.take step) := by
  have taken : walk.take step = (walk.linked step target).addInline target := by
    rw [take, module, add, addModule, linked, Followed.edge, module]
    have kind : (walk.addLoaded target).graph.kind = walk.graph.kind := rfl
    simp only [kind, inline]
  rw [taken, addInline_eq]
  exact {
    kind_eq := rfl
    entries_eq := rfl
    edges_eq := rfl
    wanted_eq := by
      simp only [Followed.wanted, module, unasked, Option.map_none, Option.toList_none, List.append_nil]
      rfl
    mem_modules := fun path => by
      rw [Followed.leadsTo_iff module, and_iff_left inline]
      exact mem_addInline
    mem_fromClient := fun path => by
      rw [Followed.leadsTo_iff module, crossing, or_iff_left (by simp)]
      rfl
    mem_loaded := fun path => by
      rw [Followed.leadsTo_iff module, and_true, or_comm]
      exact PathSet.mem_insert
    mem_externals := fun path => by
      rw [Followed.leadsTo_iff module, inline, or_iff_left (by simp)]
      rfl
    mem_packages := fun name => by
      rw [module]
      exact (or_iff_left Destination.noConfusion).symm
    ascending := addInline_ascending (walk.linked step target) target
    ascending_fromClient := id
    ascending_loaded := fun ascending => ascending.insert target
    queued := fun ascending visited => addInline_queued (walk.linked step target) target ascending }

theorem adds_external {step : Followed} {target : ModulePath} {realm : Realm}
    (module : step.destination = .module target realm)
    (external : (link walk.graph.kind realm).linkage = .external) :
    Adds step walk (walk.take step) := by
  have taken : walk.take step =
      (walk.linked step target).addExternal target (link walk.graph.kind realm) := by
    rw [take, module, add, addModule, linked, Followed.edge, module]
    have kind : (walk.addLoaded target).graph.kind = walk.graph.kind := rfl
    simp only [kind, external]
  rw [taken]
  exact {
    kind_eq := rfl
    entries_eq := rfl
    edges_eq := rfl
    wanted_eq := by
      rw [Followed.wanted, module]
      cases asks : (link walk.graph.kind realm).entryFor with
      | none => simp [addExternal, linked, addEdge, addLoaded, asks]
      | some other => simp [addExternal, linked, addEdge, addLoaded, asks]
    mem_modules := fun path => by
      rw [Followed.leadsTo_iff module, external]
      simp [addExternal, linked, addEdge, addLoaded]
    mem_fromClient := fun path => by
      rw [Followed.leadsTo_iff module]
      simp only [addExternal, beq_iff_eq]
      split
      · rename_i crosses
        rw [PathSet.mem_insert, and_iff_left crosses, or_comm]
        rfl
      · rename_i stays
        rw [or_iff_left fun h => stays h.2]
        rfl
    mem_loaded := fun path => by
      rw [Followed.leadsTo_iff module, and_true, or_comm]
      exact PathSet.mem_insert
    mem_externals := fun path => by
      rw [Followed.leadsTo_iff module, and_iff_left external, or_comm]
      exact PathSet.mem_insert
    mem_packages := fun name => by
      rw [module]
      exact (or_iff_left Destination.noConfusion).symm
    ascending := id
    ascending_fromClient := fun ascending => by
      simp only [addExternal]
      split
      · exact ascending.insert target
      · exact ascending
    ascending_loaded := fun ascending => ascending.insert target
    queued := fun _ _ => id }

theorem adds_take (step : Followed) : Adds step walk (walk.take step) := by
  cases destination : step.destination with
  | package name => exact adds_package destination
  | module target realm =>
      rcases link_cases walk.graph.kind realm with ⟨inline, crossing, unasked⟩ | ⟨external, _⟩
      · exact adds_inline destination inline crossing unasked
      · exact adds_external destination external

/-- What a walk of a graph holds, by the modules it has visited and the imports it has followed. -/
structure Holds (kind : GraphKind) (entries loaded : PathSet) (visited : List ModulePath)
    (followed : List Followed) (walk : Walk) : Prop where
  kind_eq : walk.graph.kind = kind
  entries_eq : walk.graph.entries = entries
  edges_eq : walk.graph.edges = followed.map (·.edge kind)
  wanted_eq : walk.wanted = followed.flatMap (·.wanted kind)
  mem_modules : ∀ path, path ∈ walk.graph.modules ↔
    path ∈ entries ∨ ∃ step ∈ followed, step.LeadsTo kind (·.linkage = .inline) path
  mem_fromClient : ∀ path, path ∈ walk.fromClient ↔
    ∃ step ∈ followed, step.LeadsTo kind (·.crossing = .intoServerFunction) path
  mem_loaded : ∀ path, path ∈ walk.loaded ↔
    path ∈ loaded ∨ path ∈ visited ∨ ∃ step ∈ followed, step.LeadsTo kind (fun _ => True) path
  mem_externals : ∀ path, path ∈ walk.graph.externals ↔
    ∃ step ∈ followed, step.LeadsTo kind (·.linkage = .external) path
  mem_packages : ∀ name, name ∈ walk.graph.packages ↔ ∃ step ∈ followed, step.destination = .package name
  ascending : walk.graph.modules.Ascending
  ascending_fromClient : walk.fromClient.Ascending
  ascending_loaded : loaded.Ascending → walk.loaded.Ascending
  /-- What is in the graph is visited or queued, and it is so once. -/
  queued : walk.graph.modules.Perm (visited ++ walk.queue)

theorem holds_start (ascending : entries.Ascending) :
    Holds kind entries loaded [] [] (start kind entries loaded) where
  kind_eq := rfl
  entries_eq := rfl
  edges_eq := rfl
  wanted_eq := rfl
  mem_modules _ := by simp [start]
  mem_fromClient _ := by simp [start]
  mem_loaded _ := by simp [start]
  mem_externals _ := by simp [start]
  mem_packages _ := by simp [start]
  ascending := ascending
  ascending_fromClient := PathSet.ascending_nil
  ascending_loaded := id
  queued := .refl _

theorem Holds.take (holds : Holds kind entries loaded visited followed walk) (step : Followed) :
    Holds kind entries loaded visited (followed ++ [step]) (walk.take step) := by
  obtain rfl := holds.kind_eq
  have adds : Adds step walk (walk.take step) := adds_take step
  exact {
    kind_eq := adds.kind_eq
    entries_eq := adds.entries_eq.trans holds.entries_eq
    edges_eq := by rw [adds.edges_eq, holds.edges_eq, List.map_append]; rfl
    wanted_eq := by rw [adds.wanted_eq, holds.wanted_eq, List.flatMap_append, List.flatMap_singleton]
    mem_modules := fun path => by
      rw [adds.mem_modules, holds.mem_modules, Followed.exists_leadsTo_append, or_assoc]
    mem_fromClient := fun path => by
      rw [adds.mem_fromClient, holds.mem_fromClient, Followed.exists_leadsTo_append]
    mem_loaded := fun path => by
      rw [adds.mem_loaded, holds.mem_loaded, Followed.exists_leadsTo_append, or_assoc, or_assoc]
    mem_externals := fun path => by
      rw [adds.mem_externals, holds.mem_externals, Followed.exists_leadsTo_append]
    mem_packages := fun name => by
      rw [adds.mem_packages, holds.mem_packages]
      simp only [List.mem_append, List.mem_singleton, or_and_right, exists_or, exists_eq_left]
    ascending := adds.ascending holds.ascending
    ascending_fromClient := adds.ascending_fromClient holds.ascending_fromClient
    ascending_loaded := fun ascending => adds.ascending_loaded (holds.ascending_loaded ascending)
    queued := adds.queued holds.ascending visited holds.queued }

theorem Holds.takeAll (holds : Holds kind entries loaded visited followed walk)
    (steps : List Followed) :
    Holds kind entries loaded visited (followed ++ steps) (steps.foldl Walk.take walk) := by
  induction steps generalizing followed walk with
  | nil => exact (List.append_nil followed).symm ▸ holds
  | cons step rest ih => exact List.append_cons followed step rest ▸ ih (holds.take step)

/-- Taking a module from the queue makes it a visited one. -/
theorem Holds.dequeue (holds : Holds kind entries loaded visited followed walk) {path : ModulePath}
    {rest : List ModulePath} (queue : walk.queue = path :: rest) :
    Holds kind entries loaded (visited ++ [path]) followed
      (Walk.addLoaded { walk with queue := rest } path) where
  kind_eq := holds.kind_eq
  entries_eq := holds.entries_eq
  edges_eq := holds.edges_eq
  wanted_eq := holds.wanted_eq
  mem_modules := holds.mem_modules
  mem_fromClient := holds.mem_fromClient
  mem_loaded other := by
    rw [addLoaded, PathSet.mem_insert, holds.mem_loaded, List.mem_append, List.mem_singleton]
    constructor
    · rintro (same | old | visit | step)
      · exact .inr (.inl (.inr same))
      · exact .inl old
      · exact .inr (.inl (.inl visit))
      · exact .inr (.inr step)
    · rintro (old | (visit | same) | step)
      · exact .inr (.inl old)
      · exact .inr (.inr (.inl visit))
      · exact .inl same
      · exact .inr (.inr (.inr step))
  mem_externals := holds.mem_externals
  mem_packages := holds.mem_packages
  ascending := holds.ascending
  ascending_fromClient := holds.ascending_fromClient
  ascending_loaded ascending := (holds.ascending_loaded ascending).insert path
  queued := by
    have queued := holds.queued
    rw [queue] at queued
    exact List.append_cons visited path rest ▸ queued

/-- The visits of a walk, in their order. -/
inductive Visits (project : Project) (first : Walk) : List ModulePath → Walk → Prop
  | start : Visits project first [] first
  | visit {visited walk path rest next} : Visits project first visited walk →
      walk.queue = path :: rest → Walk.visit project { walk with queue := rest } path = .ok next →
      Visits project first (visited ++ [path]) next

theorem Visits.visitable {first : Walk} (visits : Visits project first visited walk) :
    ∀ path ∈ visited, project.Visitable path := by
  induction visits with
  | start => simp
  | visit _ _ visit ih =>
      intro path member
      rcases List.mem_append.mp member with earlier | last
      · exact ih path earlier
      · obtain rfl := List.mem_singleton.mp last
        exact (visit_eq_ok visit).1

theorem Visits.holds (ascending : entries.Ascending)
    (visits : Visits project (Walk.start kind entries loaded) visited walk) :
    Holds kind entries loaded visited (visited.flatMap project.visitSteps) walk := by
  induction visits with
  | start => exact holds_start ascending
  | visit _ queue visit ih =>
      rw [(visit_eq_ok visit).2, List.flatMap_append, List.flatMap_singleton]
      exact (ih.dequeue queue).takeAll _

/-- Only what the entries reach is in the graph, at every point of a walk. -/
theorem Visits.reached (ascending : entries.Ascending)
    (visits : Visits project (Walk.start kind entries loaded) visited walk) :
    ∀ path ∈ walk.graph.modules, ∃ entry ∈ entries,
      Relation.ReflTransGen (project.Inlines kind) entry path := by
  induction visits with
  | start => exact fun path member => ⟨path, member, .refl⟩
  | @visit visited walk importer rest next visits queue visit ih =>
      intro path member
      have before := visits.holds ascending
      have after := (visits.visit queue visit).holds ascending
      have visiting : importer ∈ walk.graph.modules :=
        before.queued.mem_iff.mpr (by simp [queue])
      rcases (after.mem_modules path).mp member with entry | ⟨step, followed, leads⟩
      · exact ⟨path, entry, .refl⟩
      · rw [List.flatMap_append, List.flatMap_singleton, List.mem_append] at followed
        rcases followed with earlier | now
        · exact ih path ((before.mem_modules path).mpr (.inr ⟨step, earlier, leads⟩))
        · obtain ⟨entry, listed, chain⟩ := ih importer visiting
          exact ⟨entry, listed, chain.tail (Project.leadsTo_iff.mp ⟨step, now, leads⟩)⟩

end Walk
end Realms
