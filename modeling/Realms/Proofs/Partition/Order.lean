import Realms.Proofs.Partition.Failures

/-!
Orders of entries. Neither the order in which entries are listed nor how often one of them is changes anything in
a partition, and it does not decide whether there is one. The lists differ in what has been loaded before a walk,
and a walk comes to the same whatever that is.
-/
namespace Realms

namespace Walk

variable {project : Project} {kind : GraphKind} {entries loaded loaded' : PathSet} {a b a' b' : Walk}

/-- Walks that differ at most in what has been loaded. -/
structure Alike (a b : Walk) : Prop where
  graph : a.graph = b.graph
  wanted : a.wanted = b.wanted
  fromClient : a.fromClient = b.fromClient
  queue : a.queue = b.queue

theorem Alike.take (alike : Alike a b) (step : Followed) : Alike (a.take step) (b.take step) := by
  obtain ⟨graph, wanted, fromClient, queue, loaded⟩ := a
  obtain ⟨_, _, _, _, loaded'⟩ := b
  obtain ⟨rfl, rfl, rfl, rfl⟩ := alike
  rw [Walk.take, Walk.take]
  cases step.destination with
  | package name => exact ⟨rfl, rfl, rfl, rfl⟩
  | module target realm =>
      rcases link_cases graph.kind realm with ⟨inline, _⟩ | ⟨external, _⟩
      · simp only [add, addModule, addLoaded, addEdge, inline, addInline]
        split <;> exact ⟨rfl, rfl, rfl, rfl⟩
      · simp only [add, addModule, addLoaded, addEdge, external, addExternal]
        exact ⟨rfl, rfl, rfl, rfl⟩

theorem Alike.takeAll (alike : Alike a b) (steps : List Followed) :
    Alike (steps.foldl Walk.take a) (steps.foldl Walk.take b) := by
  induction steps generalizing a b with
  | nil => exact alike
  | cons step rest ih => exact ih (alike.take step)

theorem Alike.visit (alike : Alike a b) {path : ModulePath} (visit : Walk.visit project a path = .ok a') :
    ∃ b', Walk.visit project b path = .ok b' ∧ Alike a' b' := by
  obtain ⟨visitable, rfl⟩ := visit_eq_ok visit
  obtain ⟨b', visit'⟩ : ∃ b', Walk.visit project b path = .ok b' := visit_isOk visitable
  obtain ⟨_, rfl⟩ := visit_eq_ok visit'
  have before : Alike (a.addLoaded path) (b.addLoaded path) := ⟨alike.1, alike.2, alike.3, alike.4⟩
  exact ⟨_, visit', before.takeAll (project.visitSteps path)⟩

theorem Alike.run {rounds : Nat} (alike : Alike a b) (run : Walk.run project rounds a = .ok a') :
    ∃ b', Walk.run project rounds b = .ok b' ∧ Alike a' b' := by
  induction rounds generalizing a b with
  | zero =>
      obtain rfl := Except.ok.inj run
      exact ⟨b, rfl, alike⟩
  | succ rounds ih =>
      rw [Walk.run] at run ⊢
      rw [← alike.queue]
      cases queue : a.queue with
      | nil =>
          rw [queue] at run
          obtain rfl := Except.ok.inj run
          exact ⟨b, rfl, alike⟩
      | cons path rest =>
          rw [queue] at run
          obtain ⟨next, visit, later⟩ := bind_eq_ok.mp run
          have before : Alike { a with queue := rest } { b with queue := rest } :=
            ⟨alike.graph, alike.wanted, alike.fromClient, rfl⟩
          obtain ⟨next', visit', alike'⟩ := before.visit visit
          obtain ⟨last, run', same⟩ := ih alike' later
          exact ⟨last, bind_eq_ok.mpr ⟨next', visit', run'⟩, same⟩

/-- Whatever has been loaded before, a walk comes to the same graph. -/
theorem walk_alike (h : project.walk kind entries loaded = .ok a)
    (h' : project.walk kind entries loaded' = .ok b) : Alike a b := by
  have before : Alike (start kind entries loaded) (start kind entries loaded') := ⟨rfl, rfl, rfl, rfl⟩
  obtain ⟨last, run, alike⟩ := before.run h
  obtain rfl := Except.ok.inj (run.symm.trans h')
  exact alike

end Walk

namespace Project

variable {project : Project} {listed listed' : List ModulePath} {entries entries' : Entries}
  {loaded loaded' : PathSet} {round round' : Round}

theorem round_alike (h : project.round entries loaded = .ok round)
    (h' : project.round entries loaded' = .ok round') (kind : GraphKind) :
    (round.walk kind).Alike (round'.walk kind) := by
  obtain ⟨server, client, serverFunctions⟩ := round_eq_ok h
  obtain ⟨server', client', serverFunctions'⟩ := round_eq_ok h'
  cases kind with
  | server => exact Walk.walk_alike server server'
  | client => exact Walk.walk_alike client client'
  | serverFunction => exact Walk.walk_alike serverFunctions serverFunctions'

/-- Standing by the rules is a matter of what is listed. -/
theorem Stands.of_subset (subset : listed ⊆ listed') {standing : Standing} {kind : GraphKind}
    {path : ModulePath} (stands : project.Stands listed standing kind path) :
    project.Stands listed' standing kind path := by
  induction stands with
  | listed lists => exact .listed ⟨subset lists.1, lists.2⟩
  | asked _ asks ih => exact .asked ih asks
  | entry _ ih => exact .entry ih
  | inlined _ inlines ih => exact .inlined ih inlines

theorem Final.mem_entries (final : project.Final listed entries loaded round) (kind : GraphKind)
    (path : ModulePath) : path ∈ entries.of kind ↔ project.Stands listed .entry kind path := by
  rw [← final.settled.mem_entries,
    (round_finished final.justified.ascending final.runs kind).entries_eq]

theorem Final.ascending_loaded (final : project.Final listed entries loaded round) :
    round.loaded.Ascending :=
  round_ascending_loaded final.justified.ascending final.justified.ascending_loaded final.runs

/-- However many rounds have gone before it, the last one comes to one partition. -/
theorem Final.partitionOf_eq (same : ∀ path, path ∈ listed ↔ path ∈ listed')
    (final : project.Final listed entries loaded round)
    (final' : project.Final listed' entries' loaded' round') :
    project.partitionOf round = project.partitionOf round' := by
  have stands {standing : Standing} {kind : GraphKind} {path : ModulePath} :
      project.Stands listed standing kind path ↔ project.Stands listed' standing kind path :=
    ⟨Stands.of_subset fun _ => (same _).mp, Stands.of_subset fun _ => (same _).mpr⟩
  have of_eq (kind : GraphKind) : entries.of kind = entries'.of kind :=
    (final.justified.ascending kind).ext (final'.justified.ascending kind) fun path => by
      rw [final.mem_entries, final'.mem_entries, stands]
  obtain rfl : entries = entries' := by
    cases entries
    cases entries'
    exact (Entries.mk.injEq ..).mpr ⟨of_eq .server, of_eq .client, of_eq .serverFunction⟩
  have alike := round_alike final.runs final'.runs
  have loads : round.loaded = round'.loaded :=
    final.ascending_loaded.ext final'.ascending_loaded fun path => by
      rw [final.settled.mem_loaded, final'.settled.mem_loaded]
      simp only [stands]
  have server : round.server.graph = round'.server.graph := (alike .server).graph
  have client : round.client.graph = round'.client.graph := (alike .client).graph
  have fromClient : round.client.fromClient = round'.client.fromClient := (alike .client).fromClient
  have serverFunctions : round.serverFunctions.graph = round'.serverFunctions.graph :=
    (alike .serverFunction).graph
  simp only [partitionOf, loads, server, client, fromClient, serverFunctions]

theorem listedEntries_isOk (loads : ∀ path ∈ listed, ∃ record, project.load path = .ok record)
    (entries : Entries) : ∃ last, project.listedEntries listed entries = .ok last := by
  induction listed generalizing entries with
  | nil => exact ⟨entries, rfl⟩
  | cons first rest ih =>
      obtain ⟨record, found⟩ := loads first List.mem_cons_self
      obtain ⟨last, later⟩ := ih (fun path member => loads path (List.mem_cons_of_mem first member))
        (entries.insert first (GraphKind.ofRealm record.realm))
      exact ⟨last, bind_eq_ok.mpr ⟨record, found, later⟩⟩

/-- The walks of a round only fail at a module that stands by the rules. -/
theorem Justified.round_isOk (justified : project.Justified listed entries loaded)
    (visitable : ∀ kind path, project.Stands listed .member kind path → project.Visitable path) :
    ∃ round, project.round entries loaded = .ok round := by
  have walks (kind : GraphKind) (loaded : PathSet) :
      ∃ walk, project.walk kind (entries.of kind) loaded = .ok walk :=
    Walk.walk_isOk (justified.ascending kind) fun entry member path chain =>
      visitable kind path (Stands.reaches (justified.stands kind entry member) chain)
  obtain ⟨server, first⟩ := walks .server loaded
  obtain ⟨client, second⟩ := walks .client server.loaded
  obtain ⟨serverFunctions, third⟩ := walks .serverFunction client.loaded
  exact ⟨⟨server, client, serverFunctions⟩,
    bind_eq_ok.mpr ⟨server, first, bind_eq_ok.mpr ⟨client, second, bind_eq_ok.mpr ⟨serverFunctions, third, rfl⟩⟩⟩⟩

theorem Justified.rounds_isOk {left : Nat} (justified : project.Justified listed entries loaded)
    (enough : project.sources.files.length < left + entries.size)
    (visitable : ∀ kind path, project.Stands listed .member kind path → project.Visitable path) :
    ∃ round, project.rounds left entries loaded = .ok round := by
  refine Justified.rounds (motive := fun _ _ outcome => ∃ round, outcome = .ok round)
    ?failed ?last ?grown justified enough
  case failed =>
      intro entries loaded e justified fails
      obtain ⟨round, runs⟩ := justified.round_isOk visitable
      cases fails.symm.trans runs
  case last => exact fun _ _ _ => ⟨_, rfl⟩
  case grown => exact fun _ _ _ later => later

/-- A project has a partition if what is listed can be loaded and every module that stands by the rules can be
visited, and only then. -/
theorem partition_isOk_iff : (∃ partition, project.partition listed = .ok partition) ↔
    (∀ path ∈ listed, ∃ record, project.load path = .ok record) ∧
      ∀ kind path, project.Stands listed .member kind path → project.Visitable path := by
  constructor
  · rintro ⟨partition, h⟩
    obtain ⟨entries, start, _⟩ := bind_eq_ok.mp h
    obtain ⟨round, settled, _⟩ := partition_eq_ok h
    have ascending (kind : GraphKind) : (Entries.empty.of kind).Ascending := by
      cases kind <;> exact PathSet.ascending_nil
    exact ⟨(listedEntries_eq_ok ascending start).2.1, fun kind path stands =>
      (settled.finished kind).visitable path ((settled.mem_modules kind path).mpr stands)⟩
  · rintro ⟨loads, visitable⟩
    obtain ⟨entries, start⟩ := listedEntries_isOk loads .empty
    have justified := listedEntries_justified start
    have enough : project.sources.files.length < project.sources.files.length + 1 + entries.size := by omega
    obtain ⟨round, rounds⟩ := justified.rounds_isOk enough visitable
    have settled := rounds_settled justified enough rounds
    exact ⟨project.partitionOf round, bind_eq_ok.mpr ⟨entries, start, bind_eq_ok.mpr ⟨round, rounds,
      bind_eq_ok.mpr ⟨(), settled.checkBoundary, rfl⟩⟩⟩⟩

theorem partition_of_mem_iff (same : ∀ path, path ∈ listed ↔ path ∈ listed') {partition : Partition}
    (h : project.partition listed = .ok partition) : project.partition listed' = .ok partition := by
  obtain ⟨loads, visitable⟩ := partition_isOk_iff.mp ⟨partition, h⟩
  obtain ⟨partition', h'⟩ : ∃ partition, project.partition listed' = .ok partition :=
    partition_isOk_iff.mpr ⟨fun path member => loads path ((same path).mpr member), fun kind path stands =>
      visitable kind path (stands.of_subset fun path => (same path).mpr)⟩
  obtain ⟨_, _, round, final, rfl, _⟩ := partition_final h
  obtain ⟨_, _, round', final', rfl, _⟩ := partition_final h'
  rw [h', final.partitionOf_eq same final']

/-- Lists of the same entries have one partition, or they both have none. -/
theorem partition_sameEntries (same : ∀ path, path ∈ listed ↔ path ∈ listed') (partition : Partition) :
    project.partition listed = .ok partition ↔ project.partition listed' = .ok partition :=
  ⟨partition_of_mem_iff same, partition_of_mem_iff fun path => (same path).symm⟩

/-- A page and a function, and the same two the other way around with the function listed twice. -/
theorem sharedState_sameEntries : ∃ partition,
    sharedState.partition [⟨"page.js"⟩, ⟨"save.js"⟩] = .ok partition ∧
      sharedState.partition [⟨"save.js"⟩, ⟨"page.js"⟩, ⟨"save.js"⟩] = .ok partition := by
  have succeeds : (sharedState.partition [⟨"page.js"⟩, ⟨"save.js"⟩]).isOk = true := by decide +kernel
  have same (path : ModulePath) : path ∈ [⟨"page.js"⟩, ⟨"save.js"⟩] ↔
      path ∈ ([⟨"save.js"⟩, ⟨"page.js"⟩, ⟨"save.js"⟩] : List ModulePath) := by
    simp only [List.mem_cons, List.not_mem_nil, or_false]
    rw [or_left_comm, or_self]
  obtain ⟨partition, h⟩ := exists_of_isOk succeeds
  exact ⟨partition, h, (partition_sameEntries same partition).mp h⟩

end Project
end Realms
