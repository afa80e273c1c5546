import Mathlib.Data.Set.Card
import Realms.Proofs.Partition.Settled

/-!
Termination of partitioning. The loop is written down here without a bound: walks until their queues are
empty, and rounds of walks until no graph asks for an entry. It ends for every project, in whatever cycles
its modules are imported, and the bounds that the functions are given never cut it short.
-/
namespace Realms

namespace Walk

variable {α : Type} {project : Project} {kind : GraphKind} {entries loaded : PathSet} {first walk : Walk}
  {taken taken' : List ModulePath} {log log' : List (List ModulePath)}

theorem Ends.unique {outcome outcome' : Except BuildError Walk} (ends : Ends project walk taken outcome)
    (again : Ends project walk taken' outcome') : taken = taken' ∧ outcome = outcome' := by
  induction ends generalizing taken' with
  | @empty walk queue =>
      cases again with
      | empty _ => exact ⟨rfl, rfl⟩
      | failed queue' _ => cases queue.symm.trans queue'
      | visit queue' _ _ => cases queue.symm.trans queue'
  | @failed walk path rest e queue fails =>
      cases again with
      | empty queue' => cases queue.symm.trans queue'
      | failed queue' fails' =>
          cases queue.symm.trans queue'
          cases fails.symm.trans fails'
          exact ⟨rfl, rfl⟩
      | visit queue' visit' _ =>
          cases queue.symm.trans queue'
          cases fails.symm.trans visit'
  | @visit walk path rest next taken outcome queue visit _ ih =>
      cases again with
      | empty queue' => cases queue.symm.trans queue'
      | failed queue' fails' =>
          cases queue.symm.trans queue'
          cases visit.symm.trans fails'
      | visit queue' visit' later =>
          cases queue.symm.trans queue'
          cases visit.symm.trans visit'
          exact (ih later).imp (congrArg (path :: ·)) id

/-- A walk to its end and, unless it fails, what comes behind it. A log has a list for each walk: the modules that
it takes from its queue, in their order. -/
inductive EndsThen (project : Project) (first : Walk)
    (behind : Walk → List (List ModulePath) → Except BuildError α → Prop) :
    List (List ModulePath) → Except BuildError α → Prop
  | failed {taken e} : Ends project first taken (.error e) → EndsThen project first behind [taken] (.error e)
  | ended {taken walk log outcome} : Ends project first taken (.ok walk) → behind walk log outcome →
      EndsThen project first behind (taken :: log) outcome

variable {behind : Walk → List (List ModulePath) → Except BuildError α → Prop} {outcome outcome' : Except BuildError α}

theorem EndsThen.unique
    (single : ∀ walk {log log' outcome outcome'}, behind walk log outcome → behind walk log' outcome' →
      log = log' ∧ outcome = outcome')
    (ends : EndsThen project first behind log outcome) (again : EndsThen project first behind log' outcome') :
    log = log' ∧ outcome = outcome' := by
  cases ends with
  | failed ends =>
      cases again with
      | failed ends' =>
          obtain ⟨rfl, same⟩ := ends.unique ends'
          cases same
          exact ⟨rfl, rfl⟩
      | ended ends' _ => cases (ends.unique ends').2
  | @ended taken walk log outcome ends later =>
      cases again with
      | failed ends' => cases (ends.unique ends').2
      | ended ends' later' =>
          obtain ⟨rfl, same⟩ := ends.unique ends'
          cases same
          exact (single walk later later').imp (congrArg (taken :: ·)) id

theorem EndsThen.nodup (ascending : entries.Ascending)
    (each : ∀ walk {log outcome}, behind walk log outcome → ∀ taken ∈ log, taken.Nodup)
    (ends : EndsThen project (start kind entries loaded) behind log outcome) : ∀ taken ∈ log, taken.Nodup := by
  cases ends with
  | failed ends => exact List.forall_mem_singleton.mpr (ends.nodup ascending)
  | @ended _ walk _ _ ends later => exact List.forall_mem_cons.mpr ⟨ends.nodup ascending, each walk later⟩

/-- A computation behind a walk ends as the one without bounds, if what it goes on with does. -/
theorem walk_endsThen (project : Project) (kind : GraphKind) (loaded : PathSet) (ascending : entries.Ascending)
    {next : Walk → Except BuildError α}
    (each : ∀ walk, project.walk kind entries loaded = .ok walk → ∃ log, behind walk log (next walk)) :
    ∃ log, EndsThen project (start kind entries loaded) behind log (project.walk kind entries loaded >>= next) := by
  obtain ⟨taken, ends⟩ := walk_ends project kind loaded ascending
  cases outcome : project.walk kind entries loaded with
  | error e => exact ⟨[taken], .failed (outcome ▸ ends)⟩
  | ok walk =>
      obtain ⟨log, later⟩ := each walk outcome
      exact ⟨taken :: log, .ended (outcome ▸ ends) later⟩

end Walk

namespace Project

variable {project : Project} {listed : List ModulePath} {entries : Entries} {loaded : PathSet}

/-- A round to its end: three walks, each behind what those before it have loaded. -/
def RoundEnds (project : Project) (entries : Entries) (loaded : PathSet) :
    List (List ModulePath) → Except BuildError Round → Prop :=
  Walk.EndsThen project (Walk.start .server entries.server loaded) fun server =>
    Walk.EndsThen project (Walk.start .client entries.client server.loaded) fun client =>
      Walk.EndsThen project (Walk.start .serverFunction entries.serverFunctions client.loaded)
        fun serverFunctions log outcome => log = [] ∧ outcome = .ok ⟨server, client, serverFunctions⟩

/-- Rounds to the end of the last one, which fails or asks for no new entry. -/
inductive RoundsEnd (project : Project) : Entries → PathSet → List (List (List ModulePath)) →
    Except BuildError Round → Prop
  | last {entries loaded walks outcome} : project.RoundEnds entries loaded walks outcome →
      (∀ round, outcome = .ok round → round.missing entries = []) →
        RoundsEnd project entries loaded [walks] outcome
  | grown {entries loaded walks round log outcome} : project.RoundEnds entries loaded walks (.ok round) →
      round.missing entries ≠ [] →
        RoundsEnd project (entries.insertAll (round.missing entries)) round.loaded log outcome →
          RoundsEnd project entries loaded (walks :: log) outcome

/-- Partitioning to its end: what the walks of each round take from their queues, and what comes out. -/
inductive PartitionEnds (project : Project) (listed : List ModulePath) : List (List (List ModulePath)) →
    Except BuildError Partition → Prop
  | unlisted {e} : project.listedEntries listed .empty = .error e → PartitionEnds project listed [] (.error e)
  | rounds {entries log outcome} : project.listedEntries listed .empty = .ok entries →
      project.RoundsEnd entries (PathSet.ofList listed) log outcome →
        PartitionEnds project listed log (do
          let partition := project.partitionOf (← outcome)
          partition.checkBoundary
          return partition)

theorem RoundEnds.unique {walks walks' : List (List ModulePath)} {outcome outcome' : Except BuildError Round}
    (ends : project.RoundEnds entries loaded walks outcome)
    (again : project.RoundEnds entries loaded walks' outcome') : walks = walks' ∧ outcome = outcome' := by
  refine Walk.EndsThen.unique (fun server {_ _ _ _} => ?_) ends again
  refine Walk.EndsThen.unique fun client {_ _ _ _} => ?_
  refine Walk.EndsThen.unique fun serverFunctions {_ _ _ _} done done' => ?_
  exact ⟨done.1.trans done'.1.symm, done.2.trans done'.2.symm⟩

theorem RoundsEnd.unique {log log' : List (List (List ModulePath))} {outcome outcome' : Except BuildError Round}
    (ends : project.RoundsEnd entries loaded log outcome)
    (again : project.RoundsEnd entries loaded log' outcome') : log = log' ∧ outcome = outcome' := by
  induction ends generalizing log' with
  | @last entries loaded walks outcome ends nothing =>
      cases again with
      | last ends' _ =>
          obtain ⟨rfl, rfl⟩ := ends.unique ends'
          exact ⟨rfl, rfl⟩
      | @grown _ _ _ round _ _ ends' more _ => exact absurd (nothing round (ends.unique ends').2) more
  | @grown entries loaded walks round log outcome ends more _ ih =>
      cases again with
      | last ends' nothing => exact absurd (nothing round (ends'.unique ends).2) more
      | grown ends' _ later =>
          obtain ⟨rfl, same⟩ := ends.unique ends'
          cases same
          exact (ih later).imp (congrArg (walks :: ·)) id

/-- No choice is left to the loop. -/
theorem PartitionEnds.unique {log log' : List (List (List ModulePath))}
    {outcome outcome' : Except BuildError Partition} (ends : project.PartitionEnds listed log outcome)
    (again : project.PartitionEnds listed log' outcome') : log = log' ∧ outcome = outcome' := by
  cases ends with
  | unlisted fails =>
      cases again with
      | unlisted fails' =>
          cases fails.symm.trans fails'
          exact ⟨rfl, rfl⟩
      | rounds start _ => cases fails.symm.trans start
  | rounds start ends =>
      cases again with
      | unlisted fails => cases start.symm.trans fails
      | rounds start' ends' =>
          cases start.symm.trans start'
          obtain ⟨rfl, rfl⟩ := ends.unique ends'
          exact ⟨rfl, rfl⟩

theorem RoundEnds.nodup (ascending : ∀ kind, (entries.of kind).Ascending) {walks : List (List ModulePath)}
    {outcome : Except BuildError Round} (ends : project.RoundEnds entries loaded walks outcome) :
    ∀ taken ∈ walks, taken.Nodup := by
  refine Walk.EndsThen.nodup (ascending .server) (fun _ => ?_) ends
  refine Walk.EndsThen.nodup (ascending .client) fun _ => ?_
  refine Walk.EndsThen.nodup (ascending .serverFunction) fun _ {_ _} done => ?_
  simp [done.1]

theorem round_ends (project : Project) (loaded : PathSet) (ascending : ∀ kind, (entries.of kind).Ascending) :
    ∃ walks, project.RoundEnds entries loaded walks (project.round entries loaded) :=
  Walk.walk_endsThen project .server loaded (ascending .server) fun server _ =>
    Walk.walk_endsThen project .client server.loaded (ascending .client) fun client _ =>
      Walk.walk_endsThen project .serverFunction client.loaded (ascending .serverFunction) fun _ _ =>
        ⟨[], rfl, rfl⟩

/-- What listed modules lead to over imports, whatever boundary these cross. -/
def Reaches (project : Project) (listed : List ModulePath) (path : ModulePath) : Prop :=
  ∃ entry ∈ listed, Relation.ReflTransGen (fun importer target => ∃ realm, project.Imports importer target realm)
    entry path

/-- What is reached of the modules that are built apart: those of the client, those of functions and the shared
ones. -/
def apart (project : Project) (listed : List ModulePath) : Set ModulePath :=
  {path | project.Reaches listed path ∧ ∃ record, project.load path = .ok record ∧ record.realm ≠ .server}

theorem apart_finite (project : Project) (listed : List ModulePath) : (project.apart listed).Finite :=
  (List.finite_toSet (project.sources.files.map Prod.fst)).subset fun _ ⟨_, _, loads, _⟩ => load_isFile loads

theorem Stands.reached {standing : Standing} {kind : GraphKind} {path : ModulePath}
    (stands : project.Stands listed standing kind path) : project.Reaches listed path := by
  induction stands with
  | @listed kind path lists => exact ⟨path, lists.1, .refl⟩
  | asked _ asks ih =>
      obtain ⟨entry, member, chain⟩ := ih
      exact ⟨entry, member, chain.tail (asks.imp fun _ found => found.1)⟩
  | entry _ ih => exact ih
  | inlined _ inlines ih =>
      obtain ⟨entry, member, chain⟩ := ih
      exact ⟨entry, member, chain.tail (inlines.imp fun _ found => found.1)⟩

theorem Asks.not_server {graph kind : GraphKind} {importer path : ModulePath}
    (asks : project.Asks graph kind importer path) :
    ∃ record, project.load path = .ok record ∧ record.realm ≠ .server := by
  obtain ⟨realm, imports, asks⟩ := asks
  obtain ⟨record, loads, rfl⟩ := imports.loads
  refine ⟨record, loads, fun server => ?_⟩
  rw [server] at asks
  cases graph <;> cases asks

theorem Justified.missing_apart {round : Round} (justified : project.Justified listed entries loaded)
    (runs : project.round entries loaded = .ok round) {path : ModulePath} {kind : GraphKind}
    (missing : (path, kind) ∈ round.missing entries) :
    path ∈ project.apart listed ∧ ∀ other, path ∉ entries.of other := by
  obtain ⟨wanted, absent⟩ := Round.mem_missing.mp missing
  obtain ⟨graph, importer, member, asks⟩ := justified.asked runs wanted
  have stands : project.Stands listed .entry kind path := .asked member asks
  refine ⟨⟨stands.reached, asks.not_server⟩, ?_⟩
  -- A module can be an entry of one graph alone.
  intro other present
  obtain ⟨record, loads, rfl⟩ := stands.entry_loads
  obtain ⟨again, found, rfl⟩ := (justified.stands other path present).entry_loads
  obtain rfl := Except.ok.inj (loads.symm.trans found)
  exact absent present

/-- The entries that are built apart. -/
def apartEntries (project : Project) (listed : List ModulePath) (entries : Entries) : Set ModulePath :=
  {path ∈ project.apart listed | ∃ kind, path ∈ entries.of kind}

theorem apartEntries_ncard_le (project : Project) (listed : List ModulePath) (entries : Entries) :
    (project.apartEntries listed entries).ncard ≤ (project.apart listed).ncard :=
  Set.ncard_le_ncard (Set.sep_subset _ _) (project.apart_finite listed)

theorem Justified.apartEntries_ncard_lt {round : Round} (justified : project.Justified listed entries loaded)
    (runs : project.round entries loaded = .ok round) (more : round.missing entries ≠ []) :
    (project.apartEntries listed entries).ncard <
      (project.apartEntries listed (entries.insertAll (round.missing entries))).ncard := by
  obtain ⟨⟨path, kind⟩, missing⟩ := List.exists_mem_of_ne_nil _ more
  obtain ⟨apart, absent⟩ := justified.missing_apart runs missing
  apply Set.ncard_lt_ncard ?_ ((project.apart_finite listed).subset (Set.sep_subset _ _))
  refine Set.ssubset_iff_exists.mpr ⟨?_, path, ?_, ?_⟩
  · rintro other ⟨apart, kind, present⟩
    exact ⟨apart, kind, Entries.mem_insertAll.mpr (.inl present)⟩
  · exact ⟨apart, kind, Entries.mem_insertAll.mpr (.inr missing)⟩
  · rintro ⟨_, other, present⟩
    exact absent other present

/-- No walk takes a module twice, and there are not more rounds than modules built apart that are no entries yet,
with one more to end with. -/
structure Bounded (project : Project) (listed : List ModulePath) (entries : Entries)
    (log : List (List (List ModulePath))) : Prop where
  nodup : ∀ walks ∈ log, ∀ taken ∈ walks, taken.Nodup
  length_le : log.length + (project.apartEntries listed entries).ncard ≤ (project.apart listed).ncard + 1

theorem Justified.last_ends {outcome : Except BuildError Round}
    (justified : project.Justified listed entries loaded) (runs : project.round entries loaded = outcome)
    (nothing : ∀ round, outcome = .ok round → round.missing entries = []) :
    ∃ log, project.RoundsEnd entries loaded log outcome ∧ project.Bounded listed entries log := by
  obtain ⟨walks, ends⟩ := project.round_ends loaded justified.ascending
  have within := project.apartEntries_ncard_le listed entries
  have length : [walks].length = 1 := rfl
  exact ⟨[walks], .last (runs ▸ ends) nothing,
    List.forall_mem_singleton.mpr (ends.nodup justified.ascending), by omega⟩

/-- The rounds end. Every round but the last makes an entry of a module that is built apart. -/
theorem Justified.rounds_end {left : Nat} (justified : project.Justified listed entries loaded)
    (enough : project.sources.files.length < left + entries.size) :
    ∃ log, project.RoundsEnd entries loaded log (project.rounds left entries loaded) ∧
      project.Bounded listed entries log := by
  refine Justified.rounds
    (motive := fun entries loaded outcome => ∃ log, project.RoundsEnd entries loaded log outcome ∧
      project.Bounded listed entries log) ?failed ?last ?grown justified enough
  case failed => exact fun justified fails => justified.last_ends fails nofun
  case last =>
      intro entries loaded round justified runs nothing
      exact justified.last_ends runs fun _ same => Except.ok.inj same ▸ nothing
  case grown =>
      rintro entries loaded round outcome justified runs more ⟨log, later, bounded⟩
      obtain ⟨walks, ends⟩ := project.round_ends loaded justified.ascending
      have larger := justified.apartEntries_ncard_lt runs more
      have bound := bounded.length_le
      have length : (walks :: log).length = log.length + 1 := rfl
      exact ⟨walks :: log, .grown (runs ▸ ends) more later,
        List.forall_mem_cons.mpr ⟨ends.nodup justified.ascending, bounded.nodup⟩, by omega⟩

theorem exists_partitionEnds (project : Project) (listed : List ModulePath) :
    ∃ log, project.PartitionEnds listed log (project.partition listed) ∧
      (∀ walks ∈ log, ∀ taken ∈ walks, taken.Nodup) ∧ log.length ≤ (project.apart listed).ncard + 1 := by
  cases start : project.listedEntries listed .empty with
  | error e =>
      have fails : project.partition listed = .error e := by
        rw [partition, start]
        rfl
      exact ⟨[], fails ▸ .unlisted start, by simp, by simp⟩
  | ok entries =>
      obtain ⟨log, ends, bounded⟩ := (listedEntries_justified start).rounds_end
        (by omega : project.sources.files.length < project.sources.files.length + 1 + entries.size)
      have runs : project.partition listed = (do
          let round ← project.rounds (project.sources.files.length + 1) entries (PathSet.ofList listed)
          let partition := project.partitionOf round
          partition.checkBoundary
          return partition) := by
        rw [partition, start]
        rfl
      exact ⟨log, runs ▸ .rounds start ends, bounded.nodup, (Nat.le_add_right _ _).trans bounded.length_le⟩

/-- Partitioning ends, in one way and as the function with bounds does. No walk takes a module from its queue twice,
and there is at most one round more than reached modules that are built apart. -/
theorem partition_ends (project : Project) (listed : List ModulePath) : ∃ log,
    (∀ log' outcome, project.PartitionEnds listed log' outcome ↔
      log' = log ∧ outcome = project.partition listed) ∧
    (∀ walks ∈ log, ∀ taken ∈ walks, taken.Nodup) ∧
    (project.apart listed).Finite ∧ log.length ≤ (project.apart listed).ncard + 1 := by
  obtain ⟨log, ends, nodup, length⟩ := project.exists_partitionEnds listed
  refine ⟨log, ?_, nodup, project.apart_finite listed, length⟩
  intro log' outcome
  constructor
  · intro again
    exact again.unique ends
  · rintro ⟨rfl, rfl⟩
    exact ends

end Project
end Realms
