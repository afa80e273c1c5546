import Realms.Proofs.Partition.Finished

/-!
Rounds until the graphs ask for nothing more. Entries only grow, and each of them is a file that stands by
the rules, so the rounds end with exactly what the rules give.
-/
namespace Realms

namespace Entries

variable {entries : Entries} {path other : ModulePath} {kind graph : GraphKind}

theorem of_insert : (entries.insert path kind).of graph =
    if graph = kind then (entries.of graph).insert path else entries.of graph := by
  cases kind <;> cases graph <;> rfl

theorem mem_insert : other ∈ (entries.insert path kind).of graph ↔
    other ∈ entries.of graph ∨ (other = path ∧ graph = kind) := by
  rw [of_insert]
  split
  · rename_i same
    rw [PathSet.mem_insert, and_iff_left same, or_comm]
  · rename_i different
    rw [or_iff_left fun h => different h.2]

theorem insert_ascending (ascending : ∀ kind, (entries.of kind).Ascending) (path : ModulePath)
    (kind graph : GraphKind) : ((entries.insert path kind).of graph).Ascending := by
  rw [of_insert]
  split
  · exact (ascending graph).insert path
  · exact ascending graph

/-- How many entries there are, over all graphs. -/
def size (entries : Entries) : Nat :=
  entries.server.length + entries.client.length + entries.serverFunctions.length

theorem size_insert (ascending : ∀ kind, (entries.of kind).Ascending)
    (absent : path ∉ entries.of kind) : (entries.insert path kind).size = entries.size + 1 := by
  have length := (PathSet.insert_perm (ascending kind) absent).length_eq
  rw [List.length_cons] at length
  cases kind <;> simp only [of] at length <;> simp only [insert, size, length] <;> omega

theorem size_le_insert (ascending : ∀ kind, (entries.of kind).Ascending) :
    entries.size ≤ (entries.insert path kind).size := by
  by_cases present : path ∈ entries.of kind
  · have more : (entries.of kind).length ≤ ((entries.insert path kind).of kind).length :=
      (List.subperm_of_subset (ascending kind).nodup fun other member =>
        mem_insert.mpr (.inl member)).length_le
    cases kind <;> simp only [of, insert] at more <;> simp only [insert, size] <;> omega
  · rw [size_insert ascending present]
    exact Nat.le_succ _

variable {more : List (ModulePath × GraphKind)}

theorem mem_insertAll : path ∈ (entries.insertAll more).of kind ↔
    path ∈ entries.of kind ∨ (path, kind) ∈ more := by
  induction more generalizing entries with
  | nil => simp [insertAll]
  | cons first rest ih =>
      have unfolded : entries.insertAll (first :: rest) =
          (entries.insert first.1 first.2).insertAll rest := rfl
      rw [unfolded, ih, mem_insert, List.mem_cons, Prod.mk.injEq, or_assoc]

theorem insertAll_ascending (ascending : ∀ kind, (entries.of kind).Ascending) (kind : GraphKind) :
    ((entries.insertAll more).of kind).Ascending := by
  induction more generalizing entries with
  | nil => exact ascending kind
  | cons first rest ih => exact ih (insert_ascending ascending first.1 first.2)

theorem size_le_insertAll (ascending : ∀ kind, (entries.of kind).Ascending) :
    entries.size ≤ (entries.insertAll more).size := by
  induction more generalizing entries with
  | nil => exact le_rfl
  | cons first rest ih =>
      exact (size_le_insert ascending).trans (ih (insert_ascending ascending first.1 first.2))

/-- One entry that is new is enough to grow. -/
theorem size_lt_insertAll (ascending : ∀ kind, (entries.of kind).Ascending)
    {entry : ModulePath × GraphKind} (absent : entry.1 ∉ entries.of entry.2) :
    entries.size < (entries.insertAll (entry :: more)).size := by
  have grown := size_insert ascending absent
  have rest : (entries.insert entry.1 entry.2).size ≤ (entries.insertAll (entry :: more)).size :=
    size_le_insertAll (insert_ascending ascending entry.1 entry.2)
  omega

end Entries

namespace Round

/-- The walk of a graph. -/
def walk (round : Round) : GraphKind → Walk
  | .server => round.server
  | .client => round.client
  | .serverFunction => round.serverFunctions

theorem mem_wanted {round : Round} {path : ModulePath} {kind : GraphKind} :
    (path, kind) ∈ round.wanted ↔ ∃ graph, (path, kind) ∈ (round.walk graph).wanted := by
  rw [wanted, List.mem_append, List.mem_append]
  constructor
  · rintro ((server | client) | serverFunctions)
    · exact ⟨.server, server⟩
    · exact ⟨.client, client⟩
    · exact ⟨.serverFunction, serverFunctions⟩
  · rintro ⟨graph, member⟩
    cases graph with
    | server => exact .inl (.inl member)
    | client => exact .inl (.inr member)
    | serverFunction => exact .inr member

/-- What a round asks for beyond the entries it has. -/
def missing (round : Round) (entries : Entries) : List (ModulePath × GraphKind) :=
  round.wanted.filter fun (path, kind) => !entries.has path kind

theorem mem_missing {round : Round} {entries : Entries} {path : ModulePath} {kind : GraphKind} :
    (path, kind) ∈ round.missing entries ↔ (path, kind) ∈ round.wanted ∧ path ∉ entries.of kind := by
  simp [missing, Entries.has]

theorem missing_subset (round : Round) (entries : Entries) : round.missing entries ⊆ round.wanted :=
  List.filter_subset_self _

end Round

namespace Project

variable {project : Project} {listed : List ModulePath} {entries : Entries} {loaded : PathSet}
  {round : Round}

theorem round_eq_ok (h : project.round entries loaded = .ok round) :
    project.walk .server entries.server loaded = .ok round.server ∧
      project.walk .client entries.client round.server.loaded = .ok round.client ∧
      project.walk .serverFunction entries.serverFunctions round.client.loaded =
        .ok round.serverFunctions := by
  obtain ⟨server, first, h⟩ := bind_eq_ok.mp h
  obtain ⟨client, second, h⟩ := bind_eq_ok.mp h
  obtain ⟨serverFunctions, third, h⟩ := bind_eq_ok.mp h
  obtain rfl := pure_eq_ok.mp h
  exact ⟨first, second, third⟩

theorem round_finished (ascending : ∀ kind, (entries.of kind).Ascending)
    (h : project.round entries loaded = .ok round) (kind : GraphKind) :
    (round.walk kind).Finished project kind (entries.of kind) := by
  obtain ⟨server, client, serverFunctions⟩ := round_eq_ok h
  cases kind with
  | server => exact Walk.walk_finished (ascending .server) server
  | client => exact Walk.walk_finished (ascending .client) client
  | serverFunction => exact Walk.walk_finished (ascending .serverFunction) serverFunctions

theorem round_loaded (ascending : ∀ kind, (entries.of kind).Ascending)
    (h : project.round entries loaded = .ok round) (path : ModulePath) :
    path ∈ round.loaded ↔ path ∈ loaded ∨
      ∃ kind, ∃ importer ∈ (round.walk kind).graph.modules, Walk.Loads project importer path := by
  obtain ⟨server, client, serverFunctions⟩ := round_eq_ok h
  rw [Round.loaded, Walk.walk_loaded (ascending .serverFunction) serverFunctions,
    Walk.walk_loaded (ascending .client) client, Walk.walk_loaded (ascending .server) server]
  constructor
  · rintro (((old | new) | new) | new)
    · exact .inl old
    · exact .inr ⟨.server, new⟩
    · exact .inr ⟨.client, new⟩
    · exact .inr ⟨.serverFunction, new⟩
  · rintro (old | ⟨kind, new⟩)
    · exact .inl (.inl (.inl old))
    · cases kind with
      | server => exact .inl (.inl (.inr new))
      | client => exact .inl (.inr new)
      | serverFunction => exact .inr new

theorem round_ascending_loaded (ascending : ∀ kind, (entries.of kind).Ascending) (before : loaded.Ascending)
    (h : project.round entries loaded = .ok round) : round.loaded.Ascending := by
  obtain ⟨server, client, serverFunctions⟩ := round_eq_ok h
  have first := Walk.walk_ascending_loaded (ascending .server) before server
  have second := Walk.walk_ascending_loaded (ascending .client) first client
  exact Walk.walk_ascending_loaded (ascending .serverFunction) second serverFunctions

/-- What the rounds keep: entries and loaded modules stand by the rules, and no listed entry is missing. -/
structure Justified (project : Project) (listed : List ModulePath) (entries : Entries)
    (loaded : PathSet) : Prop where
  ascending : ∀ kind, (entries.of kind).Ascending
  ascending_loaded : loaded.Ascending
  stands : ∀ kind, ∀ path ∈ entries.of kind, project.Stands listed .entry kind path
  lists : ∀ kind path, project.Lists listed kind path → path ∈ entries.of kind
  loaded : ∀ path ∈ loaded, ∃ kind, project.Stands listed .member kind path

theorem Justified.size_le (justified : project.Justified listed entries loaded) :
    entries.size ≤ project.sources.files.length := by
  have loads {kind : GraphKind} {path : ModulePath} (member : path ∈ entries.of kind) :
      ∃ record, project.load path = .ok record ∧ GraphKind.ofRealm record.realm = kind :=
    Stands.entry_loads (justified.stands kind path member)
  -- The realm of a file decides which graph can have it as an entry.
  have apart {kind other : GraphKind} (different : kind ≠ other) {a b : ModulePath}
      (first : a ∈ entries.of kind) (second : b ∈ entries.of other) : a ≠ b := by
    rintro rfl
    obtain ⟨record, found, realm⟩ := loads first
    obtain ⟨again, same, realm'⟩ := loads second
    obtain rfl := Except.ok.inj (found.symm.trans same)
    exact different (realm.symm.trans realm')
  have nodup : (entries.of .server ++ (entries.of .client ++ entries.of .serverFunction)).Nodup := by
    refine List.nodup_append.mpr ⟨(justified.ascending .server).nodup, ?_, ?_⟩
    · exact List.nodup_append.mpr ⟨(justified.ascending .client).nodup,
        (justified.ascending .serverFunction).nodup, fun a first b second =>
          apart (by decide) first second⟩
    · intro a first b second
      rcases List.mem_append.mp second with client | serverFunction
      · exact apart (by decide) first client
      · exact apart (by decide) first serverFunction
  have bound := length_le_files nodup fun path member => by
    rcases List.mem_append.mp member with server | member
    · exact (loads server).imp fun _ found => found.1
    · rcases List.mem_append.mp member with client | serverFunction
      · exact (loads client).imp fun _ found => found.1
      · exact (loads serverFunction).imp fun _ found => found.1
  simp only [List.length_append] at bound
  rw [Entries.size, Nat.add_assoc]
  exact bound

variable (justified : project.Justified listed entries loaded)
  (h : project.round entries loaded = .ok round)

include justified h

theorem Justified.member {kind : GraphKind} {path : ModulePath}
    (member : path ∈ (round.walk kind).graph.modules) : project.Stands listed .member kind path := by
  obtain ⟨entry, given, chain⟩ :=
    ((round_finished justified.ascending h kind).mem_modules path).mp member
  exact Stands.reaches (justified.stands kind entry given) chain

theorem Justified.asked {path : ModulePath} {kind : GraphKind} (wanted : (path, kind) ∈ round.wanted) :
    ∃ graph importer, project.Stands listed .member graph importer ∧ project.Asks graph kind importer path := by
  obtain ⟨graph, wanted⟩ := Round.mem_wanted.mp wanted
  obtain ⟨importer, member, asks⟩ :=
    ((round_finished justified.ascending h graph).mem_wanted path kind).mp wanted
  exact ⟨graph, importer, justified.member h member, asks⟩

theorem Justified.wanted {path : ModulePath} {kind : GraphKind} (wanted : (path, kind) ∈ round.wanted) :
    project.Stands listed .entry kind path := by
  obtain ⟨graph, importer, member, asks⟩ := justified.asked h wanted
  exact .asked member asks

/-- What is imported by a member is a member itself, of this graph or of another one. -/
theorem Justified.loads {kind : GraphKind} {importer path : ModulePath}
    (member : importer ∈ (round.walk kind).graph.modules) (loads : Walk.Loads project importer path) :
    ∃ other, project.Stands listed .member other path := by
  have stands := justified.member h member
  rcases loads with rfl | ⟨realm, imports⟩
  · exact ⟨kind, stands⟩
  · rcases link_cases kind realm with ⟨inline, _⟩ | ⟨_, asks⟩
    · exact ⟨kind, .inlined stands ⟨realm, imports, inline⟩⟩
    · exact ⟨_, .entry (.asked stands ⟨realm, imports, asks⟩)⟩

theorem Justified.loaded_round : ∀ path ∈ round.loaded, ∃ kind, project.Stands listed .member kind path := by
  intro path member
  rcases (round_loaded justified.ascending h path).mp member with old | ⟨kind, importer, member, loads⟩
  · exact justified.loaded path old
  · exact justified.loads h member loads

theorem Justified.grow {more : List (ModulePath × GraphKind)} (wanted : more ⊆ round.wanted) :
    project.Justified listed (entries.insertAll more) round.loaded where
  ascending kind := Entries.insertAll_ascending justified.ascending kind
  ascending_loaded := round_ascending_loaded justified.ascending justified.ascending_loaded h
  stands kind path member := by
    rcases Entries.mem_insertAll.mp member with old | new
    · exact justified.stands kind path old
    · exact justified.wanted h (wanted new)
  lists kind path lists := Entries.mem_insertAll.mpr (.inl (justified.lists kind path lists))
  loaded := justified.loaded_round h

omit justified h

/-- A round whose graphs ask for nothing more: they are what the rules give. -/
structure Settled (project : Project) (listed : List ModulePath) (round : Round) : Prop where
  finished : ∀ kind, (round.walk kind).Finished project kind (round.walk kind).graph.entries
  mem_entries : ∀ kind path, path ∈ (round.walk kind).graph.entries ↔
    project.Stands listed .entry kind path
  mem_modules : ∀ kind path, path ∈ (round.walk kind).graph.modules ↔
    project.Stands listed .member kind path
  mem_loaded : ∀ path, path ∈ round.loaded ↔ ∃ kind, project.Stands listed .member kind path

/-- Nothing that stands by the rules is missing once no entry is. -/
theorem Justified.complete (justified : project.Justified listed entries loaded)
    (h : project.round entries loaded = .ok round)
    (closed : ∀ path kind, (path, kind) ∈ round.wanted → path ∈ entries.of kind)
    {standing : Standing} {kind : GraphKind} {path : ModulePath}
    (stands : project.Stands listed standing kind path) : match standing with
      | .entry => path ∈ entries.of kind
      | .member => path ∈ (round.walk kind).graph.modules := by
  have finished := round_finished justified.ascending h
  induction stands with
  | listed lists => exact justified.lists _ _ lists
  | @asked graph kind importer path _ asks ih =>
      exact closed path kind (Round.mem_wanted.mpr
        ⟨graph, ((finished graph).mem_wanted path kind).mpr ⟨importer, ih, asks⟩⟩)
  | @entry kind path _ ih => exact ((finished kind).mem_modules path).mpr ⟨path, ih, .refl⟩
  | @inlined kind importer path _ inlines ih =>
      obtain ⟨entry, given, chain⟩ := ((finished kind).mem_modules importer).mp ih
      exact ((finished kind).mem_modules path).mpr ⟨entry, given, chain.tail inlines⟩

theorem Justified.settled (justified : project.Justified listed entries loaded)
    (h : project.round entries loaded = .ok round)
    (closed : ∀ path kind, (path, kind) ∈ round.wanted → path ∈ entries.of kind) :
    project.Settled listed round := by
  have finished := round_finished justified.ascending h
  exact {
    finished := fun kind => (finished kind).entries_eq.symm ▸ finished kind
    mem_entries := fun kind path => by
      rw [(finished kind).entries_eq]
      exact ⟨justified.stands kind path, justified.complete h closed⟩
    mem_modules := fun kind path => ⟨justified.member h, justified.complete h closed⟩
    mem_loaded := fun path => ⟨justified.loaded_round h path, fun ⟨kind, stands⟩ =>
      (round_loaded justified.ascending h path).mpr
        (.inr ⟨kind, path, justified.complete h closed stands, .inl rfl⟩)⟩ }

theorem rounds_succ (left : Nat) : project.rounds (left + 1) entries loaded = (do
    let round ← project.round entries loaded
    if (round.missing entries).isEmpty then return round
    else project.rounds left (entries.insertAll (round.missing entries)) round.loaded) := rfl

theorem rounds_last (left : Nat) (h : project.round entries loaded = .ok round)
    (nothing : round.missing entries = []) : project.rounds (left + 1) entries loaded = .ok round := by
  rw [rounds_succ, h]
  exact if_pos (List.isEmpty_iff.mpr nothing)

theorem rounds_grown (left : Nat) (h : project.round entries loaded = .ok round)
    (more : round.missing entries ≠ []) : project.rounds (left + 1) entries loaded =
      project.rounds left (entries.insertAll (round.missing entries)) round.loaded := by
  rw [rounds_succ, h]
  exact if_neg fun empty => more (List.isEmpty_iff.mp empty)

theorem Justified.size_lt (justified : project.Justified listed entries loaded)
    (more : round.missing entries ≠ []) :
    entries.size < (entries.insertAll (round.missing entries)).size := by
  obtain ⟨entry, rest, missing⟩ := List.exists_cons_of_ne_nil more
  have absent : entry.1 ∉ entries.of entry.2 :=
    (Round.mem_missing.mp (missing.symm ▸ List.mem_cons_self)).2
  rw [missing]
  exact Entries.size_lt_insertAll justified.ascending absent

/-- What the rounds make of entries, shown for the round that they end with and then from round to round. Every
round but the last adds an entry, and there are not more of them than files. -/
theorem Justified.rounds {motive : Entries → PathSet → Except BuildError Round → Prop}
    (failed : ∀ {entries loaded e}, project.Justified listed entries loaded →
      project.round entries loaded = .error e → motive entries loaded (.error e))
    (last : ∀ {entries loaded round}, project.Justified listed entries loaded →
      project.round entries loaded = .ok round → round.missing entries = [] → motive entries loaded (.ok round))
    (grown : ∀ {entries loaded round outcome}, project.Justified listed entries loaded →
      project.round entries loaded = .ok round → round.missing entries ≠ [] →
        motive (entries.insertAll (round.missing entries)) round.loaded outcome → motive entries loaded outcome)
    {left : Nat} (justified : project.Justified listed entries loaded)
    (enough : project.sources.files.length < left + entries.size) :
    motive entries loaded (project.rounds left entries loaded) := by
  induction left generalizing entries loaded with
  | zero => exact absurd justified.size_le (by omega)
  | succ left ih =>
      cases runs : project.round entries loaded with
      | error e =>
          rw [rounds_succ, runs]
          exact failed justified runs
      | ok round =>
          by_cases nothing : round.missing entries = []
          · rw [rounds_last left runs nothing]
            exact last justified runs nothing
          · have larger := justified.size_lt nothing
            rw [rounds_grown left runs nothing]
            exact grown justified runs nothing
              (ih (justified.grow runs (round.missing_subset entries)) (by omega))

/-- The last round, whose graphs ask for no entry beyond those that they have. -/
structure Final (project : Project) (listed : List ModulePath) (entries : Entries) (loaded : PathSet)
    (round : Round) : Prop where
  justified : project.Justified listed entries loaded
  runs : project.round entries loaded = .ok round
  nothing : round.missing entries = []

theorem Final.settled (final : project.Final listed entries loaded round) : project.Settled listed round := by
  apply final.justified.settled final.runs
  intro path kind wanted
  by_contra absent
  have missing := Round.mem_missing.mpr ⟨wanted, absent⟩
  rw [final.nothing] at missing
  cases missing

theorem rounds_final {left : Nat} (justified : project.Justified listed entries loaded)
    (enough : project.sources.files.length < left + entries.size)
    (h : project.rounds left entries loaded = .ok round) :
    ∃ entries loaded, project.Final listed entries loaded round := by
  refine Justified.rounds
    (motive := fun _ _ outcome => ∀ last, outcome = .ok last →
      ∃ entries loaded, project.Final listed entries loaded last)
    ?failed ?last ?grown justified enough round h
  case failed => exact fun _ _ _ failed => nomatch failed
  case last =>
      intro entries loaded round justified runs nothing last same
      obtain rfl := Except.ok.inj same
      exact ⟨entries, loaded, justified, runs, nothing⟩
  case grown => exact fun _ _ _ later => later

/-- The rounds settle. -/
theorem rounds_settled {left : Nat} (justified : project.Justified listed entries loaded)
    (enough : project.sources.files.length < left + entries.size)
    (h : project.rounds left entries loaded = .ok round) : project.Settled listed round := by
  obtain ⟨_, _, final⟩ := rounds_final justified enough h
  exact final.settled

theorem listedEntries_eq_ok {last : Entries} (ascending : ∀ kind, (entries.of kind).Ascending)
    (h : project.listedEntries listed entries = .ok last) :
    (∀ kind, (last.of kind).Ascending) ∧
      (∀ path ∈ listed, ∃ record, project.load path = .ok record) ∧
      ∀ kind path, path ∈ last.of kind ↔ path ∈ entries.of kind ∨ project.Lists listed kind path := by
  induction listed generalizing entries with
  | nil =>
      obtain rfl := Except.ok.inj h
      exact ⟨ascending, by simp, by simp [Lists]⟩
  | cons first rest ih =>
      obtain ⟨record, loads, h⟩ := bind_eq_ok.mp h
      obtain ⟨ascending, all, members⟩ := ih (Entries.insert_ascending ascending _ _) h
      refine ⟨ascending, ?_, ?_⟩
      · intro path member
        rcases List.mem_cons.mp member with rfl | later
        · exact ⟨record, loads⟩
        · exact all path later
      · intro kind path
        rw [members, Entries.mem_insert, or_assoc]
        refine or_congr_right ⟨?_, ?_⟩
        · rintro (⟨rfl, rfl⟩ | ⟨member, known⟩)
          · exact ⟨List.mem_cons_self, record, loads, rfl⟩
          · exact ⟨List.mem_cons_of_mem first member, known⟩
        · rintro ⟨member, again, found, rfl⟩
          rcases List.mem_cons.mp member with rfl | later
          · obtain rfl := Except.ok.inj (loads.symm.trans found)
            exact .inl ⟨rfl, rfl⟩
          · exact .inr ⟨later, again, found, rfl⟩

theorem listedEntries_justified (h : project.listedEntries listed .empty = .ok entries) :
    project.Justified listed entries (PathSet.ofList listed) := by
  have none (kind : GraphKind) : Entries.empty.of kind = [] := by cases kind <;> rfl
  obtain ⟨ascending, all, members⟩ :=
    listedEntries_eq_ok (fun kind => none kind ▸ PathSet.ascending_nil) h
  simp only [none, List.not_mem_nil, false_or] at members
  exact {
    ascending
    ascending_loaded := PathSet.ascending_ofList listed
    stands := fun kind path member => .listed ((members kind path).mp member)
    lists := fun kind path lists => (members kind path).mpr lists
    loaded := fun path member => by
      have given := PathSet.mem_ofList.mp member
      obtain ⟨record, found⟩ := all path given
      exact ⟨_, .entry (.listed ⟨given, record, found, rfl⟩)⟩ }

/-- A partition is that of the last round, and it has passed the check of the boundary. -/
theorem partition_final {partition : Partition} (h : project.partition listed = .ok partition) :
    ∃ entries loaded round, project.Final listed entries loaded round ∧
      partition = project.partitionOf round ∧ partition.checkBoundary = .ok () := by
  obtain ⟨entries, start, h⟩ := bind_eq_ok.mp h
  obtain ⟨round, rounds, h⟩ := bind_eq_ok.mp h
  obtain ⟨_, checked, h⟩ := bind_eq_ok.mp h
  obtain rfl := pure_eq_ok.mp h
  obtain ⟨entries, loaded, final⟩ := rounds_final (listedEntries_justified start) (by omega) rounds
  exact ⟨entries, loaded, round, final, rfl, checked⟩

theorem partition_eq_ok {partition : Partition} (h : project.partition listed = .ok partition) :
    ∃ round, project.Settled listed round ∧ partition = project.partitionOf round ∧
      partition.checkBoundary = .ok () := by
  obtain ⟨_, _, round, final, same, checked⟩ := partition_final h
  exact ⟨round, final.settled, same, checked⟩

end Project
end Realms
