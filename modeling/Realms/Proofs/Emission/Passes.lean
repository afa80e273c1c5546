import Realms.Proofs.Emission.Made

/-!
Passes over the modules of a partition. A module stands in a pass once, so what the pass gives for its path
is what the module alone gives.
-/
namespace Realms

namespace Emission

variable {α β : Type} [EmptyCollection α] [Append α] {part : α → List β}
  {emit : ModulePath → ModuleRecord → Except BuildError α} {items : List (ModulePath × ModuleRecord)}
  {whole : α}

/-- A part of the output that adds up over the modules of a pass. -/
structure Collects (part : α → List β) : Prop where
  empty : part ∅ = []
  append : ∀ a b, part (a ++ b) = part a ++ part b

theorem Collects.filter (collects : Collects part) (keeps : β → Bool) :
    Collects fun a => (part a).filter keeps where
  empty := by rw [collects.empty, List.filter_nil]
  append a b := by rw [collects.append, List.filter_append]

theorem ofEach_cons {path : ModulePath} {found : ModuleRecord} :
    ofEach emit ((path, found) :: items) = .ok whole ↔
      ∃ first, emit path found = .ok first ∧ ∃ rest, ofEach emit items = .ok rest ∧ first ++ rest = whole := by
  rw [ofEach, bind_eq_ok]
  simp only [bind_eq_ok, pure_eq_ok]

/-- What a pass gives comes from one of its modules. -/
theorem mem_ofEach (collects : Collects part) (h : ofEach emit items = .ok whole) {b : β}
    (member : b ∈ part whole) :
    ∃ path found, (path, found) ∈ items ∧ ∃ made, emit path found = .ok made ∧ b ∈ part made := by
  induction items generalizing whole with
  | nil =>
      obtain rfl := Except.ok.inj h
      rw [collects.empty] at member
      exact absurd member List.not_mem_nil
  | cons item rest ih =>
      obtain ⟨first, emits, others, later, rfl⟩ := ofEach_cons.mp h
      rw [collects.append, List.mem_append] at member
      rcases member with here | there
      · exact ⟨item.1, item.2, List.mem_cons_self, first, emits, here⟩
      · obtain ⟨path, found, listed, made⟩ := ih later there
        exact ⟨path, found, List.mem_cons_of_mem item listed, made⟩

theorem ofEach_nil (collects : Collects part) (h : ofEach emit items = .ok whole)
    (none : ∀ path found made, (path, found) ∈ items → emit path found = .ok made → part made = []) :
    part whole = [] := by
  apply List.eq_nil_iff_forall_not_mem.mpr
  intro b member
  obtain ⟨path, found, listed, made, emits, here⟩ := mem_ofEach collects h member
  rw [none path found made listed emits] at here
  exact List.not_mem_nil here

/-- A part that only one module of a pass has is that of the module. -/
theorem ofEach_single (collects : Collects part) (h : ofEach emit items = .ok whole)
    (keys : (items.map Prod.fst).Nodup) {path : ModulePath} {found : ModuleRecord}
    (listed : (path, found) ∈ items)
    (others : ∀ other record made, (other, record) ∈ items → other ≠ path →
      emit other record = .ok made → part made = []) :
    ∃ made, emit path found = .ok made ∧ part whole = part made := by
  induction items generalizing whole with
  | nil => exact absurd listed List.not_mem_nil
  | cons item rest ih =>
      obtain ⟨first, emits, next, later, rfl⟩ := ofEach_cons.mp h
      rw [List.map_cons, List.nodup_cons] at keys
      obtain ⟨absent, keys⟩ := keys
      rw [collects.append]
      rcases List.mem_cons.mp listed with rfl | listed
      · refine ⟨first, emits, ?_⟩
        have different {other : ModulePath} {record : ModuleRecord} (member : (other, record) ∈ rest) :
            other ≠ path := by
          rintro rfl
          exact absent (List.mem_map.mpr ⟨_, member, rfl⟩)
        have empty : part next = [] := ofEach_nil collects later fun other record made member =>
          others other record made (List.mem_cons_of_mem _ member) (different member)
        rw [empty, List.append_nil]
      · have different : item.1 ≠ path := fun same =>
          absent (same ▸ List.mem_map_of_mem (f := Prod.fst) listed)
        rw [others item.1 item.2 first List.mem_cons_self different emits, List.nil_append]
        exact ih later keys listed fun other record made member =>
          others other record made (List.mem_cons_of_mem item member)

variable {partition : Partition} {paths : PathSet} {path : ModulePath} {found : ModuleRecord}

theorem mem_withRecords : (path, found) ∈ withRecords partition paths ↔
    path ∈ paths ∧ partition.record? path = some found := by
  simp only [withRecords, List.mem_filterMap, Option.map_eq_some_iff, Prod.mk.injEq]
  constructor
  · rintro ⟨other, member, record, known, rfl, rfl⟩
    exact ⟨member, known⟩
  · rintro ⟨member, known⟩
    exact ⟨path, member, found, known, rfl, rfl⟩

theorem withRecords_keys (nodup : paths.Nodup) :
    ((withRecords partition paths).map Prod.fst).Nodup := by
  induction paths with
  | nil => exact .nil
  | cons first rest ih =>
      obtain ⟨absent, nodup⟩ := List.nodup_cons.mp nodup
      cases known : partition.record? first with
      | none => simpa [withRecords, known] using ih nodup
      | some record =>
          have unfolded : withRecords partition (first :: rest) =
              (first, record) :: withRecords partition rest := by simp [withRecords, known]
          rw [unfolded, List.map_cons, List.nodup_cons]
          refine ⟨fun member => ?_, ih nodup⟩
          obtain ⟨⟨other, again⟩, listed, rfl⟩ := List.mem_map.mp member
          exact absent (mem_withRecords.mp listed).1

theorem Collects.artifacts : Collects Emission.artifacts := ⟨rfl, fun _ _ => rfl⟩

theorem Collects.serverFunctions : Collects Emission.serverFunctions := ⟨rfl, fun _ _ => rfl⟩

theorem Collects.ofServer {β : Type} {part : Emission → List β} (collects : Collects part) :
    Collects fun server : ServerPart => part server.emission :=
  ⟨collects.empty, fun a b => collects.append a.emission b.emission⟩

section Artifacts

variable {options : EmissionOptions} {items : List (ModulePath × ModuleRecord)} {artifact : Artifact}
  {server : ServerPart} {client stubs : Emission}

theorem serverPass_artifacts (pass : ofEach (serverModule options) items = .ok server)
    (member : artifact ∈ server.emission.artifacts) : (∃ found, (artifact.path, found) ∈ items) ∧
      artifact.target = .server ∧ artifact.role ≠ .serverFunctionStub := by
  obtain ⟨path, found, listed, made, emits, own⟩ := mem_ofEach Collects.artifacts.ofServer pass member
  obtain ⟨rfl, kind⟩ := (serverModule_local emits).1 artifact own
  exact ⟨⟨found, listed⟩, kind⟩

theorem clientPass_artifacts (pass : ofEach (clientModule options) items = .ok client)
    (member : artifact ∈ client.artifacts) : (∃ found, (artifact.path, found) ∈ items) ∧
      (artifact.role = .module ∨ artifact.role = .clientReference) := by
  obtain ⟨path, found, listed, made, emits, own⟩ := mem_ofEach Collects.artifacts pass member
  obtain ⟨rfl, role⟩ := (clientModule_local emits).1 artifact own
  exact ⟨⟨found, listed⟩, role⟩

theorem stubsPass_artifacts (pass : ofEach (functionStub options server) items = .ok stubs)
    (member : artifact ∈ stubs.artifacts) : (∃ found, (artifact.path, found) ∈ items) ∧
      artifact.target = .client ∧ artifact.role = .serverFunctionStub := by
  obtain ⟨path, found, listed, made, emits, own⟩ := mem_ofEach Collects.artifacts pass member
  obtain ⟨crossed, code, _, _, rfl⟩ := functionStub_eq_ok emits
  obtain rfl := List.mem_singleton.mp own
  exact ⟨⟨found, listed⟩, rfl, rfl⟩

/-- Every artifact is made from the record of its path. -/
theorem generate_record {emission : Emission} (h : generate options partition = .ok emission)
    (member : artifact ∈ emission.artifacts) : ∃ found, partition.record? artifact.path = some found := by
  obtain ⟨server, client, stubs, serverPass, clientPass, stubsPass, rfl, _⟩ := generate_eq_ok h
  rcases List.mem_append.mp member with member | own
  · rcases List.mem_append.mp member with own | own
    · exact (serverPass_artifacts serverPass own).1.imp fun _ listed => (mem_withRecords.mp listed).2
    · exact (clientPass_artifacts clientPass own).1.imp fun _ listed => (mem_withRecords.mp listed).2
  · exact (stubsPass_artifacts stubsPass own).1.imp fun _ listed => (mem_withRecords.mp listed).2

/-- A module that is built as it stands has its source text as its code. -/
theorem generate_kept {emission : Emission} (h : generate options partition = .ok emission)
    (member : artifact ∈ emission.artifacts) (stands : artifact.role = .module) :
    ∃ found, partition.record? artifact.path = some found ∧ artifact.code = found.source := by
  obtain ⟨server, client, stubs, serverPass, clientPass, stubsPass, rfl, _⟩ := generate_eq_ok h
  rcases List.mem_append.mp member with member | own
  · rcases List.mem_append.mp member with own | own
    · obtain ⟨path, found, listed, made, emits, own⟩ := mem_ofEach Collects.artifacts.ofServer serverPass own
      obtain ⟨rfl, _⟩ := (serverModule_local emits).1 artifact own
      exact ⟨found, (mem_withRecords.mp listed).2, serverModule_kept emits own stands⟩
    · obtain ⟨path, found, listed, made, emits, own⟩ := mem_ofEach Collects.artifacts clientPass own
      obtain ⟨rfl, _⟩ := (clientModule_local emits).1 artifact own
      exact ⟨found, (mem_withRecords.mp listed).2, clientModule_kept emits own stands⟩
  · cases stands.symm.trans (stubsPass_artifacts stubsPass own).2.2

end Artifacts

end Emission
end Realms
