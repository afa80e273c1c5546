import Realms.Emission.Generate
import Realms.Proofs.Outcome

/-!
What one module gives. Each artifact carries the path of its module, and the references in it are those of
the exports that cross.
-/
namespace Realms.Emission

variable {options : EmissionOptions} {path : ModulePath} {found : ModuleRecord}

theorem crossedExports_eq_ok {policy : ExportPolicy} {realm : Realm} {crossed : Crossed}
    (h : crossedExports policy found realm = .ok crossed) :
    crossed = ⟨referencesInto found realm, exportProblems found⟩ := by
  unfold crossedExports at h
  dsimp only at h
  split at h
  · cases h
  · exact (Except.ok.inj h).symm

theorem checkText_eq_ok {code : List Char} {checked : String} (h : checkText path code = .ok checked) :
    checked = String.ofList code := by
  unfold checkText at h
  split at h
  · exact (Except.ok.inj h).symm
  · cases h

theorem referencesInto_modulePath {realm : Realm} {r : Reference} (member : r ∈ referencesInto found realm) :
    r.modulePath = found.path := by
  obtain ⟨name, _, rfl⟩ := List.mem_map.mp member
  rfl

/-- What the server gets for a module of functions. -/
def functionsPart (options : EmissionOptions) (path : ModulePath) (found : ModuleRecord) : ServerPart :=
  let references := referencesInto found .serverFunction
  { emission := {
      artifacts := [⟨path, .server, .serverFunction, serverFunctionModule options found references⟩]
      clientReferences := []
      serverFunctions := references
      warnings := exportProblems found }
    functions := [(path, references)] }

theorem serverModule_functions {made : ServerPart} (realm : found.realm = .serverFunction)
    (h : serverModule options path found = .ok made) : made = functionsPart options path found := by
  unfold serverModule at h
  simp only [realm] at h
  obtain ⟨crossed, crosses, h⟩ := bind_eq_ok.mp h
  obtain rfl := crossedExports_eq_ok crosses
  obtain ⟨code, checks, h⟩ := bind_eq_ok.mp h
  obtain rfl := checkText_eq_ok checks
  exact (pure_eq_ok.mp h).symm

theorem serverModule_plain {made : ServerPart} (realm : found.realm ≠ .serverFunction)
    (h : serverModule options path found = .ok made) : ∃ role, (role = .shared ∨ role = .module) ∧
      made = ⟨ofArtifact ⟨path, .server, role, found.source⟩, []⟩ := by
  unfold serverModule at h
  split at h
  · contradiction
  · exact ⟨.shared, .inl rfl, (pure_eq_ok.mp h).symm⟩
  · exact ⟨.module, .inr rfl, (pure_eq_ok.mp h).symm⟩

/-- Everything that the server gets for a module of its own names this module. -/
theorem serverModule_local {made : ServerPart} (h : serverModule options path found = .ok made) :
    (∀ artifact ∈ made.emission.artifacts, artifact.path = path ∧ artifact.target = .server ∧
        artifact.role ≠ .serverFunctionStub) ∧
      (∀ r ∈ made.emission.serverFunctions, r.modulePath = found.path) ∧
        ∀ entry ∈ made.functions, entry.1 = path := by
  by_cases realm : found.realm = .serverFunction
  · obtain rfl := serverModule_functions realm h
    refine ⟨?_, fun r member => referencesInto_modulePath member, ?_⟩
    · intro artifact member
      obtain rfl := List.mem_singleton.mp member
      exact ⟨rfl, rfl, nofun⟩
    · intro entry member
      rw [List.mem_singleton.mp member]
  · obtain ⟨role, plain, rfl⟩ := serverModule_plain realm h
    refine ⟨?_, fun r member => absurd member List.not_mem_nil,
      fun entry member => absurd member List.not_mem_nil⟩
    intro artifact member
    obtain rfl := List.mem_singleton.mp member
    refine ⟨rfl, rfl, ?_⟩
    rcases plain with rfl | rfl <;> nofun

/-- A module of the client graph is never a stub, and it has no functions. -/
theorem clientModule_local {made : Emission} (h : clientModule options path found = .ok made) :
    (∀ artifact ∈ made.artifacts, artifact.path = path ∧
        (artifact.role = .module ∨ artifact.role = .clientReference)) ∧
      made.serverFunctions = [] := by
  obtain ⟨references, refers, h⟩ := bind_eq_ok.mp h
  obtain rfl := pure_eq_ok.mp h
  unfold referencesFor at refers
  split at refers
  · obtain ⟨crossed, _, refers⟩ := bind_eq_ok.mp refers
    obtain ⟨code, _, refers⟩ := bind_eq_ok.mp refers
    obtain rfl := pure_eq_ok.mp refers
    refine ⟨?_, rfl⟩
    intro artifact member
    rcases List.mem_append.mp member with reference | own
    · obtain rfl := List.mem_singleton.mp reference
      exact ⟨rfl, .inr rfl⟩
    · obtain rfl := List.mem_singleton.mp own
      exact ⟨rfl, .inl rfl⟩
  · obtain rfl := pure_eq_ok.mp refers
    refine ⟨?_, rfl⟩
    intro artifact member
    obtain rfl := List.mem_singleton.mp member
    exact ⟨rfl, .inl rfl⟩

/-- A module that the server gets as it stands has its source text as its code. -/
theorem serverModule_kept {made : ServerPart} (h : serverModule options path found = .ok made) {artifact : Artifact}
    (member : artifact ∈ made.emission.artifacts) (stands : artifact.role = .module) :
    artifact.code = found.source := by
  by_cases realm : found.realm = .serverFunction
  · obtain rfl := serverModule_functions realm h
    obtain rfl := List.mem_singleton.mp member
    cases stands
  · obtain ⟨role, _, rfl⟩ := serverModule_plain realm h
    obtain rfl := List.mem_singleton.mp member
    rfl

theorem clientModule_kept {made : Emission} (h : clientModule options path found = .ok made) {artifact : Artifact}
    (member : artifact ∈ made.artifacts) (stands : artifact.role = .module) : artifact.code = found.source := by
  obtain ⟨references, refers, h⟩ := bind_eq_ok.mp h
  obtain rfl := pure_eq_ok.mp h
  rcases List.mem_append.mp member with reference | own
  · unfold referencesFor at refers
    split at refers
    · obtain ⟨crossed, _, refers⟩ := bind_eq_ok.mp refers
      obtain ⟨code, _, refers⟩ := bind_eq_ok.mp refers
      obtain rfl := pure_eq_ok.mp refers
      obtain rfl := List.mem_singleton.mp reference
      cases stands
    · obtain rfl := pure_eq_ok.mp refers
      cases reference
  · obtain rfl := List.mem_singleton.mp own
    rfl

theorem functionStub_eq_ok {server : ServerPart} {made : Emission}
    (h : functionStub options server path found = .ok made) : ∃ crossed code,
      functionReferences options server path found = .ok crossed ∧
        printText path (stubText options found crossed.references) = .ok code ∧
          made = ⟨[⟨path, .client, .serverFunctionStub, code⟩], [], [], crossed.warnings⟩ := by
  obtain ⟨crossed, crosses, h⟩ := bind_eq_ok.mp h
  obtain ⟨code, prints, h⟩ := bind_eq_ok.mp h
  exact ⟨crossed, code, crosses, prints, (pure_eq_ok.mp h).symm⟩

theorem generate_eq_ok {partition : Partition} {emission : Emission}
    (h : generate options partition = .ok emission) : ∃ server client stubs,
      ofEach (serverModule options) (withRecords partition (serverSide partition)) = .ok server ∧
        ofEach (clientModule options) (withRecords partition partition.client.modules) = .ok client ∧
          ofEach (functionStub options server)
            (withRecords partition partition.serverFunctionModules) = .ok stubs ∧
            emission = server.emission ++ client ++ stubs ∧
              Reference.checkUnique (emission.clientReferences ++ emission.serverFunctions) = .ok () := by
  obtain ⟨server, first, h⟩ := bind_eq_ok.mp h
  obtain ⟨client, second, h⟩ := bind_eq_ok.mp h
  obtain ⟨stubs, third, h⟩ := bind_eq_ok.mp h
  obtain ⟨_, unique, h⟩ := bind_eq_ok.mp h
  obtain rfl := pure_eq_ok.mp h
  exact ⟨server, client, stubs, first, second, third, rfl, unique⟩

end Realms.Emission
