import Realms.Proofs.Emission.Emittable
import Realms.Proofs.Emission.Made
import Realms.Proofs.Emission.Passes

/-!
Functions that the client calls. The server and the client pass over different graphs, but whatever the
client can call is in the graph of functions, so both take the references that the server has made.
-/
namespace Realms

namespace Emission

variable {options : EmissionOptions} {partition : Partition} {path : ModulePath} {found : ModuleRecord}

/-- The artifacts of a module that play one role for one side. -/
def artifactsAt (emission : Emission) (path : ModulePath) (target : Target) (role : Role) :
    List Artifact :=
  emission.artifacts.filter fun artifact =>
    artifact.path == path && artifact.target == target && artifact.role == role

/-- The references to the functions of a module. -/
def functionsAt (emission : Emission) (path : ModulePath) : List Reference :=
  emission.serverFunctions.filter (·.modulePath == path)

theorem artifactsAt_eq_nil {emission : Emission} {target : Target} {role : Role}
    (none : ∀ artifact ∈ emission.artifacts,
      ¬(artifact.path = path ∧ artifact.target = target ∧ artifact.role = role)) :
    emission.artifactsAt path target role = [] := by
  apply List.filter_eq_nil_iff.mpr
  intro artifact member holds
  apply none artifact member
  simpa [and_assoc] using holds

theorem functionsAt_eq_nil {emission : Emission}
    (none : ∀ r ∈ emission.serverFunctions, r.modulePath ≠ path) : emission.functionsAt path = [] := by
  apply List.filter_eq_nil_iff.mpr
  intro r member holds
  exact none r member (beq_iff_eq.mp holds)

theorem Collects.artifactsAt (path : ModulePath) (target : Target) (role : Role) :
    Collects fun emission : Emission => emission.artifactsAt path target role :=
  Collects.artifacts.filter _

theorem Collects.functionsAt (path : ModulePath) :
    Collects fun emission : Emission => emission.functionsAt path :=
  Collects.serverFunctions.filter _

theorem Collects.functions : Collects ServerPart.functions := ⟨rfl, fun _ _ => rfl⟩

section Passes

variable {server : ServerPart} {client stubs : Emission}

/-- A part of the pass for the server that only one module of functions has. -/
theorem serverPass_single {β : Type} {part : ServerPart → List β} (emittable : partition.Emittable)
    (pass : ofEach (serverModule options) (withRecords partition (serverSide partition)) = .ok server)
    (member : path ∈ partition.serverFunctionModules) (known : partition.record? path = some found)
    (collects : Collects part)
    (others : ∀ other record made, record.path = other → other ≠ path →
      serverModule options other record = .ok made → part made = []) :
    part server = part (functionsPart options path found) := by
  obtain ⟨within, again, same, realm⟩ := emittable.serves path member
  obtain rfl := Option.some.inj (known.symm.trans same)
  have listed := mem_withRecords.mpr ⟨within, known⟩
  obtain ⟨made, emits, whole⟩ := ofEach_single collects pass (withRecords_keys emittable.serverSide) listed
    fun other record made member different => others other record made
      (emittable.record_path other record (mem_withRecords.mp member).2) different
  rw [whole, serverModule_functions realm emits]

variable (emittable : partition.Emittable)
  (serverPass : ofEach (serverModule options) (withRecords partition (serverSide partition)) = .ok server)
  (member : path ∈ partition.serverFunctionModules) (known : partition.record? path = some found)

include emittable serverPass member known

theorem serverPass_artifactsAt : server.emission.artifactsAt path .server .serverFunction =
    [⟨path, .server, .serverFunction,
      serverFunctionModule options found (referencesInto found .serverFunction)⟩] := by
  have single := serverPass_single emittable serverPass member known
    (Collects.artifactsAt path .server .serverFunction).ofServer fun other record made _ different emits =>
      artifactsAt_eq_nil fun artifact own at_path =>
        different (((serverModule_local emits).1 artifact own).1.symm.trans at_path.1)
  rw [single]
  simp [artifactsAt, functionsPart]

theorem serverPass_functionsAt :
    server.emission.functionsAt path = referencesInto found .serverFunction := by
  have single := serverPass_single emittable serverPass member known
    (Collects.functionsAt path).ofServer fun other record made named different emits =>
      functionsAt_eq_nil fun r own at_path =>
        different (named.symm.trans (((serverModule_local emits).2.1 r own).symm.trans at_path))
  rw [single]
  apply List.filter_eq_self.mpr
  intro r own
  rw [referencesInto_modulePath own, emittable.record_path path found known]
  exact beq_self_eq_true path

/-- The references of a module of functions are never made a second time. -/
theorem serverPass_references :
    server.references? path = some (referencesInto found .serverFunction) := by
  have single := serverPass_single emittable serverPass member known
    (Collects.functions.filter fun entry => entry.1 == path) fun other record made _ different emits =>
      List.filter_eq_nil_iff.mpr fun entry own at_path =>
        different (((serverModule_local emits).2.2 entry own).symm.trans (beq_iff_eq.mp at_path))
  rw [ServerPart.references?, ← List.head?_filter, single]
  simp [functionsPart]

/-- The stub of a module calls what the server has registered for it. -/
theorem stubsPass_artifactsAt
    (stubsPass : ofEach (functionStub options server)
      (withRecords partition partition.serverFunctionModules) = .ok stubs) :
    ∃ code, printText path (stubText options found (referencesInto found .serverFunction)) = .ok code ∧
      stubs.artifactsAt path .client .serverFunctionStub = [⟨path, .client, .serverFunctionStub, code⟩] := by
  have cached := serverPass_references emittable serverPass member known
  have listed := mem_withRecords.mpr ⟨member, known⟩
  obtain ⟨made, emits, whole⟩ := ofEach_single (Collects.artifactsAt path .client .serverFunctionStub)
    stubsPass (withRecords_keys emittable.functionModules) listed fun other record made _ different emits => by
      obtain ⟨crossed, code, _, _, rfl⟩ := functionStub_eq_ok emits
      refine artifactsAt_eq_nil fun artifact own at_path => different ?_
      rw [← at_path.1, List.mem_singleton.mp own]
  obtain ⟨crossed, code, crosses, prints, rfl⟩ := functionStub_eq_ok emits
  rw [functionReferences, cached] at crosses
  obtain rfl := Except.ok.inj crosses
  refine ⟨code, prints, whole.trans ?_⟩
  simp [artifactsAt]

end Passes

theorem clientPass_artifactsAt {client : Emission} {items : List (ModulePath × ModuleRecord)}
    (pass : ofEach (clientModule options) items = .ok client) (target : Target) {role : Role}
    (notModule : role ≠ .module) (notReference : role ≠ .clientReference) :
    client.artifactsAt path target role = [] := by
  apply artifactsAt_eq_nil
  intro artifact own holds
  rcases (clientPass_artifacts pass own).2 with same | same
  · exact notModule (holds.2.2.symm.trans same)
  · exact notReference (holds.2.2.symm.trans same)

theorem clientPass_serverFunctions {client : Emission} {items : List (ModulePath × ModuleRecord)}
    (pass : ofEach (clientModule options) items = .ok client) : client.serverFunctions = [] :=
  ofEach_nil Collects.serverFunctions pass fun _ _ _ _ emits => (clientModule_local emits).2

theorem stubsPass_serverFunctions {server : ServerPart} {stubs : Emission}
    {items : List (ModulePath × ModuleRecord)}
    (pass : ofEach (functionStub options server) items = .ok stubs) : stubs.serverFunctions = [] := by
  apply ofEach_nil Collects.serverFunctions pass
  intro path found made _ emits
  obtain ⟨crossed, code, _, _, rfl⟩ := functionStub_eq_ok emits
  rfl

section Generate

variable {emission : Emission} (emittable : partition.Emittable)
  (h : generate options partition = .ok emission) (member : path ∈ partition.serverFunctionModules)
  (known : partition.record? path = some found)

include emittable h member known

theorem generate_stubAt : ∃ code,
    printText path (stubText options found (referencesInto found .serverFunction)) = .ok code ∧
      emission.artifactsAt path .client .serverFunctionStub = [⟨path, .client, .serverFunctionStub, code⟩] := by
  obtain ⟨server, client, stubs, serverPass, clientPass, stubsPass, rfl, _⟩ := generate_eq_ok h
  obtain ⟨code, prints, stub⟩ := stubsPass_artifactsAt emittable serverPass member known stubsPass
  have noServer : server.emission.artifactsAt path .client .serverFunctionStub = [] :=
    artifactsAt_eq_nil fun artifact own holds => (serverPass_artifacts serverPass own).2.2 holds.2.2
  have noClient : client.artifactsAt path .client .serverFunctionStub = [] :=
    clientPass_artifactsAt clientPass .client nofun nofun
  refine ⟨code, prints, ?_⟩
  rw [(Collects.artifactsAt _ _ _).append, (Collects.artifactsAt _ _ _).append, noServer, noClient, stub]
  rfl

theorem generate_registersAt : emission.artifactsAt path .server .serverFunction =
    [⟨path, .server, .serverFunction,
      serverFunctionModule options found (referencesInto found .serverFunction)⟩] := by
  obtain ⟨server, client, stubs, serverPass, clientPass, stubsPass, rfl, _⟩ := generate_eq_ok h
  have noClient : client.artifactsAt path .server .serverFunction = [] :=
    clientPass_artifactsAt clientPass .server nofun nofun
  have noStub : stubs.artifactsAt path .server .serverFunction = [] :=
    artifactsAt_eq_nil fun artifact own holds => by
      cases (stubsPass_artifacts stubsPass own).2.2.symm.trans holds.2.2
  rw [(Collects.artifactsAt _ _ _).append, (Collects.artifactsAt _ _ _).append, noClient, noStub,
    List.append_nil, List.append_nil]
  exact serverPass_artifactsAt emittable serverPass member known

theorem generate_functionsAt : emission.functionsAt path = referencesInto found .serverFunction := by
  obtain ⟨server, client, stubs, serverPass, clientPass, stubsPass, rfl, _⟩ := generate_eq_ok h
  have noClient : client.functionsAt path = [] := by
    rw [functionsAt, clientPass_serverFunctions clientPass, List.filter_nil]
  have noStub : stubs.functionsAt path = [] := by
    rw [functionsAt, stubsPass_serverFunctions stubsPass, List.filter_nil]
  rw [(Collects.functionsAt _).append, (Collects.functionsAt _).append, noClient, noStub,
    List.append_nil, List.append_nil]
  exact serverPass_functionsAt emittable serverPass member known

end Generate

/-- Nothing else is a stub. -/
theorem generate_stub {emission : Emission} (h : generate options partition = .ok emission)
    {artifact : Artifact} (member : artifact ∈ emission.artifacts)
    (stub : artifact.role = .serverFunctionStub) :
    artifact.path ∈ partition.serverFunctionModules ∧ artifact.target = .client := by
  obtain ⟨server, client, stubs, serverPass, clientPass, stubsPass, rfl, _⟩ := generate_eq_ok h
  rcases List.mem_append.mp member with member | own
  · rcases List.mem_append.mp member with own | own
    · exact absurd stub (serverPass_artifacts serverPass own).2.2
    · rcases (clientPass_artifacts clientPass own).2 with role | role
      · cases role.symm.trans stub
      · cases role.symm.trans stub
  · obtain ⟨⟨_, listed⟩, target, _⟩ := stubsPass_artifacts stubsPass own
    exact ⟨(mem_withRecords.mp listed).1, target⟩

end Emission

end Realms
