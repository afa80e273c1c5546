import Realms.Proofs.Emission.Ready
import Realms.Proofs.Emission.Sent
import Realms.Proofs.Registry

/-!
What a build offers to the client. The functions of its stubs send the ids that its modules of functions register, each
under the name that it has in the manifest, so a registry that accepts the manifest answers whatever a stub sends. What
a stub sends and what a module registers is read from the code that the build has for them. The path of a module stands
in the comment in front of its stub as it is, so this holds for stubs whose path has no line end; behind one, the rest
of the path is code.
-/
namespace Realms

open Script Emission

/-- Somewhere in the code of an artifact the server is called with an id. -/
def Artifact.SendsId (artifact : Artifact) (id : String) : Prop :=
  ∃ script more, ModuleRecord.script? artifact.path artifact.code = some script ∧
    some (.text id :: more) ∈ script.body.flatMap (Stmt.usesOf callName)

namespace Build

variable {options : BuildOptions} {sources : Sources} {build : Build}

/-- The references to the functions of a module in the manifest. -/
def functionsOf (build : Build) (path : ModulePath) : List Reference :=
  build.manifest.serverFunctions.filter (·.modulePath == path)

/-- A module of functions on both sides of a build: one stub, made for the references of the manifest and sending these,
and one module that registers them behind its source. -/
structure Offers (build : Build) (options : EmissionOptions) (found : ModuleRecord) : Prop where
  stub : ∃ code, build.emission.artifactsAt found.path .client .serverFunctionStub =
      [⟨found.path, .client, .serverFunctionStub, code⟩] ∧
    printCode found.path (stubModule options found (build.functionsOf found.path)) = .ok code ∧
      ((∀ c ∈ found.path.text.toList, isLineEnd c = false) → ∃ script,
        ModuleRecord.script? found.path code = some script ∧
          Sends script options.transportModule (pairsOf (build.functionsOf found.path)))
  registers : ∃ behind script, build.emission.artifactsAt found.path .server .serverFunction =
      [⟨found.path, .server, .serverFunction, found.source ++ behind⟩] ∧
    ModuleRecord.script? found.path behind = some script ∧
      Registers script options.registryModule ("./" ++ found.path.fileName) (pairsOf (build.functionsOf found.path))

theorem manifest_serverFunctions (h : compile options sources = .ok build) :
    build.manifest.serverFunctions = build.emission.serverFunctions := by
  obtain ⟨project, listed, round, settled, _, whole, emits, manifest⟩ := compile_eq_ok h
  rw [manifest]
  rfl

theorem offers (h : compile options sources = .ok build) {path : ModulePath}
    (member : path ∈ build.partition.serverFunctionModules) : ∃ found,
      build.partition.record? path = some found ∧ found.path = path ∧ build.Offers options.emission found := by
  obtain ⟨project, listed, round, settled, _, whole, emits, _⟩ := compile_eq_ok h
  have emittable : build.partition.Emittable := whole ▸ settled.emittable
  obtain ⟨_, found, known, _⟩ := emittable.serves path member
  obtain rfl := emittable.record_path path found known
  have listed : build.functionsOf found.path = referencesInto found .serverFunction := by
    rw [functionsOf, manifest_serverFunctions h]
    exact generate_functionsAt emittable emits member known
  have bindable : ∀ r ∈ referencesInto found .serverFunction, IsBindable r.exportName := fun r => referencesInto_bindable
  obtain ⟨code, prints, stub⟩ := generate_stubAt emittable emits member known
  obtain ⟨behind, script, spelled, reads, registers⟩ :=
    serverFunctionModule_registers bindable options.emission found.path
  have printed : printCode found.path
      (stubModule options.emission found (referencesInto found .serverFunction)) = .ok code := by
    rw [printCode, stubModule, String.toList_ofList]
    exact prints
  refine ⟨found, known, rfl, ⟨code, stub, listed ▸ printed, fun oneLine => ?_⟩, behind, script, ?_, reads,
    listed ▸ registers⟩
  · obtain ⟨text, script, prints, reads, sends⟩ :=
      stubModule_sends oneLine bindable referencesInto_nodup options.emission found.path
    obtain rfl := Except.ok.inj (printed.symm.trans prints)
    exact ⟨script, reads, listed ▸ sends⟩
  · rw [← spelled]
    exact generate_registersAt emittable emits member known

/-- What a stub sends is listed in the manifest. -/
theorem Offers.sends_listed {found : ModuleRecord} (offered : build.Offers options.emission found)
    (oneLine : ∀ c ∈ found.path.text.toList, isLineEnd c = false) {artifact : Artifact}
    (stub : artifact ∈ build.emission.artifactsAt found.path .client .serverFunctionStub) {id : String}
    (sends : artifact.SendsId id) : id ∈ build.manifest.serverFunctionIds := by
  obtain ⟨code, only, _, reads⟩ := offered.stub
  rw [only, List.mem_singleton] at stub
  subst stub
  obtain ⟨script, kept, exact⟩ := reads oneLine
  obtain ⟨again, more, same, used⟩ := sends
  obtain rfl := Option.some.inj (kept.symm.trans same)
  rw [exact.uses, pairsOf, List.map_map] at used
  obtain ⟨r, listed, call⟩ := List.mem_map.mp used
  obtain rfl : r.id = id := by simpa using (List.cons.inj (Option.some.inj call)).1
  exact List.mem_map_of_mem (List.mem_filter.mp listed).1

/-- Both sides of a build agree on its functions. Each module that the client calls has one stub, which sends the
references of the manifest, and one module that registers them; there are no other stubs; and a registry that accepts
the manifest answers every id that a stub sends. -/
theorem compile_offers (h : compile options sources = .ok build) :
    (∀ path ∈ build.partition.serverFunctionModules, ∃ found,
        build.partition.record? path = some found ∧ found.path = path ∧ build.Offers options.emission found) ∧
      (∀ artifact ∈ build.emission.artifacts, artifact.role = .serverFunctionStub →
        artifact.path ∈ build.partition.serverFunctionModules ∧ artifact.target = .client) ∧
      ∀ registry : Registry, registry.verify build.manifest = .ok () →
        ∀ artifact ∈ build.emission.artifacts, artifact.role = .serverFunctionStub →
          (∀ c ∈ artifact.path.text.toList, isLineEnd c = false) → ∀ id, artifact.SendsId id →
            ∃ function, registry.resolve id = .ok function := by
  obtain ⟨project, listed, round, settled, _, whole, emits, _⟩ := compile_eq_ok h
  refine ⟨fun path member => offers h member, fun artifact member stub => generate_stub emits member stub, ?_⟩
  intro registry verified artifact member stub oneLine id sends
  obtain ⟨called, target⟩ := generate_stub emits member stub
  obtain ⟨found, _, named, offered⟩ := offers h called
  have own : artifact ∈ build.emission.artifactsAt found.path .client .serverFunctionStub := by
    refine List.mem_filter.mpr ⟨member, ?_⟩
    simp [named, target, stub]
  exact Registry.verify_eq_ok.mp verified id (offered.sends_listed (named ▸ oneLine) own sends)

/-- A component that calls a function. -/
def voteButton : Sources := .ofTexts [
  (⟨"a.js"⟩, "'use client'; import './f.js'"),
  (⟨"f.js"⟩, "'use server'; export function f() {}")]

def voteOptions : BuildOptions := ⟨".", ["a.js"], [], ⟨"r", "t", .error⟩⟩

def voteRegistry : Registry := ⟨[("f.js#f", ⟨0, fun _ store => (store, .value .null)⟩)]⟩

/-- The function has its stub, and the registry answers it. -/
theorem voteButton_offers : ∃ build, compile voteOptions voteButton = .ok build ∧
    build.partition.serverFunctionModules = [⟨"f.js"⟩] ∧
      (∃ found, found.path = ⟨"f.js"⟩ ∧ build.Offers voteOptions.emission found) ∧
        voteRegistry.verify build.manifest = .ok () ∧
          ∃ artifact ∈ build.emission.artifacts, artifact.role = .serverFunctionStub ∧ artifact.SendsId "f.js#f" ∧
            ∃ function, voteRegistry.resolve "f.js#f" = .ok function := by
  have sees : (split voteOptions voteButton).toOption.map (fun partition =>
      (partition.isReady voteOptions.emission, partition.serverFunctionModules,
        (functionModules partition).flatMap (referencesInto · .serverFunction))) =
      some (true, [⟨"f.js"⟩], [.ofExport ⟨"f.js"⟩ "f" .serverFunction]) := by decide +kernel
  obtain ⟨build, h, sees⟩ := compile_sees sees
  obtain ⟨modules, functions⟩ := Prod.mk.inj sees
  obtain ⟨_, _, _, _, _, _, emits, _⟩ := compile_eq_ok h
  rw [← (generate_references emits).2, ← manifest_serverFunctions h] at functions
  obtain ⟨all, _, answers⟩ := compile_offers h
  obtain ⟨found, known, named, offered⟩ := all ⟨"f.js"⟩ (modules ▸ List.mem_singleton_self _)
  have verified : voteRegistry.verify build.manifest = .ok () := by
    rw [Registry.verify, Manifest.serverFunctionIds, functions]
    decide
  have oneLine : found.path.text.toList.all (!isLineEnd ·) = true := by
    rw [named]
    decide
  obtain ⟨code, only, _, reads⟩ := offered.stub
  have stub : (⟨found.path, .client, .serverFunctionStub, code⟩ : Artifact) ∈
      build.emission.artifactsAt found.path .client .serverFunctionStub := only ▸ List.mem_singleton_self _
  have member := (List.mem_filter.mp stub).1
  obtain ⟨script, kept, sends⟩ := reads (oneLine_of_all oneLine)
  have sent : (⟨found.path, .client, .serverFunctionStub, code⟩ : Artifact).SendsId "f.js#f" := by
    refine ⟨script, [.name "args"], kept, ?_⟩
    rw [sends.uses, functionsOf, functions, named]
    exact List.mem_singleton_self _
  exact ⟨build, h, modules, ⟨found, named, offered⟩, verified, _, member, rfl, sent,
    answers voteRegistry verified _ member rfl (oneLine_of_all oneLine) "f.js#f" sent⟩

/-- A module of no functions whose path goes on behind a line end, with a call. -/
def strayPath : ModulePath := ⟨"x\nexport const g = __realmCallServer(\"gone\");"⟩

def strayButton : Sources := .ofTexts [
  (⟨"a.js"⟩, "'use client'; import './x\\nexport const g = __realmCallServer(\"gone\");';"),
  (strayPath, "'use server';")]

/-- The text that a use of a name has as its first argument. -/
def firstText? : Option (List Expr) → Option String
  | some (.text value :: _) => some value
  | _ => none

theorem of_firstText? {used : Option (List Expr)} {value : String} (first : firstText? used = some value) :
    ∃ more, used = some (.text value :: more) := by
  unfold firstText? at first
  split at first
  · cases first
    exact ⟨_, rfl⟩
  · cases first

/-- The call stands in the stub, and a registry that accepts the manifest has no answer to it. -/
theorem strayButton_unanswered : ∃ build, compile voteOptions strayButton = .ok build ∧
    (Registry.mk []).verify build.manifest = .ok () ∧
      ∃ artifact ∈ build.emission.artifacts, artifact.role = .serverFunctionStub ∧ artifact.SendsId "gone" ∧
        ∃ e, (Registry.mk []).resolve "gone" = .error e := by
  have sees : (compile voteOptions strayButton).toOption.map (fun build => (build.manifest.serverFunctionIds,
      build.emission.artifacts.any fun artifact => artifact.role == .serverFunctionStub &&
        (ModuleRecord.script? artifact.path artifact.code).any fun script =>
          (script.body.flatMap (Stmt.usesOf callName)).any fun used => firstText? used == some "gone")) =
      some ([], true) := by decide +kernel
  obtain ⟨build, h, sees⟩ := exists_of_toOption sees
  obtain ⟨ids, stub⟩ := Prod.mk.inj sees
  obtain ⟨artifact, member, stub⟩ := List.any_eq_true.mp stub
  obtain ⟨role, sends⟩ := Bool.and_eq_true_iff.mp stub
  obtain ⟨script, kept, sends⟩ := (Option.any_eq_true _ _).mp sends
  obtain ⟨used, listed, first⟩ := List.any_eq_true.mp sends
  obtain ⟨more, rfl⟩ := of_firstText? (beq_iff_eq.mp first)
  refine ⟨build, h, ?_, artifact, member, beq_iff_eq.mp role, ⟨script, more, kept, listed⟩, _, rfl⟩
  rw [Registry.verify_eq_ok, ids]
  exact List.forall_mem_nil _

end Build
end Realms
