import Realms.Proofs.Emission.Ready
import Realms.Proofs.Partition.Boundary

/-!
The two export policies. Under either of them a build looks at the same modules in the same order: a policy that
refuses stops at the first problem of which the other one warns, and without a problem both give the same output.
Each export that cannot cross is warned of once.
-/
namespace Realms

namespace EmissionOptions

/-- The options with exports that cannot cross left out. -/
def lenient (options : EmissionOptions) : EmissionOptions := { options with policy := .warnAndSkip }

/-- The options with exports that cannot cross refused. -/
def strict (options : EmissionOptions) : EmissionOptions := { options with policy := .error }

end EmissionOptions

namespace Emission

/-- What remains of a result if its first warning is an error. -/
def refusing {α : Type} : List BuildError → α → Except BuildError α
  | [], a => .ok a
  | first :: _, _ => .error first

/-- A computation that warns and one that refuses, with the warnings in a result of the first. -/
structure Agree {α : Type} (warnings : α → List BuildError) (warns refuses : Except BuildError α) : Prop where
  refused : ∀ a, warns = .ok a → refuses = refusing (warnings a) a
  allowed : ∀ a, refuses = .ok a → warns = .ok a

namespace Agree

variable {α β : Type} {warnings : α → List BuildError} {all : β → List BuildError}
  {warns refuses : Except BuildError α}

/-- A step that never warns is the same under both policies. -/
theorem same {x : Except BuildError α} (silent : ∀ a, x = .ok a → warnings a = []) : Agree warnings x x where
  refused a h := by rw [silent a h, h, refusing]
  allowed _ h := h

/-- The first step settles the error if it warns, so the second one matters only if it does not. -/
theorem bind {f g : α → Except BuildError β} (first : Agree warnings warns refuses)
    (rest : ∀ a, warnings a = [] → Agree all (f a) (g a))
    (begins : ∀ a b, f a = .ok b → warnings a <+: all b) : Agree all (warns >>= f) (refuses >>= g) where
  refused b h := by
    obtain ⟨a, warned, h⟩ := bind_eq_ok.mp h
    rw [first.refused a warned]
    cases problems : warnings a with
    | nil => exact (rest a problems).refused b h
    | cons problem more =>
        obtain ⟨behind, whole⟩ := begins a b h
        rw [← whole, problems]
        rfl
  allowed b h := by
    obtain ⟨a, passed, h⟩ := bind_eq_ok.mp h
    have warned := first.allowed a passed
    have silent : warnings a = [] := by
      have settled := first.refused a warned
      rw [passed] at settled
      cases problems : warnings a with
      | nil => rfl
      | cons problem more =>
          rw [problems] at settled
          cases settled
    exact bind_eq_ok.mpr ⟨a, warned, (rest a silent).allowed b h⟩

/-- What follows is the same under both policies and adds no warnings. -/
theorem keep {f : α → Except BuildError β} (first : Agree warnings warns refuses)
    (keeps : ∀ a b, f a = .ok b → all b = warnings a) : Agree all (warns >>= f) (refuses >>= f) :=
  first.bind (fun a silent => .same fun b made => (keeps a b made).trans silent)
    fun a b made => keeps a b made ▸ List.prefix_rfl

end Agree

theorem crossedExports_agree (found : ModuleRecord) (realm : Realm) : Agree Crossed.warnings
    (crossedExports .warnAndSkip found realm) (crossedExports .error found realm) where
  refused crossed h := by
    obtain rfl := crossedExports_eq_ok h
    unfold crossedExports
    dsimp only
    cases exportProblems found <;> rfl
  allowed crossed h := by
    rw [crossedExports_eq_ok h]
    rfl

theorem ofEach_agree {α : Type} [EmptyCollection α] [Append α] {part : α → List BuildError}
    (collects : Collects part) {warns refuses : ModulePath → ModuleRecord → Except BuildError α}
    (each : ∀ path found, Agree part (warns path found) (refuses path found))
    (items : List (ModulePath × ModuleRecord)) : Agree part (ofEach warns items) (ofEach refuses items) := by
  induction items with
  | nil => exact .same fun made whole => Except.ok.inj whole ▸ collects.empty
  | cons item rest ih =>
      refine .bind (each _ _) (fun first silent => .bind ih (fun more silentToo => .same ?_) ?_) ?_
      · intro whole made
        rw [← pure_eq_ok.mp made, collects.append, silent, silentToo, List.append_nil]
      · intro more whole made
        rw [← pure_eq_ok.mp made, collects.append, silent]
        exact List.prefix_rfl
      · intro first whole made
        obtain ⟨more, _, made⟩ := bind_eq_ok.mp made
        rw [← pure_eq_ok.mp made, collects.append]
        exact List.prefix_append _ _

theorem serverModule_agree (options : EmissionOptions) (path : ModulePath) (found : ModuleRecord) :
    Agree (fun part : ServerPart => part.emission.warnings) (serverModule options.lenient path found)
      (serverModule options.strict path found) := by
  unfold serverModule
  split
  · refine (crossedExports_agree found _).keep fun crossed part made => ?_
    obtain ⟨code, _, made⟩ := bind_eq_ok.mp made
    rw [← pure_eq_ok.mp made]
  · exact .same fun part made => pure_eq_ok.mp made ▸ rfl
  · exact .same fun part made => pure_eq_ok.mp made ▸ rfl

theorem referencesFor_agree (options : EmissionOptions) (path : ModulePath) (found : ModuleRecord) :
    Agree Emission.warnings (referencesFor options.lenient path found) (referencesFor options.strict path found) := by
  unfold referencesFor
  split
  · refine (crossedExports_agree found _).keep fun crossed emission made => ?_
    obtain ⟨code, _, made⟩ := bind_eq_ok.mp made
    rw [← pure_eq_ok.mp made]
  · exact .same fun emission made => pure_eq_ok.mp made ▸ rfl

theorem clientModule_agree (options : EmissionOptions) (path : ModulePath) (found : ModuleRecord) :
    Agree Emission.warnings (clientModule options.lenient path found) (clientModule options.strict path found) := by
  refine (referencesFor_agree options path found).keep fun references emission made => ?_
  rw [← pure_eq_ok.mp made, Collects.warnings.append]
  exact List.append_nil _

theorem functionReferences_agree (options : EmissionOptions) (server : ServerPart) (path : ModulePath)
    (found : ModuleRecord) : Agree Crossed.warnings (functionReferences options.lenient server path found)
      (functionReferences options.strict server path found) := by
  unfold functionReferences
  split
  · exact .same fun crossed made => Except.ok.inj made ▸ rfl
  · exact crossedExports_agree found _

theorem functionStub_agree (options : EmissionOptions) (server : ServerPart) (path : ModulePath)
    (found : ModuleRecord) : Agree Emission.warnings (functionStub options.lenient server path found)
      (functionStub options.strict server path found) := by
  refine (functionReferences_agree options server path found).keep fun crossed emission made => ?_
  obtain ⟨code, _, made⟩ := bind_eq_ok.mp made
  rw [← pure_eq_ok.mp made]

/-- The passes of a build follow each other, and each of them keeps the warnings of those before it in front. -/
theorem generate_agree (options : EmissionOptions) (partition : Partition) :
    Agree Emission.warnings (generate options.lenient partition) (generate options.strict partition) := by
  have serverPass := ofEach_agree Collects.warnings.ofServer (serverModule_agree options)
    (withRecords partition (serverSide partition))
  have clientPass := ofEach_agree Collects.warnings (clientModule_agree options)
    (withRecords partition partition.client.modules)
  have stubsPass (server : ServerPart) := ofEach_agree Collects.warnings
    (functionStub_agree options server) (withRecords partition partition.serverFunctionModules)
  have added {server : ServerPart} {client stubs emission : Emission}
      (made : (do
        let whole := server.emission ++ client ++ stubs
        Reference.checkUnique (whole.clientReferences ++ whole.serverFunctions)
        return whole) = .ok emission) :
      emission.warnings = server.emission.warnings ++ client.warnings ++ stubs.warnings := by
    obtain ⟨_, _, made⟩ := bind_eq_ok.mp made
    rw [← pure_eq_ok.mp made, Collects.warnings.append, Collects.warnings.append]
  refine serverPass.bind (fun server silent => clientPass.bind (fun client silentToo =>
    (stubsPass server).keep fun stubs emission made => ?_) ?_) ?_
  · rw [added made, silent, silentToo]
    rfl
  · intro client emission made
    obtain ⟨stubs, _, made⟩ := bind_eq_ok.mp made
    rw [added made, silent]
    exact List.prefix_append _ _
  · intro server emission made
    obtain ⟨client, _, made⟩ := bind_eq_ok.mp made
    obtain ⟨stubs, _, made⟩ := bind_eq_ok.mp made
    rw [added made, List.append_assoc]
    exact List.prefix_append _ _

/-- The exports that no name can stand for in generated code. -/
inductive UnsupportedExport where
  | byDefault (place : Location)
  | ofAll (place : Location)
  /-- The name is no identifier, or it is reserved. -/
  | named (item : ExportRecord)

def unsupportedExports (found : ModuleRecord) : List UnsupportedExport :=
  found.defaultExport.toList.map .byDefault ++ found.starExports.map .ofAll ++
    (found.exports.filter fun item =>
      !Text.isIdentifierName item.name.toList || reservedWords.contains item.name).map .named

def UnsupportedExport.warning (found : ModuleRecord) : UnsupportedExport → BuildError
  | .byDefault place => ⟨.defaultExport found.realm, found.path.text, place, none⟩
  | .ofAll place => ⟨.starExport found.realm, found.path.text, place, none⟩
  | .named item =>
    let fault := if Text.isIdentifierName item.name.toList then NameFault.reserved else .notIdentifier
    ⟨.exportName item.name fault, found.path.text, item.location, none⟩

theorem filterMap_exportProblem (found : ModuleRecord) (items : List ExportRecord) :
    items.filterMap (exportProblem? found) = ((items.filter fun item =>
      !Text.isIdentifierName item.name.toList || reservedWords.contains item.name).map .named).map
        (UnsupportedExport.warning found) := by
  induction items with
  | nil => rfl
  | cons item items ih =>
      rw [List.filterMap_cons, ih, List.filter_cons]
      by_cases identifier : Text.isIdentifierName item.name.toList = true
      · by_cases reserved : item.name ∈ reservedWords
        · simp [exportProblem?, nameFault?, UnsupportedExport.warning, problemAt, identifier, reserved]
        · simp [exportProblem?, nameFault?, identifier, reserved]
      · simp [exportProblem?, nameFault?, UnsupportedExport.warning, problemAt, identifier]

/-- Each unsupported export is one problem. -/
theorem exportProblems_eq (found : ModuleRecord) :
    exportProblems found = (unsupportedExports found).map (UnsupportedExport.warning found) := by
  rw [exportProblems, unsupportedExports, List.map_append, List.map_append, List.map_map,
    ← filterMap_exportProblem, List.map_map]
  cases found.defaultExport <;> rfl

end Emission

namespace Partition

variable {partition : Partition}

/-- The modules whose exports cross the boundary, whichever graphs reach them. -/
def AtBoundary (partition : Partition) (found : ModuleRecord) : Prop :=
  partition.record? found.path = some found ∧ (∃ kind, found.path ∈ (partition.graph kind).modules) ∧
    (found.realm = .serverFunction ∨ found.realm = .client)

/-- One warning for each unsupported export of each module at the boundary, module by module. -/
def WarnsOnce (partition : Partition) (warnings : List BuildError) : Prop :=
  ∃ modules : List ModuleRecord, (modules.map ModuleRecord.path).Nodup ∧
    (∀ found, found ∈ modules ↔ partition.AtBoundary found) ∧
      warnings = modules.flatMap fun found =>
        (Emission.unsupportedExports found).map (Emission.UnsupportedExport.warning found)

/-- The graphs that a build passes over for a realm are all that can hold a module of it. -/
theorem mem_boundaryModules_iff (keeps : partition.KeepsBoundary) (emittable : partition.Emittable)
    (found : ModuleRecord) : found ∈ Emission.boundaryModules partition ↔ partition.AtBoundary found := by
  rw [Emission.mem_boundaryModules emittable]
  refine and_congr_right fun known => ?_
  have realm : partition.realm? found.path = some found.realm := congrArg (Option.map ModuleRecord.realm) known
  constructor
  · rintro (⟨within, function⟩ | ⟨within, component⟩)
    · refine ⟨?_, .inl function⟩
      rcases PathSet.mem_union.mp within with server | functions
      · exact ⟨.server, server⟩
      · exact ⟨.serverFunction, functions⟩
    · exact ⟨⟨.client, within⟩, .inr component⟩
  · rintro ⟨⟨kind, within⟩, function | component⟩
    · obtain ⟨_, noClient, _⟩ := keeps.serverFunction found.path (function ▸ realm)
      refine .inl ⟨PathSet.mem_union.mpr ?_, function⟩
      cases kind with
      | server => exact .inl within
      | client => exact absurd within noClient
      | serverFunction => exact .inr within
    · obtain ⟨noServer, noFunctions⟩ := keeps.client found.path (component ▸ realm)
      refine .inr ⟨?_, component⟩
      cases kind with
      | server => exact absurd within noServer
      | client => exact within
      | serverFunction => exact absurd within noFunctions

end Partition

namespace Project

variable {project : Project} {listed : List ModulePath} {partition : Partition}

/-- Refusing and leaving out agree. Without a warning both give the same output, with warnings the first of them is
the error, and what is warned of is each unsupported export at the boundary, once. -/
theorem partition_policies (splits : project.partition listed = .ok partition) (options : EmissionOptions) :
    (∀ emission, Emission.generate options.lenient partition = .ok emission →
      (emission.warnings = [] → Emission.generate options.strict partition = .ok emission) ∧
        (∀ first more, emission.warnings = first :: more →
          Emission.generate options.strict partition = .error first) ∧
          partition.WarnsOnce emission.warnings) ∧
      ∀ emission, Emission.generate options.strict partition = .ok emission →
        Emission.generate options.lenient partition = .ok emission := by
  have agree := Emission.generate_agree options partition
  refine ⟨fun emission emits => ?_, agree.allowed⟩
  have refused := agree.refused emission emits
  refine ⟨fun silent => ?_, fun first more warned => ?_, ?_⟩
  · rw [refused, silent, Emission.refusing]
  · rw [refused, warned, Emission.refusing]
  · obtain ⟨round, settled, rfl, _⟩ := partition_eq_ok splits
    have nodup := Emission.boundaryModules_paths_nodup settled.emittable (settled.finished .client).ascending.nodup
    refine ⟨_, nodup, Partition.mem_boundaryModules_iff settled.keepsBoundary settled.emittable, ?_⟩
    rw [Emission.generate_warnings settled.emittable emits]
    exact congrArg (List.flatMap · _) (funext Emission.exportProblems_eq)

/-- A page with a component and a module of functions that both of them import. -/
def mixedExports : Project where
  shared := []
  sources := .ofTexts [
    (⟨"page.js"⟩, "import './b.js'; import './f.js'"),
    (⟨"b.js"⟩, "'use client'; import './f.js'; export default 1; export const B = 1"),
    (⟨"f.js"⟩, "'use server'; export * from 'm'; export const f = 1; export \x7bf as delete, f as 'g h'\x7d")]

/-- The functions come first, and their stub repeats nothing. -/
theorem mixedExports_policies : ∃ partition emission first,
    mixedExports.partition [⟨"page.js"⟩] = .ok partition ∧
      Emission.generate EmissionOptions.standard.lenient partition = .ok emission ∧
        emission.warnings.map BuildError.cause = [.starExport .serverFunction, .exportName "delete" .reserved,
          .exportName "g h" .notIdentifier, .defaultExport .client] ∧
          emission.warnings.head? = some first ∧
            Emission.generate EmissionOptions.standard.strict partition = .error first ∧
              partition.WarnsOnce emission.warnings := by
  have sees : (mixedExports.partition [⟨"page.js"⟩]).toOption.map (fun partition =>
      (partition.isReady EmissionOptions.standard.lenient,
        ((Emission.boundaryModules partition).flatMap Emission.exportProblems).map BuildError.cause)) =
      some (true, [.starExport .serverFunction, .exportName "delete" .reserved, .exportName "g h" .notIdentifier,
        .defaultExport .client]) := by decide +kernel
  obtain ⟨partition, splits, sees⟩ := exists_of_toOption sees
  obtain ⟨ready, causes⟩ := Prod.mk.inj sees
  obtain ⟨round, settled, rfl, _⟩ := partition_eq_ok splits
  obtain ⟨emission, emits⟩ := Emission.generate_isOk (Partition.ready_of_isReady ready) settled.emittable
    (settled.finished .client).ascending.nodup
  rw [← Emission.generate_warnings settled.emittable emits] at causes
  obtain ⟨_, refuses, once⟩ := (partition_policies splits .standard).1 emission emits
  cases warned : emission.warnings with
  | nil =>
      rw [warned] at causes
      cases causes
  | cons first more =>
      rw [warned] at once causes
      exact ⟨_, emission, first, splits, emits, warned ▸ causes, warned ▸ rfl, refuses first more warned, warned ▸ once⟩

end Project
end Realms
