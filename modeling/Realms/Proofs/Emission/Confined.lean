import Realms.Proofs.Emission.Ready
import Realms.Proofs.Sorted

/-!
What the source text of one module can change in the output. References, stubs and warnings are made from
the exports of a module, so its text shows only where the module itself is built, and the boundary says
which graphs build it.
-/
namespace Realms

/-- A partition before and after one module got another source text. Its graphs and the rest of its records
stay. -/
structure Partition.Edited (path : ModulePath) (source : String) (before after : Partition) : Prop where
  server : after.server = before.server
  client : after.client = before.client
  serverFunctions : after.serverFunctions = before.serverFunctions
  serverFunctionModules : after.serverFunctionModules = before.serverFunctionModules
  record : ∀ other, after.record? other =
    (before.record? other).map fun found => if other = path then { found with source } else found

/-- The artifacts of a module that hold its source text. -/
def Realm.Shows : Realm → Artifact → Prop
  | .client, artifact => artifact.target = .client
  | .serverFunction, artifact => artifact.target = .server
  | .shared, artifact => artifact.target = .server
  | .server, artifact => artifact.role = .module

/-- The artifacts of a partition that hold the source text of one of its modules. -/
def Partition.Shows (partition : Partition) (path : ModulePath) (artifact : Artifact) : Prop :=
  artifact.path = path ∧ ∃ found, partition.record? path = some found ∧ found.realm.Shows artifact

variable {differs : Artifact → Prop}

/-- Artifacts for one place and use. Their code may be another one where something `differs`. -/
structure Artifact.Alike (differs : Artifact → Prop) (a b : Artifact) : Prop where
  path : a.path = b.path
  target : a.target = b.target
  role : a.role = b.role
  code : a.code = b.code ∨ differs a

theorem Artifact.Alike.refl (artifact : Artifact) : artifact.Alike differs artifact := ⟨rfl, rfl, rfl, .inl rfl⟩

structure Emission.Alike (differs : Artifact → Prop) (x y : Emission) : Prop where
  artifacts : List.Forall₂ (Artifact.Alike differs) x.artifacts y.artifacts
  clientReferences : x.clientReferences = y.clientReferences
  serverFunctions : x.serverFunctions = y.serverFunctions
  warnings : x.warnings = y.warnings

namespace Emission

namespace Alike

theorem refl (x : Emission) : x.Alike differs x where
  artifacts := List.forall₂_same.mpr fun artifact _ => Artifact.Alike.refl artifact
  clientReferences := rfl
  serverFunctions := rfl
  warnings := rfl

theorem append {a b c d : Emission} (first : a.Alike differs b) (second : c.Alike differs d) :
    (a ++ c).Alike differs (b ++ d) where
  artifacts := List.rel_append first.artifacts second.artifacts
  clientReferences := congrArg₂ _ first.clientReferences second.clientReferences
  serverFunctions := congrArg₂ _ first.serverFunctions second.serverFunctions
  warnings := congrArg₂ _ first.warnings second.warnings

/-- Only the code of one artifact is another one. -/
theorem ofArtifact {path : ModulePath} {target : Target} {role : Role} {code other : String}
    (allowed : differs ⟨path, target, role, code⟩) :
    (ofArtifact ⟨path, target, role, code⟩).Alike differs (ofArtifact ⟨path, target, role, other⟩) where
  artifacts := .cons ⟨rfl, rfl, rfl, .inr allowed⟩ .nil
  clientReferences := rfl
  serverFunctions := rfl
  warnings := rfl

end Alike

/-- Parts for the server that differ in code only. -/
structure ServerPart.Alike (differs : Artifact → Prop) (x y : ServerPart) : Prop where
  emission : x.emission.Alike differs y.emission
  functions : x.functions = y.functions

variable {path : ModulePath} {source : String} {before after : Partition} {options : EmissionOptions}
  {found : ModuleRecord}

/-- Two passes over a partition and its edited form give the same but for what the edited module gives. -/
theorem ofEach_edited {α : Type} [EmptyCollection α] [Append α] {same : α → α → Prop}
    {emit : ModulePath → ModuleRecord → Except BuildError α} {paths : PathSet} {x y : α}
    (refl : ∀ a, same a a) (append : ∀ a b c d, same a b → same c d → same (a ++ c) (b ++ d))
    (edited : before.Edited path source after)
    (own : path ∈ paths → ∀ found, before.record? path = some found → ∀ a b,
      emit path found = .ok a → emit path { found with source } = .ok b → same a b)
    (first : ofEach emit (withRecords before paths) = .ok x)
    (second : ofEach emit (withRecords after paths) = .ok y) : same x y := by
  induction paths generalizing x y with
  | nil =>
      obtain rfl := Except.ok.inj first
      obtain rfl := Except.ok.inj second
      exact refl _
  | cons other rest ih =>
      have later := fun {x y : α} => ih (x := x) (y := y) fun member => own (List.mem_cons_of_mem other member)
      have record := edited.record other
      cases known : before.record? other with
      | none =>
          have skipped : after.record? other = none := by rw [record, known, Option.map_none]
          have front : withRecords before (other :: rest) = withRecords before rest := by
            simp [withRecords, known]
          have back : withRecords after (other :: rest) = withRecords after rest := by
            simp [withRecords, skipped]
          rw [front] at first
          rw [back] at second
          exact later first second
      | some found =>
          have taken : after.record? other = some (if other = path then { found with source } else found) := by
            rw [record, known, Option.map_some]
          have front : withRecords before (other :: rest) = (other, found) :: withRecords before rest := by
            simp [withRecords, known]
          have back : withRecords after (other :: rest) =
              (other, if other = path then { found with source } else found) :: withRecords after rest := by
            simp [withRecords, taken]
          rw [front] at first
          rw [back] at second
          obtain ⟨a, emits, c, others, rfl⟩ := ofEach_cons.mp first
          obtain ⟨b, again, d, others', rfl⟩ := ofEach_cons.mp second
          refine append _ _ _ _ ?_ (later others others')
          by_cases here : other = path
          · subst here
            rw [if_pos rfl] at again
            exact own List.mem_cons_self found known a b emits again
          · rw [if_neg here, emits] at again
            exact Except.ok.inj again ▸ refl a

/-- On the server the text of a module shows, unless the module is one of the client. -/
theorem serverModule_edited {a b : ServerPart} (notClient : found.realm ≠ .client)
    (shows : ∀ artifact : Artifact, artifact.path = path → found.realm.Shows artifact → differs artifact)
    (first : serverModule options path found = .ok a)
    (second : serverModule options path { found with source } = .ok b) : a.Alike differs b := by
  cases realm : found.realm with
  | client => exact absurd realm notClient
  | serverFunction =>
      have edited : ({ found with source } : ModuleRecord).realm = .serverFunction := realm
      obtain rfl := serverModule_functions realm first
      obtain rfl := serverModule_functions edited second
      refine ⟨⟨?_, rfl, rfl, rfl⟩, rfl⟩
      exact .cons ⟨rfl, rfl, rfl, .inr (shows _ rfl (by rw [realm]; rfl))⟩ .nil
  | shared =>
      simp only [serverModule, realm] at first second
      obtain rfl := pure_eq_ok.mp first
      obtain rfl := pure_eq_ok.mp second
      exact ⟨Alike.ofArtifact (shows _ rfl (realm ▸ rfl)), rfl⟩
  | server =>
      simp only [serverModule, realm] at first second
      obtain rfl := pure_eq_ok.mp first
      obtain rfl := pure_eq_ok.mp second
      exact ⟨Alike.ofArtifact (shows _ rfl (realm ▸ rfl)), rfl⟩

/-- The references to a client module are made without its text. -/
theorem referencesFor_edited :
    referencesFor options path { found with source } = referencesFor options path found := rfl

/-- A stub is made without the text of its module. -/
theorem functionStub_edited {server : ServerPart} :
    functionStub options server path { found with source } = functionStub options server path found := rfl

theorem functionStub_congr {a b : ServerPart} (functions : a.functions = b.functions) :
    functionStub options a = functionStub options b := by
  have references : a.references? = b.references? := by
    funext path
    rw [ServerPart.references?, ServerPart.references?, functions]
  funext path found
  rw [functionStub, functionStub, functionReferences, functionReferences, references]

/-- On the client the text of a module of the client or of the server shows. -/
theorem clientModule_edited {a b : Emission} (inline : found.realm = .client ∨ found.realm = .server)
    (shows : ∀ artifact : Artifact, artifact.path = path → found.realm.Shows artifact → differs artifact)
    (first : clientModule options path found = .ok a)
    (second : clientModule options path { found with source } = .ok b) : a.Alike differs b := by
  obtain ⟨references, refers, first⟩ := bind_eq_ok.mp first
  obtain ⟨again, refers', second⟩ := bind_eq_ok.mp second
  rw [referencesFor_edited, refers] at refers'
  obtain rfl := Except.ok.inj refers'
  obtain rfl := pure_eq_ok.mp first
  obtain rfl := pure_eq_ok.mp second
  refine (Alike.refl references).append (Alike.ofArtifact (shows _ rfl ?_))
  rcases inline with realm | realm <;> exact realm ▸ rfl

theorem allowed {kind : GraphKind} (kinds : (before.graph kind).kind = kind)
    (keeps : before.checkBoundary = .ok ()) (known : before.record? path = some found)
    (member : path ∈ (before.graph kind).modules) :
    ∃ isEntry, Partition.mayHold kind isEntry found.realm = true := by
  have checked := Partition.checkModules_eq_ok.mp ((Partition.checkBoundary_eq_ok.mp keeps).1 kind) path member
    found.realm (congrArg (Option.map ModuleRecord.realm) known)
  rw [kinds] at checked
  exact ⟨_, checked⟩

/-- Code does not leak across the boundary. Where only the source text of one module changes and both
partitions give output, everything stays but the code of the artifacts that hold this text: that for the
client if the module is one of the client, those for the server if it is shared or has functions, and those
where it is built as it stands if it belongs to the server. -/
theorem generate_edited {x y : Emission} (kinds : ∀ kind, (before.graph kind).kind = kind)
    (keeps : before.checkBoundary = .ok ()) (edited : before.Edited path source after)
    (first : generate options before = .ok x) (second : generate options after = .ok y) :
    x.Alike (before.Shows path) y := by
  obtain ⟨server, client, stubs, serverPass, clientPass, stubsPass, rfl, _⟩ := generate_eq_ok first
  obtain ⟨server', client', stubs', serverPass', clientPass', stubsPass', rfl, _⟩ := generate_eq_ok second
  rw [serverSide, edited.server, edited.serverFunctions] at serverPass'
  rw [edited.client] at clientPass'
  rw [edited.serverFunctionModules] at stubsPass'
  have servers : server.Alike (before.Shows path) server' := by
    refine ofEach_edited (fun a => ⟨Alike.refl _, rfl⟩) (fun a b c d here there => ?_) edited
      (fun member found known a b => ?_) serverPass serverPass'
    · exact ⟨here.emission.append there.emission, congrArg₂ _ here.functions there.functions⟩
    · have notClient : found.realm ≠ .client := by
        intro realm
        rcases PathSet.mem_union.mp member with within | within
        · obtain ⟨_, holds⟩ := allowed (kinds .server) keeps known within
          rw [realm] at holds
          cases holds
        · obtain ⟨_, holds⟩ := allowed (kinds .serverFunction) keeps known within
          rw [realm] at holds
          cases holds
      exact serverModule_edited notClient fun artifact own shows => ⟨own, found, known, shows⟩
  have clients : client.Alike (before.Shows path) client' := by
    refine ofEach_edited Alike.refl (fun a b c d => Alike.append) edited (fun member found known a b => ?_)
      clientPass clientPass'
    have inline : found.realm = .client ∨ found.realm = .server := by
      obtain ⟨_, holds⟩ := allowed (kinds .client) keeps known member
      cases realm : found.realm with
      | client => exact .inl rfl
      | server => exact .inr rfl
      | serverFunction =>
          rw [realm] at holds
          cases holds
      | shared =>
          rw [realm] at holds
          cases holds
    exact clientModule_edited inline fun artifact own shows => ⟨own, found, known, shows⟩
  rw [← functionStub_congr servers.functions] at stubsPass'
  have same : stubs.Alike (before.Shows path) stubs' := by
    refine ofEach_edited Alike.refl (fun a b c d => Alike.append) edited (fun _ found _ a b one two => ?_)
      stubsPass stubsPass'
    rw [functionStub_edited, one] at two
    exact Except.ok.inj two ▸ Alike.refl a
  exact (servers.emission.append clients).append same

/-- A page of the server with a component of the client, whose source is given. -/
def badgePartition (source : String) : Partition where
  server := ⟨.server, [⟨"p.js"⟩], [⟨"p.js"⟩],
    [⟨⟨"p.js"⟩, "./b.js", some ⟨"b.js"⟩, .external, .intoClient⟩], [⟨"b.js"⟩], []⟩
  client := ⟨.client, [⟨"b.js"⟩], [⟨"b.js"⟩], [], [], []⟩
  serverFunctions := ⟨.serverFunction, [], [], [], [], []⟩
  serverFunctionModules := []
  shared := []
  modules := [
    (⟨"b.js"⟩, ⟨⟨"b.js"⟩, .client, source, [], [⟨"B", .binding, ⟨1, 15⟩⟩], none, []⟩),
    (⟨"p.js"⟩, ⟨⟨"p.js"⟩, .server, "import './b.js'", [⟨"./b.js", .static, ⟨1, 1⟩⟩], [], none, []⟩)]

theorem badgePartition_edited (source other : String) :
    (badgePartition source).Edited ⟨"b.js"⟩ other (badgePartition other) where
  server := rfl
  client := rfl
  serverFunctions := rfl
  serverFunctionModules := rfl
  record path := by
    by_cases badge : path = ⟨"b.js"⟩
    · subst badge
      rfl
    · have same : (badgePartition other).record? path = (badgePartition source).record? path := by
        have skips : (⟨"b.js"⟩ : ModulePath) ≠ path := Ne.symm badge
        simp [Partition.record?, badgePartition, skips]
      rw [same]
      simp [badge]

theorem badgePartition_emittable (source : String) : (badgePartition source).Emittable where
  record_path path found known := by
    simp only [Partition.record?, badgePartition, List.find?_cons, List.find?_nil] at known
    split at known
    · rename_i badge
      obtain rfl := Option.some.inj known
      exact beq_iff_eq.mp badge
    · split at known
      · rename_i page
        obtain rfl := Option.some.inj known
        exact beq_iff_eq.mp page
      · cases known
  serverSide := List.nodup_singleton _
  functionModules := .nil
  serves _ member := absurd member List.not_mem_nil

/-- The source of the badge is what the client gets. -/
theorem badgePartition_emits (source : String) (ready : (badgePartition source).isReady .standard = true) :
    ∃ emission, generate .standard (badgePartition source) = .ok emission ∧
      ∀ other x, generate .standard (badgePartition other) = .ok x → x = emission → other = source := by
  obtain ⟨emission, emits⟩ := generate_isOk (Partition.ready_of_isReady ready) (badgePartition_emittable source)
    (List.nodup_singleton _)
  refine ⟨emission, emits, ?_⟩
  rintro other x again rfl
  have client : (⟨.client, ⟨"b.js"⟩, .module⟩ : Slot) ∈ x.artifacts.map Artifact.slot := by
    rw [generate_slots emits]
    exact List.mem_append_left _ (List.mem_append_right _ (mem_slotsOf.mpr
      ⟨⟨"b.js"⟩, List.mem_singleton_self _, _, rfl, mem_clientSlots.mpr (.inr rfl)⟩))
  obtain ⟨artifact, member, slot⟩ := List.mem_map.mp client
  obtain ⟨found, known, code⟩ := generate_kept emits member (congrArg Slot.role slot)
  obtain ⟨found', known', code'⟩ := generate_kept again member (congrArg Slot.role slot)
  have path : artifact.path = ⟨"b.js"⟩ := congrArg Slot.path slot
  rw [path] at known known'
  obtain rfl := Option.some.inj known
  obtain rfl := Option.some.inj known'
  exact code'.symm.trans code

/-- Another badge changes the output, but only its module for the client. -/
theorem badgePartition_alike : ∃ x y,
    generate .standard (badgePartition "'use client'; export const B = 1") = .ok x ∧
      generate .standard (badgePartition "'use client'; export const B = 2") = .ok y ∧ x ≠ y ∧
        x.Alike ((badgePartition "'use client'; export const B = 1").Shows ⟨"b.js"⟩) y ∧
          ∀ artifact, (badgePartition "'use client'; export const B = 1").Shows ⟨"b.js"⟩ artifact →
            artifact.target = .client := by
  have kinds : ∀ kind, ((badgePartition "'use client'; export const B = 1").graph kind).kind = kind := by
    intro kind
    cases kind <;> rfl
  have keeps : (badgePartition "'use client'; export const B = 1").checkBoundary = .ok () := by
    decide +kernel
  obtain ⟨x, first, _⟩ := badgePartition_emits "'use client'; export const B = 1" (by decide +kernel)
  obtain ⟨y, second, tells⟩ := badgePartition_emits "'use client'; export const B = 2" (by decide +kernel)
  refine ⟨x, y, first, second, fun same => ?_, generate_edited kinds keeps (badgePartition_edited _ _) first second, ?_⟩
  · exact absurd (tells _ x first same) (by decide)
  · rintro artifact ⟨_, found, known, shows⟩
    obtain rfl := Option.some.inj known
    exact shows

end Emission
end Realms
