import Realms.Proofs.Script.Appended
import Realms.Proofs.Script.Declared
import Realms.Proofs.Script.Scopes

/-!
What a script exports when it runs. Types, descriptions and names that only types know are gone by then; an enum is a
value, and so is a namespace that holds more than types.
-/
namespace Realms

namespace Script

mutual

/-- Whether a declaration makes the namespace that it stands in a value. -/
def Declaration.fills : Declaration → Bool
  | .type _ => false
  | .scope _ body => stmtsFill body
  | .bindings _ _ | .function _ | .classOf _ | .enum _ | .aliasOf _ => true

/-- Types do not make a namespace a value, nor do the imports and other names that it keeps to itself. -/
def Stmt.fills : Stmt → Bool
  | .importFrom _ | .declared (.aliasOf _) => false
  | .declared value | .described value | .exportDeclared _ _ value => value.fills
  | _ => true

def stmtsFill : List Stmt → Bool
  | [] => false
  | stmt :: more => stmt.fills || stmtsFill more

end

/-- Whether what is declared is there when the script runs. -/
def Declaration.runs : Declaration → Bool
  | .function value => value.hasBody
  | value => value.fills

/-- The names of a declaration, for values and types alike. -/
def Declaration.names : Declaration → List String
  | .bindings _ items => items.flatMap Variable.names
  | .function value => value.name.toList
  | .classOf name | .type name => name.toList
  | .enum name | .scope name _ | .aliasOf name => [name]

/-- The names that a statement declares or imports, for values and types alike. Blocks are not looked into. -/
def Stmt.declaredNames : Stmt → List String
  | .importFrom found =>
    found.defaultName.toList ++ found.wholeName.toList ++ (found.names.getD []).map ImportName.bound
  | .declared value | .described value | .exportDeclared _ _ value => value.names
  | .exportDefault _ _ name => name.toList
  | _ => []

/-- Those of them that are there when the script runs. -/
def Stmt.presentNames : Stmt → List String
  | .importFrom found => found.boundNames
  | .declared value => if value.runs then value.names else []
  | .exportDeclared _ ambient value => if !ambient && value.runs then value.names else []
  | .exportDefault _ runs name => if runs then name.toList else []
  | _ => []

/-- Whether a name means a value: it does not if all that the script declares under it is for types alone. -/
def isPresent (body : List Stmt) (name : String) : Bool :=
  (body.flatMap Stmt.presentNames).contains name || !(body.flatMap Stmt.declaredNames).contains name

section Names

variable (present : String → Bool)

/-- The names that a statement exports when the script runs, but for those that `export *` takes from another module. -/
def Stmt.runExports : Stmt → List String
  | .exportNames found =>
    if found.typeOnly then []
    else (found.names.filter fun name =>
      !name.typeOnly && (found.specifier.isSome || present name.inner)).map ExportName.exported
  | .exportAll found => if found.typeOnly then [] else found.exported.toList
  | .exportDeclared _ ambient value => if !ambient && value.runs then value.names else []
  | .exportDefault _ runs _ => if runs then ["default"] else []
  | .exportValue _ (.name name) => if present name then ["default"] else []
  | .exportValue _ _ => ["default"]
  | _ => []

/-- Names that no record lists: those of enums, of namespaces and of other names for something. -/
def Stmt.unlisted : Stmt → List String
  | .exportDeclared _ false (.enum name) | .exportDeclared _ false (.aliasOf name) => [name]
  | .exportDeclared _ false (.scope name body) => if stmtsFill body then [name] else []
  | _ => []

/-- Names that a record lists although nothing is there when the script runs: those of functions without a body, of a
default interface, and of names for types that are exported like values. -/
def Stmt.idle : Stmt → List String
  | .exportNames found =>
    if found.typeOnly || found.specifier.isSome then []
    else (found.names.filter fun name => !name.typeOnly && !present name.inner).map ExportName.exported
  | .exportDeclared _ false (.function value) => if value.hasBody then [] else value.name.toList
  | .exportDefault _ false _ => ["default"]
  | .exportValue _ (.name name) => if present name then [] else ["default"]
  | _ => []

end Names

/-- The names that a record lists for a statement, `default` among them. -/
def Stmt.listed : Stmt → List String
  | .exportNames found =>
    if found.typeOnly then [] else (found.names.filter (!·.typeOnly)).map ExportName.exported
  | .exportAll found => if found.typeOnly then [] else found.exported.toList
  | .exportDeclared _ ambient value => if ambient then [] else value.valueNames
  | .exportDefault _ _ _ | .exportValue _ _ => ["default"]
  | _ => []

/-- Where a statement exports all of another module without a name of its own. -/
def Stmt.starPlaces : Stmt → List Nat
  | .exportAll found => if found.typeOnly || found.exported.isSome then [] else [found.start]
  | _ => []

/-- The names that a script exports when it runs. -/
def runExports (script : Script) : List String := script.body.flatMap (Stmt.runExports (isPresent script.body))

def unlisted (script : Script) : List String := script.body.flatMap Stmt.unlisted

def idle (script : Script) : List String := script.body.flatMap (Stmt.idle (isPresent script.body))

theorem Declaration.Plain.runs {found : Declaration} (plain : found.Plain) : found.runs = true := by
  cases found with
  | bindings => rfl
  | classOf => rfl
  | function value => exact plain
  | _ => cases plain

/-- What a plain script declares is there when it runs. -/
theorem Stmt.Plain.declaredNames {stmt : Stmt} (plain : stmt.Plain) : stmt.declaredNames = stmt.presentNames := by
  cases stmt with
  | importFrom found =>
      obtain ⟨values, names⟩ := plain
      have all : (found.names.getD []).filter (!·.typeOnly) = found.names.getD [] :=
        List.filter_eq_self.mpr fun name member => by simp [names name member]
      simp [Stmt.declaredNames, presentNames, ImportFrom.boundNames, values, all]
  | declared value => simp [Stmt.declaredNames, presentNames, Declaration.Plain.runs plain]
  | exportDeclared start ambient value =>
      obtain ⟨rfl, plain⟩ := plain
      simp [Stmt.declaredNames, presentNames, plain.runs]
  | exportDefault start runs name =>
      obtain rfl : runs = true := plain
      rfl
  | described => cases plain
  | _ => rfl

theorem isPresent_of_plain {body : List Stmt} (plain : ∀ stmt ∈ body, stmt.Plain) (name : String) :
    isPresent body name = true := by
  have same : body.flatMap Stmt.declaredNames = body.flatMap Stmt.presentNames :=
    List.flatMap_congr fun stmt member => (plain stmt member).declaredNames
  rw [isPresent, same, Bool.or_not_self]

/-- A plain script exports no more and no less than its record lists. -/
theorem Stmt.Plain.settled {stmt : Stmt} (plain : stmt.Plain) {present : String → Bool}
    (all : ∀ name, present name = true) : stmt.unlisted = [] ∧ stmt.idle present = [] := by
  cases stmt with
  | exportNames found => simp [Stmt.unlisted, Stmt.idle, all]
  | exportDeclared start ambient value =>
      obtain ⟨rfl, plain⟩ := plain
      cases value with
      | function value =>
          have body : value.hasBody = true := plain
          simp [Stmt.unlisted, Stmt.idle, body]
      | bindings => exact ⟨rfl, rfl⟩
      | classOf => exact ⟨rfl, rfl⟩
      | _ => cases plain
  | exportDefault start runs name =>
      obtain rfl : runs = true := plain
      exact ⟨rfl, rfl⟩
  | exportValue start value =>
      cases value with
      | name name => simp [Stmt.unlisted, Stmt.idle, all]
      | _ => exact ⟨rfl, rfl⟩
  | _ => exact ⟨rfl, rfl⟩

end Script

namespace Surface

open Script

variable {α : Type} {name : String}

/-- The names that are listed, with `default` for a default export. -/
def offeredNames (surface : Surface) : List String :=
  surface.exports.map ExportRecord.name ++ surface.defaultExport.toList.map fun _ => "default"

theorem mem_offeredNames_append (a b : Surface) :
    name ∈ (a.append b).offeredNames ↔ name ∈ a.offeredNames ∨ name ∈ b.offeredNames := by
  cases first : a.defaultExport
  all_goals
    cases second : b.defaultExport
    all_goals
      simp only [offeredNames, append, first, second, List.map_append, List.mem_append, Option.toList, List.map_cons,
        List.map_nil, Option.orElse_eq_orElse, Option.orElse]
      tauto

theorem mem_offeredNames_foldl (given : α → Surface) (items : List α) (surface : Surface) :
    name ∈ (items.foldl (fun surface item => surface.append (given item)) surface).offeredNames ↔
      name ∈ surface.offeredNames ∨ ∃ item ∈ items, name ∈ (given item).offeredNames := by
  induction items generalizing surface with
  | nil => simp
  | cons item items ih => simp [ih, mem_offeredNames_append, or_assoc]

variable (locate : Nat → Location) (present : String → Bool)

theorem offeredNames_ofName (found : ExportName) :
    (ofName locate found).offeredNames = if found.typeOnly then [] else [found.exported] := by
  unfold ofName
  split
  · rfl
  · split
    · rename_i isDefault
      rw [beq_iff_eq.mp isDefault]
      rfl
    · rfl

theorem mem_offeredNames_ofStatement (stmt : Stmt) :
    name ∈ (ofStatement locate stmt).offeredNames ↔ name ∈ stmt.listed := by
  cases stmt with
  | importFrom found =>
      simp only [ofStatement, Stmt.listed]
      split
      all_goals rfl
  | exportNames found =>
      have one (item : ExportName) : name ∈ (ofName locate item).offeredNames ↔
          item.typeOnly = false ∧ item.exported = name := by
        rw [offeredNames_ofName]
        split
        all_goals simp [*, eq_comm]
      simp only [ofStatement, Stmt.listed]
      split
      · rfl
      · rw [mem_offeredNames_foldl]
        simp only [one]
        cases found.specifier
        all_goals simp [offeredNames, ofImport, empty, and_assoc]
  | exportAll found =>
      simp only [ofStatement, Stmt.listed]
      split
      · rfl
      · cases found.exported
        all_goals rfl
  | exportDeclared start ambient value =>
      simp only [ofStatement, Stmt.listed]
      split
      · rfl
      · simp [offeredNames, empty, Function.comp_def]
  | _ => rfl

end Surface

namespace Script

variable {name : String} (present : String → Bool) (stmt : Stmt)

/-- What a statement exports when it runs and what is listed for it differ in the idle and the unlisted names. -/
theorem Stmt.mem_listed :
    name ∈ stmt.listed ∨ name ∈ stmt.unlisted ↔ name ∈ stmt.runExports present ∨ name ∈ stmt.idle present := by
  cases stmt with
  | exportNames found =>
      simp only [listed, unlisted, runExports, idle]
      cases found.typeOnly with
      | true => rfl
      | false =>
          cases found.specifier with
          | some specifier => simp
          | none =>
              simp only [Bool.false_eq_true, if_false, Bool.or_false, Option.isSome_none, Bool.false_or,
                List.not_mem_nil, or_false, List.mem_map, List.mem_filter, Bool.and_eq_true, Bool.not_eq_true',
                ← exists_or, ← and_or_left, ← or_and_right]
              exact exists_congr fun item => by cases present item.inner <;> simp
  | exportAll found => simp [listed, unlisted, runExports, idle]
  | exportDeclared start ambient value =>
      cases ambient with
      | true => simp [listed, unlisted, runExports, idle]
      | false =>
          cases value with
          | function value =>
              cases body : value.hasBody
              all_goals
                simp [listed, unlisted, runExports, idle, Declaration.valueNames, Declaration.names, Declaration.runs,
                  body]
          | _ =>
              simp [listed, unlisted, runExports, idle, Declaration.valueNames, Declaration.names, Declaration.runs,
                Declaration.fills]
  | exportDefault start runs declared =>
      cases runs
      all_goals simp [listed, unlisted, runExports, idle]
  | exportValue start value =>
      cases value with
      | name used =>
          cases known : present used
          all_goals simp [listed, unlisted, runExports, idle, known]
      | _ => simp [listed, unlisted, runExports, idle]
  | _ => simp [listed, unlisted, runExports, idle]

theorem Stmt.unlisted_runs (unlisted : name ∈ stmt.unlisted) : name ∈ stmt.runExports present := by
  cases stmt with
  | exportDeclared start ambient value =>
      cases ambient with
      | true => cases unlisted
      | false =>
          cases value with
          | enum => exact unlisted
          | aliasOf => exact unlisted
          | scope => exact unlisted
          | _ => cases unlisted
  | _ => cases unlisted

theorem Stmt.idle_listed (idle : name ∈ stmt.idle present) : name ∈ stmt.listed := by
  cases stmt with
  | exportNames found =>
      simp only [Stmt.idle, List.mem_ite_nil_left, Bool.or_eq_true, not_or, List.mem_map, List.mem_filter] at idle
      obtain ⟨⟨values, _⟩, item, ⟨member, kept⟩, rfl⟩ := idle
      simp only [listed, List.mem_ite_nil_left]
      exact ⟨values, List.mem_map.mpr ⟨item, List.mem_filter.mpr ⟨member, (Bool.and_eq_true_iff.mp kept).1⟩, rfl⟩⟩
  | exportDeclared start ambient value =>
      cases ambient with
      | true => cases idle
      | false =>
          cases value with
          | function value =>
              simp only [Stmt.idle, List.mem_ite_nil_left] at idle
              exact idle.2
          | _ => cases idle
  | exportDefault start runs declared =>
      cases runs with
      | true => cases idle
      | false => exact idle
  | exportValue start value =>
      cases value with
      | name used =>
          simp only [Stmt.idle, List.mem_ite_nil_left] at idle
          exact idle.2
      | _ => cases idle
  | _ => cases idle

end Script

namespace Surface

open Script

variable {types : Bool} (locate : Nat → Location)

theorem default_not_mem_ofName (found : ExportName) :
    "default" ∉ (ofName locate found).exports.map ExportRecord.name := by
  unfold ofName
  split
  · exact List.not_mem_nil
  · split
    · exact List.not_mem_nil
    · rename_i other
      exact fun member => other (beq_iff_eq.mpr (List.mem_singleton.mp member).symm)

/-- Only what is exported under a name of all of a module may be listed as `default`. -/
theorem default_mem_ofStatement {stmt : Stmt} (sound : stmt.Sound types) :
    "default" ∈ (ofStatement locate stmt).exports.map ExportRecord.name ↔
      ∃ found, stmt = .exportAll found ∧ found.typeOnly = false ∧ found.exported = some "default" := by
  cases stmt with
  | importFrom found =>
      simp only [ofStatement]
      split
      all_goals simp [empty, ofImport]
  | exportNames found =>
      refine iff_of_false (fun member => ?_) (by simp)
      simp only [ofStatement] at member
      split at member
      · cases member
      · rw [exports_foldl, List.map_append, List.map_flatMap, List.mem_append, List.mem_flatMap] at member
        rcases member with member | ⟨item, _, member⟩
        · cases source : found.specifier
          all_goals
            rw [source] at member
            cases member
        · exact default_not_mem_ofName locate item member
  | exportAll found =>
      simp only [ofStatement, Stmt.exportAll.injEq, exists_eq_left']
      cases found.typeOnly with
      | true => simp [empty]
      | false =>
          cases found.exported
          all_goals simp [empty, ofImport, eq_comm]
  | exportDeclared start ambient value =>
      refine iff_of_false (fun member => ?_) (by simp)
      simp only [ofStatement] at member
      split at member
      · cases member
      · rw [List.map_map] at member
        obtain ⟨name, bound, same⟩ := List.mem_map.mp member
        obtain rfl : name = "default" := same
        exact sound.bindable start ambient value rfl _ bound (by decide)
  | _ => simp [ofStatement, empty]

theorem starExports_ofStatement (stmt : Stmt) :
    (ofStatement locate stmt).starExports = stmt.starPlaces.map locate := by
  cases stmt with
  | importFrom found =>
      simp only [ofStatement]
      split
      all_goals rfl
  | exportNames found =>
      have one (item : ExportName) : (ofName locate item).starExports = [] := by
        unfold ofName
        split
        · rfl
        · split
          all_goals rfl
      simp only [ofStatement]
      split
      · rfl
      · rw [starExports_foldl]
        cases found.specifier
        all_goals simp [one, empty, ofImport, Stmt.starPlaces]
  | exportAll found =>
      simp only [ofStatement, Stmt.starPlaces]
      cases found.typeOnly
      all_goals
        cases found.exported
        all_goals rfl
  | exportDeclared start ambient value =>
      cases ambient
      all_goals rfl
  | _ => rfl

end Surface

namespace ModuleRecord

open Script

variable {path : ModulePath} {source : String} {shared : SharedSet} {record : ModuleRecord}

/-- The names that a module is known to export, with `default` for a default export. -/
def offeredNames (record : ModuleRecord) : List String :=
  record.exports.map ExportRecord.name ++ record.defaultExport.toList.map fun _ => "default"

theorem script?_sound {script : Script} (reads : script? path source = some script) :
    ∀ stmt ∈ script.body, stmt.Sound path.allowsTypes := by
  unfold script? scriptIn? at reads
  split at reads
  · rename_i found text
    split at reads
    · cases reads
    · obtain rfl := Option.some.inj reads
      obtain ⟨stmts, last, passes, -, -, rfl⟩ := readText_eq_some text
      exact fun stmt member => passes.sound stmt (List.mem_of_mem_drop member)
  · cases reads

section Body

variable (path source shared) (script : Script) (name : String)

theorem mem_offeredNames_ofScript : name ∈ (ofScript shared path source script).offeredNames ↔
    ∃ stmt ∈ script.body, name ∈ stmt.listed := by
  have given : name ∈ (ofScript shared path source script).offeredNames ↔ _ :=
    Surface.mem_offeredNames_foldl (Surface.ofStatement (Location.ofOffset source)) script.body .empty
  simp only [Surface.mem_offeredNames_ofStatement] at given
  exact given.trans (or_iff_right List.not_mem_nil)

/-- What a record lists and what the module exports when it runs differ in the idle and the unlisted names. -/
theorem mem_offeredNames_or : name ∈ (ofScript shared path source script).offeredNames ∨ name ∈ script.unlisted ↔
    name ∈ script.runExports ∨ name ∈ script.idle := by
  simp only [mem_offeredNames_ofScript, unlisted, runExports, idle, List.mem_flatMap, ← exists_or, ← and_or_left,
    Stmt.mem_listed (isPresent script.body)]

theorem unlisted_runs (unlisted : name ∈ script.unlisted) : name ∈ script.runExports := by
  obtain ⟨stmt, member, unlisted⟩ := List.mem_flatMap.mp unlisted
  exact List.mem_flatMap.mpr ⟨stmt, member, stmt.unlisted_runs _ unlisted⟩

theorem idle_offered (idle : name ∈ script.idle) : name ∈ (ofScript shared path source script).offeredNames := by
  obtain ⟨stmt, member, idle⟩ := List.mem_flatMap.mp idle
  exact (mem_offeredNames_ofScript path source shared script name).mpr ⟨stmt, member, stmt.idle_listed _ idle⟩

theorem settled_of_plain {script : Script} (plain : ∀ stmt ∈ script.body, stmt.Plain) :
    script.unlisted = [] ∧ script.idle = [] := by
  have all := isPresent_of_plain plain
  exact ⟨List.flatMap_eq_nil_iff.mpr fun stmt member => ((plain stmt member).settled all).1,
    List.flatMap_eq_nil_iff.mpr fun stmt member => ((plain stmt member).settled all).2⟩

end Body

/-- What a record lists is what the module exports when it runs just if each name that no record lists is exported a
second time, and each idle one has something to export as well. A script without types has no such names. -/
theorem parsed_offeredNames (parsed : parse? shared path source = some record) :
    ∃ script, script? path source = some script ∧
      ((∀ name, name ∈ record.offeredNames ↔ name ∈ script.runExports) ↔
        (∀ name ∈ script.unlisted, name ∈ record.offeredNames) ∧ ∀ name ∈ script.idle, name ∈ script.runExports) ∧
      (∀ name, name ∈ record.offeredNames ∨ name ∈ script.unlisted ↔ name ∈ script.runExports ∨ name ∈ script.idle) ∧
      (path.allowsTypes = false → ∀ name, name ∈ record.offeredNames ↔ name ∈ script.runExports) ∧
      ("default" ∈ record.exports.map ExportRecord.name ↔
        ∃ found, .exportAll found ∈ script.body ∧ found.typeOnly = false ∧ found.exported = some "default") ∧
      record.starExports = (script.body.flatMap Stmt.starPlaces).map (Location.ofOffset source) := by
  obtain ⟨script, reads, rfl⟩ := Option.map_eq_some_iff.mp parsed
  have sound := script?_sound reads
  have differ := mem_offeredNames_or path source shared script
  refine ⟨script, reads, ⟨fun same => ?_, fun ⟨again, besides⟩ name => ?_⟩, differ, fun plain name => ?_, ?_, ?_⟩
  · exact ⟨fun name unlisted => (same name).mpr (unlisted_runs script name unlisted),
      fun name idle => (same name).mp (idle_offered path source shared script name idle)⟩
  · constructor
    · exact fun offered => ((differ name).mp (.inl offered)).elim id (besides name)
    · exact fun runs => ((differ name).mpr (.inl runs)).elim id (again name)
  · have ⟨unlisted, idle⟩ := settled_of_plain fun stmt member => (sound stmt member).plain plain
    simpa [unlisted, idle] using differ name
  · have given : (ofScript shared path source script).exports = _ :=
      Surface.exports_foldl (Surface.ofStatement (Location.ofOffset source)) script.body .empty
    rw [given, List.map_append, List.map_flatMap, List.mem_append, List.mem_flatMap]
    constructor
    · rintro (none | ⟨stmt, member, listed⟩)
      · cases none
      · obtain ⟨found, rfl, whole⟩ := (Surface.default_mem_ofStatement _ (sound stmt member)).mp listed
        exact ⟨found, member, whole⟩
    · rintro ⟨found, member, whole⟩
      exact .inr ⟨_, member, (Surface.default_mem_ofStatement _ (sound _ member)).mpr ⟨found, rfl, whole⟩⟩
  · have given := Surface.starExports_foldl (Surface.ofStatement (Location.ofOffset source)) script.body .empty
    simp only [Surface.starExports_ofStatement] at given
    rw [List.map_flatMap]
    exact given

/-- An enum that is exported a second time, by its name, and a type that is not exported as a value. -/
def exportedTwice : String :=
  "export enum A \x7b B \x7d\nexport \x7b A, C as default, type D \x7d;\nconst C = 1; type D = A"

theorem exportedTwice_offeredNames : ∃ record script, parse? [] ⟨"a.ts"⟩ exportedTwice = some record ∧
    script? ⟨"a.ts"⟩ exportedTwice = some script ∧ script.unlisted = ["A"] ∧
      ∀ name, name ∈ record.offeredNames ↔ name ∈ script.runExports := by
  have lists : (parse? [] ⟨"a.ts"⟩ exportedTwice).map offeredNames = some ["A", "default"] := by decide +kernel
  have runs : (script? ⟨"a.ts"⟩ exportedTwice).map (fun script => (script.unlisted, script.idle)) =
      some (["A"], []) := by decide +kernel
  obtain ⟨record, parsed, offered⟩ := Option.map_eq_some_iff.mp lists
  obtain ⟨script, reads, settled, _⟩ := parsed_offeredNames parsed
  rw [reads, Option.map_some, Option.some_inj, Prod.mk.injEq] at runs
  obtain ⟨unlisted, idle⟩ := runs
  refine ⟨record, script, parsed, reads, unlisted, settled.mpr ⟨?_, ?_⟩⟩
  · rw [unlisted, offered]
    decide
  · rw [idle]
    exact List.forall_mem_nil _

def exportedEnum : String := "export enum A \x7b B \x7d"

theorem exportedEnum_unlisted : ∃ record script, parse? [] ⟨"a.ts"⟩ exportedEnum = some record ∧
    script? ⟨"a.ts"⟩ exportedEnum = some script ∧ "A" ∈ script.runExports ∧ "A" ∉ record.offeredNames := by
  have lists : (parse? [] ⟨"a.ts"⟩ exportedEnum).map offeredNames = some [] := by decide +kernel
  have runs : (script? ⟨"a.ts"⟩ exportedEnum).map Script.runExports = some ["A"] := by decide +kernel
  obtain ⟨record, parsed, offered⟩ := Option.map_eq_some_iff.mp lists
  obtain ⟨script, reads, exported⟩ := Option.map_eq_some_iff.mp runs
  refine ⟨record, script, parsed, reads, ?_, ?_⟩
  · rw [exported]
    exact List.mem_singleton.mpr rfl
  · rw [offered]
    exact List.not_mem_nil

end ModuleRecord
end Realms
