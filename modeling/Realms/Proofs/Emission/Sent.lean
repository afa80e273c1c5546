import Realms.Proofs.Emission.Registered
import Realms.Proofs.Script.Uses

/-!
What generated code does with the ids of functions, read back from the code itself: which ids the functions of a stub
send, and what the statements behind a module register.
-/
namespace Realms.Emission

open Script

/-- The id under which a function passes all its arguments on to the server. -/
def passedUnder? : Function → Option String
  | .mk _ _ _ [.rest (.name all)] _ [.result (some (.call (.name called) [.text id, .name passed]))] =>
    if called == callName && passed == all then some id else none
  | _ => none

/-- The name under which a statement exports such a function, whatever its properties, and the id. -/
def sent? : Stmt → Option (String × String)
  | .exportDeclared _ false (.bindings _
      [.mk (.name name) (some (.call (.member (.name "Object") "defineProperties") [.function value, _]))]) =>
    (passedUnder? value).map (name, ·)
  | _ => none

/-- The name of the export that a statement registers, and the id under which. -/
def registered? : Stmt → Option (String × String)
  | .expression (.call (.name called) [.text id, .member (.name whole) name]) =>
    if called == registerName && whole == selfName then some (name, id) else none
  | _ => none

/-- A script that takes the call from a transport and exports functions of these names that send these ids. Nothing else
in it uses the call. -/
structure Sends (script : Script) (transport : String) (pairs : List (String × String)) : Prop where
  taken : ∃ start, importOf start "callServer" callName transport ∈ script.body
  sent : script.body.filterMap sent? = pairs
  uses : script.body.flatMap (Stmt.usesOf callName) = pairs.map fun pair => some [.text pair.2, .name "args"]

/-- A script that registers exports of these names of a module under these ids, in a registry that it takes if there is
any. Nothing else in it uses the registration. -/
structure Registers (script : Script) (registry self : String) (pairs : List (String × String)) : Prop where
  taken : pairs ≠ [] → (∃ start, importOf start "registerServerFunction" registerName registry ∈ script.body) ∧
    ∃ start, importWholeOf start selfName self ∈ script.body
  registered : script.body.filterMap registered? = pairs
  uses : script.body.flatMap (Stmt.usesOf registerName) =
    pairs.map fun pair => some [.text pair.2, .member (.name selfName) pair.1]

/-- The names of functions with their ids. -/
def pairsOf (references : List Reference) : List (String × String) := references.map fun r => (r.exportName, r.id)

variable {options : EmissionOptions} {found : ModuleRecord} {references : List Reference} {stmts : List Stmt}

theorem sent?_stubLine (style : Style) (r : Reference) (start : Nat) :
    sent? ((style.stubLine r).stmt start) = some (r.exportName, r.id) := rfl

theorem stubLine_usesOf (style : Style) (r : Reference) :
    (style.stubLine r).usesOf callName = [some [.text r.id, .name "args"]] := rfl

theorem registered?_registrationLine (r : Reference) (start : Nat) :
    registered? ((registrationLine r).stmt start) = some (r.exportName, r.id) := rfl

theorem registrationLine_usesOf (r : Reference) : (registrationLine r).usesOf registerName =
    [some [.text r.id, .member (.name selfName) r.exportName]] := rfl

/-- What each statement of some lines gives, where a line gives it wherever it stands. -/
theorem filterMap_lines {α : Type} {ofStmt : Stmt → Option α} {line : Reference → Line} {ofReference : Reference → α}
    (gives : ∀ r start, ofStmt ((line r).stmt start) = some (ofReference r))
    (are : List.Forall₂ Line.Is (references.map line) stmts) :
    stmts.filterMap ofStmt = references.map ofReference := by
  induction references generalizing stmts with
  | nil =>
      cases are
      rfl
  | cons r references ih =>
      obtain ⟨_, rest, ⟨start, rfl⟩, later, rfl⟩ := List.forall₂_cons_left_iff.mp are
      rw [List.filterMap_cons, gives, ih later, List.map_cons]

/-- The lines of a stub, read back, send what the stub is made for. -/
theorem sends_of_lines (style : Style)
    (are : List.Forall₂ Line.Is (style.transportLine options :: references.map style.stubLine) stmts) :
    Sends ⟨[], stmts, []⟩ options.transportModule (pairsOf references) := by
  have uses := flatMap_lines (Line.stmt_usesOf callName) are
  rw [List.flatMap_cons, parts_map (stubLine_usesOf style)] at uses
  obtain ⟨_, rest, ⟨start, rfl⟩, later, rfl⟩ := List.forall₂_cons_left_iff.mp are
  have sent : rest.filterMap sent? = pairsOf references := filterMap_lines (sent?_stubLine style) later
  refine ⟨⟨start, List.mem_cons_self⟩, sent, uses.trans ?_⟩
  rw [pairsOf, List.map_map]
  rfl

/-- So do the lines behind a module of functions register what they are made for. -/
theorem registers_of_lines (are : List.Forall₂ Line.Is (registrationLines options found references) stmts) :
    Registers ⟨[], stmts, []⟩ options.registryModule ("./" ++ found.path.fileName) (pairsOf references) := by
  have uses := flatMap_lines (Line.stmt_usesOf registerName) are
  rw [registrationLines, List.flatMap_cons, List.flatMap_cons, parts_map registrationLine_usesOf] at uses
  obtain ⟨_, rest, ⟨start, rfl⟩, later, rfl⟩ := List.forall₂_cons_left_iff.mp are
  obtain ⟨_, last, ⟨own, rfl⟩, calls, rfl⟩ := List.forall₂_cons_left_iff.mp later
  have registered : last.filterMap registered? = pairsOf references :=
    filterMap_lines registered?_registrationLine calls
  refine ⟨fun _ => ⟨⟨start, List.mem_cons_self⟩, own, List.mem_cons_of_mem _ List.mem_cons_self⟩, registered,
    uses.trans ?_⟩
  rw [pairsOf, List.map_map]
  rfl

/-- A stub is printed as a script that sends each reference under its name. -/
theorem stubModule_sends (oneLine : ∀ c ∈ found.path.text.toList, isLineEnd c = false)
    (bindable : ∀ r ∈ references, IsBindable r.exportName) (nodup : (references.map Reference.exportName).Nodup)
    (options : EmissionOptions) (path : ModulePath) :
    ∃ printed script, printCode path (stubModule options found references) = .ok printed ∧
      ModuleRecord.script? path printed = some script ∧
        Sends script options.transportModule (pairsOf references) := by
  obtain ⟨printed, stmts, prints, kept, are, _⟩ := stubModule_lines oneLine bindable nodup options path
  exact ⟨printed, _, prints, kept, sends_of_lines .printed are⟩

/-- Behind the source of a module of functions stands code that registers each reference, and none at all if there is
nothing to register. -/
theorem serverFunctionModule_registers (bindable : ∀ r ∈ references, IsBindable r.exportName)
    (options : EmissionOptions) (path : ModulePath) :
    ∃ behind script, serverFunctionModule options found references = found.source ++ behind ∧
      ModuleRecord.script? path behind = some script ∧
        Registers script options.registryModule ("./" ++ found.path.fileName) (pairsOf references) := by
  cases references with
  | nil =>
      have spelled : (String.ofList (sourceEnd found.source.toList)).toList =
          sourceEnd found.source.toList ++ lineTexts [] := by simp [lineTexts]
      have front : (String.ofList (sourceEnd found.source.toList)).toList.head? ≠ some '#' := by
        rw [String.toList_ofList, sourceEnd]
        split <;> decide
      obtain ⟨stmts, kept, are, _⟩ :=
        ModuleRecord.parse?_lines path spelled (sourceEnd_space _) front (List.forall_mem_nil _) .nil rfl
      cases are
      refine ⟨_, _, ?_, kept, ⟨absurd rfl, rfl, rfl⟩⟩
      rw [serverFunctionModule, serverFunctionText, endedSource_eq, ← String.toList_inj]
      simp
  | cons r references =>
      have spelled : (String.ofList (registrations options found (r :: references))).toList =
          sourceEnd found.source.toList ++ lineTexts (registrationLines options found (r :: references)) :=
        String.toList_ofList
      have front : (String.ofList (registrations options found (r :: references))).toList.head? ≠ some '#' := by
        have imports : some 'i' ≠ some '#' := by decide
        have lineEnd : some '\n' ≠ some '#' := by decide
        rw [spelled, sourceEnd]
        split
        · exact imports
        · exact lineEnd
      obtain ⟨stmts, kept, are, _⟩ := ModuleRecord.parse?_lines path spelled (sourceEnd_space _) front
        (registrationLines_read bindable) (by rw [registrationLines_names]; exact .nil) rfl
      refine ⟨_, _, ?_, kept, registers_of_lines are⟩
      rw [← String.toList_inj, serverFunctionModule_eq (List.cons_ne_nil r references)]
      simp

end Realms.Emission
