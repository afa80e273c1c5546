import Realms.Proofs.Script.Lines
import Realms.Script.Print

/-!
Printing what generated code is made of, one lemma for each form: the text is the one that the form is written with,
with a line for each member of an object and for the body of a function.
-/
namespace Realms.Script

open Print (tabs separated)
open Realms.Text (isIdentifierName)

-- All proofs below go by the equations of the printer, so these are made here, once.
attribute [local simp] Print.expr Print.exprs Print.member Print.members Print.key Print.function Print.stmt Print.stmts

section Values

variable {level : Nat} {e : Expr} {text : List Char} {name : String}

theorem print_name (level : Nat) (name : String) : Print.expr level (.name name) = some name.toList := by
  rw [Print.expr]

theorem print_text (level : Nat) (value : String) : Print.expr level (.text value) = some (Print.quoted value) := by
  rw [Print.expr]

theorem print_member (plain : Print.isPlain e = true) (prints : Print.expr level e = some text) (name : String) :
    Print.expr level (.member e name) = some (text ++ '.' :: name.toList) := by
  rw [Print.expr, if_pos plain, prints]
  rfl

theorem print_exprs {values : List Expr} {texts : List (List Char)}
    (each : List.Forall₂ (fun value text => Print.expr level value = some text) values texts) :
    Print.exprs level values = some texts := by
  induction each with
  | nil => rw [Print.exprs]
  | cons prints _ ih =>
      rw [Print.exprs, prints, ih]
      rfl

theorem print_call (plain : Print.isPlain e = true) (prints : Print.expr level e = some text) {values : List Expr}
    {texts : List (List Char)} (each : List.Forall₂ (fun value text => Print.expr level value = some text) values texts) :
    Print.expr level (.call e values) = some (text ++ arguments texts) := by
  rw [Print.expr, if_pos plain, prints, print_exprs each]
  change some (text ++ '(' :: separated ", ".toList texts ++ [')']) = _
  simp only [arguments, List.append_assoc, List.cons_append, String.reduceToList]

/-- The value of a member is printed as it is written. -/
def Property.Prints (level : Nat) (property : Property) : Prop := Print.expr level property.value = some property.text

theorem Property.Prints.member {property : Property} (prints : property.Prints level) :
    Print.member level property.member = some property.written := by
  rw [Property.member, Print.member, Print.key, prints, Property.written]
  simp

theorem print_members {properties : List Property} (each : ∀ property ∈ properties, property.Prints level) :
    Print.members level (properties.map Property.member) = some (properties.map Property.written) := by
  induction properties with
  | nil => rw [List.map_nil, Print.members, List.map_nil]
  | cons property properties ih =>
      rw [List.map_cons, Print.members, (each property List.mem_cons_self).member,
        ih fun property member => each property (List.mem_cons_of_mem _ member)]
      rfl

theorem print_object_one {property : Property} (prints : property.Prints level) :
    Print.expr level (.object [property.member] false) = some (objectText [' '] [' '] [property]) := by
  rw [Print.expr, prints.member]
  change some ("\x7b ".toList ++ property.written ++ " \x7d".toList) = _
  simp only [objectText, List.map_cons, List.map_nil, separated, List.append_assoc, List.cons_append, List.nil_append,
    String.reduceToList]

theorem print_object {first second : Property} {properties : List Property}
    (each : ∀ property ∈ first :: second :: properties, property.Prints (level + 1)) :
    Print.expr level (.object ((first :: second :: properties).map Property.member) false) =
      some (objectText ('\n' :: tabs (level + 1)) ('\n' :: tabs level) (first :: second :: properties)) := by
  have members := print_members each
  simp only [List.map_cons] at members ⊢
  rw [Print.expr, members, objectText]
  · simp
  · simp
  · simp

theorem print_function {parameter : String} {result : List Char} (prints : Print.expr (level + 1) e = some result) :
    Print.expr level (.function (functionOf name parameter e)) =
      some (functionText ('\n' :: tabs (level + 1)) ('\n' :: tabs level) name parameter result) := by
  obtain ⟨inner, same⟩ : ∃ inner, inner = tabs (level + 1) ++ ("return ".toList ++ result ++ [';']) ++ ['\n'] :=
    ⟨_, rfl⟩
  have body : Print.stmts (level + 1) [.result (some e)] = some inner := by
    rw [Print.stmts, Print.stmts, Print.stmt, prints, same]
    rfl
  have filled : inner.isEmpty = false := by simp [same]
  have written : [Pattern.rest (.name parameter)].mapM Print.pattern = some ["...".toList ++ parameter.toList] := rfl
  have whole : Print.expr level (.function (functionOf name parameter e)) =
      some ("async function".toList ++ ' ' :: name.toList ++ '(' :: ("...".toList ++ parameter.toList) ++
        ") \x7b".toList ++ ('\n' :: inner ++ tabs level) ++ ['\x7d']) := by
    rw [functionOf, Print.expr, Print.function, body, written]
    simp only [Option.bind_eq_bind, Option.bind_some, filled, Bool.false_eq_true, if_false]
    rfl
  rw [whole, same]
  delta functionText
  simp only [List.append_assoc, List.cons_append, List.nil_append, String.reduceToList]

end Values

theorem print_importOf {imported bound specifier : String} (identifier : isIdentifierName imported.toList = true)
    (renamed : imported ≠ bound) (start : Nat) :
    Print.stmt 0 (importOf start imported bound specifier) =
      some (importText imported bound (Print.guardPage (Print.escapeChars specifier.toList))) := by
  have notSame : (imported == bound) = false := beq_eq_false_iff_ne.mpr renamed
  have pair : Print.importName ⟨imported, bound, false⟩ = some (imported.toList ++ " as ".toList ++ bound.toList) := by
    simp [Print.importName, notSame, Print.nameOrText, identifier]
  have clause : Print.importClause ⟨start, specifier, false, none, none, some [⟨imported, bound, false⟩]⟩ =
      some ["\x7b ".toList ++ (imported.toList ++ " as ".toList ++ bound.toList) ++ " \x7d".toList] := by
    simp only [Print.importClause, List.mapM_cons, List.mapM_nil, pair]
    rfl
  have whole : Print.stmt 0 (importOf start imported bound specifier) =
      some ("import ".toList ++ ("\x7b ".toList ++ (imported.toList ++ " as ".toList ++ bound.toList) ++
        " \x7d".toList ++ " from ".toList) ++ Print.quoted specifier ++ [';']) := by
    simp only [importOf, Print.stmt, Print.importFrom, clause]
    rfl
  rw [whole]
  delta importText
  simp only [Print.quoted, List.append_assoc, List.cons_append, List.nil_append, String.reduceToList]

theorem print_constant {name : String} {value : Expr} {text : List Char} (prints : Print.expr 0 value = some text)
    (start : Nat) : Print.stmt 0 (constant start name value) = some (constantText name text) := by
  have whole : Print.stmt 0 (constant start name value) =
      some ("export ".toList ++ ("const".toList ++ ' ' :: (name.toList ++ " = ".toList ++ text) ++ [';'])) := by
    simp only [constant, Print.stmt, Print.declaration, Print.bindings, Print.binding, Print.pattern, prints]
    rfl
  rw [whole]
  delta constantText
  simp only [List.append_assoc, List.cons_append, List.nil_append, String.reduceToList]

/-- How the printer writes a line. -/
inductive Line.Prints : Line → Line → Prop
  | taken {imported bound specifier : String} {written : List Char}
      (identifier : isIdentifierName imported.toList = true) (renamed : imported ≠ bound) :
      Prints (.taken imported bound specifier written)
        (.taken imported bound specifier (Print.guardPage (Print.escapeChars specifier.toList)))
  | constant {name : String} {written printed : List Char} {value : Expr} (prints : Print.expr 0 value = some printed) :
      Prints (.constant name written value) (.constant name printed value)

namespace Line.Prints

variable {line printed : Line}

theorem stmt (prints : line.Prints printed) (start : Nat) : Print.stmt 0 (line.stmt start) = some printed.text := by
  cases prints with
  | taken identifier renamed => exact print_importOf identifier renamed start
  | constant prints => exact print_constant prints start

theorem names (prints : line.Prints printed) : printed.names = line.names := by
  cases prints
  all_goals rfl

theorem all {lines texts : List Line} {found : List Stmt} (print : List.Forall₂ Line.Prints lines texts)
    (are : List.Forall₂ Line.Is lines found) : Print.stmts 0 found = some (lineTexts texts) := by
  induction print generalizing found with
  | nil =>
      cases are
      rfl
  | cons prints _ ih =>
      cases are with
      | cons is are =>
          obtain ⟨start, rfl⟩ := is
          simp [Print.stmts, Print.tabs, prints.stmt, ih are, lineTexts]

/-- No line that is printed is a directive. -/
theorem no_directives {lines texts : List Line} (print : List.Forall₂ Line.Prints lines texts) :
    Line.directives lines = [] ∧ Line.directives texts = [] := by
  cases print with
  | nil => exact ⟨rfl, rfl⟩
  | cons prints _ =>
      cases prints
      all_goals exact ⟨rfl, rfl⟩

theorem all_names {lines texts : List Line} (print : List.Forall₂ Line.Prints lines texts) :
    texts.flatMap Line.names = lines.flatMap Line.names := by
  induction print with
  | nil => rfl
  | cons prints _ ih => rw [List.flatMap_cons, List.flatMap_cons, prints.names, ih]

end Line.Prints

theorem mem_guardPage {c : Char} {cs : List Char} (member : c ∈ Print.guardPage cs) : c ∈ cs ∨ c = '\\' := by
  induction cs with
  | nil => cases member
  | cons first cs ih =>
      rw [Print.guardPage] at member
      split at member
      all_goals grind

theorem guardPage_oneLine {cs : List Char} (oneLine : ∀ c ∈ cs, isLineEnd c = false) :
    ∀ c ∈ Print.guardPage cs, isLineEnd c = false := by
  intro c member
  rcases mem_guardPage member with within | rfl
  · exact oneLine c within
  · rfl

end Realms.Script
