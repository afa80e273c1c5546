import Realms.Emission.Code
import Realms.Proofs.Emission.Reprinted

/-!
The code of what replaces a module, in the style that it is generated in and in the style that it is printed in. In both
an id, a mark or a specifier stays within its quotes, so the same values are read from it.
-/
namespace Realms.Emission

open Script

/-- How code is laid out: what stands between the quotes of a text, in front of the members of an object and the
statements of a function, and behind the last of them. -/
structure Style where
  written : String → List Char
  gap : List Char
  last : List Char
  quotes : ∀ value, Quotes (written value) value
  gaps : IsLayout gap
  ends : IsLayout last

namespace Style

def generated : Style where
  written value := value.toList.flatMap Json.escapeChar
  gap := [' ']
  last := [' ']
  quotes := quotes_json
  gaps := .blank
  ends := .blank

def printed : Style where
  written value := Print.guardPage (Print.escapeChars value.toList)
  gap := ['\n', '\t']
  last := ['\n']
  quotes := Print.quotes_printed
  gaps := by simp [IsLayout]
  ends := by simp [IsLayout]

variable (style : Style)

def text (value : String) : List Char := '"' :: style.written value ++ ['"']

theorem writes_text (value : String) : Writes (style.text value) (.text value) := Script.writes_text (style.quotes value)

theorem generated_text (value : String) : generated.text value = (Json.quoted value).toList := by
  simp [text, generated, Json.quoted, Json.textChars]

def symbol (mark : String) : List Char := "Symbol".toList ++ '.' :: "for".toList ++ arguments [style.text mark]

end Style

def symbolValue (mark : String) : Expr := .call (.member (.name "Symbol") "for") [.text mark]

theorem Style.writes_symbol (style : Style) (mark : String) : Writes (style.symbol mark) (symbolValue mark) := by
  have symbol : IsOrdinary "Symbol" := by decide
  exact writes_call (writes_member (writes_name symbol) (by decide)) (List.cons_ne_nil _ _)
    (.cons (style.writes_text mark) .nil)

def objectCall (name : String) (texts : List (List Char)) : List Char :=
  "Object".toList ++ '.' :: name.toList ++ arguments texts

theorem writes_objectCall {name : String} (identifier : Text.isIdentifierName name.toList = true)
    {texts : List (List Char)} {values : List Expr} (nonempty : texts ≠ []) (each : List.Forall₂ Writes texts values) :
    Writes (objectCall name texts) (.call (.member (.name "Object") name) values) := by
  have object : IsOrdinary "Object" := by decide
  exact writes_call (writes_member (writes_name object) identifier) nonempty each

namespace Style

variable (style : Style)

def referenceProperties (id : String) : List Property :=
  [⟨"$$typeof", style.symbol Reference.clientMark, symbolValue Reference.clientMark⟩,
    ⟨"$$id", style.text id, .text id⟩, ⟨"$$realm", style.text "client", .text "client"⟩]

/-- What stands for an export of a client module. -/
def reference (id : String) : List Char :=
  objectCall "freeze" [objectText style.gap style.last (style.referenceProperties id)]

end Style

def referenceValue (id : String) : Expr :=
  .call (.member (.name "Object") "freeze")
    [.object [.entry (.name "$$typeof") (symbolValue Reference.clientMark), .entry (.name "$$id") (.text id),
      .entry (.name "$$realm") (.text "client")] false]

theorem Style.writes_reference (style : Style) (id : String) : Writes (style.reference id) (referenceValue id) := by
  have typeKey : IsOrdinary "$$typeof" := by decide
  have idKey : IsOrdinary "$$id" := by decide
  have realmKey : IsOrdinary "$$realm" := by decide
  have properties : ∀ property ∈ style.referenceProperties id, property.Reads := by
    simp only [referenceProperties, List.forall_mem_cons, List.not_mem_nil, false_implies, implies_true, and_true]
    exact ⟨⟨typeKey, style.writes_symbol _⟩, ⟨idKey, style.writes_text id⟩, ⟨realmKey, style.writes_text _⟩⟩
  have some : style.referenceProperties id ≠ [] := List.cons_ne_nil _ _
  have object := writes_object style.gaps style.ends some properties
  exact writes_objectCall (by decide) (List.cons_ne_nil _ _) (.cons object .nil)

theorem print_symbol (level : Nat) (mark : String) :
    Print.expr level (symbolValue mark) = some (Style.printed.symbol mark) :=
  print_call rfl (print_member rfl (print_name level "Symbol") "for") (.cons (print_text level mark) .nil)

theorem print_objectCall {name : String} {values : List Expr} {texts : List (List Char)}
    (each : List.Forall₂ (fun value text => Print.expr 0 value = some text) values texts) :
    Print.expr 0 (.call (.member (.name "Object") name) values) = some (objectCall name texts) :=
  print_call rfl (print_member rfl (print_name 0 "Object") name) each

theorem print_reference (id : String) : Print.expr 0 (referenceValue id) = some (Style.printed.reference id) := by
  have properties : ∀ property ∈ Style.printed.referenceProperties id, property.Prints 1 := by
    simp only [Style.referenceProperties, List.forall_mem_cons, List.not_mem_nil, false_implies, implies_true, and_true]
    exact ⟨print_symbol 1 _, print_text 1 id, print_text 1 _⟩
  exact print_objectCall (.cons (print_object properties) .nil)

/-- A member of one value, which stands on one line in every style. -/
def described (key : String) (text : List Char) (value : Expr) : Property :=
  ⟨key, objectText [' '] [' '] [⟨"value", text, value⟩], .object [.entry (.name "value") value] false⟩

theorem reads_described {key : String} (ordinary : IsOrdinary key) {text : List Char} {value : Expr}
    (writes : Writes text value) : (described key text value).Reads := by
  have valueKey : IsOrdinary "value" := by decide
  have member : ∀ property ∈ [Property.mk "value" text value], property.Reads :=
    List.forall_mem_singleton.mpr ⟨valueKey, writes⟩
  exact ⟨ordinary, writes_object .blank .blank (List.cons_ne_nil _ _) member⟩

namespace Style

variable (style : Style)

def stubProperties (id : String) : List Property :=
  [described "$$typeof" (style.symbol Reference.serverMark) (symbolValue Reference.serverMark),
    described "$$id" (style.text id) (.text id),
    described "$$realm" (style.text "serverFunction") (.text "serverFunction")]

def stubCall (id : String) : List Char := callName.toList ++ arguments [style.text id, "args".toList]

/-- What stands for an export of a module of functions. -/
def stub (name id : String) : List Char :=
  objectCall "defineProperties" [functionText style.gap style.last name "args" (style.stubCall id),
    objectText style.gap style.last (style.stubProperties id)]

end Style

def stubCallValue (id : String) : Expr := .call (.name callName) [.text id, .name "args"]

def stubValue (name id : String) : Expr :=
  .call (.member (.name "Object") "defineProperties")
    [.function (functionOf name "args" (stubCallValue id)),
      .object [.entry (.name "$$typeof") (.object [.entry (.name "value") (symbolValue Reference.serverMark)] false),
        .entry (.name "$$id") (.object [.entry (.name "value") (.text id)] false),
        .entry (.name "$$realm") (.object [.entry (.name "value") (.text "serverFunction")] false)] false]

theorem Style.writes_stub (style : Style) {name : String} (bindable : IsBindable name) (id : String) :
    Writes (style.stub name id) (stubValue name id) := by
  have called : IsOrdinary callName := by decide
  have args : IsOrdinary "args" := by decide
  have call : Writes (style.stubCall id) (stubCallValue id) :=
    writes_call (writes_name called) (List.cons_ne_nil _ _)
      (.cons (style.writes_text id) (.cons (writes_name args) .nil))
  have function := writes_function style.gaps style.ends bindable (show IsBindable "args" by decide) call
  have typeKey : IsOrdinary "$$typeof" := by decide
  have idKey : IsOrdinary "$$id" := by decide
  have realmKey : IsOrdinary "$$realm" := by decide
  have properties : ∀ property ∈ style.stubProperties id, property.Reads := by
    simp only [stubProperties, List.forall_mem_cons, List.not_mem_nil, false_implies, implies_true, and_true]
    exact ⟨reads_described typeKey (style.writes_symbol _), reads_described idKey (style.writes_text id),
      reads_described realmKey (style.writes_text _)⟩
  have some : style.stubProperties id ≠ [] := List.cons_ne_nil _ _
  have object := writes_object style.gaps style.ends some properties
  exact writes_objectCall (by decide) (List.cons_ne_nil _ _) (.cons function (.cons object .nil))

theorem prints_described {key : String} {text : List Char} {value : Expr} {level : Nat}
    (prints : Print.expr level value = some text) : (described key text value).Prints level :=
  have member : Property.Prints level ⟨"value", text, value⟩ := prints
  print_object_one member

theorem print_stub (name id : String) : Print.expr 0 (stubValue name id) = some (Style.printed.stub name id) := by
  have call : Print.expr 1 (stubCallValue id) = some (Style.printed.stubCall id) :=
    print_call rfl (print_name 1 callName) (.cons (print_text 1 id) (.cons (print_name 1 "args") .nil))
  have properties : ∀ property ∈ Style.printed.stubProperties id, property.Prints 1 := by
    simp only [Style.stubProperties, List.forall_mem_cons, List.not_mem_nil, false_implies, implies_true, and_true]
    exact ⟨prints_described (print_symbol 1 _), prints_described (print_text 1 id), prints_described (print_text 1 _)⟩
  exact print_objectCall (.cons (print_function call) (.cons (print_object properties) .nil))

namespace Style

variable (style : Style)

def referenceLine (r : Reference) : Line := .constant r.exportName (style.reference r.id) (referenceValue r.id)

def stubLine (r : Reference) : Line :=
  .constant r.exportName (style.stub r.exportName r.id) (stubValue r.exportName r.id)

def transportLine (options : EmissionOptions) : Line :=
  .taken "callServer" callName options.transportModule (style.written options.transportModule)

end Style

theorem clientReferenceLine_eq (r : Reference) : clientReferenceLine r =
    (Style.generated.referenceLine r).text ++ ['\n'] := by
  have realm : Json.quoted "client" = "\"client\"" := rfl
  have gap : Style.generated.gap = [' '] := rfl
  have last : Style.generated.last = [' '] := rfl
  rw [Style.referenceLine, Line.text]
  delta clientReferenceLine constantText Style.reference Style.referenceProperties
  delta objectCall Style.symbol
  simp only [charsOf, arguments, Print.separated, objectText, Property.written, Style.generated_text,
    realm, gap, last, List.flatMap_cons, List.flatMap_nil, List.map_cons, List.map_nil, List.append_assoc,
    List.cons_append, List.nil_append, String.reduceToList]

-- The line has some three hundred characters, one behind the other.
set_option maxRecDepth 1024 in
theorem stubLine_eq (r : Reference) : Emission.stubLine r =
    (Style.generated.stubLine r).text ++ ['\n'] := by
  have realm : Json.quoted "serverFunction" = "\"serverFunction\"" := rfl
  have gap : Style.generated.gap = [' '] := rfl
  have last : Style.generated.last = [' '] := rfl
  rw [Style.stubLine, Line.text]
  delta Emission.stubLine constantText Style.stub Style.stubProperties
  delta objectCall functionText Style.stubCall Style.symbol
  simp only [charsOf, described, arguments, Print.separated, objectText, Property.written, Style.generated_text, realm, gap,
    last, List.flatMap_cons, List.flatMap_nil, List.map_cons, List.map_nil, List.append_assoc, List.cons_append,
    List.nil_append, String.reduceToList]

theorem transportLine_eq (options : EmissionOptions) :
    charsOf ["import \x7b callServer as ", callName, " \x7d from ", Json.quoted options.transportModule, ";\n"] =
      (Style.generated.transportLine options).text ++ ['\n'] := by
  have specifier : Json.quoted options.transportModule =
      String.ofList ('"' :: Style.generated.written options.transportModule ++ ['"']) := rfl
  rw [Style.transportLine, Line.text, specifier]
  delta importText
  simp only [charsOf, List.flatMap_cons, List.flatMap_nil, String.toList_ofList, List.append_assoc, List.cons_append,
    List.nil_append, String.reduceToList]

theorem lineTexts_map {line : Reference → Line} {written : Reference → List Char}
    (each : ∀ r, written r = (line r).text ++ ['\n']) (references : List Reference) :
    references.flatMap written = lineTexts (references.map line) := by
  rw [lineTexts, List.flatMap_map, funext each]

theorem clientReferenceText_eq (found : ModuleRecord) (references : List Reference) :
    clientReferenceText found references = commentLine (" client references for ".toList ++ found.path.text.toList) ++
      lineTexts (references.map Style.generated.referenceLine) := by
  rw [clientReferenceText, lineTexts_map clientReferenceLine_eq]
  simp only [charsOf, commentLine, List.flatMap_cons, List.flatMap_nil, List.append_assoc, List.cons_append,
    List.nil_append, String.reduceToList]

theorem stubText_eq (options : EmissionOptions) (found : ModuleRecord) (references : List Reference) :
    stubText options found references = commentLine (" server function stubs for ".toList ++ found.path.text.toList) ++
      lineTexts (Style.generated.transportLine options :: references.map Style.generated.stubLine) := by
  rw [lineTexts, List.flatMap_cons, ← transportLine_eq, ← lineTexts, stubText, lineTexts_map stubLine_eq]
  simp only [charsOf, commentLine, List.flatMap_cons, List.flatMap_nil, List.append_assoc, List.cons_append,
    List.nil_append, String.reduceToList]

end Realms.Emission
