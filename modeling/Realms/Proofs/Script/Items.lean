import Realms.Proofs.Script.Functions

/-!
The statements of generated modules read back: imports of one name or of a whole module, constants that are exported,
and calls and texts that stand for themselves.
-/
namespace Realms.Script

open Grammar Reading
open Realms.Text (isIdentifierName)

variable {p : Inner} {n : Nat} {s : Setting} {r : Reader} {text rest behind : List Char} {e : Expr} {name : String}

/-- A word between two spaces. -/
theorem starts_spaced (identifier : isIdentifierName name.toList = true) (rest : List Char) :
    Starts (' ' :: (name.toList ++ ' ' :: rest)) (.word name false) (' ' :: rest) :=
  (starts_name identifier rfl).after .blank

/-- An exported constant. -/
def constantText (name : String) (value : List Char) : List Char :=
  "export".toList ++ ' ' :: ("const".toList ++ ' ' :: (name.toList ++ ' ' :: '=' :: ' ' :: (value ++ [';'])))

def constant (start : Nat) (name : String) (e : Expr) : Stmt :=
  .exportDeclared start false (.bindings .const [.mk (.name name) (some e)])

theorem variableItem_run {named equals : List Char} (starts : Starts named (.word name false) equals)
    (bindable : IsBindable name) (equal : Starts equals (.mark "=") (' ' :: (text ++ ';' :: rest)))
    (writes : Writes text e) (real : s.ambient = false) (deep : 4 * text.length + 4 ≤ n) :
    variableItem ⟨n, readAt n⟩ .const false s (r.goTo named) =
      some (.mk (.name name) (some e), r.goTo (';' :: rest)) := by
  have pattern := pattern_name (n := n) (s := s) (r := r) starts bindable (by omega)
  have plain : Inner.annotation ⟨n, readAt n⟩ s (r.goTo equals) = some ((), r.goTo equals) :=
    annotation_other equal (by decide)
  have notOptional : eatMark "?" s (r.goTo equals) = some (false, r.goTo equals) := equal.eatMark_other (by decide)
  have closes : Closes (';' :: rest) := closes_mark (by decide) rest
  have value := writes.read (r := r) Space.blank closes real deep
  rw [List.singleton_append] at value
  cases types : s.types with
  | false => simp [variableItem, pattern, types, equal.eatMark, value]
  | true => simp [variableItem, pattern, types, equal.lexeme_goTo, notOptional, plain, equal.eatMark, value]

theorem declaration_run {before named equals : List Char} (word : Starts before (.word "const" false) named)
    (starts : Starts named (.word name false) equals) (bindable : IsBindable name)
    (equal : Starts equals (.mark "=") (' ' :: (text ++ ';' :: rest))) (writes : Writes text e)
    (real : s.ambient = false) (deep : 4 * text.length + 4 ≤ n) :
    declaration ⟨n, readAt n⟩ s (r.goTo before) =
      some (.bindings .const [.mk (.name name) (some e)], r.goTo rest) := by
  have item := variableItem_run (s := s) (r := r) starts bindable equal writes real deep
  have closing : Starts (';' :: rest) (.mark ";") rest := starts_mark (by decide) rest
  obtain ⟨m, rfl⟩ := Nat.exists_eq_add_of_le' (show 1 ≤ n by omega)
  have notComma : eatMark "," s (r.goTo (';' :: rest)) = some (false, r.goTo (';' :: rest)) :=
    closing.eatMark_other (by decide)
  have alone : repeatWhile (eatMark ",") (variableItem ⟨m + 1, readAt (m + 1)⟩ .const false) (m + 1) s
      (r.goTo (';' :: rest)) = some ([], r.goTo (';' :: rest)) := repeatWhile_nil m notComma
  have items : variableItems ⟨m + 1, readAt (m + 1)⟩ .const false s (r.goTo named) =
      some (.bindings .const [.mk (.name name) (some e)], r.goTo (';' :: rest)) := by
    simp [variableItems, item, alone]
  have notEnum : Lexeme.isWord (.word name false) "enum" = false := by
    refine beq_eq_false_iff_ne.mpr ?_
    rintro rfl
    exact bindable.notReserved (by decide)
  have all : declaration.declareAll ⟨m + 1, readAt (m + 1)⟩ .const s (r.goTo before) =
      some (.bindings .const [.mk (.name name) (some e)], r.goTo rest) := by
    simp [declaration.declareAll, languageWord, word.lexeme_goTo, word.advance, items, endStatement_semicolon closing]
  simp [declaration, word.lexeme_goTo, word.advance, starts.lexeme_goTo, notEnum, all]

/-- The reader after the name of an export. -/
def Reader.exporting (r : Reader) (types : Bool) (name : String) : Reader :=
  { r with exported := name :: r.exported, flawed := r.flawed || (!types && r.exported.contains name) }

theorem leadsDeclaration_const (word : Starts text (.word "const" false) rest) :
    leadsDeclaration s (r.goTo text) = some (false, r.goTo text) := by
  have notLeading : "const" ∉ declarationWords := by decide
  simp [leadsDeclaration, word.lexeme_goTo, notLeading]

theorem exportTyped_const {start : Nat} (word : Starts text (.word "const" false) rest) :
    exportTyped p start s (r.goTo text) = some (none, r.goTo text) := by
  have other (marked : String) (different : "const" ≠ marked) : takeWord marked s (r.goTo text) = none := by
    refine takeWord_other ?_
    rw [word.lexeme_goTo]
    exact beq_eq_false_iff_ne.mpr different
  have notImport : Lexeme.isWord (.word "const" false) "import" = false := by decide
  cases types : s.types with
  | false => simp [exportTyped, types]
  | true =>
      simp [exportTyped, types, word.eatMark_other, other "as" (by decide), word.lexeme_goTo, notImport,
        other "type" (by decide)]

theorem wordedDeclaration_run {before named equals : List Char} (word : Starts before (.word "const" false) named)
    (starts : Starts named (.word name false) equals) (bindable : IsBindable name)
    (equal : Starts equals (.mark "=") (' ' :: (text ++ ';' :: rest))) (writes : Writes text e)
    (real : s.ambient = false) (deep : 4 * text.length + 4 ≤ n) :
    wordedDeclaration ⟨n, readAt n⟩ s (r.goTo before) =
      some ((false, .bindings .const [.mk (.name name) (some e)]), r.goTo rest) := by
  have found := declaration_run (s := s) (r := r) word starts bindable equal writes real deep
  obtain ⟨m, rfl⟩ := Nat.exists_eq_add_of_le' (show 1 ≤ n by omega)
  have noWords : repeatWhile leadsDeclaration languageWord (m + 1) s (r.goTo before) = some ([], r.goTo before) :=
    repeatWhile_nil m (leadsDeclaration_const word)
  have notClass : Lexeme.isWord (.word "const" false) "class" = false := by decide
  rcases s with ⟨size, types, inOperator, yields, awaits, returns, decorator, ambient, conditionalTypes⟩
  cases types with
  | false => simp [wordedDeclaration, word.lexeme_goTo, notClass, found]
  | true => simp [wordedDeclaration, noWords, word.lexeme_goTo, notClass, found]

theorem exportStatement_run {before named equals after : List Char}
    (exports : Starts before (.word "export" false) text) (word : Starts text (.word "const" false) named)
    (starts : Starts named (.word name false) equals) (bindable : IsBindable name)
    (equal : Starts equals (.mark "=") (' ' :: (after ++ ';' :: rest))) (writes : Writes after e)
    (real : s.ambient = false) (deep : 4 * after.length + 4 ≤ n) :
    exportStatement ⟨n, readAt n⟩ false s (r.goTo before) =
      some (constant (s.placeOf before) name e, (r.exporting s.types name).goTo rest) := by
  have worded := wordedDeclaration_run (s := s) (r := r) word starts bindable equal writes real deep
  obtain ⟨m, rfl⟩ := Nat.exists_eq_add_of_le' (show 1 ≤ n by omega)
  have noDecorators : decorators ⟨m + 1, readAt (m + 1)⟩ s (r.goTo text) = some (false, r.goTo text) := by
    simp [decorators, repeatWhile, word.eatMark_other]
  have noWords : repeatWhile leadsDeclaration advance (m + 1) s (r.goTo text) = some ([], r.goTo text) :=
    repeatWhile_nil m (leadsDeclaration_const word)
  have notClass : Lexeme.isWord (.word "const" false) "class" = false := by decide
  have notDefault : Lexeme.isWord (.word "const" false) "default" = false := by decide
  have names : (Declaration.bindings .const [.mk (.name name) (some e)]).valueNames = [name] := by
    simp [Declaration.valueNames, Variable.names, Pattern.names]
  have noted : [name].mapM noteExport s (r.goTo rest) = some ([()], (r.exporting s.types name).goTo rest) := rfl
  have here : place s (r.goTo before) = some (s.placeOf before, r.goTo before) := rfl
  simp [exportStatement, here, exports.takeWord, exportTyped_const word, word.lexeme_goTo, notDefault, noDecorators,
    noWords, notClass, exportDeclared, worded, names, noted, constant]

theorem constant_reads (bindable : IsBindable name) (writes : Writes text e) {space : List Char} (skips : Space space)
    (real : s.ambient = false) (deep : 4 * (constantText name text).length ≤ n) (rest : List Char) :
    readAt n (.statement false) s (r.goTo (space ++ (constantText name text ++ rest))) =
      some (constant (s.placeOf (space ++ (constantText name text ++ rest))) name e,
        (r.exporting s.types name).goTo rest) := by
  have size : text.length + 8 ≤ (constantText name text).length := by
    have word : "export".toList.length = 6 := rfl
    delta constantText
    simp only [List.length_append, List.length_cons, word]
    omega
  obtain ⟨n, rfl⟩ := Nat.exists_eq_add_of_le' (show 1 ≤ n by omega)
  have exports : Starts (space ++ (constantText name text ++ rest)) (.word "export" false)
      (' ' :: ("const".toList ++ ' ' :: (name.toList ++ ' ' :: '=' :: ' ' :: (text ++ ';' :: rest)))) := by
    have spread : constantText name text ++ rest = "export".toList ++
        ' ' :: ("const".toList ++ ' ' :: (name.toList ++ ' ' :: '=' :: ' ' :: (text ++ ';' :: rest))) := by
      delta constantText
      simp only [List.append_assoc, List.cons_append, List.nil_append]
    rw [spread]
    exact .after skips (starts_name (by decide) rfl)
  have const : Starts (' ' :: ("const".toList ++ ' ' :: (name.toList ++ ' ' :: '=' :: ' ' :: (text ++ ';' :: rest))))
      (.word "const" false) (' ' :: (name.toList ++ ' ' :: '=' :: ' ' :: (text ++ ';' :: rest))) :=
    starts_spaced (by decide) _
  have starts := starts_spaced bindable.identifier ('=' :: ' ' :: (text ++ ';' :: rest))
  have equal := (starts_equals (text ++ ';' :: rest)).after .blank
  have found := exportStatement_run (n := n) (r := r) exports const starts bindable equal writes real (by omega)
  generalize space ++ (constantText name text ++ rest) = text at exports found ⊢
  have statement : statement ⟨n, readAt n⟩ false s (r.goTo text) =
      some (constant (s.placeOf text) name e, (r.exporting s.types name).goTo rest) := by
    simp [statement, exports.lexeme_goTo, wordStatement, found]
  exact statement

/-- An import of one name of a module, under another name. -/
def importText (imported bound : String) (written : List Char) : List Char :=
  "import".toList ++ ' ' :: '\x7b' :: ' ' :: (imported.toList ++ ' ' :: ("as".toList ++ ' ' :: (bound.toList ++
    ' ' :: '\x7d' :: ' ' :: ("from".toList ++ ' ' :: '"' :: (written ++ '"' :: [';'])))))

def importOf (start : Nat) (imported bound specifier : String) : Stmt :=
  .importFrom ⟨start, specifier, false, none, none, some [⟨imported, bound, false⟩]⟩

variable {imported bound specifier : String} {written : List Char}

theorem outerName_word (starts : Starts text (.word name false) rest) :
    outerName s (r.goTo text) = some (⟨name, false, !reservedWords.contains name⟩, r.goTo rest) := by
  simp [outerName, starts.lexeme_goTo, starts.skipName]

theorem importName_run {before others names : List Char} (first : Starts before (.word imported false) others)
    (notType : imported ≠ "type") (as : Starts others (.word "as" false) names)
    (second : Starts names (.word bound false) rest) (bindable : IsBindable bound) :
    importName false s (r.goTo before) = some (⟨imported, bound, false⟩, r.goTo rest) := by
  have isAs : eatWord "as" s (r.goTo others) = some (true, r.goTo names) := by
    simp [eatWord, as.lexeme_goTo, as.takeWord, Lexeme.isWord]
  have pair : namePair s (r.goTo before) = some (⟨false, ⟨imported, false, !reservedWords.contains imported⟩,
      some ⟨bound, false, !reservedWords.contains bound⟩⟩, r.goTo rest) := by
    simp [namePair, outerName_word first, outerName_word second, notType, renamed, isAs]
  have awaits : (bound == "await") = false := beq_eq_false_iff_ne.mpr bindable.notAwait
  have yields : (bound == "yield") = false := beq_eq_false_iff_ne.mpr bindable.notYield
  simp [importName, pair, bindable.notReserved, checkName, awaits, yields]

theorem importedModule_run {before : List Char} (named : Starts before (.text specifier true) text)
    (closing : Starts text (.mark ";") rest) :
    importedModule p s (r.goTo before) = some (specifier, r.goTo rest) := by
  have literal : textLiteral s (r.goTo before) = some (specifier, r.goTo text) := by
    simp [textLiteral, named.lexeme_goTo, named.advance]
  have plain : importAttributes p s (r.goTo text) = some ((), r.goTo text) := by
    simp [importAttributes, closing.lexeme_goTo, Lexeme.isWord]
  simp [importedModule, literal, plain, endStatement_semicolon closing]

/-- The clause of an import: braces with one name between them. -/
theorem importClause_run {before first others names behind : List Char} (opening : Starts before (.mark "\x7b") first)
    (named : Starts first (.word imported false) others) (notType : imported ≠ "type")
    (as : Starts others (.word "as" false) names) (second : Starts names (.word bound false) rest)
    (bindable : IsBindable bound) (closing : Starts rest (.mark "\x7d") behind) (deep : 1 ≤ n) :
    importClause ⟨n, readAt n⟩ false none s (r.goTo before) =
      some ((none, some [⟨imported, bound, false⟩]), r.goTo behind) := by
  have item := importName_run (s := s) (r := r) named notType as second bindable
  have list : separated "\x7d" (importName false) n s (r.goTo first) =
      some (([⟨imported, bound, false⟩], false), r.goTo rest) := by
    obtain ⟨n, rfl⟩ := Nat.exists_eq_add_of_le' deep
    simp [separated, named.lexeme_goTo, item, closing.lexeme_goTo]
  simp [importClause, opening.eatMark_other, opening.takeMark, list, closing.takeMark]

/-- The statement of an import, by what its clause gives. -/
theorem importStatement_reads {clause first source named last : List Char} {mark : String} {whole : Option String}
    {names : Option (List ImportName)} (imports : Starts text (.word "import" false) clause)
    (opening : Starts clause (.mark mark) first) (noCall : mark ∉ ["(", "."])
    (found : importClause ⟨n, readAt n⟩ false none s (r.goTo clause) = some ((whole, names), r.goTo source))
    (from' : Starts source (.word "from" false) named) (quoted : Starts named (.text specifier true) last)
    (ends : Starts last (.mark ";") rest) : readAt (n + 1) (.statement false) s (r.goTo text) =
      some (.importFrom ⟨s.placeOf text, specifier, false, none, whole, names⟩, r.goTo rest) := by
  have module : importedModule ⟨n, readAt n⟩ s (r.goTo named) = some (specifier, r.goTo rest) :=
    importedModule_run quoted ends
  have here : place s (r.goTo text) = some (s.placeOf text, r.goTo text) := rfl
  have tail (start : Nat) : importTail ⟨n, readAt n⟩ start s (r.goTo clause) =
      some (.importFrom ⟨start, specifier, false, none, whole, names⟩, r.goTo rest) := by
    simp [importTail, opening.lexeme_goTo, optionalBindingName, Lexeme.isBindingWord, importTail.imported, found,
      from'.takeWord, module]
  have isStatic : (Lexeme.mark mark).isOneOf ["(", "."] = false := by simpa [Lexeme.isOneOf] using noCall
  have statement : statement ⟨n, readAt n⟩ false s (r.goTo text) =
      some (.importFrom ⟨s.placeOf text, specifier, false, none, whole, names⟩, r.goTo rest) := by
    simp [statement, imports.lexeme_goTo, wordStatement, imports.advance, opening.lexeme_goTo, isStatic,
      importStatement, here, imports.takeWord, tail]
  exact statement

theorem importText_lexemes (identifier : isIdentifierName imported.toList = true) (bindable : IsBindable bound)
    (quotes : Quotes written specifier) {space : List Char} (skips : Space space) (rest : List Char) :
    ∃ clause first others names closing source named last,
      Starts (space ++ (importText imported bound written ++ rest)) (.word "import" false) clause ∧
        Starts clause (.mark "\x7b") first ∧ Starts first (.word imported false) others ∧
        Starts others (.word "as" false) names ∧ Starts names (.word bound false) closing ∧
        Starts closing (.mark "\x7d") source ∧ Starts source (.word "from" false) named ∧
        Starts named (.text specifier true) last ∧ Starts last (.mark ";") rest := by
  have spread : importText imported bound written ++ rest = "import".toList ++ ' ' :: '\x7b' :: ' ' ::
      (imported.toList ++ ' ' :: ("as".toList ++ ' ' :: (bound.toList ++ ' ' :: '\x7d' :: ' ' ::
        ("from".toList ++ ' ' :: ('"' :: written ++ '"' :: ';' :: rest))))) := by
    delta importText
    simp only [List.append_assoc, List.cons_append, List.nil_append]
  rw [spread]
  exact ⟨_, _, _, _, _, _, _, _, .after skips (starts_name (by decide) rfl), (starts_mark (by decide) _).after .blank,
    starts_spaced identifier _, starts_spaced (by decide) _, starts_spaced bindable.identifier _,
    (starts_mark (by decide) _).after .blank, starts_spaced (by decide) _, (starts_text quotes _).after .blank,
    starts_mark (by decide) _⟩

theorem import_reads (identifier : isIdentifierName imported.toList = true) (notType : imported ≠ "type")
    (bindable : IsBindable bound) (quotes : Quotes written specifier) {space : List Char} (skips : Space space)
    (deep : 2 ≤ n) (rest : List Char) :
    readAt n (.statement false) s (r.goTo (space ++ (importText imported bound written ++ rest))) =
      some (importOf (s.placeOf (space ++ (importText imported bound written ++ rest))) imported bound specifier,
        r.goTo rest) := by
  obtain ⟨n, rfl⟩ := Nat.exists_eq_add_of_le' (show 1 ≤ n by omega)
  obtain ⟨clause, first, others, names, closing, source, named, last, imports, opening, outer, as, inner, closes, from',
    quoted, ends⟩ := importText_lexemes identifier bindable quotes skips rest
  generalize space ++ (importText imported bound written ++ rest) = text at imports ⊢
  have found := importClause_run (n := n) (s := s) (r := r) opening outer notType as inner bindable closes (by omega)
  exact importStatement_reads imports opening (by decide) found from' quoted ends

/-- An import of all of a module, under one name. -/
def importWholeText (bound : String) (written : List Char) : List Char :=
  "import".toList ++ ' ' :: '*' :: ' ' :: ("as".toList ++ ' ' :: (bound.toList ++ ' ' :: ("from".toList ++ ' ' ::
    '"' :: (written ++ '"' :: [';']))))

def importWholeOf (start : Nat) (bound specifier : String) : Stmt :=
  .importFrom ⟨start, specifier, false, none, some bound, none⟩

theorem importWholeText_lexemes (bindable : IsBindable bound) (quotes : Quotes written specifier) {space : List Char}
    (skips : Space space) (rest : List Char) :
    ∃ clause others names source named last,
      Starts (space ++ (importWholeText bound written ++ rest)) (.word "import" false) clause ∧
        Starts clause (.mark "*") others ∧ Starts others (.word "as" false) names ∧
        Starts names (.word bound false) source ∧ Starts source (.word "from" false) named ∧
        Starts named (.text specifier true) last ∧ Starts last (.mark ";") rest := by
  have spread : importWholeText bound written ++ rest = "import".toList ++ ' ' :: '*' :: ' ' :: ("as".toList ++ ' ' ::
      (bound.toList ++ ' ' :: ("from".toList ++ ' ' :: ('"' :: written ++ '"' :: ';' :: rest)))) := by
    delta importWholeText
    simp only [List.append_assoc, List.cons_append, List.nil_append]
  rw [spread]
  exact ⟨_, _, _, _, _, _, .after skips (starts_name (by decide) rfl), (starts_star _).after .blank,
    starts_spaced (by decide) _, starts_spaced bindable.identifier _, starts_spaced (by decide) _,
    (starts_text quotes _).after .blank, starts_mark (by decide) _⟩

theorem importWhole_reads (bindable : IsBindable bound) (quotes : Quotes written specifier) {space : List Char}
    (skips : Space space) (deep : 1 ≤ n) (rest : List Char) :
    readAt n (.statement false) s (r.goTo (space ++ (importWholeText bound written ++ rest))) =
      some (importWholeOf (s.placeOf (space ++ (importWholeText bound written ++ rest))) bound specifier,
        r.goTo rest) := by
  obtain ⟨n, rfl⟩ := Nat.exists_eq_add_of_le' deep
  obtain ⟨clause, others, names, source, named, last, imports, star, as, second, from', quoted, ends⟩ :=
    importWholeText_lexemes bindable quotes skips rest
  generalize space ++ (importWholeText bound written ++ rest) = text at imports ⊢
  have binds : bindingName s (r.goTo names) = some (bound, r.goTo source) :=
    bindingName_run second bindable.notReserved bindable.notAwait bindable.notYield
  have found : importClause ⟨n, readAt n⟩ false none s (r.goTo clause) = some ((some bound, none), r.goTo source) := by
    simp [importClause, star.eatMark, as.takeWord, binds]
  exact importStatement_reads imports star (by decide) found from' quoted ends

section Values

variable {space : List Char}

theorem expressionStatement_run (writes : Writes text e) (notName : ∀ name, e ≠ .name name) (skips : Space space)
    (real : s.ambient = false) (deep : 4 * text.length + 4 ≤ n) (rest : List Char) :
    expressionStatement ⟨n, readAt n⟩ s (r.goTo (space ++ (text ++ ';' :: rest))) =
      some (.expression e, r.goTo rest) := by
  have closing : Starts (';' :: rest) (.mark ";") rest := starts_mark (by decide) rest
  have value := sequence_run (r := r) writes skips closing real deep
  have ends : endStatement s (r.goTo (';' :: rest)) = some ((), r.goTo rest) := endStatement_semicolon closing
  cases e with
  | name name => exact absurd rfl (notName name)
  | _ => simp [expressionStatement, value, ends]

/-- An ordinary name opens no statement but an expression. -/
theorem wordStatement_ordinary (ordinary : IsOrdinary name) (starts : Starts text (.word name false) rest)
    (deep : 1 ≤ n) (alone : Bool) :
    wordStatement ⟨n, readAt n⟩ alone name false s (r.goTo text) =
      expressionStatement ⟨n, readAt n⟩ s (r.goTo text) := by
  obtain ⟨n, rfl⟩ := Nat.exists_eq_add_of_le' deep
  have other (word : String) (member : word ∈ languageWords) : name ≠ word := ordinary.not_word word member
  have notWord (word : String) (member : word ∈ languageWords) : (Lexeme.word name false).isWord word = false :=
    beq_eq_false_iff_ne.mpr (other word member)
  have takes (word : String) (member : word ∈ languageWords) : takeWord word s (r.goTo text) = none :=
    takeWord_other (starts.lexeme_goTo (r := r) ▸ notWord word member)
  have notAsync : isAsyncFunctionAhead s (r.goTo text) = some (false, r.goTo text) := by
    simp [isAsyncFunctionAhead, starts.lexeme_goTo, notWord "async" (by decide)]
  have notUsing : isUsingAhead s (r.goTo text) = some (false, r.goTo text) := by
    simp [isUsingAhead, takes "using" (by decide)]
  have notAwait : isAwaitUsingAhead s (r.goTo text) = some (false, r.goTo text) := by
    simp [isAwaitUsingAhead, takes "await" (by decide)]
  have differs (word : String) (member : word ∈ languageWords) : (name == word) = false :=
    beq_eq_false_iff_ne.mpr (other word member)
  have notAmong {words : List String} (within : ∀ word ∈ words, word ∈ languageWords) :
      words.contains name = false := by
    rw [← Bool.not_eq_true, List.contains_iff_mem]
    exact fun member => ordinary.ordinary (within name member)
  have declares : ["var", "let", "const", "function", "class", "enum"].contains name = false := notAmong (by decide)
  have leads : declarationWords.contains name = false := notAmong (by decide)
  have notDeclaration : isDeclarationAhead ⟨n + 1, readAt (n + 1)⟩ s (r.goTo text) = some (false, r.goTo text) := by
    simp only [isDeclarationAhead, isDeclarationAhead.worker, holdsAhead_run, bind_run, lexeme_run, starts.lexeme_goTo,
      starts.advance, declares, leads, differs "interface" (by decide), differs "type" (by decide),
      differs "module" (by decide), differs "namespace" (by decide), differs "global" (by decide),
      differs "import" (by decide), differs "static" (by decide), differs "async" (by decide), Bool.or_false,
      Bool.false_eq_true, if_false, pure_run]
  unfold wordStatement
  split
  iterate 19 exact absurd rfl (other _ (by decide))
  simp [notAsync, notUsing, notAwait, notDeclaration]

/-- A call of an ordinary name, as a statement. -/
theorem call_reads {texts : List (List Char)} {values : List Expr} (ordinary : IsOrdinary name) (nonempty : texts ≠ [])
    (each : List.Forall₂ Writes texts values) (skips : Space space) (real : s.ambient = false)
    (deep : 4 * (name.toList ++ arguments texts).length + 5 ≤ n) (rest : List Char) :
    readAt n (.statement false) s (r.goTo (space ++ (name.toList ++ arguments texts ++ ';' :: rest))) =
      some (.expression (.call (.name name) values), r.goTo rest) := by
  obtain ⟨n, rfl⟩ := Nat.exists_eq_add_of_le' (show 1 ≤ n by omega)
  have writes : Writes (name.toList ++ arguments texts) (.call (.name name) values) :=
    writes_call (writes_name ordinary) nonempty each
  have found := expressionStatement_run (r := r) writes nofun skips real (show _ ≤ n by omega) rest
  have word : Starts (space ++ (name.toList ++ arguments texts ++ ';' :: rest)) (.word name false)
      (arguments texts ++ ';' :: rest) := by
    rw [List.append_assoc]
    exact (starts_name ordinary.identifier rfl).after skips
  have worded := wordStatement_ordinary (s := s) (r := r) ordinary word (show 1 ≤ n by omega) false
  rw [found] at worded
  have statement : statement ⟨n, readAt n⟩ false s (r.goTo (space ++ (name.toList ++ arguments texts ++ ';' :: rest))) =
      some (.expression (.call (.name name) values), r.goTo rest) := by
    simp only [statement, bind_run, lexeme_run, word.lexeme_goTo, worded]
  exact statement

/-- A text, as a statement. -/
theorem text_reads {value : String} (quotes : Quotes written value) (skips : Space space) (real : s.ambient = false)
    (deep : 4 * ('"' :: written ++ ['"']).length + 5 ≤ n) (rest : List Char) :
    readAt n (.statement false) s (r.goTo (space ++ ('"' :: written ++ ['"'] ++ ';' :: rest))) =
      some (.expression (.text value), r.goTo rest) := by
  obtain ⟨n, rfl⟩ := Nat.exists_eq_add_of_le' (show 1 ≤ n by omega)
  have found := expressionStatement_run (r := r) (writes_text quotes) nofun skips real (show _ ≤ n by omega) rest
  have starts : Starts (space ++ ('"' :: written ++ ['"'] ++ ';' :: rest)) (.text value true) (';' :: rest) := by
    rw [List.append_assoc]
    exact (starts_text quotes _).after skips
  have statement : statement ⟨n, readAt n⟩ false s (r.goTo (space ++ ('"' :: written ++ ['"'] ++ ';' :: rest))) =
      some (.expression (.text value), r.goTo rest) := by
    simp only [statement, bind_run, lexeme_run, starts.lexeme_goTo, found]
  exact statement

end Values

end Realms.Script
