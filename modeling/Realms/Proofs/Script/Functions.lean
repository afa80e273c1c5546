import Realms.Proofs.Script.Forms

/-!
Functions in generated code: asynchronous ones with a rest parameter, whose body gives one value back.
-/
namespace Realms.Script

open Grammar Reading
open Realms.Text (isIdentifierName)

variable {p : Inner} {n : Nat} {s : Setting} {r : Reader} {text rest gap last : List Char} {e : Expr} {name : String}

/-- An asynchronous function that gives the value of an expression back. -/
def functionText (gap last : List Char) (name parameter : String) (result : List Char) : List Char :=
  "async".toList ++ ' ' :: ("function".toList ++ ' ' :: (name.toList ++ '(' :: '.' :: '.' :: '.' ::
    (parameter.toList ++ ')' :: ' ' :: '\x7b' :: (gap ++ ("return".toList ++ ' ' ::
      (result ++ ';' :: (last ++ ['\x7d'])))))))

def functionOf (name parameter : String) (e : Expr) : Function :=
  .mk true false (some name) [.rest (.name parameter)] true [.result (some e)]

/-- A name that may be bound in any function. -/
structure IsBindable (name : String) : Prop where
  identifier : isIdentifierName name.toList = true
  notReserved : name ∉ reservedWords
  notAwait : name ≠ "await"
  notYield : name ≠ "yield"

instance (name : String) : Decidable (IsBindable name) :=
  decidable_of_iff (isIdentifierName name.toList = true ∧ name ∉ reservedWords ∧ name ≠ "await" ∧ name ≠ "yield")
    ⟨fun ⟨identifier, notReserved, notAwait, notYield⟩ => ⟨identifier, notReserved, notAwait, notYield⟩,
      fun ⟨identifier, notReserved, notAwait, notYield⟩ => ⟨identifier, notReserved, notAwait, notYield⟩⟩

theorem canEnd_semicolon (starts : Starts text (.mark ";") rest) :
    canEnd s (r.goTo text) = some (true, r.goTo text) := by
  cases newLine : (r.goTo text).token.newLine with
  | true => simp [canEnd, newLine]
  | false => simp [canEnd, newLine, starts.lexeme_goTo]

theorem endStatement_semicolon (starts : Starts text (.mark ";") rest) :
    endStatement s (r.goTo text) = some ((), r.goTo rest) := by
  simp [endStatement, canEnd_semicolon starts, starts.eatMark]

/-- No statement ends in front of a value on its line. -/
theorem canEnd_value (front : Front text) (onLine : OnLine text) :
    canEnd s (r.goTo text) = some (false, r.goTo text) := by
  obtain ⟨lexeme, behind, starts, opens, _⟩ := front
  have found := starts.lexeme_goTo (r := r)
  cases lexeme with
  | mark mark =>
      obtain rfl := beq_iff_eq.mp opens
      simp [canEnd, onLine.newLine_goTo, found]
  | ending => cases opens
  | _ => simp [canEnd, onLine.newLine_goTo, found]

theorem sequence_run (writes : Writes text e) {space behind : List Char} (skips : Space space)
    (closing : Starts (';' :: behind) (.mark ";") behind) (real : s.ambient = false) (deep : 4 * text.length + 4 ≤ n) :
    (Inner.mk n (readAt n)).sequence s (r.goTo (space ++ (text ++ ';' :: behind))) =
      some (e, r.goTo (';' :: behind)) := by
  have closes : Closes (';' :: behind) := closes_mark (by decide) behind
  have first := writes.read (r := r) skips closes real deep
  simp [Inner.sequence, first, closing.lexeme_goTo]

theorem returnStatement_run (writes : Writes text e) (real : s.ambient = false) (returns : s.returns = true)
    (deep : 4 * text.length + 4 ≤ n) {before behind : List Char}
    (word : Starts before (.word "return" false) (' ' :: (text ++ ';' :: behind))) :
    returnStatement ⟨n, readAt n⟩ s (r.goTo before) = some (.result (some e), r.goTo behind) := by
  have closing : Starts (';' :: behind) (.mark ";") behind := starts_mark (by decide) behind
  have closes : Closes (';' :: behind) := closes_mark (by decide) behind
  have value := sequence_run (r := r) writes .blank closing real deep
  have front := writes.front .blank closes.endsName
  have onLine := OnLine.blank (writes.onLine (';' :: behind))
  have stays := canEnd_value (s := s) (r := r) front onLine
  simp only [List.singleton_append] at value stays
  simp [returnStatement, returns, word.takeWord, stays, value, endStatement_semicolon closing]

theorem pattern_name (starts : Starts text (.word name false) rest) (bindable : IsBindable name) (deep : 0 < n) :
    readAt n .pattern s (r.goTo text) = some (.name name, r.goTo rest) := by
  obtain ⟨n, rfl⟩ := Nat.exists_eq_add_of_le' deep
  have binds : bindingName s (r.goTo text) = some (name, r.goTo rest) :=
    bindingName_run starts bindable.notReserved bindable.notAwait bindable.notYield
  have pattern : bindingPattern ⟨n, readAt n⟩ s (r.goTo text) = some (.name name, r.goTo rest) := by
    simp [bindingPattern, starts.eatMark_other, binds]
  exact pattern

theorem annotation_other {lexeme : Lexeme} (starts : Starts text lexeme rest) (other : lexeme ≠ .mark ":") :
    p.annotation s (r.goTo text) = some ((), r.goTo text) := by
  unfold Inner.annotation
  cases types : s.types with
  | false => simp [types]
  | true => simp [types, starts.eatMark_other other]

theorem restParameter_run {before behind : List Char} (dots : Starts before (.mark "...") text)
    (starts : Starts text (.word name false) rest) (bindable : IsBindable name) (closing : Starts rest (.mark ")") behind)
    (deep : 0 < n) :
    restParameter ⟨n, readAt n⟩ s (r.goTo before) = some (.rest (.name name), r.goTo rest) := by
  have pattern := pattern_name (s := s) (r := r) starts bindable deep
  have plain : Inner.annotation ⟨n, readAt n⟩ s (r.goTo rest) = some ((), r.goTo rest) :=
    annotation_other closing (by decide)
  simp [restParameter, dots.takeMark, pattern, plain]

theorem parameters_run {before behind inner : List Char} (opening : Starts before (.mark "(") inner)
    (dots : Starts inner (.mark "...") text) (starts : Starts text (.word name false) rest)
    (bindable : IsBindable name) (closing : Starts rest (.mark ")") behind) (deep : 0 < n) :
    parameters ⟨n, readAt n⟩ false s (r.goTo before) = some ([.rest (.name name)], r.goTo behind) := by
  have last := restParameter_run (s := s) (r := r) dots starts bindable closing deep
  have notThis : Lexeme.isWord (.mark "...") "this" = false := rfl
  have notComma : eatMark "," s (r.goTo rest) = some (false, r.goTo rest) := closing.eatMark_other (by decide)
  have list : parameterList ⟨n, readAt n⟩ false n s (r.goTo inner) = some ([.rest (.name name)], r.goTo rest) := by
    obtain ⟨n, rfl⟩ := Nat.exists_eq_add_of_le' deep
    simp [parameterList, dots.lexeme_goTo, last, notComma]
  simp [parameters, opening.takeMark, thisParameter, dots.lexeme_goTo, notThis, list, closing.takeMark]

theorem repeatWhile_cons {α : Type} {test : Reading Bool} {item : Reading α} {rounds : Nat} {a : α} {more : List α}
    {next last : Reader} (goes : test s r = some (true, r)) (first : item s r = some (a, next))
    (later : repeatWhile test item rounds s next = some (more, last)) :
    repeatWhile test item (rounds + 1) s r = some (a :: more, last) := by
  simp [repeatWhile, goes, first, later]

theorem repeatWhile_nil {α : Type} {test : Reading Bool} {item : Reading α} (rounds : Nat)
    (stops : test s r = some (false, r)) : repeatWhile test item (rounds + 1) s r = some ([], r) := by
  simp [repeatWhile, stops]

theorem functionBody_run (ends : IsLayout last) (writes : Writes text e) (real : s.ambient = false)
    (deep : 4 * text.length + 8 ≤ n) {before inner behind : List Char} (opening : Starts before (.mark "\x7b") inner)
    (word : Starts inner (.word "return" false) (' ' :: (text ++ ';' :: (last ++ '\x7d' :: behind)))) :
    functionBody ⟨n, readAt n⟩ s (r.goTo before) = some ([.result (some e)], r.goTo behind) := by
  have closing : Starts (last ++ '\x7d' :: behind) (.mark "\x7d") behind := (starts_mark (by decide) _).after ends.space
  obtain ⟨n, rfl⟩ := Nat.exists_eq_add_of_le' (show 2 ≤ n by omega)
  have result := returnStatement_run (n := n + 1) (r := r) (s := { s with returns := true }) writes real rfl
    (by omega) word
  have first : readAt (n + 2) (.statement false) { s with returns := true } (r.goTo inner) =
      some (.result (some e), r.goTo (last ++ '\x7d' :: behind)) := by
    have worded : statement ⟨n + 1, readAt (n + 1)⟩ false { s with returns := true } (r.goTo inner) =
        some (.result (some e), r.goTo (last ++ '\x7d' :: behind)) := by
      simp [statement, word.lexeme_goTo, wordStatement, result]
    exact worded
  have body : statements ⟨n + 2, readAt (n + 2)⟩ { s with returns := true } (r.goTo inner) =
      some ([.result (some e)], r.goTo (last ++ '\x7d' :: behind)) :=
    repeatWhile_cons (by simp [word.lexeme_goTo]) first (repeatWhile_nil n (by simp [closing.lexeme_goTo]))
  simp [functionBody, block, opening.takeMark, body, closing.takeMark]

/-- The lexemes of a function from its parameters on, with the text of its result and the layout behind its body. -/
inductive TailLexemes (parameter : String) (text last behind before : List Char) : Prop
  | intro {dots named closing opening inner : List Char} (bracket : Starts before (.mark "(") dots)
      (rests : Starts dots (.mark "...") named) (starts : Starts named (.word parameter false) closing)
      (closes : Starts closing (.mark ")") opening) (brace : Starts opening (.mark "\x7b") inner)
      (gives : Starts inner (.word "return" false) (' ' :: (text ++ ';' :: (last ++ '\x7d' :: behind))))

/-- The lexemes of a function from its front on. -/
inductive FunctionLexemes (name parameter : String) (text last behind before : List Char) : Prop
  | intro {word title bracket : List Char} (async : Starts before (.word "async" false) word) (onLine : OnLine word)
      (function : Starts word (.word "function" false) title) (called : Starts title (.word name false) bracket)
      (tail : TailLexemes parameter text last behind bracket)

variable {parameter : String} {before behind : List Char}

theorem functionTail_run (name : String) (ends : IsLayout last) (writes : Writes text e) (bindable : IsBindable parameter)
    (real : s.ambient = false) (deep : 4 * text.length + 8 ≤ n) (lexemes : TailLexemes parameter text last behind before) :
    functionTail ⟨n, readAt n⟩ true false false (some name) s (r.goTo before) =
      some (functionOf name parameter e, r.goTo behind) := by
  obtain ⟨bracket, rests, starts, closes, brace, gives⟩ := lexemes
  rename_i opening _
  obtain ⟨inside, same⟩ : ∃ inside, inside = inFunction true false s := ⟨_, rfl⟩
  have real : inside.ambient = false := same ▸ real
  have noTypes : typeParameters ⟨n, readAt n⟩ inside (r.goTo before) = some ((), r.goTo before) := by
    cases types : inside.types with
    | false => simp [typeParameters, types]
    | true => simp [typeParameters, types, bracket.lexeme_goTo]
  have found := parameters_run (n := n) (s := inside) (r := r) bracket rests starts bindable closes (by omega)
  have noResult : resultAnnotation ⟨n, readAt n⟩ inside (r.goTo opening) = some (false, r.goTo opening) := by
    unfold resultAnnotation
    simp [brace.lexeme_goTo]
  have body := functionBody_run (r := r) ends writes real deep brace gives
  simp [functionTail, ← same, noTypes, found, noResult, brace.lexeme_goTo, body, real, functionOf]

theorem functionValue_run (ends : IsLayout last) (writes : Writes text e) (own : IsBindable name)
    (bindable : IsBindable parameter) (real : s.ambient = false) (deep : 4 * text.length + 8 ≤ n)
    (lexemes : FunctionLexemes name parameter text last behind before) :
    primary ⟨n, readAt n⟩ s (r.goTo before) = some (.function (functionOf name parameter e), r.goTo behind) := by
  obtain ⟨async, onLine, function, called, tail⟩ := lexemes
  rename_i word title bracket
  have tail := functionTail_run name (r := r) ends writes bindable real deep tail
  have isAsync : eatWord "async" s (r.goTo before) = some (true, r.goTo word) := by
    simp [eatWord, async.lexeme_goTo, async.takeWord, Lexeme.isWord]
  have title : optionalBindingName (inFunction true false s) (r.goTo title) = some (some name, r.goTo bracket) := by
    have binds : Lexeme.isBindingWord (.word name false) = true := by simpa [Lexeme.isBindingWord] using own.notReserved
    have bound := bindingName_run (s := inFunction true false s) (r := r) called own.notReserved own.notAwait own.notYield
    simp [optionalBindingName, called.lexeme_goTo, binds, bound]
  have value : functionValue ⟨n, readAt n⟩ s (r.goTo before) =
      some (.function (functionOf name parameter e), r.goTo behind) := by
    simp [functionValue, isAsync, function.takeWord, called.eatMark_other, title, tail]
  have ahead : isAsyncFunctionAhead s (r.goTo before) = some (true, r.goTo before) := by
    simp [isAsyncFunctionAhead, async.lexeme_goTo, async.advance, function.lexeme_goTo, onLine.newLine_goTo,
      Lexeme.isWord]
  simp [primary, async.lexeme_goTo, wordValue, ahead, value]

theorem functionText_lexemes (gaps : IsLayout gap) (own : IsBindable name) (bindable : IsBindable parameter)
    (result rest : List Char) :
    FunctionLexemes name parameter result last rest (functionText gap last name parameter result ++ rest) := by
  delta functionText
  simp only [List.append_assoc, List.cons_append, List.nil_append]
  have function : isIdentifierName "function".toList = true := by decide
  refine .intro (starts_name (by decide) rfl) (onLine_name function _).blank ((starts_name function rfl).after .blank)
    ((starts_name own.identifier rfl).after .blank) (.intro (starts_mark (by decide) _) (starts_dots _)
      (starts_name bindable.identifier rfl) (starts_mark (by decide) _) ?_
      ((starts_name (by decide) rfl).after gaps.space))
  exact (starts_mark (by decide) _).after .blank

theorem FunctionLexemes.after {space : List Char} (skips : Space space)
    (lexemes : FunctionLexemes name parameter text last behind before) :
    FunctionLexemes name parameter text last behind (space ++ before) := by
  obtain ⟨async, onLine, function, called, tail⟩ := lexemes
  exact .intro (async.after skips) onLine function called tail

theorem writes_function {result : List Char} (gaps : IsLayout gap) (ends : IsLayout last) (own : IsBindable name)
    (bindable : IsBindable parameter) (writes : Writes result e) :
    Writes (functionText gap last name parameter result) (.function (functionOf name parameter e)) := by
  have lexemes (rest : List Char) :
      FunctionLexemes name parameter result last rest (functionText gap last name parameter result ++ rest) :=
    functionText_lexemes gaps own bindable result rest
  constructor
  · intro space rest skips _
    obtain ⟨async, onLine, function, _, _⟩ := lexemes rest
    exact ⟨_, _, async.after skips, rfl, fun _ => ⟨onLine, _, function⟩⟩
  · intro rest
    delta functionText
    rw [List.append_assoc]
    exact onLine_name (by decide) _
  · intro n s r space rest skips _ real deep
    have size : result.length + 8 ≤ (functionText gap last name parameter result).length := by
      delta functionText
      simp only [List.length_append, List.length_cons]
      omega
    have value := functionValue_run (n := n) (s := s) (r := r) ends writes own bindable real (by omega)
      ((lexemes rest).after skips)
    exact ⟨n, Nat.le_add_right n _, by rw [bind_run, value]⟩

end Realms.Script
