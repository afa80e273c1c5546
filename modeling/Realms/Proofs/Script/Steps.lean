import Realms.Proofs.Script.Lexemes
import Realms.Script.Source

/-!
What the small readings do: those that look ahead depend on the lexeme in front alone, and those that go on leave
the reader in front of the text behind it.
-/
namespace Realms.Script

/-- The reader in front of a text. -/
def Reader.goTo (r : Reader) (text : List Char) : Reader := { r with token := nextToken text }

/-- The place of the token in front of a text. -/
def Setting.placeOf (s : Setting) (text : List Char) : Nat := s.size - Reading.byteCount (nextToken text).start

variable {α β : Type} {s : Setting} {r : Reader} {text rest : List Char} {lexeme : Lexeme}

namespace Lexeme

def isWord (lexeme : Lexeme) (word : String) : Bool :=
  match lexeme with
  | .word name _ => name == word
  | _ => false

def isOneOf (lexeme : Lexeme) (marks : List String) : Bool :=
  match lexeme with
  | .mark found => marks.contains found
  | _ => false

def isBindingWord (lexeme : Lexeme) : Bool :=
  match lexeme with
  | .word name _ => !reservedWords.contains name
  | _ => false

end Lexeme

namespace Reading

@[simp] theorem bind_run (m : Reading α) (f : α → Reading β) : (m >>= f) s r =
    match m s r with
    | some (a, r) => f a s r
    | none => none := rfl

theorem bind_eq_some {m : Reading α} {f : α → Reading β} {found : β × Reader} :
    (m >>= f) s r = some found ↔ ∃ a next, m s r = some (a, next) ∧ f a s next = some found := by
  rw [bind_run]
  cases first : m s r with
  | none => simp
  | some read =>
      constructor
      · intro later
        exact ⟨read.1, read.2, rfl, later⟩
      · rintro ⟨a, next, same, later⟩
        obtain rfl := Option.some.inj same
        exact later

@[simp] theorem pure_run (a : α) : (pure a : Reading α) s r = some (a, r) := rfl

@[simp] theorem fail_run : (fail : Reading α) s r = none := rfl

@[simp] theorem setting_run : setting s r = some (s, r) := rfl

@[simp] theorem typed_run : typed s r = some (s.types, r) := rfl

@[simp] theorem under_run (change : Setting → Setting) (m : Reading α) : under change m s r = m (change s) r := rfl

@[simp] theorem lexeme_run : Reading.lexeme s r = some (r.token.lexeme, r) := rfl

@[simp] theorem newLine_run : newLine s r = some (r.token.newLine, r) := rfl

@[simp] theorem isMark_run (mark : String) : isMark mark s r = some (r.token.lexeme == .mark mark, r) := rfl

@[simp] theorem isEnding_run : isEnding s r = some (r.token.lexeme == .ending, r) := rfl

@[simp] theorem isWord_run (word : String) : isWord word s r = some (r.token.lexeme.isWord word, r) := by
  unfold isWord Lexeme.isWord
  cases r.token.lexeme
  all_goals rfl

@[simp] theorem isOneOf_run (marks : List String) : isOneOf marks s r = some (r.token.lexeme.isOneOf marks, r) := by
  unfold isOneOf Lexeme.isOneOf
  cases r.token.lexeme
  all_goals rfl

@[simp] theorem isBindingWord_run : isBindingWord s r = some (r.token.lexeme.isBindingWord, r) := by
  unfold isBindingWord Lexeme.isBindingWord
  rw [bind_run, lexeme_run]
  cases r.token.lexeme
  all_goals rfl

@[simp] theorem holdsAhead_run (m : Reading Bool) : holdsAhead m s r =
    match m s r with
    | some (found, _) => some (found, r)
    | none => some (false, r) := rfl

@[simp] theorem ahead_run (m : Reading α) : ahead m s r = (m s r).map fun (a, _) => (a, r) := rfl

/-- A rule that is kept leaves no flaw. -/
@[simp] theorem flawIf_false : flawIf false s r = some ((), r) := by
  simp [flawIf]

@[simp] theorem need_true : need true s r = some ((), r) := rfl

theorem takeMark_run (mark : String) : takeMark mark s r =
    if r.token.lexeme == .mark mark then advance s r else none := by
  simp only [takeMark, bind_run, isMark_run]
  split
  all_goals rfl

theorem eatMark_other {mark : String} (other : (r.token.lexeme == .mark mark) = false) :
    eatMark mark s r = some (false, r) := by
  simp [eatMark, other]

end Reading

namespace Starts

open Reading

theorem lexeme_goTo (starts : Starts text lexeme rest) : (r.goTo text).token.lexeme = lexeme := by
  obtain ⟨newLine, start, next⟩ := starts.nextToken_eq
  simp [Reader.goTo, next]

theorem skipName (starts : Starts text lexeme rest) : skipName s (r.goTo text) = some ((), r.goTo rest) := by
  obtain ⟨newLine, start, next⟩ := starts.nextToken_eq
  simp [Reading.skipName, Reader.next, Reader.goTo, next]

theorem advance (starts : Starts text lexeme rest) : advance s (r.goTo text) = some ((), r.goTo rest) := by
  obtain ⟨newLine, start, next⟩ := starts.nextToken_eq
  have plain : Token.isDisguised ⟨lexeme, newLine, start, rest, false⟩ = false := by
    cases lexeme with
    | word name escaped =>
        cases escaped with
        | true => exact absurd rfl (starts.unescaped name)
        | false => rfl
    | _ => rfl
  simp [Reading.advance, Reader.next, Reader.goTo, next, plain]

theorem takeMark {mark : String} (starts : Starts text (.mark mark) rest) :
    takeMark mark s (r.goTo text) = some ((), r.goTo rest) := by
  simp [takeMark_run, starts.lexeme_goTo, starts.advance]

theorem eatMark {mark : String} (starts : Starts text (.mark mark) rest) :
    eatMark mark s (r.goTo text) = some (true, r.goTo rest) := by
  simp [Reading.eatMark, starts.lexeme_goTo, starts.advance]

theorem eatMark_other {mark : String} (starts : Starts text lexeme rest) (other : lexeme ≠ .mark mark) :
    Reading.eatMark mark s (r.goTo text) = some (false, r.goTo text) := by
  refine Reading.eatMark_other ?_
  rw [starts.lexeme_goTo, beq_eq_false_iff_ne]
  exact other

theorem takeWord {word : String} (starts : Starts text (.word word false) rest) :
    takeWord word s (r.goTo text) = some ((), r.goTo rest) := by
  simp [Reading.takeWord, starts.lexeme_goTo, starts.advance, Lexeme.isWord]

theorem anyWord {name : String} (starts : Starts text (.word name false) rest) :
    anyWord s (r.goTo text) = some (name, r.goTo rest) := by
  simp [Reading.anyWord, starts.lexeme_goTo, starts.skipName]

end Starts

theorem OnLine.newLine_goTo (onLine : OnLine text) : (r.goTo text).token.newLine = false := onLine

end Realms.Script
