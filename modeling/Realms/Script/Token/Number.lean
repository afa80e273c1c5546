import Realms.Script.Token.Basic

/-!
Number literals. Only their extent matters to the rest of the library, so a reader gives the text
behind the number and says whether it was a big integer.
-/
namespace Realms.Script

open Realms.Text

/-- The text behind digits of one kind, with single underscores between digits. `none` if an
underscore is not between two digits. -/
def skipDigits (isDigit : Char → Bool) : Bool → List Char → Option (List Char)
  | afterDigit, c :: rest =>
    if isDigit c then skipDigits isDigit true rest
    else if c == '_' then
      match rest with
      | d :: _ => if afterDigit && isDigit d then skipDigits isDigit false rest else none
      | [] => none
    else some (c :: rest)
  | _, [] => some []

def skipSomeDigits (isDigit : Char → Bool) (cs : List Char) : Option (List Char) :=
  match cs with
  | c :: rest => if isDigit c then skipDigits isDigit true rest else none
  | [] => none

def isDecimal (c : Char) : Bool := '0' ≤ c && c ≤ '9'

structure NumberEnd where
  big : Bool
  rest : List Char

/-- Right behind a number neither a digit nor the start of a name may stand. -/
def endNumber (big : Bool) (rest : List Char) : Option NumberEnd :=
  match rest with
  | c :: _ => if isDecimal c || isIdentifierStart c then none else some ⟨big, rest⟩
  | [] => some ⟨big, []⟩

def readExponent (cs : List Char) : Option NumberEnd :=
  let digits := match cs with
    | '+' :: rest => rest
    | '-' :: rest => rest
    | rest => rest
  skipSomeDigits isDecimal digits >>= endNumber false

def readAfterFraction (cs : List Char) : Option NumberEnd :=
  match cs with
  | 'e' :: rest => readExponent rest
  | 'E' :: rest => readExponent rest
  | rest => endNumber false rest

def readFraction (cs : List Char) : Option NumberEnd :=
  match cs with
  | c :: rest => if isDecimal c then skipDigits isDecimal true rest >>= readAfterFraction
    else readAfterFraction cs
  | [] => some ⟨false, []⟩

def readAfterWhole (cs : List Char) : Option NumberEnd :=
  match cs with
  | '.' :: rest => readFraction rest
  | 'n' :: rest => endNumber true rest
  | rest => readAfterFraction rest

def readBased (isDigit : Char → Bool) (cs : List Char) : Option NumberEnd :=
  match skipSomeDigits isDigit cs with
  | some ('n' :: rest) => endNumber true rest
  | some rest => endNumber false rest
  | none => none

/-- A number with a zero in front of other digits. Only one with an 8 or a 9 may have a fraction, and
neither kind has underscores. -/
def readLegacy (cs : List Char) : Option NumberEnd :=
  let digits := cs.takeWhile isDecimal
  let rest := cs.dropWhile isDecimal
  if digits.any ('8' ≤ ·) then
    match rest with
    | '.' :: rest => readFraction rest
    | 'e' :: rest => readExponent rest
    | rest => endNumber false rest
  else endNumber false rest

def readZero (cs : List Char) : Option NumberEnd :=
  match cs with
  | [] => some ⟨false, []⟩
  | c :: rest =>
    if c == 'x' || c == 'X' then
      readBased (fun d => isDecimal d || ('a' ≤ d && d ≤ 'f') || ('A' ≤ d && d ≤ 'F')) rest
    else if c == 'b' || c == 'B' then readBased (fun d => d == '0' || d == '1') rest
    else if c == 'o' || c == 'O' then readBased (fun d => '0' ≤ d && d ≤ '7') rest
    else if isDecimal c then readLegacy cs
    else readAfterWhole cs

def readNumber (cs : List Char) : Option NumberEnd :=
  match cs with
  | '0' :: rest => readZero rest
  | '.' :: rest => readFraction rest
  | rest => skipSomeDigits isDecimal rest >>= readAfterWhole

end Realms.Script
