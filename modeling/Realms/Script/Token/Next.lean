import Realms.Script.Token.Space
import Realms.Script.Token.Quoted
import Realms.Script.Token.Number

/-!
The next token of a script. Which token stands in front can depend on the grammar in three places:
a slash may open a regular expression, a closing brace may go on a template, and element text is no
token at all. Those have readers of their own, and `nextToken` reads everything else.
-/
namespace Realms.Script

open Realms.Text

def readNameEscape (cs : List Char) : Option (Char × List Char) :=
  match cs with
  | '\x7b' :: rest =>
    let digits := rest.takeWhile (fun c => (hexDigit? c).isSome)
    let value := digits.foldl (fun n c => min (n * 16 + (hexDigit? c).getD 0) 0x110000) 0
    match rest.dropWhile (fun c => (hexDigit? c).isSome) with
    | '\x7d' :: rest => if digits.isEmpty then none else some (Char.ofNat value, rest)
    | _ => none
  | a :: b :: c :: d :: rest =>
    match hexDigit? a, hexDigit? b, hexDigit? c, hexDigit? d with
    | some a, some b, some c, some d => some (Char.ofNat (((a * 16 + b) * 16 + c) * 16 + d), rest)
    | _, _, _, _ => none
  | _ => none

/-- A name that was read: its characters, whether one was escaped, whether all of them may stand
there, and the text behind it. -/
structure NameRead where
  name : List Char
  escaped : Bool
  valid : Bool
  rest : List Char

/-- The part of a name behind its first piece. Each round takes an escape and the plain characters
behind it; `rounds` bounds the number of escapes. -/
def readNameTail : Nat → NameRead → NameRead
  | 0, name => { name with valid := false }
  | rounds + 1, name =>
    match name.rest with
    | '\\' :: 'u' :: rest =>
      match readNameEscape rest with
      | some (c, rest) =>
        let fits := if name.name.isEmpty then isIdentifierStart c else isIdentifierPart c
        readNameTail rounds {
          name := name.name ++ c :: rest.takeWhile isIdentifierPart
          escaped := true
          valid := name.valid && fits
          rest := rest.dropWhile isIdentifierPart }
      | none => { name with valid := false }
    | '\\' :: _ => { name with valid := false }
    | _ => name

/-- The name in front of a text. A name without an escape is its longest run of name characters. -/
def readName (cs : List Char) : NameRead :=
  let plain : NameRead := ⟨cs.takeWhile isIdentifierPart, false, true, cs.dropWhile isIdentifierPart⟩
  match plain.rest with
  | '\\' :: _ => readNameTail cs.length plain
  | _ => plain

/-- Marks of the language, a longer one before each of its beginnings. `>` always stands alone: it
may close a list of types, and `joinAngle` puts the longer marks together where an operator is
expected. -/
def marks : List String :=
  ["...", "=>", "===", "==", "=", "!==", "!=", "!", "**=", "**", "*=", "*", "++", "+=", "+", "--",
    "-=", "-", "<<=", "<<", "<=", "<", ">", "&&=", "&&", "&=", "&", "||=", "||", "|=", "|", "^=",
    "^", "??=", "??", "?.", "?", "%=", "%", "/=", "/", "~", "\x7b", "\x7d", "(", ")", "[", "]",
    ";", ",", ":", ".", "@"]

def dropFront : List Char → List Char → Option (List Char)
  | [], cs => some cs
  | a :: front, c :: cs => if a == c then dropFront front cs else none
  | _ :: _, [] => none

def firstMark : List String → List Char → Option (String × List Char)
  | [], _ => none
  | mark :: more, cs =>
    match dropFront mark.toList cs with
    | some rest => some (mark, rest)
    | none => firstMark more cs

/-- A mark in front of a text. `?.` before a digit is a question mark. -/
def readMark (cs : List Char) : Option (String × List Char) :=
  match firstMark marks cs with
  | some ("?.", c :: rest) => if isDecimal c then some ("?", '.' :: c :: rest) else some ("?.", c :: rest)
  | found => found

structure Scanned where
  lexeme : Lexeme
  rest : List Char
  flawed : Bool

def scanWord (cs : List Char) : Scanned :=
  let name := readName cs
  if name.valid && !name.name.isEmpty then ⟨.word (String.ofList name.name) name.escaped, name.rest, false⟩
  else ⟨.malformed, [], false⟩

def scanPrivateName (cs : List Char) : Scanned :=
  match cs with
  | c :: _ =>
    let name := readName cs
    if (isIdentifierStart c || c == '\\') && name.valid && !name.name.isEmpty then
      ⟨.privateName (String.ofList name.name), name.rest, false⟩
    else ⟨.malformed, [], false⟩
  | [] => ⟨.malformed, [], false⟩

def scanQuoted (quote : Char) (cs : List Char) : Scanned :=
  match readQuoted quote .plain .start cs with
  | some (q, rest) => ⟨.text q.text.1 q.text.2, rest, !q.valid⟩
  | none => ⟨.malformed, [], false⟩

def scanTemplate (cs : List Char) : Scanned :=
  match readTemplate .plain true cs with
  | some piece => ⟨.template piece.last piece.valid, piece.rest, false⟩
  | none => ⟨.malformed, [], false⟩

def scanNumber (cs : List Char) : Scanned :=
  match readNumber cs with
  | some found => ⟨if found.big then .bigNumber else .number, found.rest, false⟩
  | none => ⟨.malformed, [], false⟩

def scanMark (cs : List Char) : Scanned :=
  match readMark cs with
  | some (mark, rest) => ⟨.mark mark, rest, false⟩
  | none => ⟨.malformed, [], false⟩

def scan (cs : List Char) : Scanned :=
  match cs with
  | [] => ⟨.ending, [], false⟩
  | c :: rest =>
    if isIdentifierStart c || c == '\\' then scanWord cs
    else if c == '"' || c == '\x27' then scanQuoted c rest
    else if c == '\x60' then scanTemplate rest
    else if isDecimal c then scanNumber cs
    else if c == '.' && (rest.head?.any isDecimal) then scanNumber cs
    else if c == '#' then scanPrivateName rest
    else scanMark cs

def nextToken (cs : List Char) : Token :=
  let space := skipSpace .plain false cs
  if space.unclosed then ⟨.malformed, space.newLine, [], [], false⟩
  else
    let found := scan space.rest
    ⟨found.lexeme, space.newLine, space.rest, found.rest, found.flawed⟩

/-- Where an operator is expected, `>` and the marks right behind it make one longer mark. -/
def Token.joinAngle (token : Token) : Token :=
  match token.lexeme with
  | .mark ">" =>
    match firstMark [">>>=", ">>>", ">>=", ">>", ">="] token.start with
    | some (mark, rest) => { token with lexeme := .mark mark, rest }
    | none => token
  | _ => token

/-- The mark `<` of a token that starts with it, for the places where a list of types opens. -/
def Token.splitAngle (token : Token) : Token :=
  match token.lexeme with
  | .mark "<<" | .mark "<<=" | .mark "<=" =>
    match token.start with
    | '<' :: rest => { token with lexeme := .mark "<", rest }
    | _ => token
  | _ => token

def readPatternBody : Bool → List Char → Option (List Char)
  | _, [] => none
  | inClass, '\\' :: c :: rest => if isLineEnd c then none else readPatternBody inClass rest
  | inClass, c :: rest =>
    if isLineEnd c then none
    else if c == '/' && !inClass then some rest
    else if c == '[' then readPatternBody true rest
    else if c == ']' then readPatternBody false rest
    else readPatternBody inClass rest

/-- The flags of a regular expression: each at most once, of eight letters. -/
def flagsAllowed : List Char → Bool
  | [] => true
  | c :: rest => "dgimsuvy".toList.contains c && !rest.contains c && flagsAllowed rest

def isFlagChar (c : Char) : Bool := c.isAlphanum || c == '$' || c == '_'

/-- The token of a regular expression that starts where this token starts. Its body is not looked
into, and a wrong flag is a flaw of a token that can still be used. -/
def Token.asPattern (token : Token) : Token :=
  match readPatternBody false token.start.tail with
  | some rest =>
    { token with
      lexeme := .pattern
      rest := rest.dropWhile isFlagChar
      flawed := !flagsAllowed (rest.takeWhile isFlagChar) }
  | none => { token with lexeme := .malformed, rest := [] }

def Token.asTemplate (token : Token) : Token :=
  match readTemplate .plain true token.start.tail with
  | some piece => { token with lexeme := .template piece.last piece.valid, rest := piece.rest }
  | none => { token with lexeme := .malformed, rest := [] }

end Realms.Script
