import Realms.Script.Token.Basic

/-!
Text between quotes and pieces of templates, with their escapes. Both are read one character at a
time by a machine that knows how far into an escape it stands, so reading ends with the text.

The value of a literal is a sequence of code units. A surrogate that stands alone has no character:
it is written as U+FFFD and its four digits, and U+FFFD itself is then written the same way.
-/
namespace Realms.Script

def hexDigit? (c : Char) : Option Nat :=
  if '0' ≤ c && c ≤ '9' then some (c.toNat - 48)
  else if 'a' ≤ c && c ≤ 'f' then some (c.toNat - 87)
  else if 'A' ≤ c && c ≤ 'F' then some (c.toNat - 55)
  else none

def isHighSurrogate (n : Nat) : Bool := 0xD800 ≤ n && n ≤ 0xDBFF

def isLowSurrogate (n : Nat) : Bool := 0xDC00 ≤ n && n ≤ 0xDFFF

def isSurrogate (n : Nat) : Bool := 0xD800 ≤ n && n ≤ 0xDFFF

def pairValue (high low : Nat) : Nat := 0x10000 + (high - 0xD800) * 0x400 + (low - 0xDC00)

/-- A high surrogate and the low one after it become one code point. -/
def joinPairs : List Nat → List Nat
  | high :: low :: rest =>
    if isHighSurrogate high && isLowSurrogate low then pairValue high low :: joinPairs rest
    else high :: joinPairs (low :: rest)
  | rest => rest

def hexChar (n : Nat) : Char := if n < 10 then Char.ofNat (48 + n) else Char.ofNat (87 + n)

def fourHex (n : Nat) : List Char :=
  [hexChar (n / 4096 % 16), hexChar (n / 256 % 16), hexChar (n / 16 % 16), hexChar (n % 16)]

/-- How a code point is written in a text that holds a lone surrogate. -/
def lossyChars (n : Nat) : List Char :=
  if isSurrogate n || n == 0xFFFD then '\ufffd' :: fourHex n else [Char.ofNat n]

def textOf (units : List Nat) : String × Bool :=
  let points := joinPairs units
  if points.any isSurrogate then (String.ofList (points.flatMap lossyChars), false)
  else (String.ofList (points.map Char.ofNat), true)

inductive EscapeMode where
  | plain
  | escape
  | unicode
  /-- Hexadecimal digits still to come, and the value of those read. -/
  | digits (left : Nat) (value : Nat)
  | braced (value : Option Nat)
  /-- Octal digits that may still come, and the value of those read. -/
  | octal (left : Nat) (value : Nat)
  /-- Behind a backslash and a carriage return. -/
  | carriage
  | dollar
deriving DecidableEq, Repr

/-- What was read of a literal: its units in reverse, and whether each escape was well formed. -/
structure QuotedSoFar where
  units : List Nat
  valid : Bool
deriving Inhabited, DecidableEq, Repr

namespace QuotedSoFar

def start : QuotedSoFar := ⟨[], true⟩

def push (q : QuotedSoFar) (n : Nat) : QuotedSoFar := { q with units := n :: q.units }

/-- Only code points up to the last one have an escape. -/
def pushPoint (q : QuotedSoFar) (n : Nat) : QuotedSoFar :=
  if n < 0x110000 then q.push n else { q with valid := false }

def spoil (q : QuotedSoFar) : QuotedSoFar := { q with valid := false }

def text (q : QuotedSoFar) : String × Bool := textOf q.units.reverse

end QuotedSoFar

inductive QuotedStep where
  | closed (q : QuotedSoFar)
  | more (mode : EscapeMode) (q : QuotedSoFar)
  | broken
deriving DecidableEq, Repr

/-- What an escape of one character stands for; every character not listed stands for itself. -/
def simpleEscape (c : Char) : Nat :=
  match c with
  | 'n' => 10
  | 't' => 9
  | 'r' => 13
  | 'b' => 8
  | 'v' => 11
  | 'f' => 12
  | _ => c.toNat

/-- The step outside an escape: a line feed or a carriage return breaks the literal. -/
def plainQuoted (quote : Char) (q : QuotedSoFar) (c : Char) : QuotedStep :=
  if c == quote then .closed q
  else if c == '\\' then .more .escape q
  else if c == '\n' || c == '\r' then .broken
  else .more .plain (q.push c.toNat)

def escapedQuoted (q : QuotedSoFar) (c : Char) : QuotedStep :=
  if c == 'u' then .more .unicode q
  else if c == 'x' then .more (.digits 2 0) q
  else if c == '\r' then .more .carriage q
  else if isLineEnd c then .more .plain q
  else if '0' ≤ c && c ≤ '3' then .more (.octal 2 (c.toNat - 48)) q
  else if '4' ≤ c && c ≤ '7' then .more (.octal 1 (c.toNat - 48)) q
  else .more .plain (q.push (simpleEscape c))

/-- One step of reading a literal. A character that cannot go on an escape ends it and is then read
as outside of one. -/
def quotedStep (quote : Char) (mode : EscapeMode) (q : QuotedSoFar) (c : Char) : QuotedStep :=
  match mode with
  | .plain | .dollar => plainQuoted quote q c
  | .escape => escapedQuoted q c
  | .unicode =>
    if c == '\x7b' then .more (.braced none) q
    else match hexDigit? c with
      | some d => .more (.digits 3 d) q
      | none => plainQuoted quote q.spoil c
  | .digits left value =>
    match hexDigit? c with
    | some d =>
      if left ≤ 1 then .more .plain (q.push (value * 16 + d))
      else .more (.digits (left - 1) (value * 16 + d)) q
    | none => plainQuoted quote q.spoil c
  | .braced value =>
    match hexDigit? c with
    | some d => .more (.braced (some (min (value.getD 0 * 16 + d) 0x110000))) q
    | none =>
      if c == '\x7d' then .more .plain (match value with | some n => q.pushPoint n | none => q.spoil)
      else plainQuoted quote q.spoil c
  | .octal left value =>
    if '0' ≤ c && c ≤ '7' then
      if left ≤ 1 then .more .plain (q.push (value * 8 + (c.toNat - 48)))
      else .more (.octal (left - 1) (value * 8 + (c.toNat - 48))) q
    else plainQuoted quote (q.push value) c
  | .carriage => if c == '\n' then .more .plain q else plainQuoted quote q c

/-- Reads up to the closing quote. A text that is not closed has no value. -/
def readQuoted (quote : Char) : EscapeMode → QuotedSoFar → List Char →
    Option (QuotedSoFar × List Char)
  | _, _, [] => none
  | mode, q, c :: rest =>
    match quotedStep quote mode q c with
    | .closed q => some (q, rest)
    | .more mode q => readQuoted quote mode q rest
    | .broken => none

/-- What a character does to a piece of a template. Only whether its escapes are well formed is
kept: nothing asks for the value of a template. -/
inductive TemplateStep where
  | closed (valid : Bool)
  | substitution (valid : Bool)
  | more (mode : EscapeMode) (valid : Bool)
deriving DecidableEq, Repr

def plainTemplate (valid : Bool) (c : Char) : TemplateStep :=
  if c == '\x60' then .closed valid
  else if c == '\\' then .more .escape valid
  else if c == '$' then .more .dollar valid
  else .more .plain valid

/-- One step of reading a template. No digit escapes but that of zero are allowed. -/
def templateStep (mode : EscapeMode) (valid : Bool) (c : Char) : TemplateStep :=
  match mode with
  | .plain => plainTemplate valid c
  | .dollar => if c == '\x7b' then .substitution valid else plainTemplate valid c
  | .escape =>
    if c == 'u' then .more .unicode valid
    else if c == 'x' then .more (.digits 2 0) valid
    else if c == '0' then .more (.octal 1 0) valid
    else .more .plain (valid && !('1' ≤ c && c ≤ '9'))
  | .unicode =>
    if c == '\x7b' then .more (.braced none) valid
    else match hexDigit? c with
      | some d => .more (.digits 3 d) valid
      | none => plainTemplate false c
  | .digits left value =>
    match hexDigit? c with
    | some d => if left ≤ 1 then .more .plain valid else .more (.digits (left - 1) (value * 16 + d)) valid
    | none => plainTemplate false c
  | .braced value =>
    match hexDigit? c with
    | some d => .more (.braced (some (min (value.getD 0 * 16 + d) 0x110000))) valid
    | none =>
      if c == '\x7d' then .more .plain (valid && value.any (· < 0x110000))
      else plainTemplate false c
  | .octal _ _ => plainTemplate (valid && !c.isDigit) c
  | .carriage => plainTemplate valid c

structure TemplatePiece where
  last : Bool
  valid : Bool
  rest : List Char

def readTemplate : EscapeMode → Bool → List Char → Option TemplatePiece
  | _, _, [] => none
  | mode, valid, c :: rest =>
    match templateStep mode valid c with
    | .closed valid => some ⟨true, valid, rest⟩
    | .substitution valid => some ⟨false, valid, rest⟩
    | .more mode valid => readTemplate mode valid rest

end Realms.Script
