import Realms.Json.Value

/-!
Writing values, on one line or indented.
-/
namespace Realms.Json

open Realms.Number

/-- Doubles are positional from a hundred-thousandth to below ten quadrillions, with one digit behind
the point at least; beyond, the exponent has a sign. -/
def doubleChars (x : Double) : List Char :=
  let sign := if x.negative then ['-'] else []
  if x.isZero then sign ++ "0.0".toList
  else
    let found := x.shortest
    let digits := found.digits
    let e := found.exponent
    let body :=
      if 0 ≤ e && e ≤ 15 then
        let whole := e.toNat + 1
        if digits.length ≤ whole then
          digits ++ List.replicate (whole - digits.length) '0' ++ ".0".toList
        else digits.take whole ++ '.' :: digits.drop whole
      else if -5 ≤ e && e < 0 then "0.".toList ++ List.replicate ((-e).toNat - 1) '0' ++ digits
      else
        let mantissa := match digits with
          | [d] => [d]
          | d :: rest => d :: '.' :: rest
          | [] => []
        mantissa ++ 'e' :: (if e < 0 then '-' else '+') :: Nat.toDigits 10 e.natAbs
    sign ++ body

def numberChars : Number → List Char
  | .natural n => Nat.toDigits 10 n
  | .negative n => '-' :: Nat.toDigits 10 n
  | .double x => doubleChars x

def hexDigit (n : Nat) : Char := if n < 10 then Char.ofNat (48 + n) else Char.ofNat (87 + n)

/-- Quotes, backslashes and control characters have an escape; everything else stands for itself. -/
def escapeChar (c : Char) : List Char :=
  if c == '"' then ['\\', '"']
  else if c == '\\' then ['\\', '\\']
  else if c == '\n' then ['\\', 'n']
  else if c == '\r' then ['\\', 'r']
  else if c == '\t' then ['\\', 't']
  else if c == '\x08' then ['\\', 'b']
  else if c == '\x0c' then ['\\', 'f']
  else if c.toNat < 32 then ['\\', 'u', '0', '0', hexDigit (c.toNat / 16), hexDigit (c.toNat % 16)]
  else [c]

def textChars (s : String) : List Char := '"' :: s.toList.flatMap escapeChar ++ ['"']

def quoted (s : String) : String := String.ofList (textChars s)

mutual

def compactChars : Value → List Char
  | .null => "null".toList
  | .bool b => (if b then "true" else "false").toList
  | .number n => numberChars n
  | .text s => textChars s
  | .list [] => "[]".toList
  | .list (v :: rest) => '[' :: compactChars v ++ compactItems rest
  | .object [] => ['\x7b', '\x7d']
  | .object ((k, v) :: rest) => '\x7b' :: textChars k ++ ':' :: compactChars v ++ compactMembers rest

def compactItems : List Value → List Char
  | [] => [']']
  | v :: rest => ',' :: compactChars v ++ compactItems rest

def compactMembers : List (String × Value) → List Char
  | [] => ['\x7d']
  | (k, v) :: rest => ',' :: textChars k ++ ':' :: compactChars v ++ compactMembers rest

end

def Value.compact (v : Value) : String := String.ofList (compactChars v)

def newLine (level : Nat) : List Char := '\n' :: List.replicate (2 * level) ' '

mutual

/-- A value with each item and member on a line of its own, two spaces deeper than what holds it. -/
def prettyChars (level : Nat) : Value → List Char
  | .list (v :: rest) =>
    '[' :: newLine (level + 1) ++ prettyChars (level + 1) v ++ prettyItems level rest
  | .object ((k, v) :: rest) =>
    '\x7b' :: newLine (level + 1) ++ textChars k ++ ':' :: ' ' :: prettyChars (level + 1) v ++
      prettyMembers level rest
  | v => compactChars v

def prettyItems (level : Nat) : List Value → List Char
  | [] => newLine level ++ [']']
  | v :: rest => ',' :: newLine (level + 1) ++ prettyChars (level + 1) v ++ prettyItems level rest

def prettyMembers (level : Nat) : List (String × Value) → List Char
  | [] => newLine level ++ ['\x7d']
  | (k, v) :: rest =>
    ',' :: newLine (level + 1) ++ textChars k ++ ':' :: ' ' :: prettyChars (level + 1) v ++
      prettyMembers level rest

end

def Value.pretty (v : Value) : String := String.ofList (prettyChars 0 v)

end Realms.Json
