import Realms.Json.Value
import Realms.Text.Utf8

/-!
Reading values from bytes. Three kinds of failure are told apart: the bytes break the grammar, they
end too early, or (for those who expect a certain shape) the value is not the one that is wanted.

A value may be `kept` or skipped. A skipped one is only checked against the grammar: it may be nested
at will, its numbers have no size and its texts may be any bytes.
-/
namespace Realms.Json

open Realms.Number

inductive Failure where
  | malformed
  | ended
  | unexpected
deriving DecidableEq, Repr, Inhabited

abbrev Result (α : Type) := Except Failure α

structure Read (α : Type) where
  value : α
  rest : List UInt8

def isSpace (b : UInt8) : Bool := b == 0x20 || b == 0x0A || b == 0x09 || b == 0x0D

def skipSpace (bytes : List UInt8) : List UInt8 := bytes.dropWhile isSpace

def hexDigit? (b : UInt8) : Option Nat :=
  if 48 ≤ b && b ≤ 57 then some (b.toNat - 48)
  else if 97 ≤ b && b ≤ 102 then some (b.toNat - 87)
  else if 65 ≤ b && b ≤ 70 then some (b.toNat - 55)
  else none

def readHex (bytes : List UInt8) : Result (Read Nat) :=
  match bytes with
  | a :: b :: c :: d :: rest =>
    match hexDigit? a, hexDigit? b, hexDigit? c, hexDigit? d with
    | some a, some b, some c, some d => .ok ⟨((a * 16 + b) * 16 + c) * 16 + d, rest⟩
    | _, _, _, _ => .error .malformed
  | _ => .error .ended

/-- The low half of a pair of escapes, behind the high one. -/
def readLowHalf (high : Nat) (bytes : List UInt8) : Result (Read (List UInt8)) :=
  match bytes with
  | [] => .error .ended
  | [b] => if b == 0x5C then .error .ended else .error .malformed
  | b :: c :: rest =>
    if b != 0x5C || c != 0x75 then .error .malformed
    else do
      let low ← readHex rest
      if low.value < 0xDC00 || low.value > 0xDFFF then .error .malformed
      else
        let point := 0x10000 + (high - 0xD800) * 0x400 + (low.value - 0xDC00)
        .ok ⟨Text.encodeChar (Char.ofNat point), low.rest⟩

/-- The character of an escape by number. A high half needs its low half, and no low half stands
alone; a text that is skipped takes any four digits. -/
def readUnicode (kept : Bool) (bytes : List UInt8) : Result (Read (List UInt8)) := do
  let first ← readHex bytes
  if !kept then .ok ⟨[], first.rest⟩
  else if 0xDC00 ≤ first.value && first.value ≤ 0xDFFF then .error .malformed
  else if 0xD800 ≤ first.value && first.value ≤ 0xDBFF then readLowHalf first.value first.rest
  else .ok ⟨Text.encodeChar (Char.ofNat first.value), first.rest⟩

def escaped? (b : UInt8) : Option UInt8 :=
  if b == 0x22 || b == 0x5C || b == 0x2F then some b
  else if b == 0x62 then some 8
  else if b == 0x66 then some 12
  else if b == 0x6E then some 10
  else if b == 0x72 then some 13
  else if b == 0x74 then some 9
  else none

def readTextBytes (kept : Bool) : Nat → List UInt8 → List UInt8 → Result (Read (List UInt8))
  | 0, _, _ => .error .ended
  | _ + 1, _, [] => .error .ended
  | rounds + 1, found, b :: rest =>
    if b == 0x22 then .ok ⟨found, rest⟩
    else if b == 0x5C then
      match rest with
      | [] => .error .ended
      | c :: rest =>
        if c == 0x75 then do
          let char ← readUnicode kept rest
          readTextBytes kept rounds (char.value.reverse ++ found) char.rest
        else match escaped? c with
          | some d => readTextBytes kept rounds (d :: found) rest
          | none => .error .malformed
    else if b < 0x20 then .error .malformed
    else readTextBytes kept rounds (b :: found) rest

def readText (kept : Bool) (rounds : Nat) (bytes : List UInt8) : Result (Read String) := do
  let found ← readTextBytes kept rounds [] bytes
  if !kept then .ok ⟨"", found.rest⟩
  else match Text.decode? found.value.reverse with
    | some s => .ok ⟨s, found.rest⟩
    | none => .error .malformed

def isDigit (b : UInt8) : Bool := 48 ≤ b && b ≤ 57

def digitValue (b : UInt8) : Nat := b.toNat - 48

def largest : Nat := 0xFFFFFFFFFFFFFFFF

/-- Exponents of this size and above are all alike: too large for any digits to make up for. -/
def hugeExponent : Nat := 0x80000000

/-- Digits, as long as their value fits 64 bits; then the number of digits that are left out. -/
def takeDigits : Nat → Nat → List UInt8 → Nat × Nat × List UInt8
  | value, taken, b :: rest =>
    if isDigit b && value * 10 + digitValue b ≤ largest then
      takeDigits (value * 10 + digitValue b) (taken + 1) rest
    else (value, taken, b :: rest)
  | value, taken, [] => (value, taken, [])

def makeDouble (kept negative : Bool) (digits : Nat) (exponent : Int) (rest : List UInt8) :
    Result (Read Number) :=
  if !kept then .ok ⟨.natural 0, rest⟩
  else match Double.ofDecimal? negative digits exponent with
    | some x => .ok ⟨.double x, rest⟩
    | none => .error .malformed

/-- The exponent of a number, behind its letter. One that does not fit 32 bits makes the number zero
or too large. -/
def readExponent (kept negative : Bool) (digits : Nat) (exponent : Int) (bytes : List UInt8) :
    Result (Read Number) :=
  let (below, bytes) := match bytes with
    | b :: rest => if b == 0x2B then (false, rest) else if b == 0x2D then (true, rest) else (false, bytes)
    | [] => (false, [])
  match bytes with
  | [] => .error .ended
  | b :: _ =>
    if !isDigit b then .error .malformed
    else
      let shown := bytes.takeWhile isDigit
      let rest := bytes.dropWhile isDigit
      let value := shown.foldl (fun n b => min (n * 10 + digitValue b) hugeExponent) 0
      if value ≥ hugeExponent then
        if digits != 0 && !below && kept then .error .malformed
        else .ok ⟨.double (Double.zero negative), rest⟩
      else makeDouble kept negative digits (if below then exponent - value else exponent + value) rest

def readNumberTail (kept negative : Bool) (digits : Nat) (exponent : Int) (bytes : List UInt8) :
    Result (Read Number) :=
  match bytes with
  | b :: rest =>
    if b == 0x65 || b == 0x45 then readExponent kept negative digits exponent rest
    else makeDouble kept negative digits exponent bytes
  | [] => makeDouble kept negative digits exponent []

/-- The digits behind the point. Those that no longer fit are left out. -/
def readFraction (kept negative : Bool) (digits : Nat) (exponent : Int) (bytes : List UInt8) :
    Result (Read Number) :=
  match bytes with
  | [] => .error .ended
  | b :: _ =>
    if !isDigit b then .error .malformed
    else
      let (value, taken, rest) := takeDigits digits 0 bytes
      readNumberTail kept negative value (exponent - taken) (rest.dropWhile isDigit)

/-- The number that whole digits make on their own. Zero below zero is a double. -/
def wholeNumber (negative : Bool) (n : Nat) : Number :=
  if !negative then .natural n
  else if 0 < n && n ≤ 0x8000000000000000 then .negative n
  else .double ((Double.round? true n 1).getD (Double.zero true))

def readNumber (kept negative : Bool) (bytes : List UInt8) : Result (Read Number) :=
  match bytes with
  | [] => .error .ended
  | b :: rest =>
    if !isDigit b then .error .malformed
    else
      let (value, _, after) := if b == 48 then (0, 1, rest) else takeDigits 0 0 bytes
      match after with
      | c :: more =>
        if isDigit c then
          if b == 48 then .error .malformed
          else
            let dropped := after.takeWhile isDigit
            let after := after.dropWhile isDigit
            match after with
            | d :: more =>
              if d == 0x2E then readFraction kept negative value dropped.length more
              else readNumberTail kept negative value dropped.length after
            | [] => makeDouble kept negative value dropped.length []
        else if c == 0x2E then readFraction kept negative value 0 more
        else if c == 0x65 || c == 0x45 then readExponent kept negative value 0 more
        else .ok ⟨wholeNumber negative value, after⟩
      | [] => .ok ⟨wholeNumber negative value, []⟩

def readWord (word : List UInt8) (bytes : List UInt8) : Result (List UInt8) :=
  match word, bytes with
  | [], rest => .ok rest
  | _ :: _, [] => .error .ended
  | a :: word, b :: rest => if a == b then readWord word rest else .error .malformed

/-- A value that is neither a list nor an object; its first byte is apart. -/
def readScalar (kept : Bool) (rounds : Nat) (b : UInt8) (rest : List UInt8) :
    Result (Read Value) := do
  if b == 0x22 then
    let found ← readText kept rounds rest
    return ⟨.text found.value, found.rest⟩
  else if b == 0x6E then return ⟨.null, ← readWord [117, 108, 108] rest⟩
  else if b == 0x74 then return ⟨.bool true, ← readWord [114, 117, 101] rest⟩
  else if b == 0x66 then return ⟨.bool false, ← readWord [97, 108, 115, 101] rest⟩
  else if b == 0x2D then
    let found ← readNumber kept true rest
    return ⟨.number found.value, found.rest⟩
  else if isDigit b then
    let found ← readNumber kept false (b :: rest)
    return ⟨.number found.value, found.rest⟩
  else .error .malformed

def readKeyText (kept : Bool) (rounds : Nat) (bytes : List UInt8) : Result (Read String) :=
  match bytes with
  | [] => .error .ended
  | b :: rest => if b != 0x22 then .error .malformed else readText kept rounds rest

def readColon (bytes : List UInt8) : Result (List UInt8) :=
  match skipSpace bytes with
  | [] => .error .ended
  | c :: rest => if c == 0x3A then .ok rest else .error .malformed

def readKey (kept : Bool) (rounds : Nat) (bytes : List UInt8) : Result (Read String) := do
  let key ← readKeyText kept rounds bytes
  return ⟨key.value, ← readColon key.rest⟩

inductive After where
  | closed (rest : List UInt8)
  | more (rest : List UInt8)

def readAfter (closing : UInt8) (bytes : List UInt8) : Result After :=
  match skipSpace bytes with
  | [] => .error .ended
  | b :: rest =>
    if b == closing then .ok (.closed rest)
    else if b == 0x2C then
      match skipSpace rest with
      | [] => .error .ended
      | c :: more => if c == closing then .error .malformed else .ok (.more (c :: more))
    else .error .malformed

def readItems (item : List UInt8 → Result (Read Value)) : Nat → List UInt8 → Result (Read (List Value))
  | 0, _ => .error .ended
  | rounds + 1, bytes => do
    let first ← item bytes
    match ← readAfter 0x5D first.rest with
    | .closed rest => return ⟨[first.value], rest⟩
    | .more rest =>
      let more ← readItems item rounds rest
      return ⟨first.value :: more.value, more.rest⟩

def readMembers (kept : Bool) (item : List UInt8 → Result (Read Value)) :
    Nat → List UInt8 → Result (Read (List (String × Value)))
  | 0, _ => .error .ended
  | rounds + 1, bytes => do
    let key ← readKey kept (rounds + 1) bytes
    let first ← item key.rest
    match ← readAfter 0x7D first.rest with
    | .closed rest => return ⟨[(key.value, first.value)], rest⟩
    | .more rest =>
      let more ← readMembers kept item rounds rest
      return ⟨(key.value, first.value) :: more.value, more.rest⟩

/-- A value in at most so many levels of lists and objects; one more breaks the grammar. `rounds` is
no less than the number of bytes, which bounds every text, list and object in it. -/
def readValue (kept : Bool) (rounds : Nat) : Nat → List UInt8 → Result (Read Value)
  | 0, bytes =>
    match skipSpace bytes with
    | [] => .error .ended
    | b :: rest => if b == 0x5B || b == 0x7B then .error .malformed else readScalar kept rounds b rest
  | levels + 1, bytes =>
    match skipSpace bytes with
    | [] => .error .ended
    | b :: rest =>
      if b == 0x5B then
        match skipSpace rest with
        | [] => .error .ended
        | c :: more =>
          if c == 0x5D then .ok ⟨.list [], more⟩
          else do
            let items ← readItems (readValue kept rounds levels) rounds (c :: more)
            return ⟨.list items.value, items.rest⟩
      else if b == 0x7B then
        match skipSpace rest with
        | [] => .error .ended
        | c :: more =>
          if c == 0x7D then .ok ⟨.object [], more⟩
          else do
            let members ← readMembers kept (readValue kept rounds levels) rounds (c :: more)
            return ⟨.object members.value, members.rest⟩
      else readScalar kept rounds b rest

def deepest : Nat := 127

def endOfText {α : Type} (found : Read α) : Result α :=
  if (skipSpace found.rest).isEmpty then .ok found.value else .error .malformed

def read (bytes : List UInt8) : Result Value :=
  readValue true (bytes.length + 1) deepest bytes >>= endOfText

end Realms.Json
