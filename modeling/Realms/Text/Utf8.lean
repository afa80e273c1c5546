/-!
Text as bytes. A character takes one to four bytes, always in the shortest way, and no surrogate has
bytes of its own; every other sequence of bytes is refused, or read with replacement characters.
-/
namespace Realms.Text

def encodeChar (c : Char) : List UInt8 :=
  let n := c.toNat
  if n < 0x80 then [n.toUInt8]
  else if n < 0x800 then [(0xC0 + n / 64).toUInt8, (0x80 + n % 64).toUInt8]
  else if n < 0x10000 then
    [(0xE0 + n / 4096).toUInt8, (0x80 + n / 64 % 64).toUInt8, (0x80 + n % 64).toUInt8]
  else
    [(0xF0 + n / 262144).toUInt8, (0x80 + n / 4096 % 64).toUInt8, (0x80 + n / 64 % 64).toUInt8,
      (0x80 + n % 64).toUInt8]

def encode (cs : List Char) : List UInt8 := cs.flatMap encodeChar

def bytesOf (s : String) : List UInt8 := encode s.toList

def isTail (b : UInt8) : Bool := 0x80 ≤ b && b < 0xC0

def tailBits (b : UInt8) : Nat := b.toNat % 64

inductive Decoded where
  | char (c : Char) (rest : List UInt8)
  /-- No character starts here; `rest` is what follows the longest start of one, and `cut` says that
  the sequence ended within a character. -/
  | invalid (cut : Bool) (rest : List UInt8)
deriving DecidableEq, Repr

/-- Whether the second byte can follow the first one of a longer character: this is what keeps to the
shortest form, off the surrogates and below the last code point. -/
def secondFits (first second : UInt8) : Bool :=
  if first == 0xE0 then 0xA0 ≤ second && second < 0xC0
  else if first == 0xED then 0x80 ≤ second && second < 0xA0
  else if first == 0xF0 then 0x90 ≤ second && second < 0xC0
  else if first == 0xF4 then 0x80 ≤ second && second < 0x90
  else isTail second

def decodeFour (value : Nat) (cs : List UInt8) : Decoded :=
  match cs with
  | [] => .invalid true []
  | c :: rest =>
    if !isTail c then .invalid false (c :: rest)
    else match rest with
      | [] => .invalid true []
      | d :: rest =>
        if !isTail d then .invalid false (d :: rest)
        else .char (Char.ofNat ((value * 64 + tailBits c) * 64 + tailBits d)) rest

def decodeThree (value : Nat) (cs : List UInt8) : Decoded :=
  match cs with
  | [] => .invalid true []
  | c :: rest =>
    if isTail c then .char (Char.ofNat (value * 64 + tailBits c)) rest else .invalid false (c :: rest)

def decodeLong (a : UInt8) (rest : List UInt8) : Decoded :=
  match rest with
  | [] => .invalid true []
  | b :: more =>
    if !secondFits a b then .invalid false rest
    else if a < 0xE0 then .char (Char.ofNat ((a.toNat - 0xC0) * 64 + tailBits b)) more
    else if a < 0xF0 then decodeThree ((a.toNat - 0xE0) * 64 + tailBits b) more
    else decodeFour ((a.toNat - 0xF0) * 64 + tailBits b) more

/-- The character in front of a sequence of bytes; `none` at its end. -/
def decodeChar : List UInt8 → Option Decoded
  | [] => none
  | a :: rest =>
    if a < 0x80 then some (.char (Char.ofNat a.toNat) rest)
    else if 0xC2 ≤ a && a ≤ 0xF4 then some (decodeLong a rest)
    else some (.invalid false rest)

/-- Reads at most as many characters as there are bytes. -/
def decodeWith : Nat → List UInt8 → Option (List Char)
  | 0, bytes => if bytes.isEmpty then some [] else none
  | rounds + 1, bytes =>
    match decodeChar bytes with
    | none => some []
    | some (.char c rest) => (decodeWith rounds rest).map (c :: ·)
    | some (.invalid _ _) => none

/-- The text of a sequence of bytes, if each of them belongs to a character. -/
def decode? (bytes : List UInt8) : Option String :=
  (decodeWith bytes.length bytes).map String.ofList

def lossyWith : Nat → List UInt8 → List Char
  | 0, _ => []
  | rounds + 1, bytes =>
    match decodeChar bytes with
    | none => []
    | some (.char c rest) => c :: lossyWith rounds rest
    | some (.invalid _ rest) => '\ufffd' :: lossyWith rounds rest

/-- The text of a sequence of bytes, with a replacement character for each start of a character that
does not go on. -/
def decodeLossy (bytes : List UInt8) : String := String.ofList (lossyWith bytes.length bytes)

end Realms.Text
