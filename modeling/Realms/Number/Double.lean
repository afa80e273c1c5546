/-!
Double precision numbers: a sign, and a whole number of at most 53 bits times a power of two. They
are rounded from exact fractions, so that reading and writing them is a matter of whole numbers.
-/
namespace Realms.Number

/-- The number `± mantissa * 2 ^ exponent`. Either the mantissa has 53 bits, or the exponent is the
least one, which is also how zero is written. -/
structure Double where
  negative : Bool
  mantissa : Nat
  exponent : Int
deriving DecidableEq, Repr, Inhabited

namespace Double

def leastExponent : Int := -1074

def greatestExponent : Int := 971

def leastFull : Nat := 0x10000000000000

def mantissaBound : Nat := 0x20000000000000

def zero (negative : Bool) : Double := ⟨negative, 0, leastExponent⟩

/-- The whole number nearest to a fraction; a half goes to the even neighbour. -/
def roundDiv (num den : Nat) : Nat :=
  let whole := num / den
  let twice := 2 * (num % den)
  if twice < den then whole
  else if twice > den then whole + 1
  else whole + whole % 2

/-- `num / (den * 2 ^ exponent)`, as numerator and denominator. -/
def scaled (num den : Nat) (exponent : Int) : Nat × Nat :=
  if exponent ≥ 0 then (num, den * Nat.pow 2 exponent.toNat) else (num * Nat.pow 2 (-exponent).toNat, den)

/-- The least exponent for which the mantissa of a fraction has at most 53 bits. -/
def exponentFor (num den : Nat) : Int :=
  let guess : Int := (num.log2 : Int) - (den.log2 : Int) - 53
  let fits := fun exponent => let (n, d) := scaled num den exponent; n / d < mantissaBound
  let exact := if fits guess then guess else if fits (guess + 1) then guess + 1 else guess + 2
  max exact leastExponent

/-- The nearest number to a fraction; `none` if it is beyond the greatest one. -/
def round? (negative : Bool) (num den : Nat) : Option Double :=
  if num == 0 || den == 0 then some (zero negative)
  else
    let exponent := exponentFor num den
    let (n, d) := scaled num den exponent
    let mantissa := roundDiv n d
    let (mantissa, exponent) :=
      if mantissa == mantissaBound then (leastFull, exponent + 1) else (mantissa, exponent)
    if exponent > greatestExponent then none else some ⟨negative, mantissa, exponent⟩

def fraction (x : Double) : Nat × Nat :=
  if x.exponent ≥ 0 then (x.mantissa * Nat.pow 2 x.exponent.toNat, 1)
  else (x.mantissa, Nat.pow 2 (-x.exponent).toNat)

def mul? (x y : Double) : Option Double :=
  let (a, b) := x.fraction
  let (c, d) := y.fraction
  round? (x.negative != y.negative) (a * c) (b * d)

def div? (x y : Double) : Option Double :=
  let (a, b) := x.fraction
  let (c, d) := y.fraction
  round? (x.negative != y.negative) (a * d) (b * c)

def isZero (x : Double) : Bool := x.mantissa == 0

def powerOfTen (exponent : Nat) : Double := (round? false (Nat.pow 10 exponent) 1).getD (zero false)

/-- A decimal number, taken by the steps of double arithmetic: the digits are rounded first, then
multiplied or divided by the power of ten, which goes in two steps below the least power. `none` is a
number beyond the greatest one. -/
def ofDecimal? (negative : Bool) (digits : Nat) (exponent : Int) : Option Double := do
  let whole ← round? negative digits 1
  if exponent ≥ 0 then
    if whole.isZero then some whole
    else if exponent > 308 then none
    else mul? whole (powerOfTen exponent.toNat)
  else if exponent ≥ -308 then div? whole (powerOfTen (-exponent).toNat)
  else
    let first ← div? whole (powerOfTen 308)
    if exponent + 308 ≥ -308 then div? first (powerOfTen (-(exponent + 308)).toNat)
    else some (zero negative)

/-- Decimal digits and the exponent of the first of them. -/
structure Digits where
  digits : List Char
  exponent : Int
deriving DecidableEq, Repr

/-- The largest `n` with `10 ^ n` at most the fraction, which is below one; `steps` bounds the search. -/
def smallExponent (num den : Nat) : Nat → Int → Int
  | 0, e => e
  | steps + 1, e => if num ≥ den then e else smallExponent (num * 10) den steps (e - 1)

def tenExponent (num den : Nat) : Int :=
  if num ≥ den then ((Nat.toDigits 10 (num / den)).length : Int) - 1 else smallExponent num den 400 0

/-- Whether a fraction reads back as this number: it lies no further away than half the distance to the
neighbours, and exactly there only if the mantissa is even. All sides are taken times four. -/
def readsBack (x : Double) (num den : Nat) : Bool :=
  let (n, d) := x.fraction
  let (u, ud) :=
    if x.exponent ≥ 0 then (Nat.pow 2 x.exponent.toNat, 1) else (1, Nat.pow 2 (-x.exponent).toNat)
  let below := if x.mantissa == leastFull && x.exponent != leastExponent then 1 else 2
  -- the value, the step and the candidate over one denominator
  let value := 4 * n * ud * den
  let step := u * d * den
  let found := 4 * num * d * ud
  if x.mantissa % 2 == 0 then value ≤ found + below * step && found ≤ value + 2 * step
  else value < found + below * step && found < value + 2 * step

def distance (a b c d : Nat) : Nat := if a * d ≥ c * b then a * d - c * b else c * b - a * d

/-- The nearest of the neighbours with this many digits that reads back, if one does. -/
def withDigits (x : Double) (exponent : Int) (count : Nat) : Option Digits :=
  let (n, d) := x.fraction
  let shift := exponent - (count : Int) + 1
  -- the value in units of the last digit
  let (num, den) :=
    if shift ≥ 0 then (n, d * Nat.pow 10 shift.toNat) else (n * Nat.pow 10 (-shift).toNat, d)
  let low := num / den
  let back := fun k =>
    if shift ≥ 0 then readsBack x (k * Nat.pow 10 shift.toNat) 1
    else readsBack x k (Nat.pow 10 (-shift).toNat)
  let pick := fun (k : Nat) =>
    let text := Nat.toDigits 10 k
    some (⟨text, exponent + ((text.length : Int) - count)⟩ : Digits)
  match back low && low > 0, back (low + 1) with
  | true, true =>
    let below := distance num den low 1
    let above := distance num den (low + 1) 1
    if below < above || (below == above && low % 2 == 0) then pick low else pick (low + 1)
  | true, false => pick low
  | false, true => pick (low + 1)
  | false, false => none

def searchDigits (x : Double) (exponent : Int) : Nat → Nat → Option Digits
  | 0, _ => none
  | steps + 1, count =>
    match withDigits x exponent count with
    | some found => some found
    | none => searchDigits x exponent steps (count + 1)

def shortest (x : Double) : Digits :=
  let (n, d) := x.fraction
  let found := (searchDigits x (tenExponent n d) 17 1).getD ⟨['0'], 0⟩
  let kept := (found.digits.reverse.dropWhile (· == '0')).reverse
  ⟨if kept.isEmpty then ['0'] else kept, found.exponent⟩

end Double
end Realms.Number
