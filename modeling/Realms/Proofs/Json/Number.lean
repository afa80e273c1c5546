import Realms.Json.Read
import Realms.Json.Write
import Realms.Proofs.Text.Utf8

/-!
Whole numbers survive being written: their digits are read back, as far as they fit 64 bits.
-/
namespace Realms.Json

open Realms.Text (encode encodeChar encode_nil encode_cons encode_append)

/-- A number without a fraction, of 64 bits with its sign. -/
def Number.isWhole : Number → Bool
  | .natural n => n ≤ largest
  | .negative n => 0 < n && n ≤ 0x8000000000000000
  | .double _ => false

/-- What may stand behind a value on its line. -/
def EndsValue (rest : List UInt8) : Prop := ∀ b ∈ rest.head?, b = 0x2C ∨ b = 0x5D ∨ b = 0x7D

theorem endsValue_nil : EndsValue [] := fun _ member => nomatch member

theorem endsValue_cons {b : UInt8} {rest : List UInt8} (ends : b = 0x2C ∨ b = 0x5D ∨ b = 0x7D) :
    EndsValue (b :: rest) := fun _ member => Option.some.inj member ▸ ends

variable {rest : List UInt8}

theorem digitChar_byte : ∀ d < 10,
    (encodeChar d.digitChar).map (fun b => (isDigit b, digitValue b, b == 48)) = [(true, d, d == 0)] := by
  decide

theorem exists_digitByte {d : Nat} (small : d < 10) : ∃ b, encode (Nat.toDigits 10 d) = [b] ∧ isDigit b = true ∧
    digitValue b = d ∧ (b = 48 ↔ d = 0) := by
  obtain ⟨b, byte, decided⟩ := List.map_eq_singleton_iff.mp (digitChar_byte d small)
  simp only [Prod.mk.injEq] at decided
  obtain ⟨digit, value, zero⟩ := decided
  refine ⟨b, ?_, digit, value, ?_⟩
  · rw [Nat.toDigits_of_lt_base small, encode_cons, encode_nil, List.append_nil, byte]
  · rw [← beq_iff_eq, zero, beq_iff_eq]

/-- All digits but the last one, then the last one. -/
theorem encode_toDigits_of_le {n : Nat} (long : 10 ≤ n) :
    encode (Nat.toDigits 10 n) = encode (Nat.toDigits 10 (n / 10)) ++ encode (Nat.toDigits 10 (n % 10)) := by
  have parts := Nat.toDigits_append_toDigits (b := 10) (n := n / 10) (d := n % 10) (by omega) (by omega) (by omega)
  have whole : 10 * (n / 10) + n % 10 = n := by omega
  rw [← encode_append, parts, whole]

theorem takeDigits_digit {value taken : Nat} {b : UInt8} (digit : isDigit b = true)
    (fits : value * 10 + digitValue b ≤ largest) :
    takeDigits value taken (b :: rest) = takeDigits (value * 10 + digitValue b) (taken + 1) rest := by
  simp [takeDigits, digit, fits]

theorem takeDigits_toDigits {n : Nat} (fits : n ≤ largest) (taken : Nat) (rest : List UInt8) :
    ∃ count, takeDigits 0 taken (encode (Nat.toDigits 10 n) ++ rest) = takeDigits n count rest := by
  induction n using Nat.strongRecOn generalizing rest with
  | ind n ih =>
      obtain short | long := Nat.lt_or_ge n 10
      · obtain ⟨b, bytes, digit, value, _⟩ := exists_digitByte short
        refine ⟨taken + 1, ?_⟩
        rw [bytes, List.singleton_append, takeDigits_digit digit (by omega), value]
        simp
      · obtain ⟨b, bytes, digit, value, _⟩ := exists_digitByte (Nat.mod_lt n (by decide : 10 > 0))
        obtain ⟨count, read⟩ := ih (n / 10) (by omega) (by omega) (b :: rest)
        have whole : n / 10 * 10 + n % 10 = n := by omega
        refine ⟨count + 1, ?_⟩
        rw [encode_toDigits_of_le long, bytes, List.append_assoc, List.singleton_append, read,
          takeDigits_digit digit (by omega), value, whole]

/-- A number starts with a digit, and only zero with a zero. -/
theorem exists_firstDigit (n : Nat) : ∃ b more, encode (Nat.toDigits 10 n) = b :: more ∧ isDigit b = true ∧
    (b = 48 → n = 0 ∧ more = []) := by
  induction n using Nat.strongRecOn with
  | ind n ih =>
      obtain short | long := Nat.lt_or_ge n 10
      · obtain ⟨b, bytes, digit, _, zero⟩ := exists_digitByte short
        exact ⟨b, [], bytes, digit, fun same => ⟨zero.mp same, rfl⟩⟩
      · obtain ⟨b, more, bytes, digit, zero⟩ := ih (n / 10) (by omega)
        refine ⟨b, _, by rw [encode_toDigits_of_le long, bytes, List.cons_append], digit, fun same => ?_⟩
        have nothing := (zero same).1
        omega

theorem EndsValue.head (ends : EndsValue rest) {b : UInt8} {more : List UInt8} (bytes : rest = b :: more) :
    isDigit b = false ∧ b ≠ 0x2E ∧ b ≠ 0x65 ∧ b ≠ 0x45 := by
  rcases ends b (by rw [bytes]; rfl) with rfl | rfl | rfl <;> decide

theorem takeDigits_ends (ends : EndsValue rest) (value taken : Nat) :
    takeDigits value taken rest = (value, taken, rest) := by
  cases rest with
  | nil => rfl
  | cons b more => simp [takeDigits, (ends.head rfl).1]

theorem readNumber_toDigits {n : Nat} (fits : n ≤ largest) (ends : EndsValue rest) (negative : Bool) :
    readNumber true negative (encode (Nat.toDigits 10 n) ++ rest) = .ok ⟨wholeNumber negative n, rest⟩ := by
  obtain ⟨b, more, bytes, digit, zero⟩ := exists_firstDigit n
  obtain ⟨count, read⟩ : ∃ count,
      (if b == 48 then (0, 1, more ++ rest) else takeDigits 0 0 (b :: (more ++ rest))) = (n, count, rest) := by
    obtain ⟨count, read⟩ := takeDigits_toDigits fits 0 rest
    rw [takeDigits_ends ends, bytes] at read
    split
    · rename_i isZero
      obtain ⟨rfl, rfl⟩ := zero (beq_iff_eq.mp isZero)
      exact ⟨1, rfl⟩
    · exact ⟨count, read⟩
  rw [bytes, List.cons_append, readNumber, read]
  cases rest with
  | nil => simp [digit]
  | cons c after =>
      obtain ⟨noDigit, noPoint, noSmall, noBig⟩ := ends.head rfl
      simp [digit, noDigit, noPoint, noSmall, noBig]

/-- A byte with which a value starts that is neither a list nor an object. -/
def StartsScalar (b : UInt8) : Prop := isSpace b = false ∧ b ∉ [0x5B, 0x5D, 0x7B]

instance (b : UInt8) : Decidable (StartsScalar b) := inferInstanceAs (Decidable (_ ∧ _))

theorem ne_of_isDigit {b c : UInt8} (digit : isDigit b = true) (other : isDigit c = false) : b ≠ c := by
  rintro rfl
  rw [digit] at other
  cases other

theorem startsScalar_of_isDigit {b : UInt8} (digit : isDigit b = true) : StartsScalar b := by
  have ne {c : UInt8} (other : isDigit c = false) : (b == c) = false := beq_false_of_ne (ne_of_isDigit digit other)
  refine ⟨?_, ?_⟩
  · rw [isSpace, ne (by decide), ne (by decide), ne (by decide), ne (by decide)]
    rfl
  · intro member
    simp only [List.mem_cons, List.not_mem_nil, or_false] at member
    rcases member with rfl | rfl | rfl <;> exact absurd digit (by decide)

variable {rounds : Nat}

theorem readScalar_digit {b : UInt8} {more : List UInt8} (digit : isDigit b = true) :
    readScalar true rounds b more =
      (readNumber true false (b :: more)).map fun found => ⟨.number found.value, found.rest⟩ := by
  have ne {c : UInt8} (other : isDigit c = false) : b ≠ c := ne_of_isDigit digit other
  simp only [readScalar, beq_iff_eq, ne (c := 0x22) (by decide), ne (c := 0x6E) (by decide),
    ne (c := 0x74) (by decide), ne (c := 0x66) (by decide), ne (c := 0x2D) (by decide), digit, ↓reduceIte]
  cases readNumber true false (b :: more) <;> rfl

/-- A written whole number is read as that number. -/
theorem readScalar_numberChars {number : Number} (whole : number.isWhole) (ends : EndsValue rest) :
    ∃ b bytes, encode (numberChars number) ++ rest = b :: bytes ∧ StartsScalar b ∧
      readScalar true rounds b bytes = .ok ⟨.number number, rest⟩ := by
  cases number with
  | natural n =>
      obtain ⟨b, more, bytes, digit, _⟩ := exists_firstDigit n
      have read := readNumber_toDigits (of_decide_eq_true whole) ends false
      refine ⟨b, more ++ rest, ?_, startsScalar_of_isDigit digit, ?_⟩
      · rw [numberChars, bytes, List.cons_append]
      · rw [bytes, List.cons_append] at read
        rw [readScalar_digit digit, read]
        rfl
  | negative n =>
      obtain ⟨positive, least⟩ : 0 < n ∧ n ≤ 0x8000000000000000 := by simpa [Number.isWhole] using whole
      have read := readNumber_toDigits (n := n) (Nat.le_trans least (by decide)) ends true
      have minus : encodeChar '-' = [0x2D] := by decide
      refine ⟨0x2D, encode (Nat.toDigits 10 n) ++ rest, ?_, by decide, ?_⟩
      · rw [numberChars, encode_cons, minus]
        rfl
      · simp [readScalar, read, bind, Except.bind, wholeNumber, positive, least, pure, Except.pure]
  | double x => cases whole

end Realms.Json
