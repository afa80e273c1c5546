import Mathlib.Algebra.Group.Nat.Defs
import Mathlib.Data.List.Basic
import Mathlib.Data.List.Forall2
import Realms.Proofs.Script.Lexemes

/-!
The literals of texts in a module, by the grammar of scripts: pieces between two quotes, each a character or an escape
with the code units that it stands for. A text that is written with the escapes of JSON is one such literal with that
text as its value, and there is no other way to read it, whatever stands behind it.
-/
namespace Realms.Script

/-- The code units of a code point: itself, or the two surrogates of one that lies beyond them. -/
def unitsOf (n : Nat) : List Nat :=
  if n < 0x10000 then [n] else [0xD800 + (n - 0x10000) / 0x400, 0xDC00 + (n - 0x10000) % 0x400]

/-- The value that a text has in a script. -/
def unitsOfText (s : String) : List Nat := s.toList.flatMap fun c => unitsOf c.toNat

namespace Literal

/-- The characters that stand for another one behind a backslash, or for themselves where they would end a literal. -/
def singleEscapes : List (Char × Nat) :=
  [('\x27', 0x27), ('"', 0x22), ('\\', 0x5C), ('b', 0x08), ('f', 0x0C), ('n', 0x0A), ('r', 0x0D), ('t', 0x09),
    ('v', 0x0B)]

/-- The number that digits to the base of sixteen write behind one that was read. -/
def hexValue? (n : Nat) : List Char → Option Nat
  | [] => some n
  | c :: rest => (hexDigit? c).bind fun value => hexValue? (n * 16 + value) rest

/-- A piece of a literal, what stands behind it, and the code units of the piece. A module has no escapes of digits but
that of zero, which no digit may follow. -/
inductive Piece (quote : Char) : List Char → List Char → List Nat → Prop
  | plain {c : Char} {behind : List Char} (notQuote : c ≠ quote) (notBackslash : c ≠ '\\') (notFeed : c ≠ '\n')
      (notReturn : c ≠ '\r') : Piece quote [c] behind (unitsOf c.toNat)
  | single {c : Char} {n : Nat} {behind : List Char} (listed : (c, n) ∈ singleEscapes) :
      Piece quote ['\\', c] behind [n]
  | other {c : Char} {behind : List Char} (unlisted : ∀ n, (c, n) ∉ singleEscapes) (notDigit : c.isDigit = false)
      (notHex : c ≠ 'x') (notUnicode : c ≠ 'u') (notLineEnd : isLineEnd c = false) :
      Piece quote ['\\', c] behind (unitsOf c.toNat)
  | zero {behind : List Char} (alone : ∀ c more, behind = c :: more → c.isDigit = false) :
      Piece quote ['\\', '0'] behind [0]
  | hex {a b : Char} {n : Nat} {behind : List Char} (reads : hexValue? 0 [a, b] = some n) :
      Piece quote ['\\', 'x', a, b] behind [n]
  | unicode {a b c d : Char} {n : Nat} {behind : List Char} (reads : hexValue? 0 [a, b, c, d] = some n) :
      Piece quote ['\\', 'u', a, b, c, d] behind [n]
  | codePoint {digits : List Char} {n : Nat} {behind : List Char} (nonempty : digits ≠ [])
      (reads : hexValue? 0 digits = some n) (within : n < 0x110000) :
      Piece quote ('\\' :: 'u' :: '\x7b' :: digits ++ ['\x7d']) behind (unitsOf n)
  | lineEnd {c : Char} {behind : List Char} (ends : isLineEnd c = true) (notReturn : c ≠ '\r') :
      Piece quote ['\\', c] behind []
  | carriage {behind : List Char} (alone : ∀ more, behind ≠ '\n' :: more) : Piece quote ['\\', '\r'] behind []
  | carriageFeed {behind : List Char} : Piece quote ['\\', '\r', '\n'] behind []

/-- Pieces one after the other. -/
inductive Pieces (quote : Char) : List Char → List Char → List Nat → Prop
  | nil {behind : List Char} : Pieces quote [] behind []
  | cons {front more behind : List Char} {units others : List Nat} (piece : Piece quote front (more ++ behind) units)
      (pieces : Pieces quote more behind others) : Pieces quote (front ++ more) behind (units ++ others)

end Literal

open Literal

/-- A literal, what stands behind it, and its value. -/
def IsLiteral (written behind : List Char) (units : List Nat) : Prop :=
  ∃ quote body, (quote = '"' ∨ quote = '\x27') ∧ written = quote :: body ++ [quote] ∧
    Pieces quote body (quote :: behind) units

/-! ### Values -/

theorem unitsOf_small {n : Nat} (small : n < 0x10000) : unitsOf n = [n] := if_pos small

theorem joinPairs_unitsOf (c : Char) (rest : List Nat) :
    joinPairs (unitsOf c.toNat ++ rest) = c.toNat :: joinPairs rest := by
  by_cases small : c.toNat < 0x10000
  · rw [unitsOf_small small]
    exact joinPairs_cons (not_isHighSurrogate c) rest
  · have bound : c.toNat < 0x110000 := by
      have valid := c.valid
      simp only [UInt32.isValidChar, Nat.isValidChar] at valid
      simp only [Char.toNat]
      omega
    have high : isHighSurrogate (0xD800 + (c.toNat - 0x10000) / 0x400) = true := by
      simp only [isHighSurrogate, Bool.and_eq_true, decide_eq_true_eq]
      omega
    have low : isLowSurrogate (0xDC00 + (c.toNat - 0x10000) % 0x400) = true := by
      simp only [isLowSurrogate, Bool.and_eq_true, decide_eq_true_eq]
      omega
    have value : pairValue (0xD800 + (c.toNat - 0x10000) / 0x400) (0xDC00 + (c.toNat - 0x10000) % 0x400) = c.toNat := by
      unfold pairValue
      omega
    rw [unitsOf, if_neg small]
    simp [joinPairs, high, low, value]

/-- The code units of a text are those of no other one. -/
theorem joinPairs_unitsOfText (cs : List Char) :
    joinPairs (cs.flatMap fun c => unitsOf c.toNat) = cs.map Char.toNat := by
  induction cs with
  | nil => rfl
  | cons c cs ih => rw [List.flatMap_cons, joinPairs_unitsOf, ih, List.map_cons]

theorem unitsOfText_injective {s t : String} (same : unitsOfText s = unitsOfText t) : s = t := by
  have points : s.toList.map Char.toNat = t.toList.map Char.toNat := by
    rw [← joinPairs_unitsOfText, ← joinPairs_unitsOfText]
    exact congrArg joinPairs same
  have chars : s.toList = t.toList := List.map_injective_iff.mpr (fun _ _ => Char.toNat_inj.mp) points
  exact String.toList_injective chars

/-! ### Literals are read in one way -/

namespace QuotedSoFar

def pushEach (q : QuotedSoFar) (found : List Nat) : QuotedSoFar := { q with units := found.reverse ++ q.units }

theorem pushEach_append (q : QuotedSoFar) (found more : List Nat) :
    (q.pushEach found).pushEach more = q.pushEach (found ++ more) := by
  simp [pushEach]

theorem pushEach_injective {q : QuotedSoFar} {found other : List Nat} (same : q.pushEach found = q.pushEach other) :
    found = other := by
  have units : found.reverse ++ q.units = other.reverse ++ q.units := congrArg QuotedSoFar.units same
  exact List.reverse_injective (List.append_cancel_right units)

end QuotedSoFar

namespace Literal

variable {quote : Char} {front behind digits : List Char} {units : List Nat}

theorem readQuoted_escape (isQuote : quote = '"' ∨ quote = '\x27') {c : Char} {mode : EscapeMode} {q found : QuotedSoFar}
    (step : escapedQuoted q c = .more mode found) (rest : List Char) :
    readQuoted quote .plain q ('\\' :: c :: rest) = readQuoted quote mode found rest := by
  have opens : readQuoted quote .plain q ('\\' :: c :: rest) = readQuoted quote .escape q (c :: rest) := by
    rcases isQuote with rfl | rfl
    · rfl
    · rfl
  rw [opens]
  apply readQuoted_more
  exact step

theorem escapedQuoted_single {c : Char} {n : Nat} (listed : (c, n) ∈ singleEscapes) :
    n < 0x10000 ∧ ∀ q, escapedQuoted q c = .more .plain (q.push n) := by
  simp only [singleEscapes, List.mem_cons, List.not_mem_nil, or_false, Prod.mk.injEq] at listed
  rcases listed with ⟨rfl, rfl⟩ | ⟨rfl, rfl⟩ | ⟨rfl, rfl⟩ | ⟨rfl, rfl⟩ | ⟨rfl, rfl⟩ | ⟨rfl, rfl⟩ | ⟨rfl, rfl⟩ |
    ⟨rfl, rfl⟩ | ⟨rfl, rfl⟩
  all_goals exact ⟨by decide, fun q => rfl⟩

/-- An escape of a character that has none of its own stands for the character. -/
theorem escapedQuoted_other {c : Char} (unlisted : ∀ n, (c, n) ∉ singleEscapes) (notDigit : c.isDigit = false)
    (notHex : c ≠ 'x') (notUnicode : c ≠ 'u') (notLineEnd : isLineEnd c = false) (q : QuotedSoFar) :
    escapedQuoted q c = .more .plain (q.push c.toNat) := by
  have octal := not_octal notDigit
  have notReturn : c ≠ '\r' := by
    rintro rfl
    cases notLineEnd
  have low : ¬('0' ≤ c ∧ c ≤ '3') := fun within => octal ⟨within.1, Char.le_trans within.2 (by decide)⟩
  have high : ¬('4' ≤ c ∧ c ≤ '7') := fun within => octal ⟨Char.le_trans (by decide) within.1, within.2⟩
  have self : simpleEscape c = c.toNat := by
    unfold simpleEscape
    split
    · exact absurd (List.mem_of_elem_eq_true rfl) (unlisted 0x0A)
    · exact absurd (List.mem_of_elem_eq_true rfl) (unlisted 0x09)
    · exact absurd (List.mem_of_elem_eq_true rfl) (unlisted 0x0D)
    · exact absurd (List.mem_of_elem_eq_true rfl) (unlisted 0x08)
    · exact absurd (List.mem_of_elem_eq_true rfl) (unlisted 0x0B)
    · exact absurd (List.mem_of_elem_eq_true rfl) (unlisted 0x0C)
    · rfl
  simp [escapedQuoted, notHex, notUnicode, notReturn, notLineEnd, low, high, self]

/-- A line that ends behind a backslash goes on. -/
theorem escapedQuoted_lineEnd {c : Char} (ends : isLineEnd c = true) (notReturn : c ≠ '\r') (q : QuotedSoFar) :
    escapedQuoted q c = .more .plain q := by
  simp only [isLineEnd, Bool.or_eq_true, beq_iff_eq] at ends
  rcases ends with ((rfl | rfl) | rfl) | rfl
  · rfl
  · exact absurd rfl notReturn
  · rfl
  · rfl

theorem readQuoted_carriage (alone : ∀ more, behind ≠ '\n' :: more) (q : QuotedSoFar) :
    readQuoted quote .carriage q behind = readQuoted quote .plain q behind := by
  cases behind with
  | nil => rfl
  | cons c more =>
      have notFeed : c ≠ '\n' := by
        rintro rfl
        exact alone more rfl
      simp [readQuoted, quotedStep, notFeed]

theorem readQuoted_zero (alone : ∀ c more, behind = c :: more → c.isDigit = false) (q : QuotedSoFar) :
    readQuoted quote (.octal 2 0) q behind = readQuoted quote .plain (q.push 0) behind := by
  cases behind with
  | nil => rfl
  | cons c more => exact readQuoted_octal (alone c more rfl) q more

theorem hexDigit?_lt {c : Char} {value : Nat} (digit : hexDigit? c = some value) : value < 16 := by
  have bounds : ('0'.toNat = 48 ∧ '9'.toNat = 57) ∧ ('a'.toNat = 97 ∧ 'f'.toNat = 102) ∧
      'A'.toNat = 65 ∧ 'F'.toNat = 70 := ⟨⟨rfl, rfl⟩, ⟨rfl, rfl⟩, rfl, rfl⟩
  simp only [hexDigit?, Bool.and_eq_true, decide_eq_true_eq, Char.le_def, UInt32.le_iff_toNat_le] at digit
  simp only [Char.toNat] at bounds digit
  split at digit
  · cases digit
    omega
  · split at digit
    · cases digit
      omega
    · split at digit
      · cases digit
        omega
      · cases digit

theorem hexValue?_lt {start n : Nat} (reads : hexValue? start digits = some n) :
    n < (start + 1) * 16 ^ digits.length := by
  induction digits generalizing start with
  | nil =>
      obtain rfl := Option.some.inj reads
      simp
  | cons c digits ih =>
      obtain ⟨value, digit, reads⟩ := Option.bind_eq_some_iff.mp reads
      have less := hexDigit?_lt digit
      calc n < (start * 16 + value + 1) * 16 ^ digits.length := ih reads
        _ ≤ (start + 1) * 16 * 16 ^ digits.length := Nat.mul_le_mul_right _ (by omega)
        _ = (start + 1) * 16 ^ (digits.length + 1) := by rw [Nat.pow_succ, Nat.mul_comm (16 ^ _), Nat.mul_assoc]

/-- Four digits write one code unit. -/
theorem hexValue?_small {n : Nat} (reads : hexValue? 0 digits = some n) (short : digits.length ≤ 4) : n < 0x10000 :=
  calc n < (0 + 1) * 16 ^ digits.length := hexValue?_lt reads
    _ ≤ (0 + 1) * 16 ^ 4 := Nat.mul_le_mul_left _ (Nat.pow_le_pow_right (by decide) short)

theorem readQuoted_digits (nonempty : digits ≠ []) {start n : Nat} (reads : hexValue? start digits = some n)
    (q : QuotedSoFar) (rest : List Char) :
    readQuoted quote (.digits digits.length start) q (digits ++ rest) = readQuoted quote .plain (q.push n) rest := by
  induction digits generalizing start with
  | nil => exact absurd rfl nonempty
  | cons c digits ih =>
      obtain ⟨value, digit, reads⟩ := Option.bind_eq_some_iff.mp reads
      rw [List.cons_append, readQuoted, quotedStep, digit]
      cases digits with
      | nil =>
          obtain rfl := Option.some.inj reads
          rfl
      | cons next digits => exact ih (List.cons_ne_nil next digits) reads

/-- Behind a `u`, a digit is the first of four. -/
theorem readQuoted_unicode (q : QuotedSoFar) {c : Char} {value : Nat} (digit : hexDigit? c = some value)
    (rest : List Char) : readQuoted quote .unicode q (c :: rest) = readQuoted quote (.digits 4 0) q (c :: rest) := by
  have notBrace : c ≠ '\x7b' := by
    rintro rfl
    cases digit
  simp [readQuoted, quotedStep, digit, notBrace]

theorem readQuoted_braced {start n : Nat} (reads : hexValue? start digits = some n) (q : QuotedSoFar)
    (rest : List Char) : readQuoted quote (.braced (some (min start 0x110000))) q (digits ++ rest) =
      readQuoted quote (.braced (some (min n 0x110000))) q rest := by
  induction digits generalizing start with
  | nil =>
      obtain rfl := Option.some.inj reads
      rfl
  | cons c digits ih =>
      obtain ⟨value, digit, reads⟩ := Option.bind_eq_some_iff.mp reads
      -- The value is cut off at each digit, which is the same as once at the end.
      have cut : min (min start 0x110000 * 16 + value) 0x110000 = min (start * 16 + value) 0x110000 := by omega
      rw [List.cons_append, readQuoted, quotedStep, digit, ← ih reads, ← cut]
      rfl

theorem readQuoted_codePoint (nonempty : digits ≠ []) {n : Nat} (reads : hexValue? 0 digits = some n)
    (within : n < 0x110000) (q : QuotedSoFar) (rest : List Char) :
    readQuoted quote (.braced none) q (digits ++ '\x7d' :: rest) = readQuoted quote .plain (q.push n) rest := by
  have first : readQuoted quote (.braced none) q (digits ++ '\x7d' :: rest) =
      readQuoted quote (.braced (some (min 0 0x110000))) q (digits ++ '\x7d' :: rest) := by
    cases digits with
    | nil => exact absurd rfl nonempty
    | cons c digits =>
        obtain ⟨value, digit, reads⟩ := Option.bind_eq_some_iff.mp reads
        rw [List.cons_append, readQuoted, readQuoted, quotedStep, quotedStep, digit]
        rfl
  have notDigit : hexDigit? '\x7d' = none := rfl
  rw [first, readQuoted_braced reads, readQuoted, quotedStep, notDigit, Nat.min_eq_left (Nat.le_of_lt within)]
  simp [QuotedSoFar.pushPoint, within]

/-- What the reader takes in of a piece, and what this comes to in code units. -/
theorem Piece.reads (isQuote : quote = '"' ∨ quote = '\x27') (piece : Piece quote front behind units) :
    ∃ found, found.flatMap unitsOf = units ∧
      ∀ q, readQuoted quote .plain q (front ++ behind) = readQuoted quote .plain (q.pushEach found) behind := by
  cases piece with
  | plain notQuote notBackslash notFeed notReturn =>
      rename_i c
      refine ⟨[c.toNat], List.append_nil _, fun q => ?_⟩
      simp [readQuoted, quotedStep, plainQuoted, notQuote, notBackslash, notFeed, notReturn, QuotedSoFar.pushEach,
        QuotedSoFar.push]
  | single listed =>
      rename_i c n
      obtain ⟨small, step⟩ := escapedQuoted_single listed
      refine ⟨[n], ?_, fun q => readQuoted_escape isQuote (step q) behind⟩
      rw [List.flatMap_singleton, unitsOf_small small]
  | other unlisted notDigit notHex notUnicode notLineEnd =>
      rename_i c
      refine ⟨[c.toNat], List.append_nil _, fun q => ?_⟩
      exact readQuoted_escape isQuote (escapedQuoted_other unlisted notDigit notHex notUnicode notLineEnd q) behind
  | zero alone =>
      refine ⟨[0], rfl, fun q => ?_⟩
      exact (readQuoted_escape isQuote rfl behind).trans (readQuoted_zero alone q)
  | hex reads =>
      rename_i a b n
      refine ⟨[n], ?_, fun q => ?_⟩
      · rw [List.flatMap_singleton, unitsOf_small (hexValue?_small reads (by simp))]
      · exact (readQuoted_escape isQuote rfl _).trans (readQuoted_digits (List.cons_ne_nil _ _) reads q behind)
  | unicode reads =>
      rename_i a b c d n
      refine ⟨[n], ?_, fun q => ?_⟩
      · rw [List.flatMap_singleton, unitsOf_small (hexValue?_small reads (by simp))]
      · obtain ⟨value, digit, _⟩ := Option.bind_eq_some_iff.mp reads
        calc readQuoted quote .plain q (['\\', 'u', a, b, c, d] ++ behind)
            _ = readQuoted quote .unicode q ([a, b, c, d] ++ behind) := readQuoted_escape isQuote rfl _
            _ = readQuoted quote (.digits 4 0) q ([a, b, c, d] ++ behind) := readQuoted_unicode q digit _
            _ = readQuoted quote .plain (q.push n) behind := readQuoted_digits (List.cons_ne_nil _ _) reads q behind
  | codePoint nonempty reads within =>
      rename_i digits n
      refine ⟨[n], List.append_nil _, fun q => ?_⟩
      rw [List.append_assoc]
      calc readQuoted quote .plain q ('\\' :: 'u' :: '\x7b' :: (digits ++ '\x7d' :: behind))
          _ = readQuoted quote .unicode q ('\x7b' :: (digits ++ '\x7d' :: behind)) := readQuoted_escape isQuote rfl _
          _ = readQuoted quote (.braced none) q (digits ++ '\x7d' :: behind) := rfl
          _ = readQuoted quote .plain (q.push n) behind := readQuoted_codePoint nonempty reads within q behind
  | lineEnd ends notReturn =>
      refine ⟨[], rfl, fun q => ?_⟩
      exact readQuoted_escape isQuote (escapedQuoted_lineEnd ends notReturn q) behind
  | carriage alone =>
      refine ⟨[], rfl, fun q => ?_⟩
      exact (readQuoted_escape isQuote rfl behind).trans (readQuoted_carriage alone q)
  | carriageFeed =>
      refine ⟨[], rfl, fun q => ?_⟩
      exact (readQuoted_escape isQuote rfl ('\n' :: behind)).trans rfl

theorem Pieces.reads (isQuote : quote = '"' ∨ quote = '\x27') (pieces : Pieces quote front behind units) :
    ∃ found, found.flatMap unitsOf = units ∧
      ∀ q, readQuoted quote .plain q (front ++ behind) = readQuoted quote .plain (q.pushEach found) behind := by
  induction pieces with
  | nil => exact ⟨[], rfl, fun q => rfl⟩
  | cons piece pieces ih =>
      rename_i more behind units others
      obtain ⟨found, comes, reads⟩ := piece.reads isQuote
      obtain ⟨rest, comesAfter, readsAfter⟩ := ih
      refine ⟨found ++ rest, ?_, fun q => ?_⟩
      · rw [List.flatMap_append, comes, comesAfter]
      · rw [List.append_assoc, reads, readsAfter, QuotedSoFar.pushEach_append]

end Literal

/-- A literal is told by its first quote, so the text in which it stands leaves no choice of its end or its value. -/
theorem IsLiteral.unique {written written' behind behind' : List Char} {units units' : List Nat}
    (literal : IsLiteral written behind units) (other : IsLiteral written' behind' units')
    (same : written ++ behind = written' ++ behind') : written = written' ∧ behind = behind' ∧ units = units' := by
  obtain ⟨quote, body, isQuote, rfl, pieces⟩ := literal
  obtain ⟨quote', body', isQuote', rfl, pieces'⟩ := other
  have texts : quote :: (body ++ quote :: behind) = quote' :: (body' ++ quote' :: behind') := by simpa using same
  obtain ⟨rfl, bodies⟩ := List.cons.inj texts
  obtain ⟨found, comes, reads⟩ := pieces.reads isQuote
  obtain ⟨found', comes', reads'⟩ := pieces'.reads isQuote'
  have ends : some (QuotedSoFar.start.pushEach found, behind) = some (QuotedSoFar.start.pushEach found', behind') := by
    rw [← readQuoted_closed, ← readQuoted_closed, ← reads, ← reads', bodies]
  obtain ⟨pushed, rfl⟩ := Prod.mk.inj (Option.some.inj ends)
  obtain rfl := QuotedSoFar.pushEach_injective pushed
  exact ⟨List.append_cancel_right same, rfl, comes.symm.trans comes'⟩

/-! ### Texts with the escapes of JSON -/

namespace Literal

theorem hexValue?_control {c : Char} (control : c.toNat < 32) :
    hexValue? 0 ['0', '0', Json.hexDigit (c.toNat / 16), Json.hexDigit (c.toNat % 16)] = some c.toNat := by
  obtain ⟨high, low, whole⟩ := hexDigits_control control
  have zero : hexDigit? '0' = some 0 := rfl
  simp [hexValue?, zero, high, low, whole]

/-- Each of them is a piece of a literal, and stands for its character. -/
theorem piece_escapeChar (c : Char) (behind : List Char) :
    Piece '"' (Json.escapeChar c) behind (unitsOf c.toNat) := by
  unfold Json.escapeChar
  repeat' split
  all_goals rename_i same
  all_goals try
    obtain rfl := beq_iff_eq.mp same
    exact .single (List.mem_of_elem_eq_true rfl)
  · rw [unitsOf_small (by omega)]
    exact .unicode (hexValue?_control same)
  · rename_i notQuote notBackslash notFeed notReturn _ _ _
    simp only [beq_iff_eq] at notQuote notBackslash notFeed notReturn
    exact .plain notQuote notBackslash notFeed notReturn

theorem pieces_escaped (cs behind : List Char) :
    Pieces '"' (cs.flatMap Json.escapeChar) behind (cs.flatMap fun c => unitsOf c.toNat) := by
  induction cs with
  | nil => exact .nil
  | cons c cs ih =>
      rw [List.flatMap_cons, List.flatMap_cons]
      exact .cons (piece_escapeChar c _) ih

end Literal

/-- A quoted text is one literal, whose value is the text. Whatever stands behind it, no literal that starts where it
does ends elsewhere or has another value, and the reader of tokens takes it as this one. -/
theorem quoted_isLiteral (s : String) (behind : List Char) :
    IsLiteral (Json.quoted s).toList behind (unitsOfText s) ∧
    (∀ written rest units, IsLiteral written rest units → written ++ rest = (Json.quoted s).toList ++ behind →
      written = (Json.quoted s).toList ∧ rest = behind ∧ ∀ t, units = unitsOfText t ↔ t = s) ∧
    ∃ newLine start, nextToken ((Json.quoted s).toList ++ behind) = ⟨.text s true, newLine, start, behind, false⟩ := by
  have spelled : (Json.quoted s).toList = '"' :: s.toList.flatMap Json.escapeChar ++ ['"'] := by
    rw [Json.quoted, String.toList_ofList]
    rfl
  have literal : IsLiteral (Json.quoted s).toList behind (unitsOfText s) :=
    ⟨'"', _, .inl rfl, spelled, pieces_escaped s.toList _⟩
  refine ⟨literal, ?_, ?_⟩
  · intro written rest units other same
    obtain ⟨rfl, rfl, rfl⟩ := other.unique literal same
    refine ⟨rfl, rfl, fun t => ?_⟩
    constructor
    · exact fun value => (unitsOfText_injective value).symm
    · rintro rfl
      rfl
  · rw [spelled, List.append_assoc]
    exact (starts_text (quotes_json s) behind).nextToken_eq

end Realms.Script
