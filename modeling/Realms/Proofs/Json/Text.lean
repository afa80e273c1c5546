import Realms.Json.Read
import Realms.Json.Write
import Realms.Proofs.Text.Utf8

/-!
Texts survive being written with escapes: the reader takes each escaped character for the one it stands for
and stops at the closing quote.
-/
namespace Realms.Json

open Realms.Text (encode encodeChar encode_nil encode_cons encode_append)

variable {kept : Bool} {rounds : Nat} {found rest : List UInt8}

/-- A byte that stands for itself within a text. -/
def IsPlainByte (b : UInt8) : Prop := b ≠ 0x22 ∧ b ≠ 0x5C ∧ 0x20 ≤ b

theorem readTextBytes_plain (bytes : List UInt8) (plain : ∀ b ∈ bytes, IsPlainByte b) :
    readTextBytes kept (rounds + bytes.length) found (bytes ++ rest) =
      readTextBytes kept rounds (bytes.reverse ++ found) rest := by
  induction bytes generalizing found with
  | nil => rfl
  | cons b bytes ih =>
      obtain ⟨notQuote, notBackslash, above⟩ := plain b List.mem_cons_self
      have notControl : ¬b < 0x20 := UInt8.not_lt.mpr above
      have step : readTextBytes kept (rounds + bytes.length + 1) found (b :: (bytes ++ rest)) =
          readTextBytes kept (rounds + bytes.length) (b :: found) (bytes ++ rest) := by
        simp [readTextBytes, notQuote, notBackslash, notControl]
      rw [List.length_cons, ← Nat.add_assoc, List.cons_append, step,
        ih (fun c member => plain c (List.mem_cons_of_mem b member))]
      simp

theorem readTextBytes_escape {letter meant : UInt8} (escaped : escaped? letter = some meant)
    (notUnicode : letter ≠ 0x75) : readTextBytes kept (rounds + 1) found (0x5C :: letter :: rest) =
      readTextBytes kept rounds (meant :: found) rest := by
  simp [readTextBytes, escaped, notUnicode]

theorem hexDigit?_hexDigit : ∀ n < 16, (encodeChar (hexDigit n)).map hexDigit? = [some n] := by decide

theorem readHex_low {n : Nat} (small : n < 256) :
    readHex (encode ['0', '0', hexDigit (n / 16), hexDigit (n % 16)] ++ rest) = .ok ⟨n, rest⟩ := by
  obtain ⟨high, highByte, highDigit⟩ := List.map_eq_singleton_iff.mp (hexDigit?_hexDigit (n / 16) (by omega))
  obtain ⟨low, lowByte, lowDigit⟩ := List.map_eq_singleton_iff.mp (hexDigit?_hexDigit (n % 16) (by omega))
  have zero : encodeChar '0' = [0x30] := by decide
  have zeroDigit : hexDigit? 0x30 = some 0 := by decide
  have whole : ((0 * 16 + 0) * 16 + n / 16) * 16 + n % 16 = n := by omega
  simp only [encode_cons, encode_nil, zero, highByte, lowByte, List.cons_append, List.nil_append, readHex,
    zeroDigit, highDigit, lowDigit, whole]

theorem readTextBytes_unicode {c : Char} (control : c.toNat < 32) :
    readTextBytes true (rounds + 1) found
        (encode ['\\', 'u', '0', '0', hexDigit (c.toNat / 16), hexDigit (c.toNat % 16)] ++ rest) =
      readTextBytes true rounds ((encodeChar c).reverse ++ found) rest := by
  have backslash : encodeChar '\\' = [0x5C] := by decide
  have letter : encodeChar 'u' = [0x75] := by decide
  have read : readUnicode true (encode ['0', '0', hexDigit (c.toNat / 16), hexDigit (c.toNat % 16)] ++ rest) =
      .ok ⟨encodeChar c, rest⟩ := by
    have notLow : ¬(0xDC00 ≤ c.toNat ∧ c.toNat ≤ 0xDFFF) := by omega
    have notHigh : ¬(0xD800 ≤ c.toNat ∧ c.toNat ≤ 0xDBFF) := by omega
    rw [readUnicode, readHex_low (by omega)]
    simp [bind, Except.bind, notLow, notHigh]
  rw [encode_cons, encode_cons, backslash, letter]
  simp only [List.cons_append, List.nil_append, readTextBytes]
  simp [read, bind, Except.bind]

theorem isPlainByte_of_mem_encodeChar {b : UInt8} {c : Char} (member : b ∈ encodeChar c) (notQuote : c ≠ '"')
    (notBackslash : c ≠ '\\') (notControl : ¬c.toNat < 32) : IsPlainByte b := by
  have self (low : b.toNat < 0x80) : c = Char.ofNat b.toNat := by
    rw [← Text.toNat_of_mem_encodeChar low member, Char.ofNat_toNat]
  refine ⟨?_, ?_, UInt8.not_lt.mp fun below => ?_⟩
  · rintro rfl
    exact notQuote (self (by decide))
  · rintro rfl
    exact notBackslash (self (by decide))
  · have small : b.toNat < 0x20 := UInt8.lt_iff_toNat_lt.mp below
    have value := Text.toNat_of_mem_encodeChar (by omega) member
    omega

/-- What the reader makes of one written character, in no more rounds than it has bytes. -/
def ReadsChar (written : List Char) (c : Char) : Prop :=
  ∀ rounds found rest, (encode written).length ≤ rounds → ∃ left, rounds - (encode written).length ≤ left ∧
    readTextBytes true rounds found (encode written ++ rest) =
      readTextBytes true left ((encodeChar c).reverse ++ found) rest

theorem readsChar_letter {c letter : Char} (b meant : UInt8)
    (isEscape : encode ['\\', letter] = [0x5C, b] ∧ encodeChar c = [meant] ∧ escaped? b = some meant ∧ b ≠ 0x75) :
    ReadsChar ['\\', letter] c := by
  obtain ⟨written, self, escaped, notUnicode⟩ := isEscape
  intro rounds found rest enough
  rw [written] at enough ⊢
  obtain ⟨rounds, rfl⟩ := Nat.exists_eq_succ_of_ne_zero (Nat.ne_zero_of_lt enough)
  refine ⟨rounds, ?_, ?_⟩
  · simp only [List.length_cons, List.length_nil]
    omega
  · rw [self]
    exact readTextBytes_escape escaped notUnicode

theorem readsChar_control {c : Char} (control : c.toNat < 32) :
    ReadsChar ['\\', 'u', '0', '0', hexDigit (c.toNat / 16), hexDigit (c.toNat % 16)] c := by
  intro rounds found rest enough
  have some := Text.encodeChar_length_pos '\\'
  rw [encode_cons, List.length_append] at enough
  obtain ⟨rounds, rfl⟩ := Nat.exists_eq_succ_of_ne_zero (n := rounds) (by omega)
  refine ⟨rounds, ?_, readTextBytes_unicode control⟩
  rw [encode_cons, List.length_append]
  omega

theorem readsChar_plain {c : Char} (notQuote : c ≠ '"') (notBackslash : c ≠ '\\') (notControl : ¬c.toNat < 32) :
    ReadsChar [c] c := by
  intro rounds found rest enough
  have self : encode [c] = encodeChar c := by rw [encode_cons, encode_nil, List.append_nil]
  rw [self] at enough ⊢
  obtain ⟨left, rfl⟩ := Nat.exists_eq_add_of_le' enough
  exact ⟨left, by omega, readTextBytes_plain _ fun b member =>
    isPlainByte_of_mem_encodeChar member notQuote notBackslash notControl⟩

theorem readsChar_escapeChar (c : Char) : ReadsChar (escapeChar c) c := by
  unfold escapeChar
  repeat' split
  · rename_i quote
    obtain rfl := beq_iff_eq.mp quote
    exact readsChar_letter 0x22 0x22 (by decide)
  · rename_i backslash
    obtain rfl := beq_iff_eq.mp backslash
    exact readsChar_letter 0x5C 0x5C (by decide)
  · rename_i newLine
    obtain rfl := beq_iff_eq.mp newLine
    exact readsChar_letter 0x6E 10 (by decide)
  · rename_i carriage
    obtain rfl := beq_iff_eq.mp carriage
    exact readsChar_letter 0x72 13 (by decide)
  · rename_i tab
    obtain rfl := beq_iff_eq.mp tab
    exact readsChar_letter 0x74 9 (by decide)
  · rename_i back
    obtain rfl := beq_iff_eq.mp back
    exact readsChar_letter 0x62 8 (by decide)
  · rename_i feed
    obtain rfl := beq_iff_eq.mp feed
    exact readsChar_letter 0x66 12 (by decide)
  · rename_i control
    exact readsChar_control control
  · rename_i notQuote notBackslash _ _ _ _ _ notControl
    exact readsChar_plain (by simpa using notQuote) (by simpa using notBackslash) notControl

theorem readTextBytes_escaped (cs : List Char)
    (enough : (encode (cs.flatMap escapeChar)).length < rounds) :
    readTextBytes true rounds found (encode (cs.flatMap escapeChar) ++ 0x22 :: rest) =
      .ok ⟨(encode cs).reverse ++ found, rest⟩ := by
  induction cs generalizing rounds found with
  | nil =>
      obtain ⟨rounds, rfl⟩ := Nat.exists_eq_succ_of_ne_zero (Nat.ne_zero_of_lt enough)
      simp [readTextBytes, encode_nil]
  | cons c cs ih =>
      rw [List.flatMap_cons, encode_append, List.length_append] at enough
      obtain ⟨left, remain, read⟩ := readsChar_escapeChar c rounds found
        (encode (cs.flatMap escapeChar) ++ 0x22 :: rest) (by omega)
      rw [List.flatMap_cons, encode_append, List.append_assoc, read, ih (by omega), encode_cons]
      simp

theorem encode_textChars (s : String) :
    encode (textChars s) = 0x22 :: (encode (s.toList.flatMap escapeChar) ++ [0x22]) := by
  have quote : encodeChar '"' = [0x22] := by decide
  rw [textChars, List.cons_append, encode_cons, encode_append, encode_cons, encode_nil, quote]
  rfl

/-- A written text is read as that text. -/
theorem readText_textChars (s : String) (enough : (encode (textChars s)).length ≤ rounds) (rest : List UInt8) :
    ∃ bytes, encode (textChars s) ++ rest = 0x22 :: bytes ∧ readText true rounds bytes = .ok ⟨s, rest⟩ := by
  rw [encode_textChars, List.length_cons, List.length_append] at enough
  have read : readTextBytes true rounds [] (encode (s.toList.flatMap escapeChar) ++ 0x22 :: rest) =
      .ok ⟨(encode s.toList).reverse ++ [], rest⟩ := readTextBytes_escaped s.toList (by omega)
  refine ⟨_, by rw [encode_textChars, List.cons_append, List.append_assoc], ?_⟩
  rw [readText]
  simp only [List.cons_append, List.nil_append, read, bind, Except.bind, List.append_nil, List.reverse_reverse,
    Text.decode?_encode, String.ofList_toList, Bool.not_true, Bool.false_eq_true, ↓reduceIte]

theorem readKeyText_textChars (s : String) (enough : (encode (textChars s)).length ≤ rounds) :
    readKeyText true rounds (encode (textChars s) ++ rest) = .ok ⟨s, rest⟩ := by
  obtain ⟨bytes, written, read⟩ := readText_textChars s enough rest
  rw [written, readKeyText]
  simpa using read

end Realms.Json
