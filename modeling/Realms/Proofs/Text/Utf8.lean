import Realms.Text.Utf8

/-!
Text survives its bytes: what is read from the bytes of a text is that text.
-/
namespace Realms.Text

theorem encode_nil : encode [] = [] := rfl

theorem encode_cons (c : Char) (cs : List Char) : encode (c :: cs) = encodeChar c ++ encode cs := List.flatMap_cons

theorem encode_append (front back : List Char) : encode (front ++ back) = encode front ++ encode back :=
  List.flatMap_append

theorem toNat_toUInt8 {n : Nat} (small : n < 256) : n.toUInt8.toNat = n := by
  rw [Nat.toUInt8_eq, UInt8.toNat_ofNat', Nat.mod_eq_of_lt small]

theorem tail_toNat (n : Nat) : (0x80 + n % 64).toUInt8.toNat = 0x80 + n % 64 :=
  toNat_toUInt8 (by omega)

theorem isTail_tail (n : Nat) : isTail (0x80 + n % 64).toUInt8 = true := by
  simp only [isTail, UInt8.le_iff_toNat_le, UInt8.lt_iff_toNat_lt, UInt8.reduceToNat, tail_toNat,
    Bool.and_eq_true, decide_eq_true_eq]
  omega

theorem tailBits_tail (n : Nat) : tailBits (0x80 + n % 64).toUInt8 = n % 64 := by
  rw [tailBits, tail_toNat]
  omega

theorem secondFits_iff {first second : UInt8} : secondFits first second = true ↔
    (0x80 ≤ second.toNat ∧ second.toNat < 0xC0) ∧ (first.toNat = 0xE0 → 0xA0 ≤ second.toNat) ∧
      (first.toNat = 0xED → second.toNat < 0xA0) ∧ (first.toNat = 0xF0 → 0x90 ≤ second.toNat) ∧
      (first.toNat = 0xF4 → second.toNat < 0x90) := by
  simp only [secondFits, isTail, beq_iff_eq, ← UInt8.toNat_inj, UInt8.le_iff_toNat_le,
    UInt8.lt_iff_toNat_lt, UInt8.reduceToNat]
  grind

section

variable {a b c d : UInt8} {rest : List UInt8}

theorem decodeChar_one (low : a.toNat < 0x80) :
    decodeChar (a :: rest) = some (.char (Char.ofNat a.toNat) rest) := by
  have below : a < 0x80 := UInt8.lt_iff_toNat_lt.mpr low
  simp only [decodeChar, below, ↓reduceIte]

theorem decodeChar_long (least : 0xC2 ≤ a.toNat) (most : a.toNat ≤ 0xF4) :
    decodeChar (a :: rest) = some (decodeLong a rest) := by
  have above : ¬a < 0x80 := UInt8.not_lt.mpr (UInt8.le_iff_toNat_le.mpr (show 0x80 ≤ a.toNat by omega))
  have leads : (0xC2 ≤ a && a ≤ 0xF4) = true := by
    simp only [UInt8.le_iff_toNat_le, UInt8.reduceToNat, Bool.and_eq_true, decide_eq_true_eq]
    exact ⟨least, most⟩
  simp only [decodeChar, above, leads, ↓reduceIte]

theorem decodeLong_two (short : a.toNat < 0xE0) (fits : secondFits a b = true) :
    decodeLong a (b :: rest) = .char (Char.ofNat ((a.toNat - 0xC0) * 64 + tailBits b)) rest := by
  have below : a < 0xE0 := UInt8.lt_iff_toNat_lt.mpr short
  simp only [decodeLong, fits, below, Bool.not_true, Bool.false_eq_true, ↓reduceIte]

theorem decodeLong_three (long : 0xE0 ≤ a.toNat) (short : a.toNat < 0xF0) (fits : secondFits a b = true)
    (third : isTail c = true) : decodeLong a (b :: c :: rest) =
      .char (Char.ofNat (((a.toNat - 0xE0) * 64 + tailBits b) * 64 + tailBits c)) rest := by
  have above : ¬a < 0xE0 := UInt8.not_lt.mpr (UInt8.le_iff_toNat_le.mpr long)
  have below : a < 0xF0 := UInt8.lt_iff_toNat_lt.mpr short
  simp only [decodeLong, decodeThree, fits, above, below, third, Bool.not_true, Bool.false_eq_true, ↓reduceIte]

theorem decodeLong_four (long : 0xF0 ≤ a.toNat) (fits : secondFits a b = true) (third : isTail c = true)
    (fourth : isTail d = true) : decodeLong a (b :: c :: d :: rest) =
      .char (Char.ofNat ((((a.toNat - 0xF0) * 64 + tailBits b) * 64 + tailBits c) * 64 + tailBits d)) rest := by
  have above : ¬a < 0xE0 ∧ ¬a < 0xF0 := by
    simp only [UInt8.lt_iff_toNat_lt, UInt8.reduceToNat]
    omega
  simp only [decodeLong, decodeFour, fits, above, third, fourth, Bool.not_true, Bool.false_eq_true, ↓reduceIte]

end

theorem decodeChar_encodeChar (c : Char) (rest : List UInt8) :
    decodeChar (encodeChar c ++ rest) = some (.char c rest) := by
  have scalar : c.toNat < 0xD800 ∨ 0xDFFF < c.toNat ∧ c.toNat < 0x110000 := c.valid
  have second := tail_toNat c.toNat
  unfold encodeChar
  dsimp only
  split
  · have lead := toNat_toUInt8 (n := c.toNat) (by omega)
    rw [List.cons_append, decodeChar_one (by omega), lead, Char.ofNat_toNat]
    rfl
  · split
    · have lead := toNat_toUInt8 (n := 0xC0 + c.toNat / 64) (by omega)
      have whole : (0xC0 + c.toNat / 64 - 0xC0) * 64 + c.toNat % 64 = c.toNat := by omega
      simp only [List.cons_append, List.nil_append]
      rw [decodeChar_long (by omega) (by omega), decodeLong_two (by omega) (secondFits_iff.mpr (by omega)),
        lead, tailBits_tail, whole, Char.ofNat_toNat]
    · have middle := tail_toNat (c.toNat / 64)
      split
      · have lead := toNat_toUInt8 (n := 0xE0 + c.toNat / 4096) (by omega)
        have whole : ((0xE0 + c.toNat / 4096 - 0xE0) * 64 + c.toNat / 64 % 64) * 64 + c.toNat % 64 = c.toNat := by
          omega
        simp only [List.cons_append, List.nil_append]
        rw [decodeChar_long (by omega) (by omega),
          decodeLong_three (by omega) (by omega) (secondFits_iff.mpr (by omega)) (isTail_tail _),
          lead, tailBits_tail, tailBits_tail, whole, Char.ofNat_toNat]
      · have lead := toNat_toUInt8 (n := 0xF0 + c.toNat / 262144) (by omega)
        have first := tail_toNat (c.toNat / 4096)
        have whole : (((0xF0 + c.toNat / 262144 - 0xF0) * 64 + c.toNat / 4096 % 64) * 64 + c.toNat / 64 % 64) * 64 +
            c.toNat % 64 = c.toNat := by
          omega
        simp only [List.cons_append, List.nil_append]
        rw [decodeChar_long (by omega) (by omega),
          decodeLong_four (by omega) (secondFits_iff.mpr (by omega)) (isTail_tail _) (isTail_tail _),
          lead, tailBits_tail, tailBits_tail, tailBits_tail, whole, Char.ofNat_toNat]

theorem encodeChar_length_pos (c : Char) : 0 < (encodeChar c).length := by
  unfold encodeChar
  dsimp only
  repeat' split
  all_goals exact Nat.succ_pos _

theorem decodeWith_encode (cs : List Char) {n : Nat} (enough : (encode cs).length ≤ n) :
    decodeWith n (encode cs) = some cs := by
  induction cs generalizing n with
  | nil => cases n <;> rfl
  | cons c cs ih =>
      have first := encodeChar_length_pos c
      rw [encode_cons, List.length_append] at enough
      obtain ⟨rounds, rfl⟩ := Nat.exists_eq_succ_of_ne_zero (n := n) (by omega)
      rw [encode_cons, decodeWith, decodeChar_encodeChar]
      simp only [ih (n := rounds) (by omega), Option.map_some]

/-- A text comes back from its bytes. -/
theorem decode?_encode (cs : List Char) : decode? (encode cs) = some (String.ofList cs) := by
  rw [decode?, decodeWith_encode cs (Nat.le_refl _), Option.map_some]

theorem lossyWith_encode (cs : List Char) {n : Nat} (enough : (encode cs).length ≤ n) :
    lossyWith n (encode cs) = cs := by
  induction cs generalizing n with
  | nil => cases n <;> rfl
  | cons c cs ih =>
      have first := encodeChar_length_pos c
      rw [encode_cons, List.length_append] at enough
      obtain ⟨rounds, rfl⟩ := Nat.exists_eq_succ_of_ne_zero (n := n) (by omega)
      rw [encode_cons, lossyWith, decodeChar_encodeChar]
      simp only [ih (n := rounds) (by omega)]

/-- Nothing is replaced in the bytes of a text. -/
theorem decodeLossy_bytesOf (s : String) : decodeLossy (bytesOf s) = s := by
  rw [decodeLossy, bytesOf, lossyWith_encode s.toList (Nat.le_refl _), String.ofList_toList]

/-- A byte of the lower half stands for itself only. -/
theorem toNat_of_mem_encodeChar {b : UInt8} {c : Char} (low : b.toNat < 0x80) (member : b ∈ encodeChar c) :
    c.toNat = b.toNat := by
  have scalar : c.toNat < 0xD800 ∨ 0xDFFF < c.toNat ∧ c.toNat < 0x110000 := c.valid
  have tails (n : Nat) : b ≠ (0x80 + n % 64).toUInt8 := fun same => by
    have value := tail_toNat n
    rw [← same] at value
    omega
  unfold encodeChar at member
  dsimp only at member
  split at member
  · rw [List.mem_singleton.mp member, toNat_toUInt8 (by omega)]
  · exfalso
    repeat' split at member
    all_goals
      simp only [List.mem_cons, List.not_mem_nil, or_false, tails] at member
      rw [member, toNat_toUInt8 (by omega)] at low
      omega

theorem newLine_not_mem_encode {cs : List Char} (oneLine : '\n' ∉ cs) : 0x0A ∉ encode cs := by
  intro member
  obtain ⟨c, isChar, byte⟩ := List.mem_flatMap.mp member
  have value := toNat_of_mem_encodeChar (by decide) byte
  have same : c = '\n' := by
    rw [← Char.ofNat_toNat c, value]
    rfl
  exact oneLine (same ▸ isChar)

end Realms.Text
