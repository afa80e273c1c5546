import Realms.Page.Lines
import Realms.Proofs.Json.Number
import Realms.Proofs.Json.Text

/-!
Values survive being written. The writer goes down any number of levels and the reader only a certain one,
so that a value comes back if it is not too deep, and breaks the grammar otherwise.
-/
namespace Realms.Json

open Realms.Text (encode encodeChar encode_nil encode_cons encode_append)

/-- All numbers of a value are whole. -/
inductive Value.IsWhole : Value → Prop where
  | null : IsWhole .null
  | bool (b : Bool) : IsWhole (.bool b)
  | number {n : Number} : n.isWhole → IsWhole (.number n)
  | text (s : String) : IsWhole (.text s)
  | list {items : List Value} : (∀ v ∈ items, IsWhole v) → IsWhole (.list items)
  | object {members : List (String × Value)} : (∀ member ∈ members, IsWhole member.2) → IsWhole (.object members)

/-- What is read at so many levels where as many are needed. -/
def withinLevels {α : Type} (needed levels : Nat) (found : Read α) : Result (Read α) :=
  if needed ≤ levels then .ok found else .error .malformed

variable {rounds levels : Nat} {rest : List UInt8}

/-! Values that are neither lists nor objects. -/

theorem skipSpace_cons {b : UInt8} (noSpace : isSpace b = false) : skipSpace (b :: rest) = b :: rest := by
  simp [skipSpace, noSpace]

theorem readValue_scalar {b : UInt8} (starts : StartsScalar b) :
    readValue true rounds levels (b :: rest) = readScalar true rounds b rest := by
  obtain ⟨noSpace, other⟩ := starts
  simp only [List.mem_cons, List.not_mem_nil, or_false, not_or] at other
  cases levels <;> simp [readValue, skipSpace_cons noSpace, other]

theorem readScalar_textChars (s : String) (enough : (encode (textChars s)).length ≤ rounds) (rest : List UInt8) :
    ∃ bytes, encode (textChars s) ++ rest = 0x22 :: bytes ∧
      readScalar true rounds 0x22 bytes = .ok ⟨.text s, rest⟩ := by
  obtain ⟨bytes, written, read⟩ := readText_textChars s enough rest
  refine ⟨bytes, written, ?_⟩
  simp [readScalar, read, bind, Except.bind, pure, Except.pure]

/-- The reader takes a value that is neither a list nor an object from the bytes in front. -/
def ReadsScalar (rounds : Nat) (v : Value) : Prop :=
  ∀ rest, EndsValue rest → ∃ b bytes, encode (compactChars v) ++ rest = b :: bytes ∧ StartsScalar b ∧
    readScalar true rounds b bytes = .ok ⟨v, rest⟩

theorem readsScalar_null : ReadsScalar rounds .null := fun rest _ =>
  ⟨0x6E, [117, 108, 108] ++ rest, rfl, by decide, by
    simp [readScalar, readWord, bind, Except.bind, pure, Except.pure]⟩

theorem readsScalar_bool (b : Bool) : ReadsScalar rounds (.bool b) := by
  intro rest _
  cases b with
  | false =>
      refine ⟨0x66, [97, 108, 115, 101] ++ rest, rfl, by decide, ?_⟩
      simp [readScalar, readWord, bind, Except.bind, pure, Except.pure]
  | true =>
      refine ⟨0x74, [114, 117, 101] ++ rest, rfl, by decide, ?_⟩
      simp [readScalar, readWord, bind, Except.bind, pure, Except.pure]

theorem readsScalar_number {n : Number} (whole : n.isWhole) : ReadsScalar rounds (.number n) := fun _ ends =>
  readScalar_numberChars whole ends

theorem readsScalar_text (s : String) (enough : (encode (textChars s)).length ≤ rounds) :
    ReadsScalar rounds (.text s) := fun _ _ =>
  have ⟨bytes, written, read⟩ := readScalar_textChars s enough _
  ⟨0x22, bytes, written, by decide, read⟩

theorem Value.IsWhole.starts {v : Value} (whole : v.IsWhole) :
    ∃ b bytes, encode (compactChars v) = b :: bytes ∧ isSpace b = false ∧ b ≠ 0x5D := by
  have ofScalar (rounds : Nat) {v : Value} (reads : ReadsScalar rounds v) :
      ∃ b bytes, encode (compactChars v) = b :: bytes ∧ isSpace b = false ∧ b ≠ 0x5D := by
    obtain ⟨b, bytes, written, ⟨noSpace, other⟩, _⟩ := reads [] endsValue_nil
    rw [List.append_nil] at written
    exact ⟨b, bytes, written, noSpace, by rintro rfl; simp at other⟩
  cases whole with
  | null => exact ofScalar 0 readsScalar_null
  | bool b => exact ofScalar 0 (readsScalar_bool b)
  | number whole => exact ofScalar 0 (readsScalar_number whole)
  | text s => exact ofScalar _ (readsScalar_text s (Nat.le_refl _))
  | @list items _ =>
      cases items <;> exact ⟨0x5B, _, by rw [compactChars]; rfl, by decide, by decide⟩
  | @object members _ =>
      cases members <;> exact ⟨0x7B, _, by rw [compactChars]; rfl, by decide, by decide⟩

/-! Lists and objects, over any reader of what stands in them. -/

/-- A reader that gives a value back from its bytes, as far as its levels reach. -/
def ReadsBack (read : List UInt8 → Result (Read Value)) (levels : Nat) (v : Value) : Prop :=
  ∀ rest, EndsValue rest → read (encode (compactChars v) ++ rest) = withinLevels (levelsOf v) levels ⟨v, rest⟩

theorem withinLevels_bind {α β : Type} {needed m : Nat} {found : Read α} {f : Read α → Result (Read β)}
    {result : Read β} (next : f found = withinLevels m levels result) :
    (withinLevels needed levels found >>= f) = withinLevels (max needed m) levels result := by
  unfold withinLevels at next ⊢
  by_cases first : needed ≤ levels
  · by_cases second : m ≤ levels <;> simpa [first, second, Nat.max_le, bind, Except.bind] using next
  · have deep : ¬max needed m ≤ levels := fun all => first (Nat.le_trans (Nat.le_max_left _ _) all)
    rw [if_neg first, if_neg deep]
    rfl

theorem withinLevels_map {α β : Type} {needed : Nat} {found : Read α} {f : Read α → Read β} :
    (withinLevels needed levels found >>= fun found => pure (f found)) = withinLevels needed levels (f found) := by
  unfold withinLevels
  split <;> rfl

theorem withinLevels_zero {α : Type} (found : Read α) : withinLevels 0 levels found = .ok found := rfl

theorem readAfter_closing {closing : UInt8} (noSpace : isSpace closing = false) :
    readAfter closing (closing :: rest) = .ok (.closed rest) := by
  simp [readAfter, skipSpace_cons noSpace]

theorem readAfter_comma {closing b : UInt8} (noComma : closing ≠ 0x2C) (noSpace : isSpace b = false)
    (notClosing : b ≠ closing) : readAfter closing (0x2C :: b :: rest) = .ok (.more (b :: rest)) := by
  have comma : isSpace 0x2C = false := by decide
  simp [readAfter, skipSpace_cons noSpace, skipSpace_cons comma, noComma.symm, notClosing]

theorem readAfter_comma_key (k : String) : readAfter 0x7D (0x2C :: (encode (textChars k) ++ rest)) =
    .ok (.more (encode (textChars k) ++ rest)) := by
  rw [encode_textChars]
  exact readAfter_comma (by decide) (by decide) (by decide)

/-! The bytes of what follows the first item or member, up to the closing bracket. -/

theorem encode_compactItems_nil : encode (compactItems []) = [0x5D] := by decide

theorem encode_compactItems_cons (v : Value) (items : List Value) :
    encode (compactItems (v :: items)) = 0x2C :: (encode (compactChars v) ++ encode (compactItems items)) := by
  have comma : encodeChar ',' = [0x2C] := by decide
  rw [compactItems, List.cons_append, encode_cons, comma, encode_append, List.singleton_append]

theorem encode_compactMembers_nil : encode (compactMembers []) = [0x7D] := by decide

theorem encode_compactMembers_cons (k : String) (v : Value) (members : List (String × Value)) :
    encode (compactMembers ((k, v) :: members)) =
      0x2C :: (encode (textChars k) ++ 0x3A :: (encode (compactChars v) ++ encode (compactMembers members))) := by
  have comma : encodeChar ',' = [0x2C] := by decide
  have colon : encodeChar ':' = [0x3A] := by decide
  simp only [compactMembers, List.cons_append, List.append_assoc, encode_cons, encode_append, comma, colon,
    List.nil_append]

theorem encode_list_cons (v : Value) (items : List Value) : encode (compactChars (.list (v :: items))) =
    0x5B :: (encode (compactChars v) ++ encode (compactItems items)) := by
  have opening : encodeChar '[' = [0x5B] := by decide
  rw [compactChars, List.cons_append, encode_cons, opening, encode_append, List.singleton_append]

theorem encode_object_cons (k : String) (v : Value) (members : List (String × Value)) :
    encode (compactChars (.object ((k, v) :: members))) =
      0x7B :: (encode (textChars k) ++ 0x3A :: (encode (compactChars v) ++ encode (compactMembers members))) := by
  have opening : encodeChar '\x7b' = [0x7B] := by decide
  have colon : encodeChar ':' = [0x3A] := by decide
  simp only [compactChars, List.cons_append, List.append_assoc, encode_cons, encode_append, opening, colon,
    List.nil_append]

theorem length_le_compactItems {u v : Value} {items : List Value} (member : u ∈ v :: items) :
    (encode (compactChars u)).length ≤ (encode (compactChars v)).length + (encode (compactItems items)).length := by
  induction items generalizing v with
  | nil =>
      rw [List.mem_singleton.mp member]
      exact Nat.le_add_right _ _
  | cons w items ih =>
      rw [encode_compactItems_cons, List.length_cons, List.length_append]
      rcases List.mem_cons.mp member with rfl | later
      · omega
      · have inRest := ih later
        omega

theorem length_le_compactMembers {member : String × Value} {k : String} {v : Value} {members : List (String × Value)}
    (isMember : member ∈ (k, v) :: members) : (encode (compactChars member.2)).length ≤
      (encode (compactChars v)).length + (encode (compactMembers members)).length := by
  induction members generalizing k v with
  | nil =>
      rw [List.mem_singleton.mp isMember]
      exact Nat.le_add_right _ _
  | cons next members ih =>
      rw [encode_compactMembers_cons]
      simp only [List.length_cons, List.length_append]
      rcases List.mem_cons.mp isMember with rfl | later
      · dsimp only
        omega
      · have inRest := ih later
        omega

variable {item : List UInt8 → Result (Read Value)}

/-- The items of a list come back one by one. Where one is too deep the reader stops, whichever it is: the
levels needed are the most that any of them needs. -/
theorem readItems_compactItems (rest : List UInt8) (v : Value) (items : List Value) (whole : ∀ u ∈ items, u.IsWhole)
    (reads : ∀ u ∈ v :: items, ReadsBack item levels u) {n : Nat}
    (enough : (encode (compactChars v)).length + (encode (compactItems items)).length ≤ n) :
    readItems item n (encode (compactChars v) ++ (encode (compactItems items) ++ rest)) =
      withinLevels (levelsOfItems (v :: items)) levels ⟨v :: items, rest⟩ := by
  induction items generalizing v n with
  | nil =>
      rw [encode_compactItems_nil] at enough ⊢
      obtain ⟨rounds, rfl⟩ := Nat.exists_eq_succ_of_ne_zero (Nat.ne_zero_of_lt enough)
      have first := reads v List.mem_cons_self (0x5D :: rest) (endsValue_cons (by decide))
      rw [List.singleton_append, readItems, first]
      refine withinLevels_bind (m := 0) ?_
      dsimp only
      rw [readAfter_closing (by decide)]
      rfl
  | cons u items ih =>
      rw [encode_compactItems_cons] at enough ⊢
      rw [List.length_cons, List.length_append] at enough
      obtain ⟨rounds, rfl⟩ := Nat.exists_eq_succ_of_ne_zero (Nat.ne_zero_of_lt enough)
      have first := reads v List.mem_cons_self
        (0x2C :: (encode (compactChars u) ++ (encode (compactItems items) ++ rest))) (endsValue_cons (by decide))
      have next := ih u (fun w member => whole w (List.mem_cons_of_mem u member))
        (fun w member => reads w (List.mem_cons_of_mem v member)) (n := rounds) (by omega)
      have more : readAfter 0x5D (0x2C :: (encode (compactChars u) ++ (encode (compactItems items) ++ rest))) =
          .ok (.more (encode (compactChars u) ++ (encode (compactItems items) ++ rest))) := by
        obtain ⟨b, bytes, starts, noSpace, notClosing⟩ := (whole u List.mem_cons_self).starts
        rw [starts]
        exact readAfter_comma (by decide) noSpace notClosing
      rw [List.cons_append, List.append_assoc, readItems, first]
      refine withinLevels_bind ?_
      dsimp only
      rw [more]
      change (readItems item rounds _ >>= _) = _
      rw [next]
      exact withinLevels_map

theorem readColon_colon : readColon (0x3A :: rest) = .ok rest := by
  have noSpace : isSpace 0x3A = false := by decide
  simp [readColon, skipSpace_cons noSpace]

theorem readKey_textChars (k : String) (enough : (encode (textChars k)).length ≤ rounds) :
    readKey true rounds (encode (textChars k) ++ 0x3A :: rest) = .ok ⟨k, rest⟩ := by
  simp [readKey, readKeyText_textChars k enough, readColon_colon, bind, Except.bind, pure, Except.pure]

/-- The members of an object come back in the same way. Every key must fit the rounds that are left, so that
these are counted against all bytes that follow. -/
theorem readMembers_compactMembers (rest : List UInt8) (k : String) (v : Value) (members : List (String × Value))
    (reads : ∀ member ∈ (k, v) :: members, ReadsBack item levels member.2) {n : Nat}
    (enough : (encode (textChars k)).length + (encode (compactChars v)).length +
      (encode (compactMembers members)).length ≤ n) :
    readMembers true item n
        (encode (textChars k) ++ 0x3A :: (encode (compactChars v) ++ (encode (compactMembers members) ++ rest))) =
      withinLevels (levelsOfMembers ((k, v) :: members)) levels ⟨(k, v) :: members, rest⟩ := by
  induction members generalizing k v n with
  | nil =>
      rw [encode_compactMembers_nil] at enough ⊢
      obtain ⟨rounds, rfl⟩ := Nat.exists_eq_succ_of_ne_zero (Nat.ne_zero_of_lt enough)
      have first := reads (k, v) List.mem_cons_self (0x7D :: rest) (endsValue_cons (by decide))
      rw [List.singleton_append, readMembers, readKey_textChars k (by omega)]
      change (item _ >>= _) = _
      rw [first]
      refine withinLevels_bind (m := 0) ?_
      dsimp only
      rw [readAfter_closing (by decide)]
      rfl
  | cons next members ih =>
      obtain ⟨key, u⟩ := next
      rw [encode_compactMembers_cons] at enough ⊢
      rw [List.length_cons, List.length_append, List.length_cons, List.length_append] at enough
      obtain ⟨rounds, rfl⟩ := Nat.exists_eq_succ_of_ne_zero (Nat.ne_zero_of_lt enough)
      have first := reads (k, v) List.mem_cons_self (0x2C :: (encode (textChars key) ++
        0x3A :: (encode (compactChars u) ++ (encode (compactMembers members) ++ rest)))) (endsValue_cons (by decide))
      have next := ih key u (fun member isMember => reads member (List.mem_cons_of_mem _ isMember))
        (n := rounds) (by omega)
      simp only [List.cons_append, List.append_assoc]
      rw [readMembers, readKey_textChars k (by omega)]
      change (item _ >>= _) = _
      rw [first]
      refine withinLevels_bind ?_
      dsimp only
      rw [readAfter_comma_key]
      change (readMembers true item rounds _ >>= _) = _
      rw [next]
      exact withinLevels_map

theorem withinLevels_succ {α : Type} (needed : Nat) (found : Read α) :
    withinLevels (needed + 1) (levels + 1) found = withinLevels needed levels found := by
  simp [withinLevels]

theorem ReadsScalar.readsBack {v : Value} (reads : ReadsScalar rounds v) (flat : levelsOf v = 0) (levels : Nat) :
    ReadsBack (readValue true rounds levels) levels v := by
  intro rest ends
  obtain ⟨b, bytes, written, starts, read⟩ := reads rest ends
  rw [written, readValue_scalar starts, read, flat, withinLevels_zero]

theorem readValue_bracket {b : UInt8} (bracket : b = 0x5B ∨ b = 0x7B) :
    readValue true rounds 0 (b :: rest) = .error .malformed := by
  rcases bracket with rfl | rfl
  · simp [readValue, skipSpace_cons (b := 0x5B) (by decide)]
  · simp [readValue, skipSpace_cons (b := 0x7B) (by decide)]

/-- Values that the reader gives back wherever they fit and at any level. -/
def ReadsBackAt (rounds : Nat) (v : Value) : Prop :=
  (encode (compactChars v)).length ≤ rounds → ∀ levels, ReadsBack (readValue true rounds levels) levels v

theorem readsBackAt_list {items : List Value} (whole : ∀ v ∈ items, v.IsWhole)
    (reads : ∀ v ∈ items, ReadsBackAt rounds v) : ReadsBackAt rounds (.list items) := by
  intro enough levels rest _
  have noSpace : isSpace 0x5B = false := by decide
  cases items with
  | nil =>
      have written : encode (compactChars (.list [])) = [0x5B, 0x5D] := by decide
      have closing : isSpace 0x5D = false := by decide
      rw [written]
      cases levels with
      | zero => exact readValue_bracket (.inl rfl)
      | succ levels =>
          simp only [List.cons_append, List.nil_append, readValue, skipSpace_cons noSpace, skipSpace_cons closing]
          rfl
  | cons v items =>
      obtain ⟨b, bytes, starts, startNoSpace, notClosing⟩ := (whole v List.mem_cons_self).starts
      rw [encode_list_cons] at enough ⊢
      rw [List.length_cons, List.length_append] at enough
      rw [List.cons_append, List.append_assoc]
      cases levels with
      | zero => exact readValue_bracket (.inl rfl)
      | succ levels =>
          have fits : ∀ u ∈ v :: items, (encode (compactChars u)).length ≤ rounds := fun u member =>
            Nat.le_trans (length_le_compactItems member) (by omega)
          have read := readItems_compactItems rest v items
            (fun u member => whole u (List.mem_cons_of_mem v member))
            (fun u member => reads u member (fits u member) levels) (n := rounds) (by omega)
          rw [starts, List.cons_append] at read ⊢
          rw [readValue, skipSpace_cons noSpace]
          simp only [skipSpace_cons startNoSpace, beq_false_of_ne notClosing]
          rw [levelsOf, withinLevels_succ]
          change (readItems _ _ _ >>= _) = _
          rw [read]
          exact withinLevels_map

theorem readsBackAt_object {members : List (String × Value)}
    (reads : ∀ member ∈ members, ReadsBackAt rounds member.2) : ReadsBackAt rounds (.object members) := by
  intro enough levels rest _
  have noSpace : isSpace 0x7B = false := by decide
  cases members with
  | nil =>
      have written : encode (compactChars (.object [])) = [0x7B, 0x7D] := by decide
      have closing : isSpace 0x7D = false := by decide
      rw [written]
      cases levels with
      | zero => exact readValue_bracket (.inr rfl)
      | succ levels =>
          simp only [List.cons_append, List.nil_append, readValue, skipSpace_cons noSpace, skipSpace_cons closing]
          rfl
  | cons first members =>
      obtain ⟨k, v⟩ := first
      rw [encode_object_cons] at enough ⊢
      simp only [List.length_cons, List.length_append] at enough
      simp only [List.cons_append, List.append_assoc]
      cases levels with
      | zero => exact readValue_bracket (.inr rfl)
      | succ levels =>
          have fits : ∀ member ∈ (k, v) :: members, (encode (compactChars member.2)).length ≤ rounds :=
            fun member isMember => Nat.le_trans (length_le_compactMembers isMember) (by omega)
          have read := readMembers_compactMembers rest k v members
            (fun member isMember => reads member isMember (fits member isMember) levels) (n := rounds) (by omega)
          have quote : isSpace 0x22 = false := by decide
          rw [encode_textChars, List.cons_append] at read ⊢
          rw [readValue, skipSpace_cons noSpace]
          simp only [skipSpace_cons quote]
          rw [levelsOf, withinLevels_succ]
          change (readMembers _ _ _ _ >>= _) = _
          rw [read]
          exact withinLevels_map

/-- A written value is read as that value if it has no more levels than the reader takes, and breaks the
grammar otherwise. -/
theorem Value.IsWhole.readsBackAt {v : Value} (whole : v.IsWhole) : ReadsBackAt rounds v := by
  -- The rounds stay the same all the way down, and each value is shorter than what it stands in.
  induction whole with
  | null => exact fun _ levels => readsScalar_null.readsBack rfl levels
  | bool b => exact fun _ levels => (readsScalar_bool b).readsBack rfl levels
  | number whole => exact fun _ levels => (readsScalar_number whole).readsBack rfl levels
  | text s => exact fun enough levels => (readsScalar_text s enough).readsBack rfl levels
  | list whole reads => exact readsBackAt_list whole reads
  | object whole reads => exact readsBackAt_object reads

/-- The text of a value is read as that value, with the same exception. -/
theorem Value.IsWhole.read_compact {v : Value} (whole : v.IsWhole) :
    read (Text.bytesOf v.compact) = if levelsOf v ≤ deepest then .ok v else .error .malformed := by
  have bytes : Text.bytesOf v.compact = encode (compactChars v) := by
    rw [Text.bytesOf, Value.compact, String.toList_ofList]
  have found := whole.readsBackAt (Nat.le_succ _) deepest [] endsValue_nil
  rw [List.append_nil] at found
  rw [read, bytes, found, withinLevels]
  split <;> rfl

/-! No value is written over more than one line. -/

theorem newLine_ne_hexDigit : ∀ n < 16, '\n' ≠ hexDigit n := by decide

theorem newLine_not_mem_escapeChar (c : Char) : '\n' ∉ escapeChar c := by
  unfold escapeChar
  repeat' split
  iterate 7 · decide
  · have high := newLine_ne_hexDigit (c.toNat / 16) (by omega)
    have low := newLine_ne_hexDigit (c.toNat % 16) (by omega)
    simp [high, low]
  · rename_i notNewLine _ _ _ _ _
    exact fun member => notNewLine (beq_iff_eq.mpr (List.mem_singleton.mp member).symm)

theorem newLine_not_mem_textChars (s : String) : '\n' ∉ textChars s := by
  simp [textChars, newLine_not_mem_escapeChar]

theorem newLine_not_mem_digits (n : Nat) : '\n' ∉ Nat.toDigits 10 n := fun member =>
  absurd (Nat.isDigit_of_mem_toDigits (by decide) (by decide) member) (by decide)

theorem newLine_not_mem_compactItems {items : List Value} (each : ∀ v ∈ items, '\n' ∉ compactChars v) :
    '\n' ∉ compactItems items := by
  induction items with
  | nil => decide
  | cons v items ih =>
      have later := ih fun u member => each u (List.mem_cons_of_mem v member)
      simp [compactItems, each v List.mem_cons_self, later]

theorem newLine_not_mem_compactMembers {members : List (String × Value)}
    (each : ∀ member ∈ members, '\n' ∉ compactChars member.2) : '\n' ∉ compactMembers members := by
  induction members with
  | nil => decide
  | cons first members ih =>
      have later := ih fun member isMember => each member (List.mem_cons_of_mem first isMember)
      simp [compactMembers, newLine_not_mem_textChars, each first List.mem_cons_self, later]

theorem Value.IsWhole.newLine_not_mem {v : Value} (whole : v.IsWhole) : '\n' ∉ compactChars v := by
  induction whole with
  | null => decide
  | bool b => cases b <;> decide
  | @number n whole =>
      cases n with
      | natural n => exact newLine_not_mem_digits n
      | negative n =>
          rw [compactChars, numberChars]
          simp [newLine_not_mem_digits]
      | double x => cases whole
  | text s => exact newLine_not_mem_textChars s
  | @list items _ each =>
      cases items with
      | nil => decide
      | cons v items =>
          have later := newLine_not_mem_compactItems fun u member => each u (List.mem_cons_of_mem v member)
          simp [compactChars, each v List.mem_cons_self, later]
  | @object members _ each =>
      cases members with
      | nil => decide
      | cons first members =>
          have later := newLine_not_mem_compactMembers fun member isMember =>
            each member (List.mem_cons_of_mem first isMember)
          simp [compactChars, newLine_not_mem_textChars, each first List.mem_cons_self, later]

end Realms.Json
