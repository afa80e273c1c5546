import Realms.Json.Record
import Realms.Proofs.Json.Value

/-!
Records survive being written over lines. A value that fits a layout is read in that layout as itself, with the
spaces in front of it and at any depth.
-/
namespace Realms.Json

open Realms.Text (encode encodeChar encode_nil encode_cons encode_append)

/-- A value is what a layout wants, in at most so many levels. A record has each of its fields once, in their
order; where anything is wanted there is a text. -/
inductive Layout.Fits : Nat → Layout → Value → Prop where
  | any {levels : Nat} (s : String) : Fits levels .any (.text s)
  | text {levels : Nat} (s : String) : Fits levels .text (.text s)
  | list {levels : Nat} {item : Layout} {items : List Value} : (∀ v ∈ items, Fits levels item v) →
      Fits (levels + 1) (.list item) (.list items)
  | record {levels : Nat} {fields : List Field} {members : List (String × Value)} :
      fields.map Prod.fst = members.map Prod.fst → (members.map Prod.fst).Nodup →
      (∀ field ∈ fields, ∀ member ∈ members, field.1 = member.1 → Fits levels field.2.2 member.2) →
      Fits (levels + 1) (.record fields) (.object members)

variable {rounds levels indent : Nat} {rest : List UInt8}

/-! The spaces between what is written. -/

theorem skipSpace_space {b : UInt8} (space : isSpace b = true) : skipSpace (b :: rest) = skipSpace rest := by
  simp [skipSpace, space]

theorem skipSpace_newLine (level : Nat) : skipSpace (encode (newLine level) ++ rest) = skipSpace rest := by
  have lineEnd : encodeChar '\n' = [0x0A] := by decide
  have blank : encodeChar ' ' = [0x20] := by decide
  rw [newLine, encode_cons, lineEnd, List.singleton_append, List.cons_append, skipSpace_space (by decide)]
  induction 2 * level with
  | zero => rfl
  | succ count ih =>
      rw [List.replicate_succ, encode_cons, blank, List.singleton_append, List.cons_append,
        skipSpace_space (by decide), ih]

/-- A value that is written with a quote or a bracket in front. -/
def Value.Starts (indent : Nat) (v : Value) : Prop :=
  ∃ b bytes, encode (prettyChars indent v) = b :: bytes ∧ isSpace b = false ∧ b ≠ 0x5D

theorem Value.Starts.skipSpace {v : Value} (starts : v.Starts indent) :
    skipSpace (encode (prettyChars indent v) ++ rest) = encode (prettyChars indent v) ++ rest := by
  obtain ⟨b, bytes, written, noSpace, _⟩ := starts
  rw [written]
  exact skipSpace_cons noSpace

theorem readAfter_newLine (closing : UInt8) (level : Nat) (noSpace : isSpace closing = false) :
    readAfter closing (encode (newLine level) ++ closing :: rest) = .ok (.closed rest) := by
  rw [readAfter, skipSpace_newLine, skipSpace_cons noSpace]
  simp

theorem readAfter_comma_newLine {closing b : UInt8} (level : Nat) (noComma : closing ≠ 0x2C)
    (noSpace : isSpace b = false) (notClosing : b ≠ closing) :
    readAfter closing (0x2C :: (encode (newLine level) ++ b :: rest)) = .ok (.more (b :: rest)) := by
  have comma : isSpace 0x2C = false := by decide
  simp [readAfter, skipSpace_newLine, skipSpace_cons noSpace, skipSpace_cons comma, noComma.symm, notClosing]

/-! What is written for lists and objects. -/

theorem encode_prettyItems_nil : encode (prettyItems indent []) = encode (newLine indent) ++ [0x5D] := by
  have closing : encodeChar ']' = [0x5D] := by decide
  rw [prettyItems, encode_append, encode_cons, encode_nil, closing]
  rfl

theorem encode_prettyItems_cons (v : Value) (items : List Value) : encode (prettyItems indent (v :: items)) =
    0x2C :: (encode (newLine (indent + 1)) ++ (encode (prettyChars (indent + 1) v) ++
      encode (prettyItems indent items))) := by
  have comma : encodeChar ',' = [0x2C] := by decide
  simp only [prettyItems, List.cons_append, List.append_assoc, encode_cons, encode_append, comma, List.nil_append]

theorem encode_prettyList (v : Value) (items : List Value) : encode (prettyChars indent (.list (v :: items))) =
    0x5B :: (encode (newLine (indent + 1)) ++ (encode (prettyChars (indent + 1) v) ++
      encode (prettyItems indent items))) := by
  have opening : encodeChar '[' = [0x5B] := by decide
  simp only [prettyChars, List.cons_append, List.append_assoc, encode_cons, encode_append, opening, List.nil_append]

theorem encode_prettyMembers_nil : encode (prettyMembers indent []) = encode (newLine indent) ++ [0x7D] := by
  have closing : encodeChar '\x7d' = [0x7D] := by decide
  rw [prettyMembers, encode_append, encode_cons, encode_nil, closing]
  rfl

theorem encode_prettyMembers_cons (k : String) (v : Value) (members : List (String × Value)) :
    encode (prettyMembers indent ((k, v) :: members)) =
      0x2C :: (encode (newLine (indent + 1)) ++ (encode (textChars k) ++ 0x3A :: 0x20 ::
        (encode (prettyChars (indent + 1) v) ++ encode (prettyMembers indent members)))) := by
  have comma : encodeChar ',' = [0x2C] := by decide
  have colon : encodeChar ':' = [0x3A] := by decide
  have blank : encodeChar ' ' = [0x20] := by decide
  simp only [prettyMembers, List.cons_append, List.append_assoc, encode_cons, encode_append, comma, colon, blank,
    List.nil_append]

theorem encode_prettyObject (k : String) (v : Value) (members : List (String × Value)) :
    encode (prettyChars indent (.object ((k, v) :: members))) =
      0x7B :: (encode (newLine (indent + 1)) ++ (encode (textChars k) ++ 0x3A :: 0x20 ::
        (encode (prettyChars (indent + 1) v) ++ encode (prettyMembers indent members)))) := by
  have opening : encodeChar '\x7b' = [0x7B] := by decide
  have colon : encodeChar ':' = [0x3A] := by decide
  have blank : encodeChar ' ' = [0x20] := by decide
  simp only [prettyChars, List.cons_append, List.append_assoc, encode_cons, encode_append, opening, colon, blank,
    List.nil_append]

theorem Layout.Fits.starts {layout : Layout} {v : Value} (fits : layout.Fits levels v) (indent : Nat) :
    v.Starts indent := by
  cases fits with
  | any s => exact ⟨0x22, _, encode_textChars s, by decide, by decide⟩
  | text s => exact ⟨0x22, _, encode_textChars s, by decide, by decide⟩
  | @list _ _ items _ =>
      cases items with
      | nil => exact ⟨0x5B, [0x5D], rfl, by decide, by decide⟩
      | cons v items => exact ⟨0x5B, _, encode_prettyList v items, by decide, by decide⟩
  | @record _ _ members _ _ _ =>
      cases members with
      | nil => exact ⟨0x7B, [0x7D], rfl, by decide, by decide⟩
      | cons member members => exact ⟨0x7B, _, encode_prettyObject member.1 member.2 members, by decide, by decide⟩

theorem length_le_prettyItems {u v : Value} {items : List Value} (member : u ∈ v :: items) :
    (encode (prettyChars (indent + 1) u)).length ≤
      (encode (prettyChars (indent + 1) v)).length + (encode (prettyItems indent items)).length := by
  induction items generalizing v with
  | nil =>
      rw [List.mem_singleton.mp member]
      exact Nat.le_add_right _ _
  | cons w items ih =>
      rw [encode_prettyItems_cons]
      simp only [List.length_cons, List.length_append]
      rcases List.mem_cons.mp member with rfl | later
      · omega
      · have inRest := ih later
        omega

theorem length_le_prettyMembers {member : String × Value} {k : String} {v : Value} {members : List (String × Value)}
    (isMember : member ∈ (k, v) :: members) : (encode (prettyChars (indent + 1) member.2)).length ≤
      (encode (prettyChars (indent + 1) v)).length + (encode (prettyMembers indent members)).length := by
  induction members generalizing k v with
  | nil =>
      rw [List.mem_singleton.mp isMember]
      exact Nat.le_add_right _ _
  | cons next members ih =>
      rw [encode_prettyMembers_cons]
      simp only [List.length_cons, List.length_append]
      rcases List.mem_cons.mp isMember with rfl | later
      · dsimp only
        omega
      · have inRest := ih later
        omega

/-! Reading them, over any reader of what stands in them. -/

/-- A reader that gives a value back from its lines, whatever spaces stand in front. -/
def ReadsLines (read : List UInt8 → Result (Read Value)) (indent : Nat) (v : Value) : Prop :=
  ∀ bytes rest, skipSpace bytes = encode (prettyChars indent v) ++ rest → read bytes = .ok ⟨v, rest⟩

theorem ReadsLines.read_eq {read : List UInt8 → Result (Read Value)} {v : Value} (reads : ReadsLines read indent v)
    (starts : v.Starts indent) : read (encode (prettyChars indent v) ++ rest) = .ok ⟨v, rest⟩ :=
  reads _ _ starts.skipSpace

theorem ReadsLines.read_space {read : List UInt8 → Result (Read Value)} {v : Value}
    (reads : ReadsLines read indent v) (starts : v.Starts indent) :
    read (0x20 :: (encode (prettyChars indent v) ++ rest)) = .ok ⟨v, rest⟩ := by
  refine reads _ _ ?_
  rw [skipSpace_space (by decide), starts.skipSpace]

theorem readItems_prettyItems {item : List UInt8 → Result (Read Value)} (rest : List UInt8) (v : Value)
    (items : List Value) (starts : ∀ u ∈ v :: items, u.Starts (indent + 1))
    (reads : ∀ u ∈ v :: items, ReadsLines item (indent + 1) u) {n : Nat}
    (enough : (encode (prettyChars (indent + 1) v)).length + (encode (prettyItems indent items)).length ≤ n) :
    readItems item n (encode (prettyChars (indent + 1) v) ++ (encode (prettyItems indent items) ++ rest)) =
      .ok ⟨v :: items, rest⟩ := by
  induction items generalizing v n with
  | nil =>
      rw [encode_prettyItems_nil] at enough ⊢
      rw [List.length_append, List.length_singleton] at enough
      obtain ⟨n, rfl⟩ := Nat.exists_eq_succ_of_ne_zero (n := n) (by omega)
      rw [readItems, (reads v List.mem_cons_self).read_eq (starts v List.mem_cons_self), List.append_assoc]
      simp [readAfter_newLine 0x5D indent (by decide), bind, Except.bind, pure, Except.pure]
  | cons u items ih =>
      have later : ∀ w ∈ u :: items, w ∈ v :: u :: items := fun w => List.mem_cons_of_mem v
      rw [encode_prettyItems_cons] at enough ⊢
      simp only [List.length_cons, List.length_append] at enough
      obtain ⟨n, rfl⟩ := Nat.exists_eq_succ_of_ne_zero (n := n) (by omega)
      have more : readAfter 0x5D (0x2C :: (encode (newLine (indent + 1)) ++ (encode (prettyChars (indent + 1) u) ++
          (encode (prettyItems indent items) ++ rest)))) =
            .ok (.more (encode (prettyChars (indent + 1) u) ++ (encode (prettyItems indent items) ++ rest))) := by
        obtain ⟨b, bytes, written, noSpace, notClosing⟩ := starts u (later u List.mem_cons_self)
        rw [written]
        exact readAfter_comma_newLine _ (by decide) noSpace notClosing
      have next := ih u (fun w member => starts w (later w member)) (fun w member => reads w (later w member))
        (n := n) (by omega)
      rw [readItems, (reads v List.mem_cons_self).read_eq (starts v List.mem_cons_self)]
      simp [more, next, bind, Except.bind, pure, Except.pure]

section

variable {read : Layout → List UInt8 → Result (Read Value)} {fields : List Field} {found : List (String × Value)}

/-- One field that is wanted and was not found before. -/
theorem readFields_field {k : String} {v : Value} {bytes after : List UInt8} {n : Nat}
    (fits : (encode (textChars k)).length ≤ n + 1) (listed : k ∈ fields.map Prod.fst)
    (absent : k ∉ found.map Prod.fst)
    (reads : ∀ field ∈ fields, field.1 = k → read field.2.2 bytes = .ok ⟨v, after⟩) :
    readFields read fields (n + 1) found (encode (textChars k) ++ 0x3A :: bytes) = (do
      match ← readAfter 0x7D after with
      | .closed rest =>
        if fields.any (isMissing (found ++ [(k, v)])) then .error .unexpected else .ok ⟨found ++ [(k, v)], rest⟩
      | .more rest => readFields read fields n (found ++ [(k, v)]) rest) := by
  obtain ⟨⟨name, needed, layout⟩, finds⟩ : ∃ field, fields.find? (·.1 == k) = some field := by
    obtain ⟨field, member, same⟩ := List.mem_map.mp listed
    exact Option.isSome_iff_exists.mp (List.find?_isSome.mpr ⟨field, member, by simpa using same⟩)
  obtain rfl : name = k := by simpa using List.find?_some finds
  have value : read layout bytes = .ok ⟨v, after⟩ := reads _ (List.mem_of_find?_eq_some finds) rfl
  have isNew : found.any (·.1 == name) = false := by
    rw [List.any_eq_false]
    exact fun member isFound same => absent (List.mem_map.mpr ⟨member, isFound, beq_iff_eq.mp same⟩)
  rw [readFields, readKeyText_textChars name fits]
  rcases ended : readAfter 0x7D after with _ | _ | _
  all_goals simp [finds, isNew, readColon_colon, value, ended, bind, Except.bind, pure, Except.pure]

/-- The fields that are wanted come back one by one, each in its place. -/
theorem readFields_prettyMembers (rest : List UInt8) (found : List (String × Value)) (k : String) (v : Value)
    (members : List (String × Value))
    (names : fields.map Prod.fst = (found ++ (k, v) :: members).map Prod.fst)
    (nodup : ((found ++ (k, v) :: members).map Prod.fst).Nodup)
    (starts : ∀ member ∈ (k, v) :: members, member.2.Starts (indent + 1))
    (reads : ∀ field ∈ fields, ∀ member ∈ (k, v) :: members, field.1 = member.1 →
      ReadsLines (read field.2.2) (indent + 1) member.2)
    {n : Nat} (enough : (encode (textChars k)).length + (encode (prettyChars (indent + 1) v)).length +
      (encode (prettyMembers indent members)).length ≤ n) :
    readFields read fields n found (encode (textChars k) ++ 0x3A :: 0x20 ::
      (encode (prettyChars (indent + 1) v) ++ (encode (prettyMembers indent members) ++ rest))) =
        .ok ⟨found ++ (k, v) :: members, rest⟩ := by
  induction members generalizing found k v n with
  | nil =>
      rw [encode_prettyMembers_nil] at enough ⊢
      rw [List.length_append, List.length_singleton] at enough
      obtain ⟨n, rfl⟩ := Nat.exists_eq_succ_of_ne_zero (n := n) (by omega)
      rw [List.map_append, List.nodup_append] at nodup
      have absent : k ∉ found.map Prod.fst := fun listed => nodup.2.2 k listed k (by simp) rfl
      have complete : fields.any (isMissing (found ++ [(k, v)])) = false := by
        rw [List.any_eq_false]
        intro field listed
        have isFound : field.1 ∈ (found ++ [(k, v)]).map Prod.fst := names ▸ List.mem_map.mpr ⟨field, listed, rfl⟩
        obtain ⟨member, isMember, same⟩ := List.mem_map.mp isFound
        have finds : (found ++ [(k, v)]).any (·.1 == field.1) = true :=
          List.any_eq_true.mpr ⟨member, isMember, by simpa using same⟩
        simp [isMissing, finds]
      rw [readFields_field (by omega) (by simp [names]) absent fun field listed same =>
        (reads field listed (k, v) List.mem_cons_self same).read_space (starts _ List.mem_cons_self),
        List.append_assoc, List.singleton_append, readAfter_newLine 0x7D indent (by decide)]
      simp [complete, bind, Except.bind]
  | cons next members ih =>
      obtain ⟨key, u⟩ := next
      have later : ∀ member ∈ (key, u) :: members, member ∈ (k, v) :: (key, u) :: members := fun member =>
        List.mem_cons_of_mem (k, v)
      have split : found ++ (k, v) :: (key, u) :: members = (found ++ [(k, v)]) ++ (key, u) :: members := by simp
      rw [encode_prettyMembers_cons] at enough ⊢
      simp only [List.length_cons, List.length_append] at enough
      obtain ⟨n, rfl⟩ := Nat.exists_eq_succ_of_ne_zero (n := n) (by omega)
      have last := ih (found ++ [(k, v)]) key u (split ▸ names) (split ▸ nodup)
        (fun member isMember => starts member (later member isMember))
        (fun field listed member isMember => reads field listed member (later member isMember)) (n := n) (by omega)
      rw [List.map_append, List.nodup_append] at nodup
      have absent : k ∉ found.map Prod.fst := fun listed => nodup.2.2 k listed k (by simp) rfl
      have more : readAfter 0x7D (0x2C :: (encode (newLine (indent + 1)) ++ (encode (textChars key) ++ 0x3A :: 0x20 ::
          (encode (prettyChars (indent + 1) u) ++ (encode (prettyMembers indent members) ++ rest))))) =
            .ok (.more (encode (textChars key) ++ 0x3A :: 0x20 :: (encode (prettyChars (indent + 1) u) ++
              (encode (prettyMembers indent members) ++ rest)))) := by
        rw [encode_textChars]
        exact readAfter_comma_newLine _ (by decide) (by decide) (by decide)
      rw [readFields_field (by omega) (by simp [names]) absent fun field listed same =>
        (reads field listed (k, v) List.mem_cons_self same).read_space (starts _ List.mem_cons_self)]
      simp only [List.cons_append, List.append_assoc, more, bind, Except.bind] at last ⊢
      exact last

end

/-- A value that fits a layout is read in it from its lines. -/
theorem Layout.Fits.readsLines {layout : Layout} {v : Value} (fits : layout.Fits levels v) (indent : Nat)
    (enough : (encode (prettyChars indent v)).length ≤ rounds) :
    ReadsLines (readAs rounds levels layout) indent v := by
  -- The rounds stay the same all the way down, and each value is shorter than what it stands in.
  induction fits generalizing indent with
  | @any levels s =>
      intro bytes rest front
      obtain ⟨after, written, read⟩ := readScalar_textChars s enough rest
      have front : skipSpace bytes = 0x22 :: after := front.trans written
      cases levels <;> simp [readAs, readValue, front, read]
  | text s =>
      intro bytes rest front
      obtain ⟨after, written, read⟩ := readText_textChars s enough rest
      have front : skipSpace bytes = 0x22 :: after := front.trans written
      simp [readAs, front, read, bind, Except.bind, pure, Except.pure]
  | @list levels item items fits ih =>
      intro bytes rest front
      cases items with
      | nil =>
          have front : skipSpace bytes = 0x5B :: 0x5D :: rest := front
          have closing : skipSpace (0x5D :: rest) = 0x5D :: rest := skipSpace_cons (by decide)
          simp [readAs, front, nextItem, readListEnd, closing, bind, Except.bind, pure, Except.pure]
      | cons v items =>
          rw [encode_prettyList] at front enough
          simp only [List.length_cons, List.length_append] at enough
          have starts : ∀ u ∈ v :: items, u.Starts (indent + 1) := fun u member => (fits u member).starts _
          have reads := readItems_prettyItems rest v items starts (fun u member => ih u member _
            (Nat.le_trans (length_le_prettyItems member) (by omega))) (n := rounds) (by omega)
          obtain ⟨b, after, written, noSpace, notClosing⟩ := starts v List.mem_cons_self
          have front : skipSpace bytes = 0x5B :: (encode (newLine (indent + 1)) ++
              (encode (prettyChars (indent + 1) v) ++ (encode (prettyItems indent items) ++ rest))) := by
            simpa using front
          rw [written, List.cons_append] at front reads
          simp [readAs, front, nextItem, skipSpace_newLine, skipSpace_cons noSpace, notClosing, reads, bind,
            Except.bind, pure, Except.pure]
  | @record levels fields members names nodup fits ih =>
      intro bytes rest front
      cases members with
      | nil =>
          have none : fields = [] := List.map_eq_nil_iff.mp names
          have front : skipSpace bytes = 0x7B :: 0x7D :: rest := front
          have closing : skipSpace (0x7D :: rest) = 0x7D :: rest := skipSpace_cons (by decide)
          simp [readAs, front, closing, none]
      | cons member members =>
          obtain ⟨k, v⟩ := member
          rw [encode_prettyObject] at front enough
          simp only [List.length_cons, List.length_append] at enough
          have starts : ∀ member ∈ (k, v) :: members, member.2.Starts (indent + 1) := by
            intro member isMember
            have wanted : member.1 ∈ fields.map Prod.fst := names ▸ List.mem_map.mpr ⟨member, isMember, rfl⟩
            obtain ⟨field, listed, same⟩ := List.mem_map.mp wanted
            exact (fits field listed member isMember same).starts _
          have reads := readFields_prettyMembers rest [] k v members names nodup starts
            (fun field listed member isMember same => ih field listed member isMember same _
              (Nat.le_trans (length_le_prettyMembers isMember) (by omega))) (n := rounds) (by omega)
          have front : skipSpace bytes = 0x7B :: (encode (newLine (indent + 1)) ++ (encode (textChars k) ++
              0x3A :: 0x20 :: (encode (prettyChars (indent + 1) v) ++
                (encode (prettyMembers indent members) ++ rest)))) := by
            simpa using front
          have quote : isSpace 0x22 = false := by decide
          rw [encode_textChars] at front reads
          simp only [List.cons_append, List.append_assoc, List.nil_append] at front reads
          simp [readAs, front, skipSpace_newLine, skipSpace_cons quote, reads, bind, Except.bind, pure, Except.pure]

/-- The text of a record that fits its layout is read as that record. -/
theorem Layout.Fits.readRecord_pretty {fields : List Field} {v : Value}
    (fits : Layout.Fits deepest (.record fields) v) :
    readRecord fields (Text.bytesOf v.pretty) = .ok v := by
  have bytes : Text.bytesOf v.pretty = encode (prettyChars 0 v) ++ [] := by
    rw [Text.bytesOf, Value.pretty, String.toList_ofList, List.append_nil]
  have found := fits.readsLines 0 (Nat.le_succ _) _ [] (fits.starts 0).skipSpace
  rw [readRecord, bytes, List.append_nil]
  rw [List.append_nil] at found
  rw [found]
  rfl

/-- A record of one text is read back from one line. -/
theorem readRecord_text (k s : String) :
    readRecord [(k, true, .text)] (Text.bytesOf (Value.object [(k, .text s)]).compact) =
      .ok (.object [(k, .text s)]) := by
  have bytes : Text.bytesOf (Value.object [(k, .text s)]).compact =
      0x7B :: (encode (textChars k) ++ 0x3A :: (encode (textChars s) ++ [0x7D])) := by
    rw [Text.bytesOf, Value.compact, String.toList_ofList, encode_object_cons, encode_compactMembers_nil, compactChars]
  obtain ⟨n, size⟩ : ∃ n, n = (Text.bytesOf (Value.object [(k, .text s)]).compact).length := ⟨_, rfl⟩
  have enough := size
  rw [bytes] at enough
  simp only [List.length_cons, List.length_append] at enough
  have fits : Layout.Fits 126 .text (.text s) := .text s
  have short : (encode (textChars s)).length ≤ n + 1 := by omega
  have value : readAs (n + 1) 126 .text (encode (textChars s) ++ [0x7D]) = .ok ⟨.text s, [0x7D]⟩ :=
    (fits.readsLines 0 short).read_eq (fits.starts 0)
  have read : readFields (readAs (n + 1) 126) [(k, true, .text)] (n + 1) []
      (encode (textChars k) ++ 0x3A :: (encode (textChars s) ++ [0x7D])) = .ok ⟨[(k, .text s)], []⟩ := by
    rw [readFields_field (by omega) (by simp) (by simp) (by simpa using value), readAfter_closing (by decide)]
    simp [isMissing, bind, Except.bind]
  have quote : isSpace 0x22 = false := by decide
  have brace : isSpace 0x7B = false := by decide
  have ended : skipSpace [] = [] := rfl
  rw [encode_textChars k] at read bytes
  simp only [List.cons_append, List.append_assoc, List.nil_append] at read bytes
  rw [readRecord, ← size, bytes]
  simp [readAs, deepest, skipSpace_cons quote, skipSpace_cons brace, ended, read, endOfText, bind, Except.bind, pure,
    Except.pure]

end Realms.Json
