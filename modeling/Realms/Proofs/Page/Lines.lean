import Realms.Proofs.Page.Sent

/-!
Rows survive their lines. A line is one value, so that the row comes back from it if the value has no more
levels than a reader takes.
-/
namespace Realms

open Realms.Json
open Realms.Text (encode encodeChar encode_nil encode_cons encode_append)

namespace Exchange.Shape

theorem innerNode_value {root : Node} (sendable : root.IsSendable) : innerNode root.value = some root :=
  sendable.nodeWithin true (Nat.le_succ _)

theorem rowContent_reference {row : Nat} (isRow : IsRowNumber row) (id : String) :
    rowContent 0 (.object [("row", .ofNat row), ("id", .text id)]) = some (.reference row id) := by
  have field : fields ["row", "id"] (.object [("row", .ofNat row), ("id", .text id)]) =
      some [some (.ofNat row), some (.text id)] := by
    rw [fields, fieldsLeaving_object (by simp)]
    simp [Value.get?]
  simp only [rowContent, field, bind, Option.bind, required, size_ofNat isRow]
  rfl

theorem rowContent_tree {row : Nat} (isRow : IsRowNumber row) {root : Node} (sendable : root.IsSendable) :
    rowContent 1 (.object [("row", .ofNat row), ("tree", root.value)]) = some (.tree row root) := by
  have field : fields ["row", "tree"] (.object [("row", .ofNat row), ("tree", root.value)]) =
      some [some (.ofNat row), some root.value] := by
    rw [fields, fieldsLeaving_object (by simp)]
    simp [Value.get?]
  simp only [rowContent, field, bind, Option.bind, required, size_ofNat isRow, innerNode_value sendable]
  rfl

end Exchange.Shape

namespace Row

variable {levels : Nat} {item : List UInt8 → Result (Read Value)}

/-- The member in front, where it is not the tag. -/
theorem readMembers_other {found : Members} {k : String} {bytes : List UInt8} {n : Nat} (noTag : k ≠ "kind")
    (enough : (encode (textChars k)).length ≤ n + 1) :
    readMembers item (n + 1) found (encode (textChars k) ++ 0x3A :: bytes) =
      item bytes >>= fun value => readAfter 0x7D value.rest >>= fun
        | .closed rest => pure ⟨⟨found.tag, found.content ++ [(k, value.value)]⟩, rest⟩
        | .more rest => readMembers item n ⟨found.tag, found.content ++ [(k, value.value)]⟩ rest := by
  have notKind := beq_false_of_ne noTag
  rw [readMembers, readKeyText_textChars k enough]
  simp only [bind, Except.bind, notKind, Bool.false_eq_true, ↓reduceIte, readColon_colon]
  cases item bytes <;> rfl

/-- The members behind the tag. -/
theorem readMembers_compactMembers (found : Members) (rest : List UInt8) (k : String) (v : Value)
    (members : List (String × Value)) (noTag : ∀ member ∈ (k, v) :: members, member.1 ≠ "kind")
    (reads : ∀ member ∈ (k, v) :: members, ReadsBack item levels member.2) {n : Nat}
    (enough : (encode (textChars k)).length + (encode (compactChars v)).length +
      (encode (compactMembers members)).length ≤ n) :
    readMembers item n found
        (encode (textChars k) ++ 0x3A :: (encode (compactChars v) ++ (encode (compactMembers members) ++ rest))) =
      withinLevels (levelsOfMembers ((k, v) :: members)) levels
        ⟨⟨found.tag, found.content ++ (k, v) :: members⟩, rest⟩ := by
  induction members generalizing k v n found with
  | nil =>
      rw [encode_compactMembers_nil] at enough ⊢
      obtain ⟨rounds, rfl⟩ := Nat.exists_eq_succ_of_ne_zero (Nat.ne_zero_of_lt enough)
      have first := reads (k, v) List.mem_cons_self (0x7D :: rest) (endsValue_cons (by decide))
      have notKind : k ≠ "kind" := noTag (k, v) List.mem_cons_self
      rw [List.singleton_append, readMembers_other notKind (by omega), first]
      refine withinLevels_bind (m := 0) ?_
      dsimp only
      rw [readAfter_closing (by decide)]
      rfl
  | cons next members ih =>
      obtain ⟨key, u⟩ := next
      rw [encode_compactMembers_cons] at enough ⊢
      rw [List.length_cons, List.length_append, List.length_cons, List.length_append] at enough
      obtain ⟨rounds, rfl⟩ := Nat.exists_eq_succ_of_ne_zero (Nat.ne_zero_of_lt enough)
      have first := reads (k, v) List.mem_cons_self (0x2C :: (encode (textChars key) ++
        0x3A :: (encode (compactChars u) ++ (encode (compactMembers members) ++ rest)))) (endsValue_cons (by decide))
      have next := ih ⟨found.tag, found.content ++ [(k, v)]⟩ key u
        (fun member isMember => noTag member (List.mem_cons_of_mem _ isMember))
        (fun member isMember => reads member (List.mem_cons_of_mem _ isMember)) (n := rounds) (by omega)
      simp only [List.cons_append, List.append_assoc]
      have notKind : k ≠ "kind" := noTag (k, v) List.mem_cons_self
      rw [readMembers_other notKind (by omega), first]
      refine withinLevels_bind ?_
      dsimp only
      rw [readAfter_comma_key]
      change readMembers item rounds _ _ = _
      rw [next, List.append_assoc]
      rfl

/-- The tag of a row as its first member. It does not go through the reader of the other members. -/
theorem readMembers_tag (item : List UInt8 → Result (Read Value)) {tag : String} {place n : Nat} (k : String)
    (bytes : List UInt8) (isTag : tags.idxOf? tag = some place)
    (enough : (encode (textChars "kind")).length + (encode (textChars tag)).length ≤ n + 1) :
    readMembers item (n + 1) ⟨none, []⟩ (encode (textChars "kind") ++ 0x3A :: (encode (textChars tag) ++
        0x2C :: (encode (textChars k) ++ bytes))) =
      readMembers item n ⟨some place, []⟩ (encode (textChars k) ++ bytes) := by
  have fits : (encode (textChars tag)).length ≤ n + 1 := by omega
  obtain ⟨text, written, read⟩ := readScalar_textChars tag fits (0x2C :: (encode (textChars k) ++ bytes))
  have tagRead : readTag (n + 1) (encode (textChars tag) ++ 0x2C :: (encode (textChars k) ++ bytes)) =
      .ok ⟨place, 0x2C :: (encode (textChars k) ++ bytes)⟩ := by
    have isPlace : Tagged.place? false tags (.text tag) = some place := isTag
    rw [written, readTag, skipSpace_cons (by decide)]
    simp [read, isPlace, bind, Except.bind]
  rw [readMembers, readKeyText_textChars "kind" (by omega)]
  simp only [bind, Except.bind, beq_self_eq_true, Option.isSome_none, Bool.false_eq_true, ↓reduceIte, readColon_colon,
    tagRead, pure, Except.pure, readAfter_comma_key]

/-- The bytes of the value of a row. -/
theorem encode_tagged (tag k : String) (v : Value) (members : List (String × Value)) :
    encode (compactChars (.object (("kind", .text tag) :: (k, v) :: members))) =
      0x7B :: (encode (textChars "kind") ++ 0x3A :: (encode (textChars tag) ++ 0x2C :: (encode (textChars k) ++
        0x3A :: (encode (compactChars v) ++ encode (compactMembers members))))) := by
  rw [encode_object_cons, encode_compactMembers_cons, compactChars]

theorem ofLine_object {line inner : List UInt8} (opens : line = 0x7B :: inner) :
    ofLine line = (readObject (line.length + 1) (deepest - 1) inner >>= endOfText) := by
  have noSpace : isSpace 0x7B = false := by decide
  simp [ofLine, opens, skipSpace_cons noSpace]

theorem readObject_key (rounds : Nat) (k : String) (bytes : List UInt8) :
    readObject rounds levels (encode (textChars k) ++ bytes) =
      (readMembers (readValue true rounds levels) rounds ⟨none, []⟩ (encode (textChars k) ++ bytes) >>= fun found =>
        ofContent found.value.tag (.object found.value.content) found.rest) := by
  have noSpace : isSpace 0x22 = false := by decide
  simp [readObject, encode_textChars, skipSpace_cons noSpace]

/-- A row is read from its line if its value has no more levels than a reader takes. -/
theorem ofLine_value (place : Nat) {tag k : String} {v : Value} {members : List (String × Value)} {row : Row}
    (whole : (Value.object (("kind", .text tag) :: (k, v) :: members)).IsWhole)
    (isTag : tags.idxOf? tag = some place) (noTag : ∀ member ∈ (k, v) :: members, member.1 ≠ "kind")
    (isRow : Exchange.Shape.rowContent place (.object ((k, v) :: members)) = some row) :
    ofLine (encode (compactChars (.object (("kind", .text tag) :: (k, v) :: members)))) =
      if levelsOf (.object (("kind", .text tag) :: (k, v) :: members)) ≤ deepest then .ok row
      else .error .malformed := by
  cases whole with
  | object each =>
      -- The line stays whole in the rounds, which count its bytes, and is taken apart in what is read.
      have written := encode_tagged tag k v members
      generalize encode (compactChars (.object (("kind", .text tag) :: (k, v) :: members))) = bytes at written ⊢
      have length := congrArg List.length written
      simp only [List.length_cons, List.length_append] at length
      have reads : ∀ member ∈ (k, v) :: members,
          ReadsBack (readValue true (bytes.length + 1) (deepest - 1)) (deepest - 1) member.2 := by
        intro member isMember
        have inMembers := length_le_compactMembers isMember
        exact (each member (List.mem_cons_of_mem _ isMember)).readsBackAt (by omega) _
      have found := readMembers_compactMembers ⟨some place, []⟩ [] k v members noTag reads (n := bytes.length)
        (by omega)
      rw [List.append_nil] at found
      have object := readMembers_tag (readValue true (bytes.length + 1) (deepest - 1)) (n := bytes.length) k
        (0x3A :: (encode (compactChars v) ++ encode (compactMembers members))) isTag (by omega)
      have within : levelsOf (.object (("kind", .text tag) :: (k, v) :: members)) ≤ deepest ↔
          levelsOfMembers ((k, v) :: members) ≤ deepest - 1 := by
        simp only [levelsOf, levelsOfMembers, Nat.zero_max, deepest]
        omega
      rw [ofLine_object written, readObject_key, object, found, withinLevels]
      simp only [within]
      split
      · simp [bind, Except.bind, ofContent, isRow, endOfText, skipSpace]
      · rfl

theorem bytesOf_line (row : Row) : Text.bytesOf row.line = encode (compactChars row.value) := by
  rw [Text.bytesOf, line, Value.compact, String.toList_ofList]

/-- A row comes back from its line, unless it lies too deep for the reader. -/
theorem ofLine_line {row : Row} (sendable : row.IsSendable) :
    ofLine (Text.bytesOf row.line) = if levelsOf row.value ≤ deepest then .ok row else .error .malformed := by
  rw [bytesOf_line]
  cases row with
  | reference row id =>
      exact ofLine_value 0 sendable.isWhole (by decide) (by simp) (Exchange.Shape.rowContent_reference sendable id)
  | tree row root =>
      exact ofLine_value 1 sendable.isWhole (by decide) (by simp)
        (Exchange.Shape.rowContent_tree sendable.1 sendable.2)

end Row
end Realms
