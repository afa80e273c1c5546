import Realms.Proofs.Page.Body
import Realms.Proofs.Page.Lossless
import Realms.Proofs.Page.References

/-!
Pages that arrive. A tree that may be sent and is not too deep comes back from the answer it is sent in: its rows can
be sent with it, the lines give these rows, and the rows give the tree.
-/
namespace Realms

open Realms.Json

namespace Node

variable {root : Node}

mutual

/-- With numbers in the place of ids a tree may still be sent, if the numbers are ones of rows. -/
theorem lower_isSendable (ids : List String) {node : Node} (sendable : node.IsSendable)
    (few : (node.lower ids).2.length < 0xFFFFFFFF) : (node.lower ids).1.IsSendable := by
  cases node with
  | text shown => exact .text shown
  | element tag props children =>
      obtain ⟨data, each⟩ : IsData props ∧ ∀ child ∈ children, child.IsSendable := by
        cases sendable with
        | element tag data each => exact ⟨data, each⟩
      exact .element tag data (lowerAll_isSendable ids each few)
  | clientReference id props =>
      cases sendable with
      | clientReference id data =>
          obtain ⟨index, number, found⟩ := numberOf_number ids id
          have bound : index < (numberOf ids id).2.length := (List.getElem?_eq_some_iff.mp found).1
          have few : (numberOf ids id).2.length < 0xFFFFFFFF := few
          have isRow : IsRowNumber (numberOf ids id).1 := by
            rw [number, IsRowNumber]
            omega
          exact .lazy isRow data
  | lazy row props => exact sendable

theorem lowerAll_isSendable (ids : List String) {children : List Node} (each : ∀ child ∈ children, child.IsSendable)
    (few : (lowerAll ids children).2.length < 0xFFFFFFFF) :
    ∀ child ∈ (lowerAll ids children).1, child.IsSendable := by
  cases children with
  | nil => nofun
  | cons node rest =>
      have longer := (prefix_lowerAll (node.lower ids).2 rest).length_le
      have first := lower_isSendable ids (each node List.mem_cons_self) (Nat.lt_of_le_of_lt longer few)
      exact List.forall_mem_cons.mpr ⟨first, lowerAll_isSendable (node.lower ids).2
        (fun child member => each child (List.mem_cons_of_mem node member)) few⟩

end

mutual

theorem levelsOf_lower (ids : List String) (node : Node) :
    levelsOf (node.lower ids).1.value = levelsOf node.value := by
  cases node with
  | text shown => rfl
  | element tag props children =>
      have inner := levelsOf_lowerAll ids children
      have empty : (lowerAll ids children).1.isEmpty = children.isEmpty := by cases children <;> rfl
      rw [lower, value, value, empty]
      simp only [levelsOf, levelsOfMembers_append]
      cases children with
      | nil => rfl
      | cons child rest => simp [levelsOfMembers, levelsOf, inner]
  | clientReference id props =>
      rw [lower, value, value]
      simp only [levelsOf, levelsOfMembers_append, levelsOfMembers, Value.ofNat]
  | lazy row props => rfl

theorem levelsOf_lowerAll (ids : List String) (children : List Node) :
    levelsOfItems (values (lowerAll ids children).1) = levelsOfItems (values children) := by
  cases children with
  | nil => rfl
  | cons node rest =>
      rw [lowerAll, values, values, levelsOfItems, levelsOfItems, levelsOf_lower, levelsOf_lowerAll]

end

theorem rows_eq (root : Node) : root.rows = referenceRows 1 root.firstUses ++ [.tree 0 (root.lower []).1] := by
  rw [← lower_firstUses]
  rfl

theorem rows_isSendable (sendable : root.IsSendable) (few : root.firstUses.length < 0xFFFFFFFF) :
    ∀ row ∈ root.rows, row.IsSendable := by
  intro row member
  rw [rows_eq, referenceRows_eq] at member
  rcases List.mem_append.mp member with reference | tree
  · obtain ⟨⟨id, number⟩, listed, rfl⟩ := List.mem_map.mp reference
    have bounds := List.mem_zipIdx listed
    rw [Row.IsSendable, IsRowNumber]
    omega
  · obtain rfl := List.mem_singleton.mp tree
    exact ⟨(by decide : 0 < 0x100000000), lower_isSendable [] sendable (by rwa [lower_firstUses])⟩

/-- The row of the tree takes one level more than the tree, and the others take one. -/
theorem rows_isShallow (shallow : levelsOf root.value < deepest) : ∀ row ∈ root.rows, row.IsShallow := by
  intro row member
  rw [rows_eq, referenceRows_eq] at member
  rcases List.mem_append.mp member with reference | tree
  · obtain ⟨⟨id, number⟩, _, rfl⟩ := List.mem_map.mp reference
    exact (by decide : 1 ≤ deepest)
  · obtain rfl := List.mem_singleton.mp tree
    simp only [Row.IsShallow, Row.value, levelsOf, levelsOfMembers, levelsOf_lower, Value.ofNat]
    omega

/-- The rows of a tree, applied in order, give the tree back. -/
theorem resolve_rows (plain : ∀ row props, .lazy row props ∉ root.nodes) :
    (ReceivedPage.empty.applyAll root.rows).resolve = .ok (some root) := by
  have known : ∀ row id, Numbers (root.lower []).2 row id →
      (ReceivedPage.empty.applyAll root.rows).reference? row = some id := by
    rintro row id ⟨index, rfl, found⟩
    rw [lower_firstUses] at found
    have bound : index < root.firstUses.length := (List.getElem?_eq_some_iff.mp found).1
    have last : (ReceivedPage.empty.applyAll root.rows).reference? (index + 1) =
        (ReceivedPage.empty.applyAll (referenceRows 1 root.firstUses)).reference? (index + 1) := by
      rw [rows_eq, ReceivedPage.applyAll_append]
      rfl
    rw [last, ReceivedPage.reference?_referenceRows, if_pos (by omega), Nat.add_sub_cancel, found]
  have sent : (ReceivedPage.empty.applyAll root.rows).root = some (root.lower []).1 := by
    rw [rows_eq, ReceivedPage.applyAll_append]
    rfl
  rw [ReceivedPage.resolve, sent]
  dsimp only
  rw [ReceivedPage.resolveNode_lower [] root plain known]
  rfl

end Node

namespace Service

/-- A client reads the tree out of the answer that a page is sent in. -/
theorem Response.page_received {root : Node} (sendable : root.IsSendable)
    (plain : ∀ row props, .lazy row props ∉ root.nodes) (few : root.firstUses.length < 0xFFFFFFFF)
    (shallow : levelsOf root.value < deepest) :
    ∃ page, (Received.whole (.page root)).page = .ok page ∧ page.resolve = .ok (some root) := by
  have rows := Node.rows_isSendable sendable few
  have lines := RowStream.receive_lines [Text.bytesOf (Row.body root.rows)] List.not_mem_nil
  rw [List.nil_append, List.flatten_singleton, Row.splitOn_body rows, Row.lineRows_lines rows,
    if_pos (Node.rows_isShallow shallow)] at lines
  refine ⟨ReceivedPage.empty.applyAll root.rows, ?_, Node.resolve_rows plain⟩
  have isPage : pageType.toList.isPrefixOf (((Received.whole (.page root)).contentType.getD "").toList) = true := by
    change pageType.toList.isPrefixOf pageType.toList = true
    decide
  have success : (Received.whole (.page root)).isSuccess = true := rfl
  rw [Received.page, success]
  simp only [isPage, Bool.not_true, Bool.false_eq_true, ↓reduceIte]
  have read : Received.readChunks false .empty .empty [Text.bytesOf (Row.body root.rows)] =
      .ok (ReceivedPage.empty.applyAll root.rows) := by
    rw [Received.readChunks_eq_ofChunksAfter, ReceivedPage.ofChunksAfter_eq, RowStream.empty, lines]
    rfl
  exact read

end Service
end Realms
