import Realms.Proofs.Page.Lines
import Realms.Proofs.Page.Stream

/-!
Rows that are sent are the rows that come. The only thing that can be lost is a row that is nested deeper
than a reader goes, though its writer takes any depth.
-/
namespace Realms

open Realms.Json
open Realms.Text (encode encodeChar encode_nil encode_cons encode_append)

namespace Row

/-- The lines of rows, one behind the other. -/
def body (rows : List Row) : String := String.join (rows.map fun row => row.line ++ "\n")

/-- A row with no more levels than a reader takes. -/
def IsShallow (row : Row) : Prop := levelsOf row.value ≤ deepest

instance (row : Row) : Decidable row.IsShallow := inferInstanceAs (Decidable (_ ≤ _))

theorem bytesOf_body_cons (row : Row) (rows : List Row) :
    Text.bytesOf (body (row :: rows)) = Text.bytesOf row.line ++ 0x0A :: Text.bytesOf (body rows) := by
  have newLine : encode "\n".toList = [0x0A] := by decide
  simp only [Text.bytesOf, body, String.toList_join, List.map_cons, List.flatMap_cons, String.toList_append,
    encode_append, newLine, List.append_assoc, List.singleton_append]

theorem newLine_not_mem_line {row : Row} (sendable : row.IsSendable) : 0x0A ∉ Text.bytesOf row.line := by
  rw [bytesOf_line]
  exact Text.newLine_not_mem_encode sendable.isWhole.newLine_not_mem

theorem splitOn_body {rows : List Row} (sendable : ∀ row ∈ rows, row.IsSendable) :
    (Text.bytesOf (body rows)).splitOn 0x0A = rows.map (fun row => Text.bytesOf row.line) ++ [[]] := by
  induction rows with
  | nil => rfl
  | cons row rows ih =>
      rw [bytesOf_body_cons,
        List.splitOn_append_cons_self_of_not_mem (newLine_not_mem_line (sendable row List.mem_cons_self)),
        ih fun other member => sendable other (List.mem_cons_of_mem row member)]
      rfl

theorem rowOfLine?_line {row : Row} (sendable : row.IsSendable) :
    rowOfLine? (Text.bytesOf row.line) = if row.IsShallow then .ok (some row) else .error .malformed := by
  have notBlank : (Text.bytesOf row.line).all isLineSpace = false := by
    obtain ⟨bytes, written⟩ : ∃ bytes, Text.bytesOf row.line = 0x7B :: bytes := by
      rw [bytesOf_line]
      cases row <;> exact ⟨_, by rw [value, encode_tagged]⟩
    have brace : isLineSpace 0x7B = false := by decide
    simp [written, brace]
  rw [rowOfLine?, notBlank, ofLine_line sendable]
  by_cases shallow : row.IsShallow
  · rw [if_pos shallow, if_pos (show levelsOf row.value ≤ deepest from shallow)]
    rfl
  · rw [if_neg shallow, if_neg (show ¬levelsOf row.value ≤ deepest from shallow)]
    rfl

theorem lineRows_lines {rows : List Row} (sendable : ∀ row ∈ rows, row.IsSendable) :
    lineRows (rows.map (fun row => Text.bytesOf row.line) ++ [[]]) =
      if ∀ row ∈ rows, row.IsShallow then .ok rows else .error .malformed := by
  induction rows with
  | nil => rfl
  | cons row rows ih =>
      have rest := ih fun other member => sendable other (List.mem_cons_of_mem row member)
      rw [List.map_cons, List.cons_append, lineRows, rowOfLine?_line (sendable row List.mem_cons_self), rest]
      by_cases shallow : row.IsShallow
      · rw [if_pos shallow]
        by_cases all : ∀ other ∈ rows, other.IsShallow
        · rw [if_pos all, if_pos (List.forall_mem_cons.mpr ⟨shallow, all⟩)]
          rfl
        · rw [if_neg all, if_neg fun both => all (List.forall_mem_cons.mp both).2]
          rfl
      · rw [if_neg shallow, if_neg fun both => shallow (List.forall_mem_cons.mp both).1]
        rfl

end Row

namespace RowStream

/-- However the lines of rows are cut into chunks, the stream gives these rows, in order and without a
failure, exactly if none of them is deeper than a reader goes. -/
theorem receive_body {rows : List Row} (sendable : ∀ row ∈ rows, row.IsSendable) {chunks : List (List UInt8)}
    (cut : chunks.flatten = Text.bytesOf (Row.body rows)) :
    receive .empty chunks = if ∀ row ∈ rows, row.IsShallow then .ok rows else .error .malformed := by
  have lines := receive_lines chunks List.not_mem_nil
  rw [List.nil_append, cut, Row.splitOn_body sendable, Row.lineRows_lines sendable] at lines
  exact lines

/-- The rows of a page with text of several bytes a character. -/
def greetingRows : List Row :=
  [.reference 1 "ui/vote.js#Vote",
    .tree 0 (.element "p" [("count", .number (.natural 3))] [.text "Grüße\n", .lazy 1 []])]

/-- Two chunks, and an empty one between them. -/
def chunksAt (place : Nat) (bytes : List UInt8) : List (List UInt8) := [bytes.take place, [], bytes.drop place]

theorem flatten_chunksAt (place : Nat) (bytes : List UInt8) : (chunksAt place bytes).flatten = bytes := by
  simp [chunksAt]

/-- The cut lies within a character. -/
def greetingChunks : List (List UInt8) := chunksAt 168 (Text.bytesOf (Row.body greetingRows))

theorem greeting_received : (∀ row ∈ greetingRows, row.IsSendable) ∧
    greetingChunks.flatten = Text.bytesOf (Row.body greetingRows) ∧
    receive .empty greetingChunks = .ok greetingRows := by
  have count : IsData [("count", .number (.natural 3))] :=
    ⟨.object (by simpa using .number (by decide)),
      .object (List.pairwise_singleton _ _) (by simp [Value.IsSorted.number])⟩
  have sendable : ∀ row ∈ greetingRows, row.IsSendable := by
    intro row member
    rcases List.mem_pair.mp member with rfl | rfl
    · exact (by decide : 1 < 0x100000000)
    · refine ⟨(by decide : 0 < 0x100000000), .element "p" count ?_⟩
      intro child isChild
      rcases List.mem_pair.mp isChild with rfl | rfl
      · exact .text _
      · exact .lazy (by decide : 1 < 0x100000000) isData_nil
  have cut : greetingChunks.flatten = Text.bytesOf (Row.body greetingRows) := flatten_chunksAt 168 _
  have shallow : ∀ row ∈ greetingRows, row.IsShallow := by
    simp [greetingRows, Row.IsShallow, Row.value, Node.value, Node.values, propsMember, levelsOf, levelsOfItems,
      levelsOfMembers, deepest, Value.ofNat]
  exact ⟨sendable, cut, (receive_body sendable cut).trans (if_pos shallow)⟩

end RowStream

/-- So many elements, one within the other. -/
def Node.nested : Nat → Node
  | 0 => .text "end"
  | depth + 1 => .element "div" [] [nested depth]

theorem Node.nested_isSendable (depth : Nat) : (nested depth).IsSendable := by
  induction depth with
  | zero => exact .text _
  | succ depth ih =>
      refine .element "div" isData_nil ?_
      simpa using ih

theorem Node.levelsOf_nested (depth : Nat) : levelsOf (nested depth).value = 2 * depth + 1 := by
  induction depth with
  | zero => rfl
  | succ depth ih =>
      simp [nested, value, values, levelsOf, levelsOfMembers, levelsOfItems, propsMember, ih]
      omega

/-- A tree of sixty-three elements is sent, and no row comes. -/
theorem RowStream.deepTree_lost : (Row.tree 0 (.nested 63)).IsSendable ∧
    receive .empty [Text.bytesOf (Row.body [.tree 0 (.nested 63)])] = .error .malformed := by
  have sendable : (Row.tree 0 (.nested 63)).IsSendable :=
    ⟨(by decide : 0 < 0x100000000), Node.nested_isSendable 63⟩
  have each : ∀ row ∈ [Row.tree 0 (.nested 63)], row.IsSendable := by simpa using sendable
  have deep : ¬(Row.tree 0 (.nested 63)).IsShallow := by
    simp [Row.IsShallow, Row.value, levelsOf, levelsOfMembers, Node.levelsOf_nested, deepest]
  refine ⟨sendable, ?_⟩
  have lines := receive_lines [Text.bytesOf (Row.body [.tree 0 (.nested 63)])] List.not_mem_nil
  rw [List.nil_append, List.flatten_singleton, Row.splitOn_body each, Row.lineRows_lines each] at lines
  refine lines.trans (if_neg fun all => deep (all _ List.mem_cons_self))

end Realms
