import Mathlib.Data.String.Basic
import Mathlib.Data.List.Induction
import Realms.Location

/-!
Places as positions. Stepping over a character moves a place on and never back, so that the positions of a source, which
stand between its characters, have different places in one order with them. Bytes count only for where a position is.
-/
namespace Realms.Location

open String (utf8Len)

/-- The place of a position in a source. -/
def ofPos {source : String} (p : source.Pos) : Location := ofOffset source p.offset.byteIdx

/-- On an earlier line, or further left on the same one. -/
def Before (a b : Location) : Prop := a.line < b.line ∨ a.line = b.line ∧ a.column < b.column

namespace Before

variable {a b c : Location}

theorem irrefl (a : Location) : ¬a.Before a := by
  rintro (line | ⟨_, column⟩)
  · exact Nat.lt_irrefl _ line
  · exact Nat.lt_irrefl _ column

theorem trans (first : a.Before b) (next : b.Before c) : a.Before c := by
  unfold Before at *
  omega

theorem step (a : Location) (c : Char) : a.Before (a.step c) := by
  unfold Location.step
  split
  · exact .inl (Nat.lt_succ_self a.line)
  · exact .inr ⟨rfl, Nat.lt_succ_self a.column⟩

theorem foldl_step (a : Location) {text : List Char} (nonempty : text ≠ []) : a.Before (text.foldl Location.step a) := by
  induction text generalizing a with
  | nil => exact absurd rfl nonempty
  | cons c text ih =>
      cases text with
      | nil => exact .step a c
      | cons d text => exact (step a c).trans (ih (a.step c) nofun)

end Before

/-- The walk steps over all characters that end within the bytes. -/
theorem walk_behind (place : Location) (front rest : List Char) (bytes : Nat) :
    walk place (utf8Len front + bytes) (front ++ rest) = walk (front.foldl step place) bytes rest := by
  induction front generalizing place with
  | nil => rw [String.utf8Len_nil, Nat.zero_add, List.nil_append, List.foldl_nil]
  | cons c front ih =>
      have goesOn : ¬utf8Len (c :: front) + bytes < c.utf8Size := by
        rw [String.utf8Len_cons]
        omega
      have left : utf8Len (c :: front) + bytes - c.utf8Size = utf8Len front + bytes := by
        rw [String.utf8Len_cons]
        omega
      rw [List.cons_append, walk, if_neg goesOn, left, ih, List.foldl_cons]

theorem walk_zero (place : Location) (text : List Char) : walk place 0 text = place := by
  cases text with
  | nil => rfl
  | cons c text => exact if_pos c.utf8Size_pos

/-- A line is the number of line feeds in front, and a column that of the characters behind the last one of them, both
from one. -/
theorem foldl_step_first (text : List Char) :
    text.foldl step first = ⟨text.count '\n' + 1, (text.reverse.takeWhile (· != '\n')).length + 1⟩ := by
  induction text using List.reverseRecOn with
  | nil => rfl
  | append_singleton text c ih =>
      rw [List.foldl_append, ih, List.foldl_cons, List.foldl_nil, step, List.count_append, List.reverse_append,
        List.reverse_singleton, List.singleton_append]
      by_cases newLine : c = '\n'
      · simp [newLine]
      · simp [newLine]

/-- A walk moves on by one line or one column for each character at most. -/
theorem walk_le (place : Location) (bytes : Nat) (text : List Char) :
    (walk place bytes text).line ≤ place.line + text.length ∧
      (walk place bytes text).column ≤ place.column + text.length := by
  induction text generalizing place bytes with
  | nil => exact ⟨Nat.le_refl _, Nat.le_refl _⟩
  | cons c text ih =>
      rw [walk, List.length_cons]
      split
      · exact ⟨Nat.le_add_right _ _, Nat.le_add_right _ _⟩
      · have one : (place.step c).line ≤ place.line + 1 ∧ (place.step c).column ≤ place.column + 1 := by
          unfold step
          split
          · exact ⟨Nat.le_refl _, Nat.le_add_left 1 place.column⟩
          · exact ⟨Nat.le_succ _, Nat.le_refl _⟩
        have more := ih (place.step c) (bytes - c.utf8Size)
        omega

theorem length_le_utf8Len (text : List Char) : text.length ≤ utf8Len text := by
  induction text with
  | nil => exact Nat.le_refl 0
  | cons c text ih =>
      have size := c.utf8Size_pos
      rw [List.length_cons, String.utf8Len_cons]
      omega

section Positions

variable {source front rest : String} {p q : source.Pos}

theorem ofPos_eq (splits : p.Splits front rest) : ofPos p = front.toList.foldl step first := by
  have bytes : p.offset.byteIdx = utf8Len front.toList + 0 := by
    rw [splits.offset_eq_rawEndPos, String.utf8Len_toList]
    rfl
  have spelled : source.toList = front.toList ++ rest.toList := by
    rw [splits.eq_append, String.toList_append]
  rw [ofPos, ofOffset, bytes, spelled, walk_behind, walk_zero]

theorem ofPos_before (less : p < q) : (ofPos p).Before (ofPos q) := by
  obtain ⟨between, nonempty, front, -⟩ := (p.splits.lt_iff_exists_eq_append q.splits).mp less
  rw [ofPos_eq p.splits, ofPos_eq q.splits, front, String.toList_append, List.foldl_append]
  exact .foldl_step _ fun none => nonempty (String.toList_eq_nil_iff.mp none)

theorem before_iff : (ofPos p).Before (ofPos q) ↔ p < q := by
  refine ⟨fun before => ?_, ofPos_before⟩
  rcases Std.lt_trichotomy p q with less | same | more
  · exact less
  · rw [same] at before
    exact absurd before (Before.irrefl _)
  · exact absurd (before.trans (ofPos_before more)) (Before.irrefl _)

theorem ofPos_injective (same : ofPos p = ofPos q) : p = q := by
  have apart : ¬(ofPos p).Before (ofPos q) ∧ ¬(ofPos q).Before (ofPos p) := by
    rw [same]
    exact ⟨Before.irrefl _, Before.irrefl _⟩
  rw [before_iff, before_iff] at apart
  rcases Std.lt_trichotomy p q with less | equal | more
  · exact absurd less apart.1
  · exact equal
  · exact absurd more apart.2

theorem ofPos_next (inside : p ≠ source.endPos) : ofPos (p.next inside) = (ofPos p).step (p.get inside) := by
  obtain ⟨rest, behind⟩ := p.splits.exists_eq_singleton_append inside
  have here := p.splits
  rw [behind] at here
  rw [ofPos_eq here.next, ofPos_eq here, String.toList_append, List.foldl_append, String.toList_singleton]
  rfl

theorem ofOffset_beyond {offset : Nat} (beyond : source.utf8ByteSize ≤ offset) :
    ofOffset source offset = ofPos source.endPos := by
  have bytes : offset = utf8Len source.toList + (offset - source.utf8ByteSize) := by
    rw [String.utf8Len_toList]
    omega
  have whole := walk_behind first source.toList [] (offset - source.utf8ByteSize)
  rw [List.append_nil, ← bytes] at whole
  rw [ofOffset, whole, walk, ofPos_eq (String.splits_endPos source)]

/-- A line and a column fit into 32 bits where the number of bytes does, with one to spare. -/
theorem ofOffset_lt (short : source.utf8ByteSize < 2 ^ 32 - 1) (offset : Nat) :
    (ofOffset source offset).line < 2 ^ 32 ∧ (ofOffset source offset).column < 2 ^ 32 := by
  have within : source.toList.length < 2 ^ 32 - 1 := by
    have characters := length_le_utf8Len source.toList
    rw [String.utf8Len_toList] at characters
    exact Nat.lt_of_le_of_lt characters short
  have moved : (ofOffset source offset).line ≤ 1 + source.toList.length ∧
      (ofOffset source offset).column ≤ 1 + source.toList.length := walk_le first offset source.toList
  omega

end Positions

/-- The positions of a source and their places are in the same order, so no two positions have one place; a step over a
line feed leads to the front of the next line and any other step one column on, so that a line and a column are what they
are by the text in front; what is beyond the end is at the end. The numbers fit into 32 bits if the source does. -/
theorem ofOffset_ordered (source : String) :
    (∀ p q : source.Pos, (ofPos p).Before (ofPos q) ↔ p < q) ∧
    (∀ p q : source.Pos, ofPos p = ofPos q → p = q) ∧
    (∀ (p : source.Pos) (inside : p ≠ source.endPos), ofPos (p.next inside) =
      if p.get inside = '\n' then ⟨(ofPos p).line + 1, 1⟩ else ⟨(ofPos p).line, (ofPos p).column + 1⟩) ∧
    (∀ (p : source.Pos) (front rest : String), p.Splits front rest →
      ofPos p = ⟨front.toList.count '\n' + 1, (front.toList.reverse.takeWhile (· != '\n')).length + 1⟩) ∧
    (∀ offset, source.utf8ByteSize ≤ offset → ofOffset source offset = ofPos source.endPos) ∧
    (source.utf8ByteSize < 2 ^ 32 - 1 →
      ∀ offset, (ofOffset source offset).line < 2 ^ 32 ∧ (ofOffset source offset).column < 2 ^ 32) := by
  refine ⟨fun p q => before_iff, fun p q => ofPos_injective, ?_, ?_, fun offset => ofOffset_beyond, ofOffset_lt⟩
  · intro p inside
    rw [ofPos_next inside, step]
    simp only [beq_iff_eq]
  · intro p front rest splits
    rw [ofPos_eq splits, foldl_step_first]

/-- An accented letter of two bytes, a line feed and a letter end in the second column of the second line. -/
theorem accented_ordered : "é\nb".utf8ByteSize < 2 ^ 32 - 1 ∧ "é\nb".utf8ByteSize ≤ 9 ∧
    ofOffset "é\nb" 9 = ofPos "é\nb".endPos ∧ ofOffset "é\nb" 9 = ⟨2, 2⟩ ∧
      ∀ offset, (ofOffset "é\nb" offset).line < 2 ^ 32 ∧ (ofOffset "é\nb" offset).column < 2 ^ 32 := by
  have short : "é\nb".utf8ByteSize < 2 ^ 32 - 1 := by decide
  have beyond : "é\nb".utf8ByteSize ≤ 9 := by decide
  obtain ⟨-, -, -, -, ends, fits⟩ := ofOffset_ordered "é\nb"
  exact ⟨short, beyond, ends 9 beyond, by decide, fits short⟩

end Realms.Location
