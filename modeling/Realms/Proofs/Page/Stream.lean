import Realms.Page.Stream
import Realms.Proofs.Outcome

/-!
Streams of rows do not depend on how the bytes are cut into pieces: the rows are those of the lines of all
bytes together.
-/
namespace Realms

open Realms.Json

/-- The rows of lines, up to the first one that is no row. -/
def lineRows : List (List UInt8) → Result (List Row)
  | [] => .ok []
  | line :: rest => do
    let row ← rowOfLine? line
    return row.toList ++ (← lineRows rest)

theorem lineRows_append (front back : List (List UInt8)) :
    lineRows (front ++ back) = do return (← lineRows front) ++ (← lineRows back) := by
  induction front with
  | nil => cases h : lineRows back <;> simp [lineRows, h, bind, Except.bind, pure, Except.pure]
  | cons line rest ih =>
      rw [List.cons_append, lineRows, lineRows, ih]
      cases rowOfLine? line <;> cases lineRows rest <;> cases lineRows back <;>
        simp [bind, Except.bind, pure, Except.pure]

namespace RowStream

/-- The rows that a stream gives for its chunks and at its end, up to the first failure. -/
def receive (stream : RowStream) : List (List UInt8) → Result (List Row)
  | [] => do return (← stream.finish.result).toList
  | chunk :: rest => do
    let step := stream.push chunk
    return (← step.result) ++ (← receive step.stream rest)

theorem takeLine_eq_none {bytes : List UInt8} (noLine : 0x0A ∉ bytes) : takeLine bytes = none := by
  have all : ∀ b ∈ bytes, (b != 0x0A) = true := fun b member => bne_iff_ne.mpr fun same => noLine (same ▸ member)
  have parts : (bytes ++ []).dropWhile (· != 0x0A) = [] := List.dropWhile_append_of_pos all
  rw [List.append_nil] at parts
  rw [takeLine, parts]

theorem takeLine_line {line : List UInt8} (noLine : 0x0A ∉ line) (rest : List UInt8) :
    takeLine (line ++ 0x0A :: rest) = some (line, rest) := by
  have before : ∀ b ∈ line, (b != 0x0A) = true := fun b member => bne_iff_ne.mpr fun same => noLine (same ▸ member)
  simp [takeLine, List.dropWhile_append_of_pos before, List.takeWhile_append_of_pos before]

/-- Some bytes that were taken apart: the lines that are complete, and what is left of them. -/
structure Taken (bytes : List UInt8) (lines : List (List UInt8)) (last : List UInt8) : Prop where
  isOpen : 0x0A ∉ last
  splits : ∀ more, (bytes ++ more).splitOn 0x0A = lines ++ (last ++ more).splitOn 0x0A

theorem Taken.line {line rest last : List UInt8} {lines : List (List UInt8)} (taken : Taken rest lines last)
    (noLine : 0x0A ∉ line) : Taken (line ++ 0x0A :: rest) (line :: lines) last where
  isOpen := taken.isOpen
  splits more := by
    rw [List.append_assoc, List.cons_append, List.splitOn_append_cons_self_of_not_mem noLine, taken.splits,
      List.cons_append]

/-- What a push makes of the bytes that have come: it gives the rows of all complete lines and keeps the rest. -/
theorem takeRows_lines {rounds : Nat} {bytes : List UInt8} (enough : bytes.length ≤ rounds) (rows : List Row) :
    ∃ lines last, Taken bytes lines last ∧
      (takeRows rounds rows bytes).result = (do return rows ++ (← lineRows lines)) ∧
      ∀ new, lineRows lines = .ok new → (takeRows rounds rows bytes).stream = ⟨last⟩ := by
  induction rounds generalizing bytes rows with
  | zero =>
      obtain rfl := List.length_eq_zero_iff.mp (Nat.le_zero.mp enough)
      refine ⟨[], [], ⟨List.not_mem_nil, fun _ => rfl⟩, ?_, fun _ _ => rfl⟩
      simp [takeRows, lineRows, bind, Except.bind, pure, Except.pure]
  | succ rounds ih =>
      by_cases hasLine : 0x0A ∈ bytes
      · obtain ⟨line, rest, rfl, noLine⟩ := List.eq_append_cons_of_mem hasLine
        rw [List.length_append, List.length_cons] at enough
        have fewer : rest.length ≤ rounds := by omega
        rw [takeRows, takeLine_line noLine]
        dsimp only
        cases read : rowOfLine? line with
        | error e =>
            obtain ⟨lines, last, taken, _⟩ := ih fewer rows
            refine ⟨line :: lines, last, taken.line noLine, ?_, fun new isNew => ?_⟩
            · simp [lineRows, read, bind, Except.bind]
            · simp [lineRows, read, bind, Except.bind] at isNew
        | ok found =>
            cases found with
            | none =>
                obtain ⟨lines, last, taken, result, stream⟩ := ih fewer rows
                have same : lineRows (line :: lines) = lineRows lines := by
                  cases h : lineRows lines <;> simp [lineRows, read, h, bind, Except.bind, pure, Except.pure]
                exact ⟨line :: lines, last, taken.line noLine, same ▸ result, fun new isNew =>
                  stream new (same ▸ isNew)⟩
            | some row =>
                obtain ⟨lines, last, taken, result, stream⟩ := ih fewer (rows ++ [row])
                refine ⟨line :: lines, last, taken.line noLine, ?_, fun new isNew => ?_⟩
                · dsimp only
                  rw [result]
                  cases h : lineRows lines <;> simp [lineRows, read, h, bind, Except.bind, pure, Except.pure]
                · cases h : lineRows lines with
                  | error e => simp [lineRows, read, h, bind, Except.bind] at isNew
                  | ok more => exact stream more h
      · refine ⟨[], bytes, ⟨hasLine, fun _ => rfl⟩, ?_, fun _ _ => ?_⟩
        · simp [takeRows, takeLine_eq_none hasLine, lineRows, bind, Except.bind, pure, Except.pure]
        · simp [takeRows, takeLine_eq_none hasLine]

/-- The rows of a stream are those of the lines of all its bytes, however these are cut into chunks. -/
theorem receive_lines (chunks : List (List UInt8)) {buffer : List UInt8} (noLine : 0x0A ∉ buffer) :
    receive ⟨buffer⟩ chunks = lineRows ((buffer ++ chunks.flatten).splitOn 0x0A) := by
  induction chunks generalizing buffer with
  | nil =>
      rw [List.flatten_nil, List.append_nil, List.splitOn_eq_singleton noLine]
      cases h : rowOfLine? buffer <;> simp [receive, finish, lineRows, h, bind, Except.bind, pure, Except.pure]
  | cons chunk rest ih =>
      obtain ⟨lines, last, taken, result, stream⟩ :=
        takeRows_lines (Nat.le_refl (buffer ++ chunk).length) []
      rw [List.flatten_cons, ← List.append_assoc, taken.splits, lineRows_append, ← ih taken.isOpen]
      have pushed : (push ⟨buffer⟩ chunk).result = lineRows lines := by
        rw [push, result]
        cases lineRows lines <;> rfl
      rw [receive, pushed]
      cases h : lineRows lines with
      | error e => rfl
      | ok new =>
          have kept : (push ⟨buffer⟩ chunk).stream = ⟨last⟩ := stream new h
          rw [kept]

end RowStream

/-- A page is made of the rows that its stream gives. -/
theorem ReceivedPage.ofChunksAfter_eq (page : ReceivedPage) (stream : RowStream) (chunks : List (List UInt8)) :
    page.ofChunksAfter stream chunks = (stream.receive chunks).map page.applyAll := by
  induction chunks generalizing page stream with
  | nil =>
      rw [ofChunksAfter, RowStream.receive]
      rcases stream.finish.result with e | (_ | row) <;> rfl
  | cons chunk rest ih =>
      rw [ofChunksAfter, RowStream.receive]
      cases h : (stream.push chunk).result with
      | error e => rfl
      | ok rows =>
          simp only [bind, Except.bind, ih]
          cases (stream.push chunk).stream.receive rest <;>
            simp [Except.map, pure, Except.pure, applyAll]

end Realms
