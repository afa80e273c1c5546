import Realms.Proofs.Page.Stream
import Realms.Service.Transport

/-!
What a client reads of a body. It comes in chunks, but what is read depends on its bytes alone: the page is
made of its lines, one after the other, and a line that is no row ends the reading wherever it is cut.
-/
namespace Realms

open Realms.Json

/-- The lines that are not blank. -/
def rowLines (lines : List (List UInt8)) : List (List UInt8) := lines.filter fun line => !line.all isLineSpace

/-- The page of a whole body: the rows of its lines, up to the first line that is none. -/
def ReceivedPage.ofBody (body : List UInt8) : Result ReceivedPage := do
  return empty.applyAll (← (rowLines (body.splitOn 0x0A)).mapM Row.ofLine)

/-- Blank lines give no rows, and every other line gives one. -/
theorem lineRows_eq_mapM (lines : List (List UInt8)) : lineRows lines = (rowLines lines).mapM Row.ofLine := by
  induction lines with
  | nil => rfl
  | cons line rest ih =>
      rw [lineRows, rowOfLine?, ih]
      cases blank : line.all isLineSpace with
      | true =>
          have skipped : rowLines (line :: rest) = rowLines rest := List.filter_cons_of_neg (by simp [blank])
          rw [skipped]
          cases (rowLines rest).mapM Row.ofLine <;> rfl
      | false =>
          have kept : rowLines (line :: rest) = line :: rowLines rest := List.filter_cons_of_pos (by simp [blank])
          rw [kept, List.mapM_cons]
          cases Row.ofLine line with
          | error e => rfl
          | ok row => cases (rowLines rest).mapM Row.ofLine <;> rfl

namespace ReceivedPage

/-- The page of chunks is that of their bytes. -/
theorem ofChunks_eq_ofBody (chunks : List (List UInt8)) : ofChunks chunks = ofBody chunks.flatten := by
  have lines := RowStream.receive_lines chunks List.not_mem_nil
  rw [List.nil_append, lineRows_eq_mapM] at lines
  rw [ofChunks, ofChunksAfter_eq, RowStream.empty, lines, ofBody]
  cases (rowLines (chunks.flatten.splitOn 0x0A)).mapM Row.ofLine <;> rfl

end ReceivedPage

namespace Service.Received

/-- The reading of an answer that does not break off. -/
theorem readChunks_eq_ofChunksAfter (page : ReceivedPage) (stream : RowStream) (chunks : List (List UInt8)) :
    readChunks false page stream chunks =
      (page.ofChunksAfter stream chunks).mapError fun e => .page (.row e) := by
  induction chunks generalizing page stream with
  | nil =>
      rw [readChunks, ReceivedPage.ofChunksAfter]
      rcases stream.finish.result with e | (_ | row) <;> rfl
  | cons chunk rest ih =>
      rw [readChunks, ReceivedPage.ofChunksAfter]
      cases pushed : (stream.push chunk).result with
      | error e => rfl
      | ok rows => simpa [pushed, bind, Except.bind] using ih (page.applyAll rows) (stream.push chunk).stream

/-- What a client reads does not depend on how a body is cut. Any two ways to cut the same bytes end in the
same page or in the same failure, and it is that of the lines of the whole body. -/
theorem readChunks_cut {body : List UInt8} {chunks cuts : List (List UInt8)} (first : chunks.flatten = body)
    (second : cuts.flatten = body) :
    readChunks false .empty .empty chunks = readChunks false .empty .empty cuts ∧
      readChunks false .empty .empty chunks = (ReceivedPage.ofBody body).mapError fun e => .page (.row e) := by
  have whole {pieces : List (List UInt8)} (joined : pieces.flatten = body) :
      readChunks false .empty .empty pieces = (ReceivedPage.ofBody body).mapError fun e => .page (.row e) := by
    rw [readChunks_eq_ofChunksAfter, ← joined, ← ReceivedPage.ofChunks_eq_ofBody]
    rfl
  exact ⟨(whole first).trans (whole second).symm, whole first⟩

/-- Two rows with a blank line between them, the first with a letter of two bytes. The last one is not closed
by a line end. -/
def cafeBody : List UInt8 :=
  Text.bytesOf "\x7b\"kind\":\"reference\",\"row\":1,\"id\":\"café\"\x7d\n \t\r\n[\"tree\",0,[\"text\",\"ok\"]]"

/-- One cut lies within the letter, another within the blank line. -/
def cafeChunks : List (List UInt8) :=
  [cafeBody.take 38, [], (cafeBody.drop 38).take 5, cafeBody.drop 43]

theorem cafe_cut : cafeChunks.flatten = cafeBody ∧ [cafeBody].flatten = cafeBody ∧
    readChunks false .empty .empty cafeChunks = readChunks false .empty .empty [cafeBody] ∧
      ∃ page, readChunks false .empty .empty [cafeBody] = .ok page ∧ page.references = [(1, "café")] ∧
        page.root.isSome := by
  have first : cafeChunks.flatten = cafeBody := by
    decide +kernel
  have second : [cafeBody].flatten = cafeBody := List.flatten_singleton
  have runs : (ReceivedPage.ofBody cafeBody).toOption.map (fun page => (page.references, page.root.isSome)) =
      some ([(1, "café")], true) := by decide +kernel
  obtain ⟨same, whole⟩ := readChunks_cut first second
  obtain ⟨page, read, found⟩ := exists_of_toOption runs
  obtain ⟨references, root⟩ := Prod.mk.inj found
  rw [read] at whole
  exact ⟨first, second, same, page, same.symm.trans whole, references, root⟩

end Service.Received
end Realms
