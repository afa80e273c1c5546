import Realms.Page.Lines
import Realms.Page.Rows

/-!
Reading rows from bytes that come in pieces. A line counts once its end has come; lines of nothing but
white space are no rows.
-/
namespace Realms

open Realms.Json

def isLineSpace (b : UInt8) : Bool := b == 0x20 || b == 0x09 || b == 0x0A || b == 0x0C || b == 0x0D

/-- The row of a line, unless the line holds none. -/
def rowOfLine? (line : List UInt8) : Result (Option Row) :=
  if line.all isLineSpace then .ok none else do return some (← Row.ofLine line)

/-- A stream of rows: the bytes that no row was made of yet. -/
structure RowStream where
  buffer : List UInt8
deriving DecidableEq, Repr, Inhabited

structure Streamed (α : Type) where
  stream : RowStream
  result : Result α

namespace RowStream

def empty : RowStream := ⟨[]⟩

def takeLine (bytes : List UInt8) : Option (List UInt8 × List UInt8) :=
  match bytes.dropWhile (· != 0x0A) with
  | _ :: rest => some (bytes.takeWhile (· != 0x0A), rest)
  | [] => none

/-- The rows of all lines that are complete. After one that is no row the rest is left for later. -/
def takeRows : Nat → List Row → List UInt8 → Streamed (List Row)
  | 0, rows, bytes => ⟨⟨bytes⟩, .ok rows⟩
  | rounds + 1, rows, bytes =>
    match takeLine bytes with
    | none => ⟨⟨bytes⟩, .ok rows⟩
    | some (line, rest) =>
      match rowOfLine? line with
      | .error e => ⟨⟨rest⟩, .error e⟩
      | .ok none => takeRows rounds rows rest
      | .ok (some row) => takeRows rounds (rows ++ [row]) rest

def push (stream : RowStream) (chunk : List UInt8) : Streamed (List Row) :=
  let bytes := stream.buffer ++ chunk
  takeRows bytes.length [] bytes

/-- Ends the stream; what is left may be one more row. -/
def finish (stream : RowStream) : Streamed (Option Row) := ⟨empty, rowOfLine? stream.buffer⟩

end RowStream

namespace ReceivedPage

def ofChunksAfter (page : ReceivedPage) (stream : RowStream) :
    List (List UInt8) → Result ReceivedPage
  | [] => do
    match ← stream.finish.result with
    | some row => return page.apply row
    | none => return page
  | chunk :: rest => do
    let step := stream.push chunk
    ofChunksAfter (page.applyAll (← step.result)) step.stream rest

def ofChunks (chunks : List (List UInt8)) : Result ReceivedPage := ofChunksAfter empty .empty chunks

end ReceivedPage
end Realms
