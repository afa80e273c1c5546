import Realms.Script.Token.Basic

/-!
The space between tokens: blanks, line ends and comments. The walk goes one character at a time, so
it ends with the text; only whether a line ended on the way is kept.
-/
namespace Realms.Script

inductive SpaceMode where
  | plain
  | lineComment
  | blockComment
deriving DecidableEq, Repr

structure AfterSpace where
  newLine : Bool
  /-- A block comment is still open at the end of the text. -/
  unclosed : Bool
  rest : List Char

def skipSpace : SpaceMode → Bool → List Char → AfterSpace
  | .plain, newLine, '/' :: '/' :: rest => skipSpace .lineComment newLine rest
  | .plain, newLine, '/' :: '*' :: rest => skipSpace .blockComment newLine rest
  | .plain, newLine, c :: rest =>
    if isLineEnd c then skipSpace .plain true rest
    else if isBlank c then skipSpace .plain newLine rest
    else ⟨newLine, false, c :: rest⟩
  | .lineComment, newLine, c :: rest =>
    if isLineEnd c then skipSpace .plain true rest else skipSpace .lineComment newLine rest
  | .blockComment, newLine, '*' :: '/' :: rest => skipSpace .plain newLine rest
  | .blockComment, newLine, c :: rest => skipSpace .blockComment (newLine || isLineEnd c) rest
  | .blockComment, newLine, [] => ⟨newLine, true, []⟩
  | _, newLine, [] => ⟨newLine, false, []⟩

end Realms.Script
