import Mathlib.Data.List.TakeWhile
import Realms.Proofs.Script.Lockstep.Tokens

/-!
Tokens in front of a text that closes nothing. Where a source ends with a mark that ends a statement, and neither a
comment nor an escape may reach the mark, each token in front of the mark is the same whatever stands behind the mark,
as long as that closes no comment, text, template or regular expression.
-/
namespace Realms.Script

open Realms.Text

/-- No comment opens and no escape stands on the last line. -/
def Guarded (text : List Char) : Prop :=
  ∀ opening ∈ [['\\'], ['/', '/'], ['/', '*']], ∀ rest, opening ++ rest <:+ text → rest.any isLineEnd = true

/-- A text that starts with a mark that ends a statement, and closes nothing that is open in front of it. -/
structure Quiet (behind : List Char) : Prop where
  stops : Stops behind
  comment : skipSpace .blockComment true behind = ⟨true, true, []⟩
  quoted : ∀ {quote : Char} (mode : EscapeMode) (q : QuotedSoFar), quote = '"' ∨ quote = '\x27' →
    readQuoted quote mode q behind = none
  template : ∀ (mode : EscapeMode) (valid : Bool), readTemplate mode valid behind = none
  pattern : ∀ inClass : Bool, readPatternBody inClass behind = none

variable {text rest behind : List Char} {c : Char}

namespace Guarded

theorem of_suffix (guarded : Guarded text) (suffix : rest <:+ text) : Guarded rest :=
  fun opening member more ends => guarded opening member more (ends.trans suffix)

theorem tail (guarded : Guarded (c :: text)) : Guarded text := guarded.of_suffix (List.suffix_cons c text)

theorem escape (guarded : Guarded ('\\' :: text)) : text.any isLineEnd = true :=
  guarded ['\\'] List.mem_cons_self text (List.suffix_refl _)

theorem lineComment (guarded : Guarded ('/' :: '/' :: text)) : text.any isLineEnd = true :=
  guarded ['/', '/'] (by simp) text (List.suffix_refl _)

theorem blockComment (guarded : Guarded ('/' :: '*' :: text)) : text.any isLineEnd = true :=
  guarded ['/', '*'] (by simp) text (List.suffix_refl _)

end Guarded

/-- What does not stand in front of a text stands in front of none where it stops. -/
theorem Stops.front_ne (stops : Stops behind) (other : ∀ rest, text ≠ c :: rest) (apart : c ≠ ';' ∧ c ≠ '\x7d') :
    ∀ rest, text ++ behind ≠ c :: rest := by
  intro rest same
  cases text with
  | nil =>
      obtain ⟨d, more, rfl, closes⟩ := stops
      obtain ⟨rfl, -⟩ := List.cons.inj same
      exact closes.elim apart.1 apart.2
  | cons d text =>
      obtain ⟨rfl, -⟩ := List.cons.inj same
      exact other text rfl

section Space

/-- What is left behind space, in front of more text. -/
def AfterSpace.before (found : AfterSpace) (behind : List Char) : AfterSpace :=
  if found.unclosed then found else { found with rest := found.rest ++ behind }

/-- No space opens where the text stops. -/
theorem skipSpace_stops (stops : Stops behind) (newLine : Bool) :
    skipSpace .plain newLine behind = ⟨newLine, false, behind⟩ := by
  obtain ⟨c, more, rfl, rfl | rfl⟩ := stops
  · exact skipSpace_opens rfl newLine more
  · exact skipSpace_opens rfl newLine more

/-- Whether a comment that is open ends in front of what is behind, or a line ends in it. -/
def SpaceMode.Ends (mode : SpaceMode) (newLine : Bool) (text : List Char) : Prop :=
  match mode with
  | .plain => True
  | .lineComment => text.any isLineEnd = true
  | .blockComment => newLine = true ∨ text.any isLineEnd = true

theorem skipSpace_before (quiet : Quiet behind) (mode : SpaceMode) (newLine : Bool) (guarded : Guarded text)
    (reach : mode.Ends newLine text) :
    skipSpace mode newLine (text ++ behind) = (skipSpace mode newLine text).before behind := by
  have still {c d : Char} {text : List Char} (other : ∀ rest, c = '/' → text = d :: rest → False)
      (apart : d ≠ ';' ∧ d ≠ '\x7d') : ∀ rest, c = '/' → text ++ behind = d :: rest → False :=
    fun rest slash => quiet.stops.front_ne (fun rest => other rest slash) apart rest
  fun_induction skipSpace mode newLine text with
  | case1 newLine text ih =>
      rw [List.cons_append, List.cons_append, skipSpace]
      exact ih guarded.tail.tail guarded.lineComment
  | case2 newLine text ih =>
      rw [List.cons_append, List.cons_append, skipSpace]
      exact ih guarded.tail.tail (.inr guarded.blockComment)
  | case3 newLine c text notLine notBlock ends ih =>
      rw [List.cons_append, skipSpace, if_pos ends]
      · exact ih guarded.tail trivial
      · exact still notLine (by decide)
      · exact still notBlock (by decide)
  | case4 newLine c text notLine notBlock ends blank ih =>
      rw [List.cons_append, skipSpace, if_neg ends, if_pos blank]
      · exact ih guarded.tail trivial
      · exact still notLine (by decide)
      · exact still notBlock (by decide)
  | case5 newLine c text notLine notBlock ends blank =>
      rw [List.cons_append, skipSpace, if_neg ends, if_neg blank]
      · rfl
      · exact still notLine (by decide)
      · exact still notBlock (by decide)
  | case6 newLine c text ended ih =>
      rw [List.cons_append, skipSpace, if_pos ended]
      exact ih guarded.tail trivial
  | case7 newLine c text ended ih =>
      rw [List.cons_append, skipSpace, if_neg ended]
      exact ih guarded.tail (by simpa [SpaceMode.Ends, ended] using reach)
  | case8 newLine text ih =>
      rw [List.cons_append, List.cons_append, skipSpace]
      exact ih guarded.tail.tail trivial
  | case9 newLine c text notClosed ih =>
      rw [List.cons_append, skipSpace]
      · refine ih guarded.tail ?_
        rcases reach with given | found
        · exact .inl (by simp [given])
        · rcases Bool.or_eq_true_iff.mp (List.any_cons ▸ found) with ends | found
          · exact .inl (by simp [ends])
          · exact .inr found
      · exact fun rest star => quiet.stops.front_ne (fun rest => notClosed rest star) (by decide) rest
  | case10 newLine =>
      obtain rfl : newLine = true := reach.resolve_right Bool.false_ne_true
      exact quiet.comment
  | case11 mode newLine notBlock =>
      cases mode with
      | plain => exact skipSpace_stops quiet.stops newLine
      | lineComment => cases reach
      | blockComment => exact absurd rfl notBlock

end Space

section Names

theorem hexDigit?_lineEnd (ends : isLineEnd c = true) : hexDigit? c = none := by
  simp only [isLineEnd, Bool.or_eq_true, beq_iff_eq] at ends
  rcases ends with ((rfl | rfl) | rfl) | rfl
  all_goals rfl

/-- Four digits of an escape are on one line. -/
theorem readNameEscape_few (few : text.length ≤ 3) (ended : text.any isLineEnd = true)
    (plain : ∀ rest, text ≠ '\x7b' :: rest)
    (behind : List Char) : readNameEscape (text ++ behind) = none := by
  unfold readNameEscape
  split
  · rename_i rest same
    cases text with
    | nil => cases ended
    | cons c text => exact absurd (congrArg (· :: text) (List.cons.inj same).1) (plain text)
  · rename_i a b c d rest _ same
    have undigit : hexDigit? a = none ∨ hexDigit? b = none ∨ hexDigit? c = none := by
      match text, few with
      | [], _ => cases ended
      | [x], _ =>
          simp only [List.cons_append, List.cons.injEq] at same
          exact .inl (hexDigit?_lineEnd (same.1 ▸ by simpa using ended))
      | [x, y], _ =>
          simp only [List.cons_append, List.cons.injEq] at same
          simp only [List.any_cons, List.any_nil, Bool.or_false, Bool.or_eq_true, same.1, same.2.1] at ended
          exact ended.elim (fun ends => .inl (hexDigit?_lineEnd ends)) fun ends => .inr (.inl (hexDigit?_lineEnd ends))
      | [x, y, z], _ =>
          simp only [List.cons_append, List.cons.injEq] at same
          simp only [List.any_cons, List.any_nil, Bool.or_false, Bool.or_eq_true, same.1, same.2.1, same.2.2.1] at ended
          rcases ended with ends | ends | ends
          · exact .inl (hexDigit?_lineEnd ends)
          · exact .inr (.inl (hexDigit?_lineEnd ends))
          · exact .inr (.inr (hexDigit?_lineEnd ends))
    split
    · rename_i first second third _
      simp [first, second, third] at undigit
    · rfl
  · rfl

/-- An escape of a name does not go over the end of its line. -/
theorem readNameEscape_before (stops : Stops behind) (ended : text.any isLineEnd = true) :
    readNameEscape (text ++ behind) = (readNameEscape text).map fun (c, rest) => (c, rest ++ behind) := by
  by_cases braced : ∃ rest, text = '\x7b' :: rest
  · obtain ⟨rest, rfl⟩ := braced
    have ended : rest.any isLineEnd = true := ended
    obtain ⟨taken, left⟩ := stops.spans (fun c => (hexDigit? c).isSome) rest (by decide)
    have more : rest.dropWhile (fun c => (hexDigit? c).isSome) ≠ [] := by
      intro none
      obtain ⟨c, member, ends⟩ := List.any_eq_true.mp ended
      have digits := List.dropWhile_eq_nil_iff.mp none c member
      simp [hexDigit?_lineEnd ends] at digits
    rw [List.cons_append, readNameEscape, readNameEscape, taken, left]
    dsimp only
    cases behind' : rest.dropWhile (fun c => (hexDigit? c).isSome) with
    | nil => exact absurd behind' more
    | cons c rest =>
        rw [List.cons_append]
        split
        · rename_i same
          obtain ⟨rfl, rfl⟩ := List.cons.inj same
          split
          all_goals rfl
        · rename_i other
          split
          · rename_i same
            obtain ⟨rfl, rfl⟩ := List.cons.inj same
            exact absurd rfl (other _)
          · rfl
  · rcases Nat.lt_or_ge 3 text.length with long | few
    · match text, long with
      | a :: b :: c :: d :: rest, _ =>
          have plain : a ≠ '\x7b' := by
            rintro rfl
            exact braced ⟨_, rfl⟩
          simp only [List.cons_append]
          rw [readNameEscape, readNameEscape]
          · split
            all_goals rfl
          · exact plain
          · exact plain
    · have plain := not_exists.mp braced
      have alone := readNameEscape_few few ended plain []
      rw [List.append_nil] at alone
      rw [readNameEscape_few few ended plain, alone]
      rfl

def NameRead.before (name : NameRead) (behind : List Char) : NameRead := { name with rest := name.rest ++ behind }

/-- Two readings of a name that are both broken, or leave the same in front of more text. -/
def NameRead.Keeps (name name' : NameRead) (behind : List Char) : Prop :=
  name'.valid = name.valid ∧ (name.valid = true → name' = name.before behind)

theorem readNameTail_before (stops : Stops behind) {name : NameRead} {rounds rounds' : Nat}
    (guarded : Guarded name.rest)
    (enough : name.rest.length ≤ rounds) (enough' : name.rest.length ≤ rounds') (some_rounds : 0 < rounds)
    (some_rounds' : 0 < rounds') :
    (readNameTail rounds name).Keeps (readNameTail rounds' (name.before behind)) behind := by
  induction rounds generalizing name rounds' with
  | zero => omega
  | succ rounds ih =>
      obtain ⟨rounds', rfl⟩ := Nat.exists_eq_succ_of_ne_zero (Nat.ne_of_gt some_rounds')
      obtain ⟨chars, escaped, valid, text⟩ := name
      dsimp only at guarded enough enough'
      by_cases escape : ∃ rest, text = '\\' :: rest
      · obtain ⟨text, rfl⟩ := escape
        by_cases opens : ∃ rest, text = 'u' :: rest
        · obtain ⟨rest, rfl⟩ := opens
          have ended : rest.any isLineEnd = true := guarded.escape
          have before := readNameEscape_before stops ended
          simp only [NameRead.before, List.cons_append, readNameTail, before]
          cases escaped : readNameEscape rest with
          | none => exact ⟨rfl, fun valid => absurd valid Bool.false_ne_true⟩
          | some found =>
              obtain ⟨c, more⟩ := found
              obtain ⟨taken, left⟩ := stops.spans isIdentifierPart more (by decide)
              have suffix : more.dropWhile isIdentifierPart <:+ rest :=
                (List.dropWhile_suffix _).trans (readNameEscape_suffix escaped)
              have length := suffix.length_le
              simp only [List.length_cons] at enough enough'
              simp only [Option.map_some, taken, left]
              have guarded : Guarded (more.dropWhile isIdentifierPart) := guarded.tail.tail.of_suffix suffix
              exact ih guarded
                (by
                  dsimp only
                  omega) (by
                  dsimp only
                  omega) (by omega) (by omega)
        · have other := not_exists.mp opens
          rw [readNameTail_broken rfl other, readNameTail_broken rfl (stops.front_ne other (by decide))]
          exact ⟨rfl, fun valid => absurd valid Bool.false_ne_true⟩
      · have plain := not_exists.mp escape
        rw [readNameTail_plain plain, readNameTail_plain (stops.front_ne plain (by decide))]
        exact ⟨rfl, fun _ => rfl⟩

theorem readName_before (stops : Stops behind) (guarded : Guarded text) :
    (readName text).Keeps (readName (text ++ behind)) behind := by
  obtain ⟨taken, left⟩ := stops.spans isIdentifierPart text (by decide)
  have suffix := List.dropWhile_suffix (l := text) isIdentifierPart
  have length := suffix.length_le
  by_cases escapes : ∃ rest, text.dropWhile isIdentifierPart = '\\' :: rest
  · obtain ⟨rest, escape⟩ := escapes
    have tail {cs : List Char} (front : ∃ rest, cs.dropWhile isIdentifierPart = '\\' :: rest) : readName cs =
        readNameTail cs.length ⟨cs.takeWhile isIdentifierPart, false, true, cs.dropWhile isIdentifierPart⟩ := by
      obtain ⟨rest, front⟩ := front
      unfold readName
      dsimp only
      split
      · rfl
      · rename_i plain
        exact absurd front (plain _)
    rw [tail ⟨rest, escape⟩, tail ⟨rest ++ behind, by rw [left, escape, List.cons_append]⟩, taken, left]
    have filled : 0 < text.length := Nat.lt_of_lt_of_le (escape ▸ Nat.succ_pos _) length
    have more : text.length ≤ (text ++ behind).length := by simp
    have guarded : Guarded (text.dropWhile isIdentifierPart) := guarded.of_suffix suffix
    exact readNameTail_before stops guarded length (Nat.le_trans length more) filled (Nat.lt_of_lt_of_le filled more)
  · have plain := not_exists.mp escapes
    have whole {cs : List Char} (plain : ∀ rest, cs.dropWhile isIdentifierPart ≠ '\\' :: rest) : readName cs =
        ⟨cs.takeWhile isIdentifierPart, false, true, cs.dropWhile isIdentifierPart⟩ := by
      unfold readName
      dsimp only
      split
      · rename_i same
        exact absurd same (plain _)
      · rfl
    rw [whole plain, whole (left ▸ stops.front_ne plain (by decide)), taken, left]
    exact ⟨rfl, fun _ => rfl⟩

end Names

section Quotes

theorem isGap_ne_quote {quote c : Char} (isQuote : quote = '"' ∨ quote = '\x27') (gap : isGap c = true) :
    (c != quote) = true := by
  refine bne_iff_ne.mpr ?_
  rintro rfl
  rcases isQuote with rfl | rfl
  all_goals cases gap

theorem readQuoted_before (quiet : Quiet behind) {quote : Char} (isQuote : quote = '"' ∨ quote = '\x27')
    (mode : EscapeMode) (q : QuotedSoFar) :
    readQuoted quote mode q (text ++ behind) =
      (readQuoted quote mode q text).map fun (found, rest) => (found, rest ++ behind) := by
  induction text generalizing mode q with
  | nil => exact quiet.quoted mode q isQuote
  | cons c text ih =>
      rw [List.cons_append, readQuoted, readQuoted]
      split
      · rfl
      · exact ih _ _
      · rfl

def TemplatePiece.before (piece : TemplatePiece) (behind : List Char) : TemplatePiece :=
  { piece with rest := piece.rest ++ behind }

theorem readTemplate_before (quiet : Quiet behind) (mode : EscapeMode) (valid : Bool) :
    readTemplate mode valid (text ++ behind) = (readTemplate mode valid text).map (·.before behind) := by
  induction text generalizing mode valid with
  | nil => exact quiet.template mode valid
  | cons c text ih =>
      rw [List.cons_append, readTemplate, readTemplate]
      split
      · rfl
      · rfl
      · exact ih _ _

theorem readPatternBody_before (quiet : Quiet behind) (inClass : Bool) (guarded : Guarded text) :
    readPatternBody inClass (text ++ behind) = (readPatternBody inClass text).map (· ++ behind) := by
  have unescaped {c : Char} {text : List Char} (guarded : Guarded (c :: text))
      (alone : ∀ d rest, c = '\\' → text = d :: rest → False) : c ≠ '\\' := by
    rintro rfl
    cases text with
    | nil => cases guarded.escape
    | cons d rest => exact alone d rest rfl rfl
  fun_induction readPatternBody inClass text with
  | case1 inClass => exact quiet.pattern inClass
  | case2 inClass c text ends => simp [readPatternBody, ends]
  | case3 inClass c text ends ih => simpa [readPatternBody, ends] using ih guarded.tail.tail
  | case4 inClass c text alone ends =>
      rw [List.cons_append, readPatternBody, if_pos ends]
      · rfl
      · exact fun d rest same => absurd same (unescaped guarded alone)
  | case5 inClass c text alone ends closes =>
      rw [List.cons_append, readPatternBody, if_neg ends, if_pos closes]
      · rfl
      · exact fun d rest same => absurd same (unescaped guarded alone)
  | case6 inClass c text alone ends stays isClass ih =>
      rw [List.cons_append, readPatternBody, if_neg ends, if_neg stays, if_pos isClass]
      · exact ih guarded.tail
      · exact fun d rest same => absurd same (unescaped guarded alone)
  | case7 inClass c text alone ends stays notClass isEnd ih =>
      rw [List.cons_append, readPatternBody, if_neg ends, if_neg stays, if_neg notClass, if_pos isEnd]
      · exact ih guarded.tail
      · exact fun d rest same => absurd same (unescaped guarded alone)
  | case8 inClass c text alone ends stays notClass notEnd ih =>
      rw [List.cons_append, readPatternBody, if_neg ends, if_neg stays, if_neg notClass, if_neg notEnd]
      · exact ih guarded.tail
      · exact fun d rest same => absurd same (unescaped guarded alone)

end Quotes

section Marks

theorem dropFront_before (stops : Stops behind) {front : List Char} (apart : ';' ∉ front ∧ '\x7d' ∉ front) :
    dropFront front (text ++ behind) = (dropFront front text).map (· ++ behind) := by
  induction front generalizing text with
  | nil => rfl
  | cons a front ih =>
      cases text with
      | nil =>
          obtain ⟨c, more, rfl, closes⟩ := stops
          have other : (a == c) = false := by
            refine beq_eq_false_iff_ne.mpr fun same => ?_
            subst same
            rcases closes with rfl | rfl
            · exact apart.1 List.mem_cons_self
            · exact apart.2 List.mem_cons_self
          simp [dropFront, other]
      | cons c text =>
          rw [List.cons_append, dropFront, dropFront]
          split
          · exact ih ⟨fun member => apart.1 (List.mem_cons_of_mem _ member), fun member => apart.2
              (List.mem_cons_of_mem _ member)⟩
          · rfl

/-- A mark in which no other mark ends a statement. -/
def IsWhole (mark : String) : Prop := mark.toList ≠ [] ∧ ';' ∉ mark.toList.tail ∧ '\x7d' ∉ mark.toList.tail

instance (mark : String) : Decidable (IsWhole mark) := inferInstanceAs (Decidable (_ ∧ _ ∧ _))

theorem firstMark_before (stops : Stops behind) {known : List String} (whole : ∀ mark ∈ known, IsWhole mark) :
    firstMark known (c :: text ++ behind) =
      (firstMark known (c :: text)).map fun (mark, rest) => (mark, rest ++ behind) := by
  induction known with
  | nil => rfl
  | cons mark more ih =>
      have drops : dropFront mark.toList (c :: text ++ behind) =
          (dropFront mark.toList (c :: text)).map (· ++ behind) := by
        obtain ⟨filled, apart⟩ := whole mark List.mem_cons_self
        cases spelled : mark.toList with
        | nil => exact absurd spelled filled
        | cons a front =>
            rw [spelled] at apart
            rw [List.cons_append, dropFront, dropFront]
            split
            · exact dropFront_before stops apart
            · rfl
      rw [firstMark, firstMark, drops]
      cases dropFront mark.toList (c :: text) with
      | none => exact ih fun mark member => whole mark (List.mem_cons_of_mem _ member)
      | some rest => rfl

theorem readMark_before (stops : Stops behind) :
    readMark (c :: text ++ behind) = (readMark (c :: text)).map fun (mark, rest) => (mark, rest ++ behind) := by
  have whole : ∀ mark ∈ marks, IsWhole mark := by decide
  unfold readMark
  rw [firstMark_before stops whole]
  cases firstMark marks (c :: text) with
  | none => rfl
  | some found =>
      obtain ⟨mark, rest⟩ := found
      by_cases question : mark = "?."
      · subst question
        cases rest with
        | nil =>
            obtain ⟨d, more, rfl, rfl | rfl⟩ := stops
            all_goals rfl
        | cons d rest =>
            simp only [Option.map_some, List.cons_append]
            split
            all_goals rfl
      · simp [question]

end Marks

section Scan

/-- What a scanner finds, in front of more text. -/
def Scanned.before (found : Scanned) (behind : List Char) : Scanned :=
  if found.lexeme = .malformed then found else { found with rest := found.rest ++ behind }

theorem scanWord_before (stops : Stops behind) (guarded : Guarded text) :
    scanWord (text ++ behind) = (scanWord text).before behind := by
  obtain ⟨valid, keeps⟩ := readName_before stops guarded
  unfold scanWord
  dsimp only
  rw [valid]
  cases read : (readName text).valid with
  | false => rfl
  | true =>
      rw [keeps read, NameRead.before]
      dsimp only
      split
      · rfl
      · rfl

theorem scanPrivateName_before (stops : Stops behind) (guarded : Guarded text) :
    scanPrivateName (text ++ behind) = (scanPrivateName text).before behind := by
  cases text with
  | nil =>
      obtain ⟨c, more, rfl, rfl | rfl⟩ := stops
      all_goals rfl
  | cons c text =>
      obtain ⟨valid, keeps⟩ := readName_before stops guarded
      unfold scanPrivateName
      simp only [List.cons_append] at valid keeps ⊢
      rw [valid]
      cases read : (readName (c :: text)).valid with
      | false =>
          simp only [Bool.and_false, Bool.false_and]
          rfl
      | true =>
          rw [keeps read, NameRead.before]
          dsimp only
          split
          · rfl
          · rfl

theorem scanQuoted_before (quiet : Quiet behind) {quote : Char} (isQuote : quote = '"' ∨ quote = '\x27') :
    scanQuoted quote (text ++ behind) = (scanQuoted quote text).before behind := by
  unfold scanQuoted
  rw [readQuoted_before quiet isQuote]
  cases readQuoted quote .plain .start text with
  | none => rfl
  | some found => rfl

theorem scanTemplate_before (quiet : Quiet behind) :
    scanTemplate (text ++ behind) = (scanTemplate text).before behind := by
  unfold scanTemplate
  rw [readTemplate_before quiet]
  cases readTemplate .plain true text with
  | none => rfl
  | some piece => rfl

theorem scanNumber_before (stops : Stops behind) : scanNumber (text ++ behind) = (scanNumber text).before behind := by
  unfold scanNumber
  rw [ReadsNumber.number.before stops]
  cases readNumber text with
  | none => rfl
  | some found =>
      obtain ⟨big, rest⟩ := found
      cases big
      all_goals rfl

theorem scanMark_before (stops : Stops behind) :
    scanMark (c :: text ++ behind) = (scanMark (c :: text)).before behind := by
  unfold scanMark
  rw [readMark_before stops]
  cases readMark (c :: text) with
  | none => rfl
  | some found => rfl

/-- What stands in front of a quiet text is scanned as at the end of a text. -/
theorem scan_before (quiet : Quiet behind) (guarded : Guarded (c :: text)) :
    scan (c :: text ++ behind) = (scan (c :: text)).before behind := by
  have digit := quiet.stops.head_any isDecimal text (by decide)
  have word := scanWord_before quiet.stops guarded
  have number : scanNumber (c :: text ++ behind) = _ := scanNumber_before quiet.stops
  have mark : scanMark (c :: text ++ behind) = _ := scanMark_before quiet.stops
  rw [List.cons_append] at word number mark ⊢
  unfold scan
  dsimp only
  rw [digit]
  split
  · exact word
  split
  · rename_i isQuote
    exact scanQuoted_before quiet ((Bool.or_eq_true_iff.mp isQuote).imp eq_of_beq eq_of_beq)
  split
  · exact scanTemplate_before quiet
  split
  · exact number
  split
  · exact number
  split
  · exact scanPrivateName_before quiet.stops guarded.tail
  · exact mark

/-- The mark that a text stops with is a token of its own. -/
theorem scan_stop (closes : c = ';' ∨ c = '\x7d') (text : List Char) :
    scan (c :: text) = ⟨.mark (String.singleton c), text, false⟩ := by
  rcases closes with rfl | rfl
  all_goals rfl

theorem nextToken_before (quiet : Quiet behind) (guarded : Guarded text) : nextToken (text ++ behind) =
    if (skipSpace .plain false text).unclosed then ⟨.malformed, (skipSpace .plain false text).newLine, [], [], false⟩
    else .scanned (skipSpace .plain false text).newLine ((skipSpace .plain false text).rest ++ behind) := by
  rw [nextToken_scanned, skipSpace_before quiet .plain false guarded trivial, AfterSpace.before]
  cases unclosed : (skipSpace .plain false text).unclosed with
  | true => simp only [if_true, unclosed]
  | false => rfl

end Scan

section Retakes

variable {token : Token}

/-- A token in front of more text. -/
def Token.before (token : Token) (behind : List Char) : Token :=
  { token with start := token.start ++ behind, rest := token.rest ++ behind }

/-- A token that is taken as another one in front of more text, where it may turn out to be none. -/
def Token.retakenBefore (token : Token) (behind : List Char) : Token :=
  if token.lexeme = .malformed then { token with start := token.start ++ behind } else token.before behind

theorem Token.joinAngle_other (token : Token) (other : token.lexeme ≠ .mark ">") : token.joinAngle = token := by
  unfold joinAngle
  split
  · rename_i angle
    exact absurd angle other
  · rfl

theorem Token.joinAngle_isRead (token : Token) (angle : token.lexeme = .mark ">") :
    token.joinAngle.lexeme.isRead = true := by
  simp only [joinAngle, angle]
  split
  · rfl
  · rw [angle]
    rfl

theorem Token.Formed.joinAngle_before (formed : token.Formed) (stops : Stops behind) (angle : token.lexeme = .mark ">")
    :
    (token.before behind).joinAngle = token.joinAngle.before behind := by
  have spelled := formed.mark ">" angle
  have whole : ∀ mark ∈ [">>>=", ">>>", ">>=", ">>", ">="], IsWhole mark := by decide
  have found : firstMark [">>>=", ">>>", ">>=", ">>", ">="] (token.start ++ behind) =
      (firstMark [">>>=", ">>>", ">>=", ">>", ">="] token.start).map fun (mark, rest) => (mark, rest ++ behind) := by
    rw [spelled]
    exact firstMark_before stops whole
  unfold Token.joinAngle
  simp only [Token.before, angle, found]
  cases firstMark [">>>=", ">>>", ">>=", ">>", ">="] token.start with
  | none => simp only [Option.map_none, angle]
  | some found => rfl

/-- The marks from which an angle bracket can be split. -/
def Lexeme.splits (lexeme : Lexeme) : Bool := lexeme == .mark "<<" || lexeme == .mark "<<=" || lexeme == .mark "<="

theorem Lexeme.eq_of_splits {lexeme : Lexeme} (isAngle : lexeme.splits = true) :
    lexeme = .mark "<<" ∨ lexeme = .mark "<<=" ∨ lexeme = .mark "<=" := by
  simpa [splits, or_assoc] using isAngle

theorem Lexeme.goesOn_of_splits {lexeme : Lexeme} (isAngle : lexeme.splits = true) : lexeme.goesOn = true := by
  rcases eq_of_splits isAngle with rfl | rfl | rfl
  all_goals rfl

theorem Token.splitAngle_other (token : Token) (other : token.lexeme.splits = false) : token.splitAngle = token := by
  unfold splitAngle
  split
  · rename_i angle
    rw [angle] at other
    cases other
  · rename_i angle
    rw [angle] at other
    cases other
  · rename_i angle
    rw [angle] at other
    cases other
  · rfl

theorem Token.splitAngle_run (isAngle : token.lexeme.splits = true) (spelled : token.start = '<' :: rest) :
    token.splitAngle = { token with lexeme := .mark "<", rest } := by
  obtain ⟨lexeme, newLine, start, left, flawed⟩ := token
  obtain rfl : start = '<' :: rest := spelled
  rcases Lexeme.eq_of_splits isAngle with same | same | same
  all_goals
    obtain rfl : lexeme = _ := same
    rfl

theorem Token.Formed.angle (formed : token.Formed) (isAngle : token.lexeme.splits = true) :
    ∃ rest, token.start = '<' :: rest := by
  rcases Lexeme.eq_of_splits isAngle with same | same | same
  all_goals exact ⟨_, formed.mark _ same⟩

theorem Token.Formed.splitAngle_before (formed : token.Formed) (isAngle : token.lexeme.splits = true) :
    (token.before behind).splitAngle = token.splitAngle.before behind := by
  obtain ⟨rest, spelled⟩ := formed.angle isAngle
  have spelledBefore : (token.before behind).start = '<' :: (rest ++ behind) := by
    rw [Token.before, spelled, List.cons_append]
  have isAngleBefore : (token.before behind).lexeme.splits = true := isAngle
  rw [Token.splitAngle_run isAngleBefore spelledBefore, Token.splitAngle_run isAngle spelled]
  rfl

theorem Token.Formed.splitAngle_isRead (formed : token.Formed) (isAngle : token.lexeme.splits = true) :
    token.splitAngle.lexeme.isRead = true := by
  obtain ⟨rest, spelled⟩ := formed.angle isAngle
  rw [Token.splitAngle_run isAngle spelled]
  rfl

theorem Token.asPattern_before (quiet : Quiet behind) (guarded : Guarded token.start) (filled : token.start ≠ []) :
    (token.before behind).asPattern = token.asPattern.retakenBefore behind := by
  have tail : (token.before behind).start.tail = token.start.tail ++ behind := List.tail_append_of_ne_nil filled
  have reads := readPatternBody_before quiet false (guarded.of_suffix (List.tail_suffix token.start))
  unfold asPattern
  rw [tail, reads]
  cases readPatternBody false token.start.tail with
  | none => rfl
  | some rest =>
      obtain ⟨taken, left⟩ := quiet.stops.spans isFlagChar rest (by decide)
      simp only [Option.map_some, taken, left]
      rfl

theorem Token.asTemplate_before (quiet : Quiet behind) (filled : token.start ≠ []) :
    (token.before behind).asTemplate = token.asTemplate.retakenBefore behind := by
  have tail : (token.before behind).start.tail = token.start.tail ++ behind := List.tail_append_of_ne_nil filled
  unfold asTemplate
  rw [tail, readTemplate_before quiet]
  cases readTemplate .plain true token.start.tail with
  | none => rfl
  | some piece => rfl

end Retakes

end Realms.Script
