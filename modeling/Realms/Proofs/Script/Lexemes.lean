import Realms.Proofs.Script.Quoted
import Realms.Script.Reading

/-!
Texts with a known lexeme in front: a name, a mark or a text between quotes, behind any space. A name ends where
no more of a name can follow; a mark ends by itself, unless a longer one begins with it.
-/
namespace Realms.Script

open Realms.Text (isIdentifierStart isIdentifierPart isIdentifierName)

def isGap (c : Char) : Bool := isLineEnd c || isBlank c

/-- A character that is no space and opens no comment. -/
def opensLexeme (c : Char) : Bool := !isGap c && c != '/'

/-- A text that is skipped in front of any other. -/
def Space (space : List Char) : Prop :=
  ∀ newLine text, ∃ ends, skipSpace .plain newLine (space ++ text) = skipSpace .plain ends text

/-- A text with a lexeme in front that is spelled by all rules, and the text behind it. -/
structure Starts (text : List Char) (lexeme : Lexeme) (rest : List Char) : Prop where
  scans : ∃ space c more, Space space ∧ text = space ++ c :: more ∧ opensLexeme c = true ∧
    scan (c :: more) = ⟨lexeme, rest, false⟩
  unescaped : ∀ name, lexeme ≠ .word name true

/-- The first token stands on the line where the text starts. -/
def OnLine (text : List Char) : Prop := (nextToken text).newLine = false

variable {c : Char} {name : String} {text rest space : List Char} {lexeme : Lexeme}

-- The equations by which space is skipped, made once for the proofs that go by them.
attribute [local simp] skipSpace

theorem opensLexeme_iff : opensLexeme c = true ↔ isLineEnd c = false ∧ isBlank c = false ∧ c ≠ '/' := by
  simp [opensLexeme, isGap, and_assoc]

theorem skipSpace_opens (opens : opensLexeme c = true) (newLine : Bool) (more : List Char) :
    skipSpace .plain newLine (c :: more) = ⟨newLine, false, c :: more⟩ := by
  obtain ⟨notEnd, notBlank, notSlash⟩ := opensLexeme_iff.mp opens
  simp [skipSpace, notEnd, notBlank, notSlash]

theorem isGap_ne_slash (gap : isGap c = true) : c ≠ '/' := by
  rintro rfl
  cases gap

theorem skipSpace_gap (gap : isGap c = true) (newLine : Bool) (text : List Char) :
    skipSpace .plain newLine (c :: text) = skipSpace .plain (newLine || isLineEnd c) text := by
  have notSlash := isGap_ne_slash gap
  cases ends : isLineEnd c with
  | true => simp [skipSpace, notSlash, ends]
  | false =>
      have blank : isBlank c = true := by simpa [isGap, ends] using gap
      simp [skipSpace, notSlash, ends, blank]

theorem skipSpace_comment {comment : List Char} (oneLine : ∀ c ∈ comment, isLineEnd c = false) (newLine : Bool)
    (text : List Char) : skipSpace .lineComment newLine (comment ++ '\n' :: text) = skipSpace .plain true text := by
  induction comment with
  | nil => rfl
  | cons c comment ih =>
      have within := oneLine c List.mem_cons_self
      rw [List.cons_append, skipSpace, within]
      exact ih fun d member => oneLine d (List.mem_cons_of_mem c member)

/-- A text without a line end, as it is checked. -/
theorem oneLine_of_all (all : text.all (!isLineEnd ·) = true) : ∀ c ∈ text, isLineEnd c = false := by
  intro c member
  simpa using List.all_eq_true.mp all c member

namespace Space

theorem nil : Space [] := fun newLine _ => ⟨newLine, rfl⟩

theorem append {first second : List Char} (a : Space first) (b : Space second) : Space (first ++ second) := by
  intro newLine text
  obtain ⟨between, skipped⟩ := a newLine (second ++ text)
  rw [List.append_assoc, skipped]
  exact b between text

theorem gaps (all : ∀ c ∈ space, isGap c = true) : Space space := by
  induction space with
  | nil => exact .nil
  | cons c space ih =>
      have first : Space [c] := fun newLine text => ⟨_, skipSpace_gap (all c List.mem_cons_self) newLine text⟩
      exact first.append (ih fun d member => all d (List.mem_cons_of_mem c member))

theorem comment {comment : List Char} (oneLine : ∀ c ∈ comment, isLineEnd c = false) :
    Space ('/' :: '/' :: comment ++ ['\n']) := by
  intro newLine text
  rw [List.append_assoc]
  exact ⟨true, skipSpace_comment oneLine newLine text⟩

end Space

namespace Starts

theorem of_scan (opens : opensLexeme c = true) (scans : scan (c :: text) = ⟨lexeme, rest, false⟩)
    (unescaped : ∀ name, lexeme ≠ .word name true) : Starts (c :: text) lexeme rest :=
  ⟨⟨[], c, text, .nil, rfl, opens, scans⟩, unescaped⟩

theorem after (skips : Space space) (starts : Starts text lexeme rest) : Starts (space ++ text) lexeme rest := by
  obtain ⟨⟨front, c, more, skipsFront, rfl, opens, scans⟩, unescaped⟩ := starts
  exact ⟨⟨space ++ front, c, more, skips.append skipsFront, by rw [List.append_assoc], opens, scans⟩, unescaped⟩

theorem nextToken_eq (starts : Starts text lexeme rest) :
    ∃ newLine start, nextToken text = ⟨lexeme, newLine, start, rest, false⟩ := by
  obtain ⟨⟨space, c, more, skips, rfl, opens, scans⟩, _⟩ := starts
  obtain ⟨newLine, skipped⟩ := skips false (c :: more)
  rw [skipSpace_opens opens] at skipped
  exact ⟨newLine, c :: more, by simp [nextToken, skipped, scans]⟩

end Starts

/-- A token starts behind the space in front of it. -/
theorem nextToken_start (skips : Space space) (opens : opensLexeme c = true) (more : List Char) :
    (nextToken (space ++ c :: more)).start = c :: more := by
  obtain ⟨newLine, skipped⟩ := skips false (c :: more)
  rw [skipSpace_opens opens] at skipped
  simp [nextToken, skipped]

theorem onLine_opens (opens : opensLexeme c = true) (text : List Char) : OnLine (c :: text) := by
  simp [OnLine, nextToken, skipSpace_opens opens]

theorem OnLine.blank (onLine : OnLine text) : OnLine (' ' :: text) := onLine

/-- The characters in front of which no name starts, but for the blanks of twelve widths. -/
def plainGaps : List Char :=
  ['\n', '\r', '\u2028', '\u2029', ' ', '\t', '\x0b', '\x0c', '\x85', '\xa0', '\ufeff', '\u1680', '\u202f',
    '\u205f', '\u3000', '/']

theorem plainGaps_notStart (member : c ∈ plainGaps) : isIdentifierStart c = false := by
  have none : plainGaps.all (!isIdentifierStart ·) = true := by decide +kernel
  simpa using List.all_eq_true.mp none c member

theorem wideGaps_notStart : ∀ n < 12, Text.inRanges Text.startRanges (0x2000 + n) = false := by decide +kernel

theorem opensLexeme_of_start (start : isIdentifierStart c = true) : opensLexeme c = true := by
  have notPlain : c ∉ plainGaps := fun member => by simp [plainGaps_notStart member] at start
  simp only [plainGaps, List.mem_cons, List.not_mem_nil, or_false, not_or] at notPlain
  have notWide (least : '\u2000' ≤ c) : '\u200b' < c := by
    refine Char.not_le.mp fun most => ?_
    have low : 0x2000 ≤ c.toNat := UInt32.le_iff_toNat_le.mp (Char.le_def.mp least)
    have high : c.toNat ≤ 0x200b := UInt32.le_iff_toNat_le.mp (Char.le_def.mp most)
    have absent := wideGaps_notStart (c.toNat - 0x2000) (by omega)
    rw [Nat.add_sub_cancel' low] at absent
    have wide : ¬c.toNat < 128 := by omega
    simp [isIdentifierStart, wide, absent] at start
  simpa [opensLexeme_iff, isLineEnd, isBlank, notPlain] using notWide

theorem isIdentifierPart_of_start (start : isIdentifierStart c = true) : isIdentifierPart c = true := by
  unfold isIdentifierStart at start
  unfold isIdentifierPart
  split
  · rename_i narrow
    simp only [narrow, if_true] at start
    simp only [Char.isAlphanum]
    grind
  · rename_i wide
    simp only [wide, if_false] at start
    simp [start]

/-- No more of a name stands in front of a text, nor an escape in one. -/
def endsName (text : List Char) : Bool := text.head?.all fun c => !isIdentifierPart c && c != '\\'

theorem takeWhile_name (parts : text.all isIdentifierPart = true) (ends : endsName rest = true) :
    (text ++ rest).takeWhile isIdentifierPart = text ∧ (text ++ rest).dropWhile isIdentifierPart = rest := by
  induction text with
  | nil =>
      cases rest with
      | nil => exact ⟨rfl, rfl⟩
      | cons c rest =>
          have notPart : isIdentifierPart c = false := by
            simp only [endsName, List.head?_cons, Option.all_some, Bool.and_eq_true, Bool.not_eq_true'] at ends
            exact ends.1
          simp [notPart]
  | cons c text ih =>
      rw [List.all_cons, Bool.and_eq_true] at parts
      obtain ⟨part, parts⟩ := parts
      simp [part, ih parts]

theorem readName_eq (parts : text.all isIdentifierPart = true) (ends : endsName rest = true) :
    readName (text ++ rest) = ⟨text, false, true, rest⟩ := by
  obtain ⟨taken, left⟩ := takeWhile_name parts ends
  rw [readName, taken, left]
  split
  · rename_i more escape
    rw [show rest = '\\' :: more from escape] at ends
    simp [endsName] at ends
  · rfl

theorem starts_name (identifier : isIdentifierName name.toList = true) (ends : endsName rest = true) :
    Starts (name.toList ++ rest) (.word name false) rest := by
  cases spelled : name.toList with
  | nil => simp [isIdentifierName, spelled] at identifier
  | cons c more =>
      simp only [spelled, isIdentifierName, Bool.and_eq_true] at identifier
      obtain ⟨start, parts⟩ := identifier
      have whole : (c :: more).all isIdentifierPart = true := by simp [isIdentifierPart_of_start start, parts]
      have read := readName_eq whole ends
      have back : String.ofList (c :: more) = name := by rw [← spelled, String.ofList_toList]
      refine .of_scan (opensLexeme_of_start start) ?_ (by simp)
      simp only [List.cons_append] at read
      simp [scan, start, scanWord, read, back]

theorem starts_text {written : List Char} {value : String} (quotes : Quotes written value) (rest : List Char) :
    Starts ('"' :: written ++ '"' :: rest) (.text value true) rest :=
  .of_scan rfl (quotes.scanQuoted rest) (by simp)

/-- The marks that no longer mark begins with. -/
def closedMarks : List Char := ['(', ')', '\x7b', '\x7d', ',', ';', ':']

theorem starts_mark (closed : c ∈ closedMarks) (rest : List Char) :
    Starts (c :: rest) (.mark (String.singleton c)) rest := by
  simp only [closedMarks, List.mem_cons, List.not_mem_nil, or_false] at closed
  rcases closed with rfl | rfl | rfl | rfl | rfl | rfl | rfl
  all_goals exact .of_scan rfl rfl nofun

theorem starts_star (rest : List Char) : Starts ('*' :: ' ' :: rest) (.mark "*") (' ' :: rest) :=
  .of_scan rfl rfl nofun

theorem starts_equals (rest : List Char) : Starts ('=' :: ' ' :: rest) (.mark "=") (' ' :: rest) :=
  .of_scan rfl rfl nofun

theorem starts_dots (rest : List Char) : Starts ('.' :: '.' :: '.' :: rest) (.mark "...") rest :=
  .of_scan rfl rfl nofun

theorem starts_point (start : isIdentifierStart c = true) (rest : List Char) :
    Starts ('.' :: c :: rest) (.mark ".") (c :: rest) := by
  have notPoint : '.' ≠ c := by
    rintro rfl
    cases start
  have notDigit : isDecimal c = false := by
    cases digit : isDecimal c with
    | false => rfl
    | true =>
        simp only [isDecimal, Bool.and_eq_true, decide_eq_true_eq, Char.le_def, UInt32.le_iff_toNat_le] at digit
        obtain ⟨least, most⟩ := digit
        have digitsNotStart : ∀ n < 10, isIdentifierStart (Char.ofNat (48 + n)) = false := by decide
        have absent := digitsNotStart (c.toNat - 48) (by
          have nine : '9'.val.toNat = 57 := rfl
          have value : c.toNat = c.val.toNat := rfl
          omega)
        have zero : '0'.val.toNat = 48 := rfl
        have value : c.toNat = c.val.toNat := rfl
        rw [Nat.add_sub_cancel' (by omega), Char.ofNat_toNat] at absent
        simp [absent] at start
  have longer : dropFront "...".toList ('.' :: c :: rest) = none := by
    have spelled : "...".toList = ['.', '.', '.'] := rfl
    simp [spelled, dropFront, notPoint]
  have found : firstMark marks ('.' :: c :: rest) = some (".", c :: rest) := by
    rw [marks, firstMark, longer]
    rfl
  refine .of_scan rfl ?_ nofun
  have notStart : isIdentifierStart '.' = false := rfl
  have decimal : isDecimal '.' = false := rfl
  simp [scan, notStart, decimal, notDigit, scanMark, readMark, found]

end Realms.Script
