import Realms.Json.Write
import Realms.Script.Print
import Realms.Script.Token.Next

/-!
Texts between quotes. However a text is written, with the escapes of JSON or with those of a printed script, its
literal ends at the quote that closes it and has the text as its value.
-/
namespace Realms.Script

namespace QuotedSoFar

def pushAll (q : QuotedSoFar) (cs : List Char) : QuotedSoFar :=
  { q with units := (cs.map Char.toNat).reverse ++ q.units }

@[simp] theorem pushAll_push (q : QuotedSoFar) (c : Char) (cs : List Char) :
    (q.push c.toNat).pushAll cs = q.pushAll (c :: cs) := by
  simp [pushAll, push]

end QuotedSoFar

theorem not_isSurrogate (c : Char) : isSurrogate c.toNat = false := by
  have valid := c.valid
  simp only [UInt32.isValidChar, Nat.isValidChar] at valid
  simp only [isSurrogate, Char.toNat, Bool.and_eq_false_iff, decide_eq_false_iff_not]
  omega

theorem not_isHighSurrogate (c : Char) : isHighSurrogate c.toNat = false := by
  have whole := not_isSurrogate c
  simp only [isSurrogate, isHighSurrogate, Bool.and_eq_false_iff, decide_eq_false_iff_not] at whole ⊢
  omega

theorem joinPairs_cons {n : Nat} (alone : isHighSurrogate n = false) (rest : List Nat) :
    joinPairs (n :: rest) = n :: joinPairs rest := by
  cases rest with
  | nil => rfl
  | cons low rest => simp [joinPairs, alone]

theorem joinPairs_toNat (cs : List Char) : joinPairs (cs.map Char.toNat) = cs.map Char.toNat := by
  induction cs with
  | nil => rfl
  | cons c cs ih => rw [List.map_cons, joinPairs_cons (not_isHighSurrogate c), ih]

theorem textOf_toNat (cs : List Char) : textOf (cs.map Char.toNat) = (String.ofList cs, true) := by
  have whole : (cs.map Char.toNat).any isSurrogate = false := by
    simp [List.any_map, not_isSurrogate]
  simp only [textOf, joinPairs_toNat, whole, List.map_map]
  simp [Function.comp_def]

/-- Between quotes this stands for a value, whatever is behind them. -/
def Quotes (written : List Char) (value : String) : Prop :=
  ∀ rest, readQuoted '"' .plain .start (written ++ '"' :: rest) =
    some (QuotedSoFar.start.pushAll value.toList, rest)

theorem Quotes.scanQuoted {written : List Char} {value : String} (quotes : Quotes written value)
    (rest : List Char) : scanQuoted '"' (written ++ '"' :: rest) = ⟨.text value true, rest, false⟩ := by
  have text : (QuotedSoFar.start.pushAll value.toList).text = (value, true) := by
    simp only [QuotedSoFar.text, QuotedSoFar.pushAll, QuotedSoFar.start, List.append_nil, List.reverse_reverse,
      textOf_toNat, String.ofList_toList]
  simp only [Script.scanQuoted, quotes rest, text]
  rfl

theorem readQuoted_more {quote c : Char} {mode opened : EscapeMode} {q found : QuotedSoFar}
    (step : quotedStep quote mode q c = .more opened found) (rest : List Char) :
    readQuoted quote mode q (c :: rest) = readQuoted quote opened found rest := by
  rw [readQuoted, step]

theorem readQuoted_closed {quote : Char} (q : QuotedSoFar) (rest : List Char) :
    readQuoted quote .plain q (quote :: rest) = some (q, rest) := by
  simp [readQuoted, quotedStep, plainQuoted]

/-- What stands for one character within quotes. -/
def ReadsAs (written : List Char) (c : Char) : Prop :=
  ∀ q rest, readQuoted '"' .plain q (written ++ rest) = readQuoted '"' .plain (q.push c.toNat) rest

theorem readsAs_self {c : Char} (notQuote : c ≠ '"') (notBackslash : c ≠ '\\') (notFeed : c ≠ '\n')
    (notReturn : c ≠ '\r') : ReadsAs [c] c := by
  intro q rest
  simp [readQuoted, quotedStep, plainQuoted, notQuote, notBackslash, notFeed, notReturn]

theorem hexDigit?_json : ∀ n < 16, hexDigit? (Json.hexDigit n) = some n := by decide

/-- The two digits of a control character. -/
theorem hexDigits_control {c : Char} (control : c.toNat < 32) :
    hexDigit? (Json.hexDigit (c.toNat / 16)) = some (c.toNat / 16) ∧
      hexDigit? (Json.hexDigit (c.toNat % 16)) = some (c.toNat % 16) ∧ c.toNat / 16 * 16 + c.toNat % 16 = c.toNat :=
  ⟨hexDigit?_json _ (by omega), hexDigit?_json _ (by omega), by omega⟩

theorem readsAs_unicode {c : Char} (control : c.toNat < 32) :
    ReadsAs ['\\', 'u', '0', '0', Json.hexDigit (c.toNat / 16), Json.hexDigit (c.toNat % 16)] c := by
  intro q rest
  obtain ⟨high, low, whole⟩ := hexDigits_control control
  have zero : hexDigit? '0' = some 0 := rfl
  simp [readQuoted, quotedStep, plainQuoted, escapedQuoted, zero, high, low, whole]

theorem readsAs_json (c : Char) : ReadsAs (Json.escapeChar c) c := by
  unfold Json.escapeChar
  repeat' split
  all_goals rename_i same
  all_goals try
    obtain rfl := beq_iff_eq.mp same
    exact fun q rest => rfl
  · exact readsAs_unicode same
  · rename_i notQuote notBackslash notFeed notReturn _ _ _
    simp only [beq_iff_eq] at notQuote notBackslash notFeed notReturn
    exact readsAs_self notQuote notBackslash notFeed notReturn

/-- The escapes of JSON are those of a script. -/
theorem quotes_json (value : String) : Quotes (value.toList.flatMap Json.escapeChar) value := by
  intro rest
  have reads (q : QuotedSoFar) : ∀ cs : List Char, readQuoted '"' .plain q (cs.flatMap Json.escapeChar ++ '"' :: rest) =
      some (q.pushAll cs, rest) := by
    intro cs
    induction cs generalizing q with
    | nil => exact readQuoted_closed q rest
    | cons c cs ih => rw [List.flatMap_cons, List.append_assoc, readsAs_json, ih, QuotedSoFar.pushAll_push]
  exact reads .start value.toList

theorem not_octal {c : Char} (notDigit : c.isDigit = false) : ¬('0' ≤ c ∧ c ≤ '7') := by
  have zero : '0'.val.toNat = 48 := rfl
  have seven : '7'.val.toNat = 55 := rfl
  have nine : '9'.val.toNat = 57 := rfl
  simp only [Char.isDigit, Bool.and_eq_false_iff, decide_eq_false_iff_not, ge_iff_le, UInt32.le_iff_toNat_le,
    Char.le_def] at notDigit ⊢
  omega

theorem readQuoted_octal {quote c : Char} (notDigit : c.isDigit = false) (q : QuotedSoFar) (rest : List Char) :
    readQuoted quote (.octal 2 0) q (c :: rest) = readQuoted quote .plain (q.push 0) (c :: rest) := by
  have notOctal := not_octal notDigit
  simp [readQuoted, quotedStep, notOctal]

namespace Print

/-- The characters that a printed text has an escape for, but for zero. -/
def escaped : List Char :=
  ['\x07', '\x08', '\x0b', '\x0c', '\n', '\r', '\x1b', '\\', '"', '\u2028', '\u2029', '\u00a0']

variable {c : Char} {cs behind : List Char}

theorem escapeChar_zero : escapeChar '\x00' behind =
    if startsWithDigit behind then ['\\', 'x', '0', '0'] else ['\\', '0'] := rfl

theorem escapeChar_escaped (member : c ∈ escaped) (behind : List Char) :
    (∃ more, escapeChar c behind = '\\' :: more) ∧ ReadsAs (escapeChar c behind) c := by
  simp only [escaped, List.mem_cons, List.not_mem_nil, or_false] at member
  rcases member with rfl | rfl | rfl | rfl | rfl | rfl | rfl | rfl | rfl | rfl | rfl | rfl
  all_goals exact ⟨⟨_, rfl⟩, fun q rest => rfl⟩

theorem escapeChar_self (notZero : c ≠ '\x00') (plain : c ∉ escaped) : escapeChar c behind = [c] := by
  simp only [escaped, List.mem_cons, List.not_mem_nil, or_false, not_or] at plain
  simp [escapeChar, notZero, plain]

theorem escapeChar_front (c : Char) (behind : List Char) :
    ∃ d more, escapeChar c behind = d :: more ∧ (d = c ∨ d = '\\') := by
  by_cases zero : c = '\x00'
  · obtain rfl := zero
    rw [escapeChar_zero]
    split
    all_goals exact ⟨_, _, rfl, .inr rfl⟩
  by_cases member : c ∈ escaped
  · obtain ⟨⟨more, front⟩, _⟩ := escapeChar_escaped member behind
    exact ⟨_, more, front, .inr rfl⟩
  · exact ⟨c, [], escapeChar_self zero member, .inl rfl⟩

theorem escapeChars_front (notDigit : startsWithDigit cs = false) (rest : List Char) :
    ∃ d more, escapeChars cs ++ '"' :: rest = d :: more ∧ d.isDigit = false := by
  cases cs with
  | nil => exact ⟨'"', rest, rfl, rfl⟩
  | cons c cs =>
      obtain ⟨d, more, front, rfl | rfl⟩ := escapeChar_front c cs
      · exact ⟨d, _, by rw [escapeChars, front]; rfl, notDigit⟩
      · exact ⟨'\\', _, by rw [escapeChars, front]; rfl, rfl⟩

/-- A zero has two more digits where one behind it would be taken for a digit of its escape. -/
theorem readQuoted_escapeChars (q : QuotedSoFar) (cs rest : List Char) :
    readQuoted '"' .plain q (escapeChars cs ++ '"' :: rest) = some (q.pushAll cs, rest) := by
  induction cs generalizing q with
  | nil => exact readQuoted_closed q rest
  | cons c cs ih =>
      rw [escapeChars, List.append_assoc, ← QuotedSoFar.pushAll_push, ← ih]
      by_cases zero : c = '\x00'
      · obtain rfl := zero
        rw [escapeChar_zero]
        cases digit : startsWithDigit cs with
        | true => rfl
        | false =>
            obtain ⟨d, more, front, notDigit⟩ := escapeChars_front digit rest
            rw [front]
            exact readQuoted_octal notDigit q more
      by_cases member : c ∈ escaped
      · exact (escapeChar_escaped member _).2 q _
      · rw [escapeChar_self zero member]
        simp only [escaped, List.mem_cons, List.not_mem_nil, or_false, not_or] at member
        obtain ⟨_, _, _, _, notFeed, notReturn, _, notBackslash, notQuote, _⟩ := member
        exact readsAs_self notQuote notBackslash notFeed notReturn q _

theorem eq_of_toLower {c d : Char} (same : c.toLower = d) (notLetter : d.isLower = false) : c = d := by
  unfold Char.toLower at same
  split at same
  · rename_i upper
    have lower : d.isLower = true := by
      subst same
      have letterA : 'A'.val.toNat = 65 := rfl
      have letterZ : 'Z'.val.toNat = 90 := rfl
      have letters : ('a'.val - 'A'.val).toNat = 32 := rfl
      have letter_a : 'a'.val.toNat = 97 := rfl
      have letter_z : 'z'.val.toNat = 122 := rfl
      simp only [ge_iff_le, UInt32.le_iff_toNat_le] at upper
      delta Char.isLower
      simp only [Bool.and_eq_true, decide_eq_true_eq, ge_iff_le, UInt32.le_iff_toNat_le, UInt32.toNat_add, letters]
      omega
    exact absurd lower (by simp [notLetter])
  · exact same

theorem closesPage_front (closes : closesPage (c :: cs) = true) : c = '<' ∧ ∃ more, cs = '/' :: more := by
  have tag : "</script".toList = '<' :: '/' :: "script".toList := rfl
  cases cs with
  | nil => simp [closesPage] at closes
  | cons d more =>
      simp only [closesPage, tag, List.take_succ_cons, List.map_cons, beq_iff_eq, List.cons.injEq] at closes
      obtain ⟨bracket, slash, _⟩ := closes
      obtain rfl := eq_of_toLower slash rfl
      exact ⟨eq_of_toLower bracket rfl, more, rfl⟩

/-- A backslash within the end tag of a script stands for nothing: a slash is its own escape. -/
theorem readQuoted_guardPage {mode : EscapeMode} {q found : QuotedSoFar} {rest : List Char}
    (reads : readQuoted '"' mode q (cs ++ '"' :: rest) = some (found, rest)) :
    readQuoted '"' mode q (guardPage cs ++ '"' :: rest) = some (found, rest) := by
  induction cs generalizing mode q with
  | nil => exact reads
  | cons c cs ih =>
      rw [guardPage]
      split
      · rename_i closes
        obtain ⟨rfl, more, rfl⟩ := closesPage_front closes
        -- Whatever was open, the bracket ends it, so the backslash opens an escape and the slash is all of it.
        have opens : ∃ opened, quotedStep '"' mode q '<' = .more .plain opened := by
          cases mode
          all_goals exact ⟨_, rfl⟩
        obtain ⟨opened, step⟩ := opens
        rw [List.cons_append, readQuoted_more step] at reads ⊢
        have tail := ih reads
        have slash : guardPage ('/' :: more) = '/' :: guardPage more := rfl
        rw [slash] at tail ⊢
        exact tail
      · simp only [List.cons_append, readQuoted] at reads ⊢
        cases step : quotedStep '"' mode q c with
        | closed q =>
            rw [step] at reads
            have lengths := congrArg (Option.map fun read => read.2.length) reads
            simp at lengths
            omega
        | more mode q =>
            rw [step] at reads
            exact ih reads
        | broken =>
            rw [step] at reads
            cases reads

theorem quotes_printed (value : String) : Quotes (guardPage (escapeChars value.toList)) value :=
  fun rest => readQuoted_guardPage (readQuoted_escapeChars .start value.toList rest)

end Print

end Realms.Script
