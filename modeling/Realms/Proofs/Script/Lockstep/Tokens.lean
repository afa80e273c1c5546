import Realms.Proofs.Script.Lockstep.Statements

/-!
What a token is made of: the text behind it is an end of the text that it stands in front of, a mark and a name are
spelled there, and a token that cannot be read has nothing behind it.
-/
namespace Realms.Script

open Realms.Text

variable {text rest : List Char}

section Scanners

theorem skipSpace_suffix (mode : SpaceMode) (newLine : Bool) (text : List Char) :
    (skipSpace mode newLine text).rest <:+ text := by
  fun_induction skipSpace mode newLine text with
  | case1 newLine text ih => exact ih.trans ⟨['/', '/'], rfl⟩
  | case2 newLine text ih => exact ih.trans ⟨['/', '*'], rfl⟩
  | case3 newLine c text _ _ ends ih => exact ih.trans (List.suffix_cons c text)
  | case4 newLine c text _ _ ends blank ih => exact ih.trans (List.suffix_cons c text)
  | case5 newLine c text _ _ ends blank => exact List.suffix_refl _
  | case6 newLine c text ends ih => exact ih.trans (List.suffix_cons c text)
  | case7 newLine c text ends ih => exact ih.trans (List.suffix_cons c text)
  | case8 newLine text ih => exact ih.trans ⟨['*', '/'], rfl⟩
  | case9 newLine c text _ ih => exact ih.trans (List.suffix_cons c text)
  | case10 => exact List.suffix_refl _
  | case11 => exact List.suffix_refl _

theorem skipSpace_unclosed {mode : SpaceMode} {newLine : Bool}
    (unclosed : (skipSpace mode newLine text).unclosed = true) : (skipSpace mode newLine text).rest = [] := by
  fun_induction skipSpace mode newLine text with
  | case1 newLine text ih => exact ih unclosed
  | case2 newLine text ih => exact ih unclosed
  | case3 newLine c text _ _ ends ih => exact ih unclosed
  | case4 newLine c text _ _ ends blank ih => exact ih unclosed
  | case5 => cases unclosed
  | case6 newLine c text ends ih => exact ih unclosed
  | case7 newLine c text ends ih => exact ih unclosed
  | case8 newLine text ih => exact ih unclosed
  | case9 newLine c text _ ih => exact ih unclosed
  | case10 => rfl
  | case11 => cases unclosed

theorem readNameEscape_suffix {c : Char} (read : readNameEscape text = some (c, rest)) : rest <:+ text := by
  unfold readNameEscape at read
  split at read
  · rename_i more
    dsimp only at read
    split at read
    · rename_i behind left
      split at read
      · cases read
      · obtain ⟨-, rfl⟩ := Prod.mk.inj (Option.some.inj read)
        have ends : '\x7d' :: behind <:+ more := left ▸ List.dropWhile_suffix _
        exact ((List.suffix_cons _ _).trans ends).trans (List.suffix_cons _ _)
    · cases read
  · split at read
    · obtain ⟨-, rfl⟩ := Prod.mk.inj (Option.some.inj read)
      exact ⟨[_, _, _, _], rfl⟩
    · cases read
  · cases read

theorem readNameTail_suffix (rounds : Nat) (name : NameRead) : (readNameTail rounds name).rest <:+ name.rest := by
  induction rounds generalizing name with
  | zero => exact List.suffix_refl _
  | succ rounds ih =>
      unfold readNameTail
      split
      · rename_i more left
        split
        · rename_i c behind escape
          refine (ih _).trans ?_
          rw [left]
          exact ((List.dropWhile_suffix _).trans (readNameEscape_suffix escape)).trans ⟨['\\', 'u'], rfl⟩
        · exact List.suffix_refl _
      · exact List.suffix_refl _
      · exact List.suffix_refl _

/-- A name that is read with an escape in it says so. -/
theorem readNameTail_escaped {rounds : Nat} {name : NameRead} (escaped : name.escaped = true) :
    (readNameTail rounds name).escaped = true := by
  induction rounds generalizing name with
  | zero => exact escaped
  | succ rounds ih =>
      unfold readNameTail
      split
      · split
        · exact ih rfl
        · exact escaped
      · exact escaped
      · exact escaped

theorem readName_suffix (text : List Char) : (readName text).rest <:+ text := by
  have plain := List.dropWhile_suffix (l := text) isIdentifierPart
  unfold readName
  dsimp only
  split
  · exact (readNameTail_suffix _ _).trans plain
  · exact plain

theorem readQuoted_suffix {quote : Char} {mode : EscapeMode} {q found : QuotedSoFar}
    (read : readQuoted quote mode q text = some (found, rest)) : rest <:+ text := by
  induction text generalizing mode q with
  | nil => cases read
  | cons c text ih =>
      unfold readQuoted at read
      split at read
      · obtain ⟨-, rfl⟩ := Prod.mk.inj (Option.some.inj read)
        exact List.suffix_cons c text
      · exact (ih read).trans (List.suffix_cons c text)
      · cases read

theorem readTemplate_suffix {mode : EscapeMode} {valid : Bool} {piece : TemplatePiece}
    (read : readTemplate mode valid text = some piece) : piece.rest <:+ text := by
  induction text generalizing mode valid with
  | nil => cases read
  | cons c text ih =>
      unfold readTemplate at read
      split at read
      · exact Option.some.inj read ▸ List.suffix_cons c text
      · exact Option.some.inj read ▸ List.suffix_cons c text
      · exact (ih read).trans (List.suffix_cons c text)

theorem readPatternBody_suffix {inClass : Bool} (read : readPatternBody inClass text = some rest) : rest <:+ text := by
  fun_induction readPatternBody inClass text with
  | case1 => cases read
  | case2 => cases read
  | case3 inClass c text ends ih => exact (ih read).trans ⟨['\\', c], rfl⟩
  | case4 => cases read
  | case5 inClass c text => exact Option.some.inj read ▸ List.suffix_cons c text
  | case6 inClass c text _ _ _ _ ih => exact (ih read).trans (List.suffix_cons c text)
  | case7 inClass c text _ _ _ _ _ ih => exact (ih read).trans (List.suffix_cons c text)
  | case8 inClass c text _ _ _ _ _ ih => exact (ih read).trans (List.suffix_cons c text)

theorem dropFront_eq_some {front : List Char} : dropFront front text = some rest ↔ text = front ++ rest := by
  induction front generalizing text with
  | nil => simp [dropFront]
  | cons a front ih =>
      cases text with
      | nil => simp [dropFront]
      | cons c text =>
          by_cases same : a = c
          · simp [dropFront, ih, same]
          · simp [dropFront, same, Ne.symm same]

theorem firstMark_spelled {mark : String} {some_marks : List String} (found : firstMark some_marks text = some
    (mark, rest)) :
    text = mark.toList ++ rest := by
  induction some_marks with
  | nil => cases found
  | cons first more ih =>
      unfold firstMark at found
      split at found
      · rename_i behind drops
        obtain ⟨rfl, rfl⟩ := Prod.mk.inj (Option.some.inj found)
        exact dropFront_eq_some.mp drops
      · exact ih found

theorem readMark_spelled {mark : String} (found : readMark text = some (mark, rest)) : text = mark.toList ++ rest := by
  unfold readMark at found
  split at found
  · rename_i c behind first
    split at found
    · obtain ⟨rfl, rfl⟩ := Prod.mk.inj (Option.some.inj found)
      rw [firstMark_spelled first]
      rfl
    · obtain ⟨rfl, rfl⟩ := Prod.mk.inj (Option.some.inj found)
      exact firstMark_spelled first
  · exact firstMark_spelled found

theorem firstMark_member {mark : String} {known : List String} (found : firstMark known text = some (mark, rest)) :
    mark ∈ known := by
  induction known with
  | nil => cases found
  | cons first more ih =>
      unfold firstMark at found
      split at found
      · exact (Prod.mk.inj (Option.some.inj found)).1 ▸ List.mem_cons_self
      · exact List.mem_cons_of_mem _ (ih found)

theorem readMark_member {mark : String} (found : readMark text = some (mark, rest)) : mark ∈ marks := by
  unfold readMark at found
  split at found
  · rename_i first
    split at found
    · obtain ⟨rfl, -⟩ := Prod.mk.inj (Option.some.inj found)
      decide
    · obtain ⟨rfl, -⟩ := Prod.mk.inj (Option.some.inj found)
      decide
  · exact firstMark_member found

theorem readNameTail_broken {name : NameRead} (escape : name.rest = '\\' :: rest) (other : ∀ more, rest ≠ 'u' :: more)
    (rounds : Nat) : readNameTail (rounds + 1) name = { name with valid := false } := by
  unfold readNameTail
  split
  · rename_i same
    exact absurd (List.cons.inj (escape.symm.trans same)).2 (other _)
  · rfl
  · rename_i none
    exact absurd escape (none _)

theorem readNameTail_plain {name : NameRead} (plain : ∀ rest, name.rest ≠ '\\' :: rest) (rounds : Nat) :
    readNameTail (rounds + 1) name = name := by
  unfold readNameTail
  split
  · rename_i same
    exact absurd same (plain _)
  · rename_i same
    exact absurd same (plain _)
  · rfl

theorem readMark_isSome {mark : String} (member : mark ∈ marks) (front : dropFront mark.toList text = some rest) :
    (readMark text).isSome = true := by
  have isSome (known : List String) (member : mark ∈ known) : (firstMark known text).isSome = true := by
    induction known with
    | nil => cases member
    | cons first more ih =>
        unfold firstMark
        split
        · rfl
        · rename_i none
          rcases List.mem_cons.mp member with rfl | member
          · rw [front] at none
            cases none
          · exact ih member
  have found := isSome marks member
  unfold readMark
  split
  · split
    all_goals rfl
  · exact found

/-- A name takes the character that it starts with, and one that starts with an escape is read with an escape. -/
theorem readName_front {c : Char} (isName : isIdentifierStart c = true ∨ c = '\\')
    (valid : (readName (c :: text)).valid = true) :
    (readName (c :: text)).rest <:+ text ∧ ((readName (c :: text)).escaped = false → isIdentifierPart c = true) := by
  cases part : isIdentifierPart c with
  | true =>
      have dropped : (c :: text).dropWhile isIdentifierPart = text.dropWhile isIdentifierPart := by simp [part]
      refine ⟨?_, fun _ => rfl⟩
      unfold readName
      rw [dropped]
      dsimp only
      split
      · exact (readNameTail_suffix _ _).trans (List.dropWhile_suffix _)
      · exact List.dropWhile_suffix _
  | false =>
      obtain rfl : c = '\\' := isName.resolve_left fun start => by
        rw [isIdentifierPart_of_start start] at part
        cases part
      have tail : readName ('\\' :: text) = readNameTail (text.length + 1) ⟨[], false, true, '\\' :: text⟩ := rfl
      rw [tail] at valid ⊢
      by_cases opens : ∃ rest, text = 'u' :: rest
      · obtain ⟨rest, rfl⟩ := opens
        simp only [readNameTail] at valid ⊢
        cases escape : readNameEscape rest with
        | none => simp [escape] at valid
        | some found =>
            obtain ⟨d, more⟩ := found
            have suffix := (List.dropWhile_suffix (l := more) isIdentifierPart).trans (readNameEscape_suffix escape)
            refine ⟨((readNameTail_suffix _ _).trans suffix).trans (List.suffix_cons _ _), fun plain => ?_⟩
            rw [readNameTail_escaped rfl] at plain
            cases plain
      · rw [readNameTail_broken rfl (not_exists.mp opens)] at valid
        cases valid

end Scanners

/-- A text that starts with a mark that ends a statement. -/
def Stops (behind : List Char) : Prop := ∃ c more, behind = c :: more ∧ (c = ';' ∨ c = '\x7d')

namespace Stops

variable {behind : List Char} {test : Char → Bool}

theorem head_any (stops : Stops behind) (test : Char → Bool) (text : List Char)
    (others : test ';' = false ∧ test '\x7d' = false) :
    (text ++ behind).head?.any test = text.head?.any test := by
  obtain ⟨c, more, rfl, closes⟩ := stops
  cases text with
  | nil =>
      rcases closes with rfl | rfl
      · exact others.1
      · exact others.2
  | cons d text => rfl

theorem spans (stops : Stops behind) (test : Char → Bool) (text : List Char)
    (others : test ';' = false ∧ test '\x7d' = false) :
    (text ++ behind).takeWhile test = text.takeWhile test ∧ (text ++ behind).dropWhile test = text.dropWhile test ++
      behind := by
  induction text with
  | nil =>
      obtain ⟨c, more, rfl, rfl | rfl⟩ := stops
      · simp [others.1]
      · simp [others.2]
  | cons d text ih =>
      cases holds : test d with
      | true => simp [holds, ih.1, ih.2]
      | false => simp [holds]

end Stops

section Numbers

/-- The end of a number in front of more text. -/
def NumberEnd.before (found : NumberEnd) (behind : List Char) : NumberEnd := { found with rest := found.rest ++ behind }

/-- A reader of a part of a number. What it leaves is an end of the text, and it stops in front of a mark as it does at
the end. -/
structure ReadsNumber (f : List Char → Option NumberEnd) : Prop where
  suffix : ∀ {text found}, f text = some found → found.rest <:+ text
  before : ∀ {text behind}, Stops behind → f (text ++ behind) = (f text).map (·.before behind)

theorem skipDigits_suffix {isDigit : Char → Bool} {after : Bool} (skips : skipDigits isDigit after text = some rest) :
    rest <:+ text := by
  induction text generalizing after with
  | nil => exact Option.some.inj skips ▸ List.suffix_refl _
  | cons c text ih =>
      have onward {after : Bool} (skips : skipDigits isDigit after text = some rest) : rest <:+ c :: text :=
        (ih skips).trans (List.suffix_cons c text)
      unfold skipDigits at skips
      split at skips
      · exact onward skips
      · split at skips
        · split at skips
          · split at skips
            · exact onward skips
            · cases skips
          · cases skips
        · exact Option.some.inj skips ▸ List.suffix_refl _

theorem skipDigits_before {isDigit : Char → Bool} {behind : List Char} (stops : Stops behind)
    (others : isDigit ';' = false ∧ isDigit '\x7d' = false) (after : Bool) :
    skipDigits isDigit after (text ++ behind) = (skipDigits isDigit after text).map (· ++ behind) := by
  obtain ⟨c, more, rfl, closes⟩ := stops
  have other : isDigit c = false ∧ c ≠ '_' := by
    rcases closes with rfl | rfl
    · exact ⟨others.1, by decide⟩
    · exact ⟨others.2, by decide⟩
  induction text generalizing after with
  | nil => simp [skipDigits, other.1, other.2]
  | cons d text ih =>
      rw [List.cons_append, skipDigits.eq_def, skipDigits.eq_def _ _ (d :: text)]
      dsimp only
      split
      · exact ih true
      · split
        · cases text with
          | nil => simp [other.1]
          | cons e text =>
              rw [List.cons_append]
              dsimp only
              split
              · exact ih false
              · rfl
        · rfl

theorem skipSomeDigits_suffix {isDigit : Char → Bool} (skips : skipSomeDigits isDigit text = some rest) :
    rest <:+ text := by
  cases text with
  | nil => cases skips
  | cons c text =>
      unfold skipSomeDigits at skips
      dsimp only at skips
      split at skips
      · exact (skipDigits_suffix skips).trans (List.suffix_cons c text)
      · cases skips

theorem skipSomeDigits_before {isDigit : Char → Bool} {behind : List Char} (stops : Stops behind)
    (others : isDigit ';' = false ∧ isDigit '\x7d' = false) :
    skipSomeDigits isDigit (text ++ behind) = (skipSomeDigits isDigit text).map (· ++ behind) := by
  cases text with
  | nil =>
      obtain ⟨c, more, rfl, rfl | rfl⟩ := stops
      · simp [skipSomeDigits, others.1]
      · simp [skipSomeDigits, others.2]
  | cons d text =>
      simp only [List.cons_append, skipSomeDigits]
      split
      · exact skipDigits_before stops others true
      · rfl

/-- One reader behind certain characters, and another one in front of anything else. The readers of a number are chains
of such steps. -/
def readLed (test : Char → Bool) (f g : List Char → Option NumberEnd) (text : List Char) : Option NumberEnd :=
  if text.head?.any test then f text.tail else g text

theorem readLed_of_ne {f g : List Char → Option NumberEnd} {c : Char} (other : ∀ rest, text ≠ c :: rest) :
    readLed (· == c) f g text = g text := by
  refine if_neg fun leads => ?_
  cases text with
  | nil => cases leads
  | cons d text =>
      obtain rfl : d = c := eq_of_beq leads
      exact other text rfl

namespace ReadsNumber

variable {f g : List Char → Option NumberEnd} {isDigit : Char → Bool}

theorem ending (big : Bool) : ReadsNumber (endNumber big) where
  suffix {text found} read := by
    unfold endNumber at read
    split at read
    · split at read
      · cases read
      · exact Option.some.inj read ▸ List.suffix_refl _
    · exact Option.some.inj read ▸ List.suffix_refl _
  before {text behind} stops := by
    cases text with
    | nil =>
        obtain ⟨c, more, rfl, rfl | rfl⟩ := stops
        all_goals rfl
    | cons d text =>
        simp only [List.cons_append, endNumber]
        split
        all_goals rfl

theorem digits (reads : ReadsNumber f) (others : isDigit ';' = false ∧ isDigit '\x7d' = false) (after : Bool) :
    ReadsNumber fun text => skipDigits isDigit after text >>= f where
  suffix read := by
    obtain ⟨left, skips, read⟩ := Option.bind_eq_some_iff.mp read
    exact (reads.suffix read).trans (skipDigits_suffix skips)
  before {text behind} stops := by
    rw [skipDigits_before stops others]
    cases skipDigits isDigit after text with
    | none => rfl
    | some left => exact reads.before stops

theorem someDigits (reads : ReadsNumber f) (others : isDigit ';' = false ∧ isDigit '\x7d' = false) :
    ReadsNumber fun text => skipSomeDigits isDigit text >>= f where
  suffix read := by
    obtain ⟨left, skips, read⟩ := Option.bind_eq_some_iff.mp read
    exact (reads.suffix read).trans (skipSomeDigits_suffix skips)
  before {text behind} stops := by
    rw [skipSomeDigits_before stops others]
    cases skipSomeDigits isDigit text with
    | none => rfl
    | some left => exact reads.before stops

theorem led {test : Char → Bool} (stops : test ';' = false ∧ test '\x7d' = false) (reads : ReadsNumber f)
    (other : ReadsNumber g) : ReadsNumber (readLed test f g) where
  suffix {text found} read := by
    unfold readLed at read
    split at read
    · exact (reads.suffix read).trans (List.tail_suffix text)
    · exact other.suffix read
  before {text behind} stop := by
    unfold readLed
    rw [stop.head_any test text stops]
    split
    · rename_i leads
      cases text with
      | nil => cases leads
      | cons c text => exact reads.before stop
    · exact other.before stop

/-- The digits that an exponent has behind its sign. -/
theorem exponentDigits : ReadsNumber fun text => skipSomeDigits isDecimal text >>= endNumber false :=
  (ending false).someDigits (by decide)

theorem exponent : ReadsNumber readExponent := by
  have parts : readExponent = readLed (· == '+') (fun text => skipSomeDigits isDecimal text >>= endNumber false)
      (readLed (· == '-') (fun text => skipSomeDigits isDecimal text >>= endNumber false)
        fun text => skipSomeDigits isDecimal text >>= endNumber false) := by
    funext text
    unfold readExponent
    split
    · rfl
    · rfl
    · rename_i notPlus notMinus
      rw [readLed_of_ne notPlus, readLed_of_ne notMinus]
  rw [parts]
  exact exponentDigits.led (by decide) (exponentDigits.led (by decide) exponentDigits)

theorem afterFraction : ReadsNumber readAfterFraction := by
  have parts : readAfterFraction =
      readLed (· == 'e') readExponent (readLed (· == 'E') readExponent (endNumber false)) := by
    funext text
    unfold readAfterFraction
    split
    · rfl
    · rfl
    · rename_i notLower notUpper
      rw [readLed_of_ne notLower, readLed_of_ne notUpper]
  rw [parts]
  exact exponent.led (by decide) (exponent.led (by decide) (.ending false))

theorem fraction : ReadsNumber readFraction := by
  have parts : readFraction =
      readLed isDecimal (fun text => skipDigits isDecimal true text >>= readAfterFraction) readAfterFraction := by
    funext text
    cases text
    all_goals rfl
  have digits : ReadsNumber fun text => skipDigits isDecimal true text >>= readAfterFraction :=
    afterFraction.digits (by decide) true
  rw [parts]
  exact digits.led (by decide) afterFraction

theorem afterWhole : ReadsNumber readAfterWhole := by
  have parts : readAfterWhole =
      readLed (· == '.') readFraction (readLed (· == 'n') (endNumber true) readAfterFraction) := by
    funext text
    unfold readAfterWhole
    split
    · rfl
    · rfl
    · rename_i notPoint notBig
      rw [readLed_of_ne notPoint, readLed_of_ne notBig]
  have big : ReadsNumber (readLed (· == 'n') (endNumber true) readAfterFraction) :=
    (ending true).led (by decide) afterFraction
  rw [parts]
  exact fraction.led (by decide) big

theorem based {isDigit : Char → Bool} (others : isDigit ';' = false ∧ isDigit '\x7d' = false) :
    ReadsNumber (readBased isDigit) := by
  have parts : readBased isDigit = fun text => skipSomeDigits isDigit text >>=
      readLed (· == 'n') (endNumber true) (endNumber false) := by
    funext text
    unfold readBased
    cases skipSomeDigits isDigit text with
    | none => rfl
    | some left =>
        split
        · rename_i read
          obtain rfl := Option.some.inj read
          rfl
        · rename_i left' notBig read
          obtain rfl := Option.some.inj read
          exact (readLed_of_ne notBig).symm
        · rename_i read
          cases read
  have behind : ReadsNumber (readLed (· == 'n') (endNumber true) (endNumber false)) :=
    (ending true).led (by decide) (.ending false)
  rw [parts]
  exact behind.someDigits others

theorem legacy : ReadsNumber readLegacy := by
  have point : ReadsNumber (readLed (· == '.') readFraction (readLed (· == 'e') readExponent (endNumber false))) :=
    fraction.led (by decide) (exponent.led (by decide) (.ending false))
  have parts (text : List Char) : readLegacy text =
      if (text.takeWhile isDecimal).any ('8' ≤ ·) then
        readLed (· == '.') readFraction (readLed (· == 'e') readExponent (endNumber false)) (text.dropWhile isDecimal)
      else endNumber false (text.dropWhile isDecimal) := by
    unfold readLegacy
    dsimp only
    split
    · split
      · rename_i left
        rw [left]
        rfl
      · rename_i left
        rw [left]
        rfl
      · rename_i notPoint notExponent
        rw [readLed_of_ne notPoint, readLed_of_ne notExponent]
    · rfl
  constructor
  · intro text found read
    rw [parts] at read
    split at read
    · exact (point.suffix read).trans (List.dropWhile_suffix _)
    · exact ((ending false).suffix read).trans (List.dropWhile_suffix _)
  · intro text behind stops
    obtain ⟨taken, left⟩ := stops.spans isDecimal text (by decide)
    rw [parts, parts, taken, left]
    split
    · exact point.before stops
    · exact (ending false).before stops

/-- Behind a zero that no letter follows. -/
theorem afterZero :
    ReadsNumber fun text => if text.head?.any isDecimal then readLegacy text else readAfterWhole text where
  suffix {text found} read := by
    split at read
    · exact legacy.suffix read
    · exact afterWhole.suffix read
  before {text behind} stops := by
    rw [stops.head_any isDecimal text (by decide)]
    split
    · exact legacy.before stops
    · exact afterWhole.before stops

theorem zero : ReadsNumber readZero := by
  have parts : readZero =
      readLed (fun c => c == 'x' || c == 'X')
        (readBased fun d => isDecimal d || ('a' ≤ d && d ≤ 'f') || ('A' ≤ d && d ≤ 'F'))
        (readLed (fun c => c == 'b' || c == 'B') (readBased fun d => d == '0' || d == '1')
          (readLed (fun c => c == 'o' || c == 'O') (readBased fun d => '0' ≤ d && d ≤ '7')
            fun text => if text.head?.any isDecimal then readLegacy text else readAfterWhole text)) := by
    funext text
    cases text
    all_goals rfl
  rw [parts]
  exact (based (by decide)).led (by decide)
    ((based (by decide)).led (by decide) ((based (by decide)).led (by decide) afterZero))

theorem number : ReadsNumber readNumber := by
  have parts : readNumber = readLed (· == '0') readZero
      (readLed (· == '.') readFraction fun text => skipSomeDigits isDecimal text >>= readAfterWhole) := by
    funext text
    unfold readNumber
    split
    · rfl
    · rfl
    · rename_i notZero notPoint
      rw [readLed_of_ne notZero, readLed_of_ne notPoint]
  have digits : ReadsNumber fun text => skipSomeDigits isDecimal text >>= readAfterWhole :=
    afterWhole.someDigits (by decide)
  rw [parts]
  exact zero.led (by decide) (fraction.led (by decide) digits)

end ReadsNumber

/-- A number takes the character that it starts with. -/
theorem readNumber_front {c : Char} {found : NumberEnd} (read : readNumber (c :: text) = some found) :
    found.rest <:+ text := by
  unfold readNumber at read
  split at read
  · rename_i same
    obtain ⟨-, rfl⟩ := List.cons.inj same
    exact ReadsNumber.zero.suffix read
  · rename_i same
    obtain ⟨-, rfl⟩ := List.cons.inj same
    exact ReadsNumber.fraction.suffix read
  · obtain ⟨left, skips, read⟩ := Option.bind_eq_some_iff.mp read
    unfold skipSomeDigits at skips
    dsimp only at skips
    split at skips
    · exact (ReadsNumber.afterWhole.suffix read).trans (skipDigits_suffix skips)
    · cases skips

end Numbers

section Tokens

variable {c : Char}

/-- What a scanner finds in front of a text that is not empty. -/
structure Scanned.Formed (text : List Char) (found : Scanned) : Prop where
  suffix : found.rest <:+ text
  shorter : found.lexeme ≠ .malformed → found.rest.length < text.length
  stops : found.lexeme = .malformed → found.rest = []
  read : found.lexeme ≠ .ending
  mark : ∀ mark, found.lexeme = .mark mark → text = mark.toList ++ found.rest
  word : ∀ name, found.lexeme = .word name false → ∃ c more, text = c :: more ∧ isIdentifierPart c = true

namespace Scanned.Formed

theorem malformed (text : List Char) : Formed text ⟨.malformed, [], false⟩ where
  suffix := List.nil_suffix
  shorter := fun other => absurd rfl other
  stops := fun _ => rfl
  read := nofun
  mark := nofun
  word := nofun

/-- A lexeme that is neither a mark nor a plain word is known by where it ends. -/
theorem ofRest {found : Scanned} (suffix : found.rest <:+ text) (shorter : found.rest.length < text.length)
    (read : found.lexeme ≠ .ending ∧ found.lexeme ≠ .malformed) (other : ∀ mark, found.lexeme ≠ .mark mark)
    (plain : ∀ name, found.lexeme ≠ .word name false) : found.Formed text where
  suffix := suffix
  shorter := fun _ => shorter
  stops := fun broken => absurd broken read.2
  read := read.1
  mark := fun mark same => absurd same (other mark)
  word := fun name same => absurd same (plain name)

theorem ofWord (isName : isIdentifierStart c = true ∨ c = '\\') : (scanWord (c :: text)).Formed (c :: text) := by
  unfold scanWord
  dsimp only
  split
  · rename_i named
    obtain ⟨suffix, plain⟩ := readName_front isName (Bool.and_eq_true_iff.mp named).1
    exact {
      suffix := suffix.trans (List.suffix_cons c text)
      shorter := fun _ => Nat.lt_succ_of_le suffix.length_le
      stops := nofun
      read := nofun
      mark := nofun
      word := fun name same => ⟨c, text, rfl, plain (Lexeme.word.inj same).2⟩ }
  · exact malformed _

theorem ofPrivateName : (scanPrivateName text).Formed (c :: text) := by
  unfold scanPrivateName
  split
  · rename_i d text
    dsimp only
    split
    · have suffix := readName_suffix (d :: text)
      exact ofRest (suffix.trans (List.suffix_cons c _)) (Nat.lt_succ_of_le suffix.length_le) ⟨nofun, nofun⟩ nofun nofun
    · exact malformed _
  · exact malformed _

theorem ofQuoted (quote : Char) : (scanQuoted quote text).Formed (c :: text) := by
  unfold scanQuoted
  split
  · rename_i q rest read
    have suffix := readQuoted_suffix read
    exact ofRest (suffix.trans (List.suffix_cons c text)) (Nat.lt_succ_of_le suffix.length_le) ⟨nofun, nofun⟩ nofun
      nofun
  · exact malformed _

theorem ofTemplate : (scanTemplate text).Formed (c :: text) := by
  unfold scanTemplate
  split
  · rename_i piece read
    have suffix := readTemplate_suffix read
    exact ofRest (suffix.trans (List.suffix_cons c text)) (Nat.lt_succ_of_le suffix.length_le) ⟨nofun, nofun⟩ nofun
      nofun
  · exact malformed _

theorem ofNumber : (scanNumber (c :: text)).Formed (c :: text) := by
  unfold scanNumber
  split
  · rename_i found read
    have suffix := readNumber_front read
    have other : ∀ big : Bool, (if big then Lexeme.bigNumber else .number) ≠ .ending ∧
        (if big then Lexeme.bigNumber else .number) ≠ .malformed := by decide
    have notMark : ∀ (big : Bool) mark, (if big then Lexeme.bigNumber else .number) ≠ .mark mark := by
      intro big mark
      cases big
      all_goals nofun
    have notWord : ∀ (big : Bool) name, (if big then Lexeme.bigNumber else .number) ≠ .word name false := by
      intro big name
      cases big
      all_goals nofun
    exact ofRest (suffix.trans (List.suffix_cons c text)) (Nat.lt_succ_of_le suffix.length_le) (other _) (notMark _)
      (notWord _)
  · exact malformed _

theorem ofMark : (scanMark text).Formed text := by
  unfold scanMark
  split
  · rename_i mark rest found
    have spelled := readMark_spelled found
    have filled : ∀ mark ∈ marks, 0 < mark.toList.length := by decide
    have length : text.length = mark.toList.length + rest.length := by rw [spelled, List.length_append]
    have some_mark := filled mark (readMark_member found)
    exact {
      suffix := ⟨_, spelled.symm⟩
      shorter := fun _ => by
        dsimp only
        omega
      stops := nofun
      read := nofun
      mark := fun other same => Lexeme.mark.inj same ▸ spelled
      word := nofun }
  · exact malformed _

theorem ofScan (c : Char) (text : List Char) : (scan (c :: text)).Formed (c :: text) := by
  unfold scan
  dsimp only
  split
  · rename_i isName
    exact ofWord ((Bool.or_eq_true_iff.mp isName).imp id eq_of_beq)
  split
  · exact ofQuoted c
  split
  · exact ofTemplate
  split
  · exact ofNumber
  split
  · exact ofNumber
  split
  · exact ofPrivateName
  · exact ofMark

end Scanned.Formed

/-- What is known of each token, wherever it stands. -/
structure Token.Formed (token : Token) : Prop where
  suffix : token.rest <:+ token.start
  shorter : token.lexeme.isRead = true → token.rest.length < token.start.length
  stops : token.lexeme.isRead = false → token.rest = []
  mark : ∀ mark, token.lexeme = .mark mark → token.start = mark.toList ++ token.rest
  word : ∀ name, token.lexeme = .word name false → ∃ c more, token.start = c :: more ∧ isIdentifierPart c = true

/-- The token of a text with no space in front. -/
def Token.scanned (newLine : Bool) (text : List Char) : Token :=
  ⟨(scan text).lexeme, newLine, text, (scan text).rest, (scan text).flawed⟩

theorem nextToken_scanned (text : List Char) : nextToken text =
    if (skipSpace .plain false text).unclosed then ⟨.malformed, (skipSpace .plain false text).newLine, [], [], false⟩
    else .scanned (skipSpace .plain false text).newLine (skipSpace .plain false text).rest := rfl

theorem Token.Formed.scanned (newLine : Bool) (text : List Char) : (Token.scanned newLine text).Formed := by
  cases text with
  | nil => exact ⟨List.suffix_refl _, nofun, fun _ => rfl, nofun, nofun⟩
  | cons c text =>
      have formed := Scanned.Formed.ofScan c text
      refine ⟨formed.suffix, fun isRead => formed.shorter fun broken => ?_, fun unread => formed.stops ?_, formed.mark,
        formed.word⟩
      · have isRead : (scan (c :: text)).lexeme.isRead = true := isRead
        rw [broken] at isRead
        cases isRead
      · have unread : (scan (c :: text)).lexeme.isRead = false := unread
        have read := formed.read
        generalize (scan (c :: text)).lexeme = lexeme at unread read ⊢
        cases lexeme with
        | ending => exact absurd rfl read
        | malformed => rfl
        | _ => cases unread

theorem nextToken_formed (text : List Char) : (nextToken text).Formed ∧ (nextToken text).start <:+ text := by
  rw [nextToken_scanned]
  split
  · exact ⟨⟨List.nil_suffix, nofun, fun _ => rfl, nofun, nofun⟩, List.nil_suffix⟩
  · exact ⟨.scanned _ _, skipSpace_suffix .plain false text⟩

namespace Token.Formed

variable {token : Token}

theorem filled (formed : token.Formed) (isRead : token.lexeme.isRead = true) : token.start ≠ [] := by
  intro none
  have shorter := formed.shorter isRead
  rw [none] at shorter
  exact Nat.not_lt_zero _ shorter

theorem ofMark (mark : String) (spelled : token.start = mark.toList ++ rest) (filled : mark.toList ≠ []) :
    Formed { token with lexeme := .mark mark, rest } where
  suffix := ⟨_, spelled.symm⟩
  shorter := fun _ => by
    have length := List.length_pos_iff.mpr filled
    dsimp only
    rw [spelled, List.length_append]
    omega
  stops := nofun
  mark := fun other same => Lexeme.mark.inj same ▸ spelled
  word := nofun

theorem ofUnread :
    Formed { token with lexeme := .malformed, rest := [] } where
  suffix := List.nil_suffix
  shorter := nofun
  stops := fun _ => rfl
  mark := nofun
  word := nofun

theorem joinAngle (formed : token.Formed) : token.joinAngle.Formed := by
  unfold Token.joinAngle
  split
  · split
    · rename_i mark rest found
      have filled : ∀ mark ∈ [">>>=", ">>>", ">>=", ">>", ">="], mark.toList ≠ [] := by decide
      exact ofMark mark (firstMark_spelled found) (filled mark (firstMark_member found))
    · exact formed
  · exact formed

theorem splitAngle (formed : token.Formed) : token.splitAngle.Formed := by
  unfold Token.splitAngle
  split
  case h_4 => exact formed
  all_goals
    split
    · rename_i rest spelled
      exact ofMark "<" spelled (by decide)
    · exact formed

/-- A token of its own behind the first character. -/
theorem ofTail {lexeme : Lexeme} {flawed : Bool} (filled : token.start ≠ []) (suffix : rest <:+ token.start.tail)
    (read : lexeme.isRead = true) (other : (∀ mark, lexeme ≠ .mark mark) ∧ ∀ name, lexeme ≠ .word name false) :
    Formed { token with lexeme, rest, flawed } where
  suffix := suffix.trans (List.tail_suffix _)
  shorter := fun _ => by
    obtain ⟨c, more, spelled⟩ := List.exists_cons_of_ne_nil filled
    have length := suffix.length_le
    rw [spelled, List.tail_cons] at length
    dsimp only
    rw [spelled, List.length_cons]
    omega
  stops := fun unread => by
    rw [show Token.lexeme _ = lexeme from rfl, read] at unread
    cases unread
  mark := fun mark same => absurd same (other.1 mark)
  word := fun name same => absurd same (other.2 name)

theorem asPattern (filled : token.start ≠ []) : token.asPattern.Formed := by
  unfold Token.asPattern
  split
  · rename_i rest read
    exact ofTail filled ((List.dropWhile_suffix _).trans (readPatternBody_suffix read)) rfl ⟨nofun, nofun⟩
  · exact ofUnread

theorem asTemplate (filled : token.start ≠ []) : token.asTemplate.Formed := by
  unfold Token.asTemplate
  split
  · rename_i piece read
    exact ofTail filled (readTemplate_suffix read) rfl ⟨nofun, nofun⟩
  · exact ofUnread

end Token.Formed

end Tokens

end Realms.Script
