import Realms.Proofs.Script.Lockstep.Seam

/-!
A source and what is put behind it, read as the statements of a module.
-/
namespace Realms.Script

open Grammar Reading

variable {α : Type} {absent : List Char} {levels rounds : Nat} {s : Setting} {r next : Reader}

/-- What holds of a token in front of each item holds behind the last one, where no further item starts. -/
theorem repeatWhile_keeps {P : Token → Prop} {test : Reading Bool} {item : Reading α} {goes : Lexeme → Bool}
    {found : List α}
    (tests : ∀ r, test s r = some (goes r.token.lexeme, r))
    (each : ∀ {r next a}, P r.token → goes r.token.lexeme = true → item s r = some (a, next) → P next.token)
    (front : P r.token) (given : repeatWhile test item rounds s r = some (found, next)) :
    P next.token ∧ goes next.token.lexeme = false := by
  induction rounds generalizing r found with
  | zero => cases given
  | succ rounds ih =>
      rw [Lockstep.Agree.repeatWhile_step (tests r)] at given
      cases leads : goes r.token.lexeme with
      | false =>
          rw [leads] at given
          obtain ⟨-, rfl⟩ := Prod.mk.inj (Option.some.inj given)
          exact ⟨front, leads⟩
      | true =>
          rw [leads, if_pos rfl] at given
          obtain ⟨⟨a, between⟩, first, given⟩ := Option.bind_eq_some_iff.mp given
          obtain ⟨⟨more, last⟩, later, same⟩ := Option.map_eq_some_iff.mp given
          obtain ⟨-, rfl⟩ := Prod.mk.inj same
          exact ih (each front leads first) later

/-- What one of two outcomes gives that are the same. -/
theorem Outcomes.given {T : Token → Token → Prop} {P : α → Reader → Prop} {outcome : Option (α × Reader)} {a : α}
    (outcomes : Outcomes T P outcome outcome) (given : outcome = some (a, next)) :
    T next.token next.token ∧ P a next := by
  subst given
  cases outcomes with
  | gives beside holds => exact ⟨beside.token, holds⟩

namespace Lockstep

/-- A text in step with itself has no seam, so nothing goes astray in it. -/
theorem without_strays (absent : List Char) (p : Inner) : (without absent).Strays p where
  strayStatements astray := (astray.elim (fun ⟨_, never⟩ => never) id).elim
  strayCase astray := (astray.elim (fun ⟨_, never⟩ => never) id).elim
  strayCases astray := (astray.elim (fun ⟨_, never⟩ => never) id).elim
  driftAttributes astray := astray.elim
  driftContainer astray := astray.elim

theorem without_beside (front : r.token.Without absent) : Beside (without absent).near r r := ⟨⟨rfl, front⟩, rfl⟩

theorem without_within (absent : List Char) {k : Nat} (enough : 16 * k < levels) :
    (without absent).Within (upTo levels) (upTo levels) k 0 :=
  within (d := 0) (e := 0) (fun _ _ => without_strays absent _) enough

theorem without_either {t t' : Token} (either : (without absent).either t t') : t.Without absent :=
  either.elim And.right False.elim

end Lockstep

namespace Seam

open Lockstep

variable {seam : Seam}

/-- A reading that keeps within a text without certain characters keeps within what is put behind the source. -/
theorem Strays.ofOutcomes {k : Nat} {outcome : Option (α × Reader)} {a : α}
    (outcomes : Outcomes (Lockstep.without absent).either (below k) outcome outcome) (low : k ≤ seam.behind.length)
    (given : outcome = some (a, next)) : seam.Strays absent next.token := by
  obtain ⟨either, below⟩ := outcomes.given given
  exact ⟨without_either either, Nat.le_trans (Nat.le_of_lt below) low⟩

/-- What has gone astray, or is about to. -/
def Astray (seam : Seam) (token : Token) : Prop := (∃ other, seam.AtSeam other token) ∨ seam.Strays ['\x7d'] token

theorem Astray.lost {token : Token} (astray : seam.Astray token) {goes : Lexeme → Bool}
    (stops : goes token.lexeme = false) (leads : goes (.word "import" false) = true) : seam.Strays ['\x7d'] token := by
  refine astray.resolve_left ?_
  rintro ⟨other, -, rfl⟩
  rw [seam.opens.lexeme, leads] at stops
  cases stops

theorem Astray.statement {stmt : Stmt} (enough : 16 * seam.behind.length + 40 ≤ levels) (astray : seam.Astray r.token)
    (given : readAt levels (.statement false) s r = some (stmt, next)) : seam.Strays ['\x7d'] next.token := by
  rcases astray with ⟨other, -, front⟩ | strays
  · obtain ⟨stmt', reads⟩ := seam.imports (n := levels) (s := s) (by omega) front
    obtain ⟨-, rfl⟩ := Prod.mk.inj (Option.some.inj (reads.symm.trans given))
    exact .ofEnd (by simpa using seam.plain) seam.suffix
  · have room := strays.room
    have low : 16 * (r.left + 1) < levels := by
      unfold Reader.left
      omega
    have within := without_within ['\x7d'] low
    exact .ofOutcomes (within.statement false (s := s) (without_beside strays.without) (Nat.lt_succ_self _)) room given

theorem Astray.switchCase {a : Unit} (enough : 16 * seam.behind.length + 40 ≤ levels) (astray : seam.Astray r.token)
    (given : Grammar.switchCase (upTo levels) s r = some (a, next)) : seam.Strays ['\x7d'] next.token := by
  rcases astray with ⟨other, -, front⟩ | strays
  · have word : r.token.lexeme = .word "import" false := front ▸ seam.opens.lexeme
    have fails : Grammar.switchCase (upTo levels) s r = none := by
      simp [Grammar.switchCase, eatWord, takeWord, word, Lexeme.isWord]
    cases fails.symm.trans given
  · have room := strays.room
    have low : 16 * r.left < levels := by
      unfold Reader.left
      omega
    have within := without_within ['\x7d'] low
    rcases within.switchCase (s := s) (without_beside strays.without) (Nat.le_refl _) with same | ⟨-, never⟩
    · exact .ofOutcomes same room given
    · exact (never _ _ given).elim

theorem strays (enough : 16 * seam.behind.length + 40 ≤ levels) : seam.step.Strays (upTo levels) where
  strayStatements {s r next rounds found} astray given := by
    obtain ⟨astray, stops⟩ := repeatWhile_keeps (P := seam.Astray) (isInside_run s)
      (fun astray _ given => .inr (astray.statement enough given)) astray given
    exact astray.lost stops rfl
  strayCase {s r next rounds found} astray given := by
    obtain ⟨astray, stops⟩ := repeatWhile_keeps (P := seam.Astray) (Lockstep.Within.isCased_run s)
      (fun astray _ given => .inr (astray.statement enough given)) astray given
    exact astray.lost stops rfl
  strayCases {s r next rounds found} astray given := by
    obtain ⟨astray, stops⟩ := repeatWhile_keeps (P := seam.Astray) (isInside_run s)
      (fun astray _ given => .inr (astray.switchCase enough given)) astray given
    exact astray.lost stops rfl
  driftAttributes {s r next rounds found} adrift given := by
    refine (repeatWhile_keeps (P := seam.Strays ['<', '>']) (leadsAttribute_run s)
      (fun {r next a} strays _ given => ?_) adrift given).1
    have room := strays.room
    have low : 16 * r.left < levels := by
      unfold Reader.left
      omega
    have within := without_within ['<', '>'] low
    rcases within.elementAttribute (s := s) (without_beside strays.without) (Nat.le_refl _) with same | ⟨-, never⟩
    · exact .ofOutcomes same room given
    · exact (never _ _ given).elim
  driftContainer {s r next} adrift given := by
    have room := adrift.room
    have low : 16 * r.left < levels := by
      unfold Reader.left
      omega
    have within := without_within ['<', '>'] low
    obtain ⟨near, low⟩ := (within.container true (s := s) (without_beside adrift.without) (Nat.le_refl _)).given given
    exact ⟨near.2, Nat.le_trans (Nat.le_of_lt low.2) room⟩

section Passing

variable {n : Nat} {stmts : List Stmt} {last r' : Reader}

/-- The statements of the source are passed in front of what is put behind it, up to the seam. -/
theorem passes (passed : Passes n s r stmts last) (either : Beside seam.step.either r r')
    (enough : 16 * r.left + 62 ≤ n) :
    ∃ last', Passes (n + 16 * seam.behind.length) (s.grown (byteCount seam.behind)) r' stmts last' ∧
      Beside seam.step.either last last' := by
  induction passed generalizing r' with
  | none r => exact ⟨r', .none r', either⟩
  | @next r between last stmt more goesOn first later ih =>
      have near := either.near_of_ne goesOn
      have strays : ∀ levels, 16 * seam.behind.length + 40 ≤ levels → seam.step.Strays (upTo levels) :=
        fun _ enough => seam.strays enough
      have agree := Lockstep.statement (s := s) (m := n) strays near (by omega)
      unfold Lockstep.Agree at agree
      rw [first] at agree
      generalize second : readAt (n + 16 * seam.behind.length) (.statement false) (s.grown seam.step.more) r' = outcome
        at agree
      cases agree with
      | @gives _ _ between' either below =>
          have below : between.left < r.left := below
          obtain ⟨last', passed, ends⟩ := ih either (by omega)
          have goesOn' : r'.token.lexeme ≠ .ending := near.lexeme ▸ goesOn
          exact ⟨last', .next goesOn' second passed, ends⟩

/-- A reader at the end of the source is at the seam. -/
theorem ends (either : Beside seam.step.either r r') (ended : r.token.lexeme = .ending) :
    r' = r.goTo (seam.space ++ seam.behind) := by
  rcases either.cases with near | atSeam
  · have near : seam.Near r.token r'.token := near.token
    generalize r.token = token, r'.token = token' at near ended
    cases near with
    | inside _ _ isRead =>
        have ended : Lexeme.ending = _ := ended.symm
        rw [Token.before] at ended
        rw [← ended] at isRead
        cases isRead
    | last => cases ended
    | broken isBroken => cases isBroken.symm.trans ended
  · have token : seam.AtSeam r.token r'.token := atSeam.token
    rw [atSeam.noted, token.2]
    rfl

end Passing

end Seam

end Realms.Script

/-!
What an import that is put behind a source closes: nothing that may be open at the end of the source, so a source that
ends with a closed statement stands apart from it.
-/
namespace Realms.Script

open Realms.Text (isIdentifierName)

/-- The characters that could close what is open: a template, braces, an element or a comment. -/
def closingChars : List Char := ['\x60', '\x7b', '\x7d', '<', '>', '*']

theorem each_of_all {P : Char → Prop} [DecidablePred P] {text : List Char} (holds : text.all (decide <| P ·) = true) :
    ∀ c ∈ text, P c := by
  simpa using holds

/-- A text that holds nothing that could close what is open in front of it. -/
def Tame (text : List Char) : Prop := ∀ c ∈ text, c ∉ closingChars

instance (text : List Char) : Decidable (Tame text) := List.decidableBAll (· ∉ closingChars) text

variable {text front more : List Char} {c : Char}

namespace Tame

theorem nil : Tame [] := nofun

theorem cons (closes : c ∉ closingChars) (tame : Tame text) : Tame (c :: text) :=
  List.forall_mem_cons.mpr ⟨closes, tame⟩

theorem append (tame : Tame front) (behind : Tame text) : Tame (front ++ text) :=
  List.forall_mem_append.mpr ⟨tame, behind⟩

theorem of_subset (tame : Tame text) (subset : front ⊆ text) : Tame front := fun c member => tame c (subset member)

theorem identifier {name : String} (identifier : isIdentifierName name.toList = true) : Tame name.toList := by
  have never : ∀ c ∈ closingChars, Text.isIdentifierPart c = false := each_of_all (by decide)
  have parts : ∀ c ∈ name.toList, Text.isIdentifierPart c = true := by
    cases spelled : name.toList with
    | nil => nofun
    | cons c more =>
        simp only [spelled, isIdentifierName, Bool.and_eq_true] at identifier
        exact List.forall_mem_cons.mpr ⟨isIdentifierPart_of_start identifier.1, List.all_eq_true.mp identifier.2⟩
  exact fun c member closes => Bool.false_ne_true ((never c closes).symm.trans (parts c member))

theorem escapeChar (tame : c ∉ closingChars) : Tame (Json.escapeChar c) := by
  have hex : ∀ n < 16, Json.hexDigit n ∉ closingChars := by decide
  unfold Json.escapeChar
  split
  · decide
  split
  · decide
  split
  · decide
  split
  · decide
  split
  · decide
  split
  · decide
  split
  · decide
  split
  · rename_i control
    refine .cons (by decide) (.cons (by decide) (.cons (by decide) (.cons (by decide) (.cons ?_ (.cons ?_ .nil)))))
    · exact hex (c.toNat / 16) (by omega)
    · exact hex _ (Nat.mod_lt _ (by decide))
  · exact .cons tame .nil

theorem escaped (tame : Tame text) : Tame (text.flatMap Json.escapeChar) := by
  intro c member
  obtain ⟨d, within, found⟩ := List.mem_flatMap.mp member
  exact escapeChar (tame d within) c found

end Tame

/-- A text that ends no comment and closes no template, whatever stands in front of it. -/
structure Silent (text : List Char) : Prop where
  comment : skipSpace .blockComment true text = ⟨true, true, []⟩
  template : ∀ (mode : EscapeMode) (valid : Bool), readTemplate mode valid text = none

namespace Silent

theorem nil : Silent [] := ⟨rfl, fun _ _ => rfl⟩

theorem plainTemplate_more (tick : c ≠ '\x60') (valid : Bool) :
    ∃ mode valid', plainTemplate valid c = .more mode valid' := by
  unfold plainTemplate
  split
  · rename_i same
    exact absurd (eq_of_beq same) tick
  split
  · exact ⟨_, _, rfl⟩
  split
  all_goals exact ⟨_, _, rfl⟩

theorem templateStep_more (tick : c ≠ '\x60') (brace : c ≠ '\x7b') (mode : EscapeMode) (valid : Bool) :
    ∃ mode' valid', templateStep mode valid c = .more mode' valid' := by
  have plain := plainTemplate_more tick
  cases mode with
  | plain => exact plain valid
  | dollar =>
      rw [templateStep, if_neg (by simpa using brace)]
      exact plain valid
  | escape =>
      unfold templateStep
      dsimp only
      split
      · exact ⟨_, _, rfl⟩
      split
      · exact ⟨_, _, rfl⟩
      split
      all_goals exact ⟨_, _, rfl⟩
  | unicode =>
      rw [templateStep, if_neg (by simpa using brace)]
      split
      · exact ⟨_, _, rfl⟩
      · exact plain false
  | digits left value =>
      unfold templateStep
      dsimp only
      split
      · split
        all_goals exact ⟨_, _, rfl⟩
      · exact plain false
  | braced value =>
      unfold templateStep
      dsimp only
      split
      · exact ⟨_, _, rfl⟩
      split
      · exact ⟨_, _, rfl⟩
      · exact plain false
  | octal left value => exact plain _
  | carriage => exact plain valid

theorem template_cons (tick : c ≠ '\x60') (brace : c ≠ '\x7b') (silent : Silent text) (mode : EscapeMode)
    (valid : Bool) :
    readTemplate mode valid (c :: text) = none := by
  obtain ⟨mode', valid', step⟩ := templateStep_more tick brace mode valid
  rw [readTemplate, step]
  exact silent.template mode' valid'

theorem comment_cons (star : c ≠ '*') (silent : Silent text) : skipSpace .blockComment true (c :: text) =
    ⟨true, true, []⟩ := by
  rw [skipSpace]
  · exact silent.comment
  · exact fun rest same => absurd same star

theorem cons (other : c ∉ ['\x60', '\x7b', '*']) (silent : Silent text) : Silent (c :: text) := by
  simp only [List.mem_cons, List.not_mem_nil, or_false, not_or] at other
  exact ⟨silent.comment_cons other.2.2, silent.template_cons other.1 other.2.1⟩

theorem star (silent : Silent text) : Silent ('*' :: ' ' :: text) where
  comment := by
    rw [skipSpace]
    · exact silent.comment_cons (by decide)
    · exact fun rest _ same => nomatch (List.cons.inj same).1
  template := (silent.cons (c := ' ') (by decide)).template_cons (by decide) (by decide)

/-- No template goes on behind a blank as it does behind a dollar sign. -/
theorem brace (silent : Silent text) : Silent (' ' :: '\x7b' :: text) where
  comment := by
    have behind : Silent [] := nil
    rw [skipSpace, skipSpace]
    · exact silent.comment
    · exact fun rest same => nomatch same
    · exact fun rest same => nomatch same
  template mode valid := by
    have step : ∃ valid', templateStep mode valid ' ' = .more .plain valid' := by
      cases mode with
      | _ => exact ⟨_, rfl⟩
    obtain ⟨valid', step⟩ := step
    rw [readTemplate, step]
    exact silent.template .plain valid'

theorem append (others : ∀ c ∈ front, c ∉ ['\x60', '\x7b', '*']) (silent : Silent text) : Silent (front ++ text) := by
  induction front with
  | nil => exact silent
  | cons c front ih =>
      obtain ⟨other, others⟩ := List.forall_mem_cons.mp others
      exact (ih others).cons other

theorem ofTame (tame : Tame front) (silent : Silent text) : Silent (front ++ text) := by
  have within : ∀ c ∈ ['\x60', '\x7b', '*'], c ∈ closingChars := each_of_all (by decide)
  exact silent.append fun c member closes => tame c member (within c closes)

end Silent

/-- Space in front of a text that starts a new line, or of none. -/
theorem readQuoted_space {quote : Char} (isQuote : quote = '"' ∨ quote = '\x27') {space behind : List Char}
    (gaps : ∀ c ∈ space, isGap c = true) (lined : behind = [] ∨ '\n' ∈ space ∨ ∃ rest, behind = '\n' :: rest)
    (q : QuotedSoFar) : readQuoted quote .plain q (space ++ behind) = none := by
  induction space generalizing q with
  | nil =>
      rcases lined with rfl | member | ⟨rest, rfl⟩
      · rfl
      · cases member
      · rcases isQuote with rfl | rfl
        all_goals rfl
  | cons c space ih =>
      obtain ⟨gap, gaps⟩ := List.forall_mem_cons.mp gaps
      have notQuote : (c == quote) = false := by simpa using isGap_ne_quote isQuote gap
      have notEscape : (c == '\\') = false := beq_eq_false_iff_ne.mpr fun same => by
        subst same
        cases gap
      rw [List.cons_append, readQuoted, quotedStep, plainQuoted, notQuote, notEscape]
      simp only [Bool.false_eq_true, if_false]
      cases ends : c == '\n' || c == '\r' with
      | true => rfl
      | false =>
          simp only [Bool.false_eq_true, if_false]
          refine ih gaps (lined.imp id (Or.imp (fun member => ?_) id)) _
          refine (List.mem_cons.mp member).resolve_left fun same => ?_
          subst same
          cases ends

theorem readPatternBody_space {space behind : List Char} (gaps : ∀ c ∈ space, isGap c = true)
    (lined : behind = [] ∨ '\n' ∈ space ∨ ∃ rest, behind = '\n' :: rest) (inClass : Bool) :
    readPatternBody inClass (space ++ behind) = none := by
  induction space with
  | nil =>
      rcases lined with rfl | member | ⟨rest, rfl⟩
      · rfl
      · cases member
      · rfl
  | cons c space ih =>
      obtain ⟨gap, gaps⟩ := List.forall_mem_cons.mp gaps
      rw [List.cons_append, readPatternBody]
      · cases ends : isLineEnd c with
        | true => rfl
        | false =>
            have other : ∀ d ∈ ['/', '[', ']'], (c == d) = false := by
              intro d member
              refine beq_eq_false_iff_ne.mpr ?_
              rintro rfl
              simp only [List.mem_cons, List.not_mem_nil, or_false] at member
              rcases member with rfl | rfl | rfl
              all_goals cases gap
            simp only [Bool.false_eq_true, if_false, Bool.false_and, other _ List.mem_cons_self, other '[' (by decide),
              other ']' (by decide)]
            refine ih gaps (lined.imp id (Or.imp (fun member => ?_) id))
            refine (List.mem_cons.mp member).resolve_left fun same => ?_
            subst same
            cases ends
      · rintro d rest rfl
        cases gap

theorem quotedStep_stop {quote : Char} (isQuote : quote = '"' ∨ quote = '\x27') (closes : c = ';' ∨ c = '\x7d')
    (mode : EscapeMode) (q : QuotedSoFar) : ∃ found, quotedStep quote mode q c = .more .plain found := by
  rcases isQuote with rfl | rfl
  all_goals
    rcases closes with rfl | rfl
    all_goals
      cases mode with
      | _ => exact ⟨_, rfl⟩

/-- A text that is silent, behind a mark that ends a statement and the space behind it. -/
theorem Silent.quiet {mark : Char} {space behind : List Char} (closes : mark = ';' ∨ mark = '\x7d')
    (gaps : ∀ c ∈ space, isGap c = true) (lined : behind = [] ∨ '\n' ∈ space ∨ ∃ rest, behind = '\n' :: rest)
    (silent : Silent behind) : Quiet (mark :: (space ++ behind)) := by
  have tame : Tame space := by
    intro c member closing
    have never : ∀ c ∈ closingChars, isGap c = false := each_of_all (by decide)
    exact Bool.false_ne_true ((never c closing).symm.trans (gaps c member))
  have whole : Silent (mark :: (space ++ behind)) := by
    refine (Silent.ofTame tame silent).cons ?_
    rcases closes with rfl | rfl
    all_goals decide
  refine ⟨⟨mark, _, rfl, closes⟩, whole.comment, fun mode q isQuote => ?_, whole.template, fun inClass => ?_⟩
  · obtain ⟨found, step⟩ := quotedStep_stop isQuote closes mode q
    rw [readQuoted, step]
    exact readQuoted_space isQuote gaps lined found
  · have pattern := readPatternBody_space gaps lined inClass
    rcases closes with rfl | rfl
    all_goals exact pattern

section Imports

theorem skipSpace_gaps {space : List Char} (gaps : ∀ c ∈ space, isGap c = true) (newLine : Bool) (text : List Char) :
    skipSpace .plain newLine (space ++ text) = skipSpace .plain (newLine || space.any isLineEnd) text := by
  induction space generalizing newLine with
  | nil => rw [List.any_nil, Bool.or_false, List.nil_append]
  | cons c space ih =>
      obtain ⟨gap, gaps⟩ := List.forall_mem_cons.mp gaps
      rw [List.cons_append, skipSpace_gap gap, ih gaps, List.any_cons, Bool.or_assoc]

variable {imported bound specifier : String} {written space after : List Char}

/-- What stands in an import behind the brace that it opens. -/
def importTail (imported bound : String) (written : List Char) : List Char :=
  ' ' :: (imported.toList ++ ' ' :: ("as".toList ++ ' ' :: (bound.toList ++ ' ' :: '\x7d' :: ' ' ::
    ("from".toList ++ ' ' :: '"' :: (written ++ '"' :: [';'])))))

theorem importText_split (imported bound : String) (written after : List Char) :
    importText imported bound written ++ after =
      "import".toList ++ ' ' :: '\x7b' :: (importTail imported bound written ++ after) := by
  delta importText importTail
  rw [List.append_assoc]
  rfl

theorem importTail_plain (identifier : isIdentifierName imported.toList = true)
    (bindable : isIdentifierName bound.toList = true) (tame : Tame written) :
    ∀ c ∈ importTail imported bound written, c ∉ ['\x60', '\x7b', '*', '<', '>'] := by
  have plain {text : List Char} (tame : Tame text) : ∀ c ∈ text, c ∉ ['\x60', '\x7b', '*', '<', '>'] := by
    have within : ∀ c ∈ ['\x60', '\x7b', '*', '<', '>'], c ∈ closingChars := each_of_all (by decide)
    exact fun c member closes => tame c member (within c closes)
  delta importTail
  simp only [List.forall_mem_append, List.forall_mem_cons]
  refine ⟨by decide, plain (.identifier identifier), by decide, each_of_all (by decide), by decide,
    plain (.identifier bindable), by decide, by decide, by decide, each_of_all (by decide), by decide, by decide,
    plain tame, by decide, by decide, nofun⟩

/-- An import behind space with a line end in it is the first on its line. -/
theorem importText_opens (gaps : ∀ c ∈ space, isGap c = true) (lined : '\n' ∈ space) :
    (nextToken (space ++ (importText imported bound written ++ after))).OpensImport ∧
      (nextToken (space ++ (importText imported bound written ++ after))).start =
        importText imported bound written ++ after := by
  rw [importText_split]
  generalize importTail imported bound written ++ after = more
  have word : Starts ("import".toList ++ ' ' :: '\x7b' :: more) (.word "import" false) (' ' :: '\x7b' :: more) :=
    starts_name (by decide) rfl
  obtain ⟨newLine, start, next⟩ := (word.after (.gaps gaps)).nextToken_eq
  have brace : Starts (' ' :: '\x7b' :: more) (.mark "\x7b") more := (starts_mark (by decide) more).after .blank
  obtain ⟨_, _, nextBrace⟩ := brace.nextToken_eq
  have ended : space.any isLineEnd = true := List.any_eq_true.mpr ⟨'\n', lined, rfl⟩
  have first : (nextToken (space ++ ("import".toList ++ ' ' :: '\x7b' :: more))).newLine = true := by
    have skipped := skipSpace_gaps gaps false ("import".toList ++ ' ' :: '\x7b' :: more)
    rw [ended] at skipped
    rw [nextToken_scanned, skipped]
    rfl
  have start : (nextToken (space ++ ("import".toList ++ ' ' :: '\x7b' :: more))).start =
      "import".toList ++ ' ' :: '\x7b' :: more := nextToken_start (.gaps gaps) (c := 'i') rfl _
  refine ⟨⟨?_, first, ?_, ?_⟩, start⟩
  · rw [next]
  · rw [next, nextBrace]
  · rw [next]
    rfl

/-- What stands behind the import: it closes nothing, no comment and no template. -/
structure Trails (after : List Char) : Prop where
  silent : Silent after
  flat : ∀ c ∈ ['<', '>', '\x7d'], c ∉ after

theorem importText_silent (identifier : isIdentifierName imported.toList = true)
    (bindable : isIdentifierName bound.toList = true) (tame : Tame written) (silent : Silent after) :
    Silent (importText imported bound written ++ after) := by
  have within : ∀ c ∈ ['\x60', '\x7b', '*'], c ∈ ['\x60', '\x7b', '*', '<', '>'] := each_of_all (by decide)
  have tail : Silent (importTail imported bound written ++ after) :=
    silent.append fun c member closes => importTail_plain identifier bindable tame c member (within c closes)
  rw [importText_split]
  exact tail.brace.append (each_of_all (by decide))

theorem importText_flat (identifier : isIdentifierName imported.toList = true)
    (bindable : isIdentifierName bound.toList = true) (tame : Tame written) (flat : ∀ c ∈ ['<', '>'], c ∉ after) :
    ∀ c ∈ ['<', '>'], c ∉ importText imported bound written ++ after := by
  have within : ∀ c ∈ ['<', '>'], c ∈ ['\x60', '\x7b', '*', '<', '>'] := each_of_all (by decide)
  have word : ∀ c ∈ "import".toList ++ [' ', '\x7b'], c ∉ ['<', '>'] := each_of_all (by decide)
  intro c angle member
  have spelled : c ∈ ("import".toList ++ [' ', '\x7b']) ++ (importTail imported bound written ++ after) := by
    rw [importText_split] at member
    simpa using member
  rcases List.mem_append.mp spelled with front | member
  · exact word c front angle
  rcases List.mem_append.mp member with tail | behind
  · exact importTail_plain identifier bindable tame c tail (within c angle)
  · exact flat c angle behind

theorem lined_space {ends : List Char} (gaps : ∀ c ∈ space, isGap c = true)
    (lined : ends = [] ∧ '\n' ∈ space ∨ ends = ['\n']) :
    (∀ c ∈ space ++ ends, isGap c = true) ∧ '\n' ∈ space ++ ends := by
  rcases lined with ⟨rfl, member⟩ | rfl
  · rw [List.append_nil]
    exact ⟨gaps, member⟩
  · exact ⟨List.forall_mem_append.mpr ⟨gaps, each_of_all (by decide)⟩, List.mem_append_right _ List.mem_cons_self⟩

/-- The seam of a source that ends with a closed statement, in front of an import and what trails it. -/
def Seam.ofImport {mark : Char} {space ends : List Char} (closes : mark = ';' ∨ mark = '\x7d')
    (gaps : ∀ c ∈ space, isGap c = true) (lined : ends = [] ∧ '\n' ∈ space ∨ ends = ['\n'])
    (identifier : isIdentifierName imported.toList = true) (notType : imported ≠ "type") (bindable : IsBindable bound)
    (quotes : Quotes written specifier) (tame : Tame written) (trails : Trails after) : Seam where
  mark
  space
  behind := ends ++ (importText imported bound written ++ after)
  after
  closes
  gaps
  lined := by
    rcases lined with ⟨rfl, member⟩ | rfl
    · exact .inl member
    · exact .inr ⟨_, rfl⟩
  quiet := by
    have quiet := Silent.nil.quiet closes gaps (.inl rfl)
    rwa [List.append_nil] at quiet
  quietBehind := by
    have silent := importText_silent identifier bindable.identifier tame trails.silent
    rcases lined with ⟨rfl, member⟩ | rfl
    · exact silent.quiet closes gaps (.inr (.inl member))
    · exact (silent.cons (by decide)).quiet closes gaps (.inr (.inr ⟨_, rfl⟩))
  flat := by
    have flat := importText_flat identifier bindable.identifier tame fun c angle => trails.flat c (by
      have within : ∀ c ∈ ['<', '>'], c ∈ ['<', '>', '\x7d'] := each_of_all (by decide)
      exact within c angle)
    rcases lined with ⟨rfl, -⟩ | rfl
    · exact flat
    · intro c angle member
      rcases List.mem_cons.mp member with rfl | member
      · cases (by decide : '\n' ∉ ['<', '>']) angle
      · exact flat c angle member
  opens := by
    obtain ⟨gaps, member⟩ := lined_space gaps lined
    rw [← List.append_assoc]
    exact (importText_opens gaps member).1
  starts := by
    obtain ⟨gaps, member⟩ := lined_space gaps lined
    rw [← List.append_assoc, (importText_opens gaps member).2]
    exact List.suffix_append _ _
  suffix := (List.suffix_append _ _).trans (List.suffix_append _ _)
  plain := trails.flat '\x7d' (by decide)
  imports := by
    intro n s r deep front
    rw [← List.append_assoc] at front
    have here : r.goTo (space ++ ends ++ (importText imported bound written ++ after)) = r := by
      rw [Reader.goTo, ← front]
    have reads := import_reads (n := n) (s := s) (r := r) identifier notType bindable quotes
      (.gaps (lined_space gaps lined).1) deep after
    rw [here] at reads
    exact ⟨_, reads⟩

end Imports

end Realms.Script
