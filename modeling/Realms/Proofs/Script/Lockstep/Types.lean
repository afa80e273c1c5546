import Realms.Proofs.Script.Lockstep.Basic
import Realms.Script.Grammar.Statements

/-!
Parameters and types, read in step.
-/
namespace Realms.Script

open Grammar Reading

/-- How far a part of the grammar is above those that it may start with. -/
def Goal.rank : Goal → Nat
  | .element | .pattern | .typeOperand => 0
  | .operand | .callee | .type => 1
  | .unary => 2
  | .binary _ => 3
  | .assignment _ => 4
  | .statement _ => 5

/-- Whether a part of the grammar is a part of a statement. -/
def Goal.isInner : Goal → Bool
  | .statement _ => false
  | _ => true

/-- How the second text is read where nothing in the first one answers to it: what has gone astray stays so. -/
structure Lockstep.Strays (K : Lockstep) (p' : Inner) : Prop where
  strayStatements : ∀ {s : Setting} {r next : Reader} {rounds : Nat} {found : List Stmt},
    (∃ token, K.seam token r.token) ∨ K.lost r.token →
      repeatWhile (do return !(← isMark "\x7d") && !(← isEnding)) (p'.read (.statement false)) rounds s r =
        some (found, next) → K.lost next.token
  strayCase : ∀ {s : Setting} {r next : Reader} {rounds : Nat} {found : List Stmt},
    (∃ token, K.seam token r.token) ∨ K.lost r.token →
      repeatWhile (do return !(← isMark "\x7d") && !(← isEnding) && !(← isWord "case") && !(← isWord "default"))
        (p'.read (.statement false)) rounds s r = some (found, next) → K.lost next.token
  strayCases : ∀ {s : Setting} {r next : Reader} {rounds : Nat} {found : List Unit},
    (∃ token, K.seam token r.token) ∨ K.lost r.token →
      repeatWhile (do return !(← isMark "\x7d") && !(← isEnding)) (switchCase p') rounds s r = some (found, next) →
        K.lost next.token
  driftAttributes : ∀ {s : Setting} {r next : Reader} {rounds : Nat} {found : List Unit}, K.adrift r.token →
    repeatWhile (do return (← isMark "\x7b") || (← isAnyWord)) (elementAttribute p') rounds s r = some (found, next) →
      K.adrift next.token
  driftContainer : ∀ {s : Setting} {r next : Reader}, K.adrift r.token → container p' true s r = some ((), next) →
    K.adrift next.token

/-- The parts of the grammar are read in step where less than some of the text is left, and those of a lower rank where
just as much is left. -/
structure Lockstep.Within (K : Lockstep) (p p' : Inner) (k c : Nat) : Prop extends K.Strays p' where
  rounds : k < p.rounds
  more : p.rounds ≤ p'.rounds
  reads : ∀ (goal : Goal) {s : Setting} {r r' : Reader}, Beside K.either r r' → goal.isInner = true →
    r.left < k ∨ r.left = k ∧ goal.rank < c →
      K.Agree K.either (below r.left) (p.read goal) (p'.read goal) s r r'
  statement : ∀ (alone : Bool) {s : Setting} {r r' : Reader}, Beside K.near r r' → r.left < k →
    K.Agree K.either (below r.left) (p.read (.statement alone)) (p'.read (.statement alone)) s r r'
  element : ∀ {s : Setting} {r r' : Reader}, Beside K.either r r' → r.left < k ∨ r.left = k ∧ 0 < c →
    K.Agree K.near (fun _ next => next.token.lexeme = .mark ">" ∧ next.left < r.left) (p.read .element)
      (p'.read .element) s r r'

variable {α : Type} {K : Lockstep} {p p' : Inner} {k c : Nat} {s : Setting} {r r' : Reader}

namespace Lockstep.Within

theorem mono {j : Nat} (within : K.Within p p' k c) (le : j ≤ k) : K.Within p p' j c :=
  { within with
    rounds := Nat.lt_of_le_of_lt le within.rounds
    reads := fun goal _ _ _ either inner low => within.reads goal either inner (by omega)
    statement := fun alone _ _ _ near low => within.statement alone near (Nat.lt_of_lt_of_le low le)
    element := fun either low => within.element either (by omega) }

theorem read (within : K.Within p p' k c) (goal : Goal) (inner : goal.isInner = true)
    (either : Beside K.either r r') (low : r.left < k) :
    K.Agree K.either (below k) (p.read goal) (p'.read goal) s r r' :=
  (within.reads goal either inner (.inl low)).mono (Nat.le_of_lt low)

theorem readLower (within : K.Within p p' k c) (goal : Goal) (inner : goal.isInner = true)
    (either : Beside K.either r r') (low : r.left ≤ k) (lower : goal.rank < c) :
    K.Agree K.either (below k) (p.read goal) (p'.read goal) s r r' :=
  (within.reads goal either inner (by omega)).mono low

end Lockstep.Within

theorem Token.joinAngle_start (token : Token) : token.joinAngle.start = token.start := by
  unfold joinAngle
  split
  · split
    · rfl
    · rfl
  · rfl

theorem Token.splitAngle_start (token : Token) : token.splitAngle.start = token.start := by
  unfold splitAngle
  repeat' split
  all_goals rfl

theorem Token.asPattern_start (token : Token) : token.asPattern.start = token.start := by
  unfold asPattern
  split
  all_goals rfl

theorem Token.asTemplate_start (token : Token) : token.asTemplate.start = token.start := by
  unfold asTemplate
  split
  all_goals rfl

/-- No member of a type is an import with a brace behind it. -/
theorem typeMember_import {p : Inner} {s : Setting} {r : Reader} (opens : r.token.OpensImport) :
    typeMember p s r = none := by
  have word : r.token.lexeme = .word "import" false := opens.lexeme
  have brace : r.next.token.lexeme = .mark "\x7b" := opens.brace
  have onLine : r.next.token.newLine = false := opens.onLine
  have notMark (mark : String) (other : ("\x7b" == mark) = false) : (r.next.token.lexeme == .mark mark) = false := by
    rw [brace]
    exact beq_eq_false_iff_ne.mpr fun same => beq_eq_false_iff_ne.mp other (Lexeme.mark.inj same)
  have leads (word : String) (other : ("import" == word) = false) : leadsTypeMember word s r = some (false, r) := by
    simp [leadsTypeMember, opens.lexeme, Lexeme.isWord, other]
  have noNew : takeWord "new" s r = none := by simp [takeWord, word, Lexeme.isWord]
  have index : indexSignature p s r = none := by simp [indexSignature, takeMark_run, word]
  have keyed : keyedTypeMember p s r = some ((), r.next) := by
    have untyped : p.annotation s r.next = some ((), r.next) := by
      unfold Inner.annotation
      cases types : s.types
      all_goals simp [types, eatMark_other (notMark ":" rfl)]
    simp [keyedTypeMember, key, word, brace, anyWord, skipName, eatMark_other (notMark "?" rfl), Lexeme.isOneOf,
      untyped]
  have fails : endTypeMember s r.next = none := by
    simp [endTypeMember, eatMark_other (notMark "," rfl), endStatement, canEnd, onLine, brace]
  simp [typeMember, word, Lexeme.isOneOf, noNew, leads "readonly" rfl, leads "get" rfl, leads "set" rfl, attempt, index,
    keyed, fails]

/-- A lexeme that stands inside of braces. -/
def Lexeme.isInside (lexeme : Lexeme) : Bool := !(lexeme == .mark "\x7d") && !(lexeme == .ending)

theorem isInside_run (s : Setting) (r : Reader) :
    (do return !(← isMark "\x7d") && !(← isEnding) : Reading Bool) s r = some (r.token.lexeme.isInside, r) := rfl

namespace Lockstep

section Retakes

variable {S T T' : Token → Token → Prop} {Q : α → Reader → Prop} {f f' : Unit → Reading α}

theorem Agree.retake {change : Token → Token} (taken : T (change r.token) (change r'.token)) (beside : Beside S r r')
    (later : Beside T { r with token := change r.token } { r' with token := change r'.token } →
      K.Agree T' Q (f ()) (f' ()) s { r with token := change r.token } { r' with token := change r'.token }) :
    K.Agree T' Q (Reading.retake change >>= f) (Reading.retake change >>= f') s r r' := by
  rw [Agree, bind_run, bind_run]
  exact later (beside.retake taken)

theorem either_joinAngle (either : Beside K.either r r') : K.either r.token.joinAngle r'.token.joinAngle := by
  rcases either.cases with near | seam
  · exact .inl (K.joinAngle near.token)
  · have here : r.token.joinAngle = r.token := by rw [Token.joinAngle, seam.ending]
    have there : r'.token.joinAngle = r'.token := by rw [Token.joinAngle, seam.opensImport.lexeme]
    rw [here, there]
    exact .inr seam.token

theorem either_splitAngle (either : Beside K.either r r') : K.either r.token.splitAngle r'.token.splitAngle := by
  rcases either.cases with near | seam
  · exact .inl (K.splitAngle near.token)
  · have here : r.token.splitAngle = r.token := by rw [Token.splitAngle, seam.ending]
    have there : r'.token.splitAngle = r'.token := by rw [Token.splitAngle, seam.opensImport.lexeme]
    rw [here, there]
    exact .inr seam.token

end Retakes

namespace Within

theorem expression (within : K.Within p p' k c) (either : Beside K.either r r') (low : r.left < k) :
    K.Agree K.either (below k) p.expression p'.expression s r r' := within.read (.assignment true) rfl either low

theorem type (within : K.Within p p' k c) (either : Beside K.either r r') (low : r.left < k) :
    K.Agree K.either (below k) p.type p'.type s r r' := within.read .type rfl either low

theorem pattern (within : K.Within p p' k c) (either : Beside K.either r r') (low : r.left < k) :
    K.Agree K.either (below k) (p.read .pattern) (p'.read .pattern) s r r' := within.read .pattern rfl either low

/-- Expressions behind one that was read. -/
theorem sequenceFrom (within : K.Within p p' k c)
    (first : K.Agree K.either (below k) p.expression p'.expression s r r') :
    K.Agree K.either (below k) p.sequence p'.sequence s r r' := by
  refine first.bind fun value r₁ r₁' either low => ?_
  refine .isMark either (.ite (fun _ => ?_) fun _ => .pure either low)
  refine (Agree.repeatMarked "," rfl
    (fun lt near low => (within.mono (Nat.le_of_lt lt)).expression near.either low) either low
    (Nat.lt_trans low within.rounds) within.more).bind fun more r₂ r₂' either low => ?_
  exact .pure either low

theorem sequence (within : K.Within p p' k c) (either : Beside K.either r r') (low : r.left < k) :
    K.Agree K.either (below k) p.sequence p'.sequence s r r' := within.sequenceFrom (within.expression either low)

theorem typeArgumentsNear (within : K.Within p p' k c) (either : Beside K.either r r') (low : r.left ≤ k) :
    K.Agree K.near (below k) p.typeArguments p'.typeArguments s r r' := by
  refine .retake (either_splitAngle either) either fun either => ?_
  have low : ({ r with token := r.token.splitAngle } : Reader).left ≤ k := by
    rw [Reader.left, Token.splitAngle_start]
    exact low
  refine (Agree.takeMark "<" rfl either low).bind fun _ r₁ r₁' near low => ?_
  refine (Agree.separated (fun le near low => (within.mono le).type near.either low) near low
    (Nat.lt_trans low within.rounds) within.more).bind fun (items, _) r₂ r₂' either low => ?_
  refine (Agree.need either).bind fun _ r₃ r₃' either ⟨_, same⟩ => ?_
  exact Agree.takeMark ">" rfl either (same ▸ low.le)

theorem typeArguments (within : K.Within p p' k c) (either : Beside K.either r r') (low : r.left < k) :
    K.Agree K.either (below k) p.typeArguments p'.typeArguments s r r' :=
  (within.typeArgumentsNear either (Nat.le_of_lt low)).either

theorem annotated (within : K.Within p p' k c) (either : Beside K.either r r') (low : r.left < k) :
    K.Agree K.either (below k) p.annotation p'.annotation s r r' := by
  refine .typed (.ite (fun _ => ?_) fun _ => .pure either low)
  refine .eatMark ":" rfl either (Nat.le_of_lt low) (fun _ r₁ r₁' near low => ?_) fun _ => .pure either low
  exact within.type near.either low

theorem key (within : K.Within p p' k c) (near : Beside K.near r r') (low : r.left ≤ k) :
    K.Agree K.near (below k) (key p) (key p') s r r' := by
  refine .lexeme near ?_
  split
  · rename_i front
    exact (Agree.advance near.either (front ▸ rfl) low).bind fun _ _ _ near low => .pure near low
  · rename_i front
    exact (Agree.advance near.either (front ▸ rfl) low).bind fun _ _ _ near low => .pure near low
  · rename_i front
    exact (Agree.advance near.either (front ▸ rfl) low).bind fun _ _ _ near low => .pure near low
  · rename_i front
    exact (Agree.advance near.either (front ▸ rfl) low).bind fun _ _ _ near low => .pure near low
  · rename_i front
    refine (Agree.advance near.either (front ▸ rfl) low).bind fun _ r₁ r₁' near low => ?_
    refine (Agree.under (by rfl) (within.expression near.either low)).bind fun value r₂ r₂' either low => ?_
    exact (Agree.takeMark "]" rfl either low.le).bind fun _ r₃ r₃' near low => .pure near low
  · exact (Agree.anyWord near low).bind fun _ _ _ near low => .pure near low

section Parameters

theorem decoratorsHere (within : K.Within p p' k c) (either : Beside K.either r r') (low : r.left ≤ k) :
    K.Agree K.either (fun _ next => next.left ≤ r.left) (decorators p) (decorators p') s r r' := by
  have each {j : Nat} {s : Setting} {r₁ r₁' : Reader} (lt : j < r.left + 1) (near : Beside K.near r₁ r₁')
      (below_j : r₁.left < j) : K.Agree K.either (below j) (p.read .operand) (p'.read .operand) s r₁ r₁' :=
    (within.mono (Nat.le_trans (Nat.le_of_lt_succ lt) low)).read .operand rfl near.either below_j
  refine (Agree.repeatMarked "@" rfl (fun lt near low => .under (by rfl) (each lt near low)) either (Nat.lt_succ_self _)
    (Nat.lt_of_le_of_lt low within.rounds) within.more).bind fun found r₁ r₁' either low => ?_
  exact .pure either (Nat.le_of_lt_succ low)

theorem decorators (within : K.Within p p' k c) (either : Beside K.either r r') (low : r.left < k) :
    K.Agree K.either (below k) (decorators p) (decorators p') s r r' :=
  (within.decoratorsHere either (Nat.le_of_lt low)).imp (fun _ _ => id) fun _ _ le => Nat.lt_of_le_of_lt le low

theorem typeParameter (within : K.Within p p' k c) (either : Beside K.either r r') (low : r.left < k) :
    K.Agree K.either (below k) (typeParameter p) (typeParameter p') s r r' := by
  refine (Agree.repeatLed (fun r => r.token.lexeme.goesOn = true) (fun {r r'} either => ?_)
    (fun _ either goes low => (Agree.advance either goes low).either) either low (Nat.lt_trans low within.rounds)
    within.more).bind fun found r₁ r₁' either low => ?_
  · refine .of_agree either
      (.isWord "const" rfl either (.isWord "in" rfl either (.ite (fun word => ?_) fun _ =>
        .isWord "out" rfl either (.ite (fun out => ?_) fun _ => .pure either.here ⟨nofun, rfl⟩))))
    · have goes : r.token.lexeme.goesOn = true := by
        rcases Bool.or_eq_true_iff.mp word with isConst | isIn
        · exact Lexeme.goesOn_of_isWord isConst
        · exact Lexeme.goesOn_of_isWord isIn
      exact .pure either.here ⟨fun _ => goes, rfl⟩
    · have goes := Lexeme.goesOn_of_isWord out
      have look : K.Look (fun _ => True) (Reading.ahead (do Reading.advance; Reading.isBindingWord))
          (Reading.ahead (do Reading.advance; Reading.isBindingWord)) s r r' :=
        (Agree.ahead ((Agree.advance either goes (Nat.le_refl _)).bind fun _ _ _ near _ =>
          (Look.isBindingWord near.either).sees near)).imp fun _ _ => trivial
      exact (look.agree either.here).imp (fun _ _ => id) fun _ _ holds => ⟨fun _ => goes, holds.2⟩
  · refine (Agree.bindingName either low.le).bind fun _ r₂ r₂' near low => ?_
    have initial {r r' : Reader} (either : Beside K.either r r') (low : r.left < k) :
        K.Agree K.either (below k) (do if ← Reading.eatMark "=" then p.type) (do if ← Reading.eatMark "=" then p'.type)
          s r r' :=
      .eatMark "=" rfl either (Nat.le_of_lt low)
        (fun _ _ _ near low => within.type near.either low) fun _ => .pure either low
    refine .eatWord "extends" rfl near.either low.le (fun r₃ r₃' near low => ?_) (initial near.either low)
    exact (within.type near.either low).bind fun _ _ _ either low => initial either low

theorem leadsParameter (either : Beside K.either r r') :
    K.Look (leading r) leadsParameter leadsParameter s r r' := by
  refine .ahead (.lexemeAt (T := K.either) either (fun near => ?_) fun _ => ?_)
  · split
    · rename_i name escaped front
      have goes : r.token.lexeme.goesOn = true := front ▸ rfl
      refine .ite (fun _ => ?_) fun _ => .pure either nofun
      refine (Agree.advance either goes (Nat.le_refl _)).bind fun _ r₁ r₁' near _ => .newLine near ?_
      refine .ite
        (fun _ => .pure near.either nofun) fun _ => .isBindingWord near.either (.isWord "this" rfl near.either ?_)
      refine .ite (fun _ => .pure near.either fun _ => goes) fun _ => ?_
      exact ((Look.isOneOf near.either).sees near.either).imp (fun _ _ => id) fun _ _ _ _ => goes
    · exact .pure either nofun
  · have other : reachWords.contains "import" = false := by decide
    simp only [other]
    exact .pure either nofun

theorem wordsLedHere (within : K.Within p p' k c) {test : Reading Bool}
    (tests : ∀ {s r r'}, Beside K.either r r' → K.Look (leading r) test test s r r') (either : Beside K.either r r')
    (low : r.left ≤ k) :
    K.Agree K.either (fun _ next => next.left ≤ r.left) (repeatWhile test languageWord p.rounds)
      (repeatWhile test languageWord p'.rounds) s r r' :=
  (Agree.repeatLed _ tests (fun _ either goes low => (Agree.languageWord
    (either.near_of_ne (Lexeme.ne_ending_of_isRead (Lexeme.isRead_of_goesOn goes))) low).either) either
    (Nat.lt_succ_self _) (Nat.lt_of_le_of_lt low within.rounds) within.more).imp (fun _ _ => id)
      fun _ _ => Nat.le_of_lt_succ

theorem wordsLed (within : K.Within p p' k c) {test : Reading Bool}
    (tests : ∀ {s r r'}, Beside K.either r r' → K.Look (leading r) test test s r r') (either : Beside K.either r r')
    (low : r.left < k) :
    K.Agree K.either (below k) (repeatWhile test languageWord p.rounds) (repeatWhile test languageWord p'.rounds) s r
      r' :=
  (within.wordsLedHere tests either (Nat.le_of_lt low)).imp (fun _ _ => id) fun _ _ le => Nat.lt_of_le_of_lt le low

/-- A value that may stand behind a pattern. -/
theorem initial (within : K.Within p p' k c) {β : Type} {found : Expr → β} {alone : β} (either : Beside K.either r r')
    (low : r.left < k) :
    K.Agree K.either (below k)
      (do if ← Reading.eatMark "=" then return found (← under (fun s => { s with inOperator := true }) p.expression)
          else return alone)
      (do if ← Reading.eatMark "=" then return found (← under (fun s => { s with inOperator := true }) p'.expression)
          else return alone) s r r' := by
  refine .eatMark "=" rfl either (Nat.le_of_lt low) (fun _ r₁ r₁' near low => ?_) fun _ => .pure either low
  exact (Agree.under (by rfl) (within.expression near.either low)).bind fun _ _ _ either low => .pure either low

theorem parameter (within : K.Within p p' k c) (ofConstructor : Bool) (either : Beside K.either r r')
    (low : r.left < k) :
    K.Agree K.either (below k) (parameter p ofConstructor) (parameter p' ofConstructor) s r r' := by
  refine (within.decorators either low).bind fun _ r₁ r₁' either low => ?_
  refine (within.wordsLed leadsParameter either low).bind fun words r₂ r₂' either low => .typed ?_
  refine .flawIf either fun either => .flawIf either fun either => ?_
  refine (within.pattern either low).bind fun target r₃ r₃' either low => ?_
  extract_lets rest rest'
  have last {r r'} (either : Beside K.either r r') (low : r.left < k) :
      K.Agree K.either (below k) (rest ()) (rest' ()) s r r' := within.initial either low
  refine .ite (fun _ => ?_) fun _ => last either low
  refine (Agree.eatsMark either low).bind fun _ r₄ r₄' either low => ?_
  exact (within.annotated either low).bind fun _ _ _ either low => last either low

theorem restParameter (within : K.Within p p' k c) (either : Beside K.either r r') (low : r.left ≤ k) :
    K.Agree K.either (below k) (restParameter p) (restParameter p') s r r' := by
  refine (Agree.takeMark "..." rfl either low).bind fun _ r₁ r₁' near low => ?_
  refine (within.pattern near.either low).bind fun _ r₂ r₂' either low => ?_
  exact (within.annotated either low).bind fun _ _ _ either low => .pure either low

/-- A comma may stand behind what nothing may follow. -/
theorem commaFlaw {β : Type} {m m' : Reading β} (either : Beside K.either r r') (low : r.left < k)
    (later : ∀ {r r'}, Beside K.either r r' → r.left < k → K.Agree K.either (below k) m m' s r r') :
    K.Agree K.either (below k)
      (do if ← Reading.eatMark "," then Reading.flawIf !(← Reading.setting).ambient
          m)
      (do if ← Reading.eatMark "," then Reading.flawIf !(← Reading.setting).ambient
          m') s r r' := by
  refine .eatMark "," rfl either (Nat.le_of_lt low) (fun _ r₁ r₁' near low => ?_) fun _ => later either low
  exact .setting (.flawIf near.either fun either => later either low)

theorem parameterList (ofConstructor : Bool) {rounds rounds' : Nat} (within : K.Within p p' k c)
    (either : Beside K.either r r') (low : r.left < k) (enough : r.left < rounds) (more : rounds ≤ rounds') :
    K.Agree K.either (below k) (parameterList p ofConstructor rounds) (parameterList p' ofConstructor rounds')
      s r r' := by
  induction rounds generalizing rounds' r r' with
  | zero => omega
  | succ rounds ih =>
      obtain ⟨rounds', rfl⟩ := Nat.exists_eq_add_of_le' (Nat.le_trans (Nat.le_add_left 1 rounds) more)
      refine .isMark either (.ite (fun _ => .pure either low) fun _ => .isMark either (.ite (fun _ => ?_) fun _ => ?_))
      · refine (within.restParameter either (Nat.le_of_lt low)).bind fun last r₁ r₁' either low => ?_
        exact commaFlaw either low fun either low => .pure either low
      · have le : r.left + 1 ≤ k := low
        refine ((within.mono le).parameter ofConstructor either (Nat.lt_succ_self _)).bind
          fun first r₁ r₁' either first_low => ?_
        have first_low : r₁.left ≤ r.left := Nat.le_of_lt_succ first_low
        refine .isMark either (.ite (fun _ => .pure either (Nat.lt_of_le_of_lt first_low low)) fun _ => ?_)
        refine (Agree.takeMark "," rfl either (Nat.le_refl r₁.left)).bind fun _ r₂ r₂' near comma_low => ?_
        have comma_low : r₂.left < r₁.left := comma_low
        refine (ih near.either (by omega) (by omega) (by omega)).bind fun found r₃ r₃' either low => ?_
        exact .pure either low

theorem thisParameter (within : K.Within p p' k c) (either : Beside K.either r r') (low : r.left < k) :
    K.Agree K.either (below k) (thisParameter p) (thisParameter p') s r r' := by
  refine .typed (.isWord "this" rfl either (.ite (fun isThis => ?_) fun _ => .pure either low))
  have goes := Lexeme.goesOn_of_isWord (Bool.and_eq_true_iff.mp isThis).2
  refine (Agree.advance either goes (Nat.le_of_lt low)).bind fun _ r₁ r₁' near low => ?_
  refine (within.annotated near.either low).bind fun _ r₂ r₂' either low => ?_
  exact .isMark either (.ite (fun _ => (Agree.takeMark "," rfl either low.le).either) fun _ => .pure either low)

theorem parameters (within : K.Within p p' k c) (ofConstructor : Bool) (either : Beside K.either r r')
    (low : r.left ≤ k) :
    K.Agree K.either (below k) (parameters p ofConstructor) (parameters p' ofConstructor) s r r' := by
  refine (Agree.takeMark "(" rfl either low).bind fun _ r₁ r₁' near low => ?_
  refine (within.thisParameter near.either low).bind fun _ r₂ r₂' either low => ?_
  refine (within.parameterList ofConstructor either low (Nat.lt_trans low within.rounds) within.more).bind
    fun found r₃ r₃' either low => ?_
  exact (Agree.takeMark ")" rfl either low.le).bind fun _ _ _ near low => .pure near.either low

/-- Type parameters may be left out, and then nothing is taken. -/
theorem typeParametersHere (within : K.Within p p' k c) (either : Beside K.either r r') (low : r.left ≤ k) :
    K.Agree K.either (fun _ next => next.left ≤ r.left) (typeParameters p) (typeParameters p') s r r' := by
  refine .typed (.ite (fun _ => .isMark either (.ite (fun angle => ?_) fun _ => .pure either (Nat.le_refl _)))
    fun _ => .pure either (Nat.le_refl _))
  have within := within.mono low
  refine (Agree.advance either (Lexeme.goesOn_of_isMark angle rfl) (Nat.le_refl _)).bind fun _ r₁ r₁' near low => ?_
  refine (Agree.separated (fun le near low => (within.mono le).typeParameter near.either low) near low
    (Nat.lt_trans low within.rounds) within.more).bind fun (names, _) r₂ r₂' either low => ?_
  refine .flawIf either fun either => ?_
  exact (Agree.takeMark ">" rfl either low.le).imp (fun _ _ => .inl) fun _ _ => below.le

theorem typeParameters (within : K.Within p p' k c) (either : Beside K.either r r') (low : r.left < k) :
    K.Agree K.either (below k) (typeParameters p) (typeParameters p') s r r' :=
  (within.typeParametersHere either (Nat.le_of_lt low)).imp (fun _ _ => id) fun _ _ le => Nat.lt_of_le_of_lt le low

theorem isPredicateAhead (either : Beside K.either r r') :
    K.Look (leading r) isPredicateAhead isPredicateAhead s r r' := by
  refine .ahead (.isBindingWord (T := K.either) either (.isWord "this" rfl either
    (.ite (fun word => ?_) fun _ => .pure either nofun)))
  have goes : r.token.lexeme.goesOn = true := by
    rcases Bool.or_eq_true_iff.mp word with isBinding | isThis
    · exact Lexeme.goesOn_of_isBindingWord isBinding
    · exact Lexeme.goesOn_of_isWord isThis
  refine (Agree.advance either goes (Nat.le_refl _)).bind fun _ r₁ r₁' near _ => ?_
  exact .isWord "is" rfl near.either (.newLine near (.pure near.either fun _ => goes))

theorem resultType (within : K.Within p p' k c) (either : Beside K.either r r') (low : r.left < k) :
    K.Agree K.either (below k) (resultType p) (resultType p') s r r' := by
  refine (isPredicateAhead either).bind fun found leads => .ite (fun holds => ?_) fun _ => within.type either low
  refine (Agree.advance either (leads holds) (Nat.le_of_lt low)).bind fun _ r₁ r₁' near low => ?_
  refine (Agree.takeWord "is" rfl near.either low.le).bind fun _ r₂ r₂' near low => ?_
  exact within.type near.either low

theorem resultAnnotated (within : K.Within p p' k c) (either : Beside K.either r r') (low : r.left < k) :
    K.Agree K.either (below k) ( resultAnnotation p) ( resultAnnotation p') s r r' := by
  refine .typed (.isMark either (.ite (fun colon => ?_) fun _ => .pure either low))
  have goes := Lexeme.goesOn_of_isMark (Bool.and_eq_true_iff.mp colon).2 rfl
  refine (Agree.advance either goes (Nat.le_of_lt low)).bind fun _ r₁ r₁' near low => ?_
  exact (within.resultType near.either low).bind fun _ _ _ either low => .pure either low

end Parameters

theorem isKeyAhead (near : Beside K.near r r') : K.Look (fun _ => True) isKeyAhead isKeyAhead s r r' := by
  refine .of_agree near (.lexeme near ?_)
  split
  all_goals exact .pure near.here ⟨trivial, rfl⟩

section Types

theorem dottedName (within : K.Within p p' k c) (either : Beside K.either r r') (low : r.left < k) :
    K.Agree K.either (below k) (dottedName p) (dottedName p') s r r' := by
  refine (Agree.repeatMarked "." rfl (fun _ near low => (Agree.anyWord near (Nat.le_of_lt low)).either) either low
    (Nat.lt_trans low within.rounds) within.more).bind fun found r₁ r₁' either low => ?_
  exact .pure either low

theorem optionalTypeArguments (within : K.Within p p' k c) (either : Beside K.either r r') (low : r.left < k) :
    K.Agree K.either (below k) (optionalTypeArguments p) (optionalTypeArguments p') s r r' := by
  refine .isOneOf either (.newLineAt either (fun near => ?_) fun seam b b' => ?_)
  · exact .ite (fun _ => within.typeArguments either low) fun _ => .pure either low
  · rw [seam.ending]
    exact .pure either low

theorem namedType (within : K.Within p p' k c) (near : Beside K.near r r') (low : r.left ≤ k) :
    K.Agree K.either (below k) (namedType p) (namedType p') s r r' := by
  refine Look.bind (Look.holdsAhead (P := True) (T := K.near) ?_) fun _ _ => ?_
  · exact (Agree.anyWord near (Nat.le_refl _)).bind fun _ _ _ near _ => .isMark near.either
      (.pure near fun _ => trivial)
  refine (Agree.anyWord near low).bind fun _ r₁ r₁' near low => .ite (fun _ => ?_) fun _ => .pure near.either low
  refine (within.dottedName near.either low).bind fun _ r₂ r₂' either low => ?_
  exact within.optionalTypeArguments either low

theorem importType (within : K.Within p p' k c) (near : Beside K.near r r') (low : r.left ≤ k) :
    K.Agree K.either (below k) (importType p) (importType p') s r r' := by
  refine (Agree.takeImport near low).bind fun _ r₁ r₁' near low => ?_
  refine (Agree.takeMark "(" rfl near.either low.le).bind fun _ r₂ r₂' near low => ?_
  refine (within.type near.either low).bind fun _ r₃ r₃' either low => ?_
  have rest {r r'} (either : Beside K.either r r') (low : r.left < k) :
      K.Agree K.either (below k) (do Reading.takeMark ")"; Grammar.dottedName p; Grammar.optionalTypeArguments p)
        (do Reading.takeMark ")"; Grammar.dottedName p'; Grammar.optionalTypeArguments p') s r r' := by
    refine (Agree.takeMark ")" rfl either (Nat.le_of_lt low)).bind fun _ r₁ r₁' near low => ?_
    refine (within.dottedName near.either low).bind fun _ r₂ r₂' either low => ?_
    exact within.optionalTypeArguments either low
  refine .eatMark "," rfl either low.le (fun _ r₄ r₄' near low => ?_) fun _ => rest either low
  refine .isMark near.either (.ite (fun _ => ?_) fun _ => rest near.either low)
  refine (within.expression near.either low).bind fun _ r₅ r₅' either low => ?_
  exact (Agree.eatsMark either low).bind fun _ _ _ either low => rest either low

theorem typeOfValue (within : K.Within p p' k c) (either : Beside K.either r r') (low : r.left ≤ k) :
    K.Agree K.either (below k) (typeOfValue p) (typeOfValue p') s r r' := by
  refine (Agree.takeWord "typeof" rfl either low).bind fun _ r₁ r₁' near low => ?_
  refine .isImport near (.ite (fun _ => within.importType near low.le) fun _ => ?_)
  refine (Agree.anyWord near low.le).bind fun _ r₂ r₂' near low => ?_
  refine (Agree.repeatMarked "." rfl (fun {j r r'} _ near low => ?_) near.either low (Nat.lt_trans low within.rounds)
    within.more).bind fun found r₃ r₃' either low => ?_
  · refine .lexeme near ?_
    split
    · rename_i front
      exact (Agree.advance near.either (front ▸ rfl) (Nat.le_of_lt low)).either
    · exact (Agree.anyWord near (Nat.le_of_lt low)).bind fun _ _ _ near low => .pure near.either low
  · exact within.optionalTypeArguments either low

theorem templatePieces {rounds rounds' : Nat} (within : K.Within p p' k c) (near : Beside K.near r r')
    (low : r.left ≤ k)
    (enough : r.left < rounds) (more : rounds ≤ rounds') :
    K.Agree K.either (below k) (templateType.pieces p rounds) (templateType.pieces p' rounds') s r r' := by
  induction rounds generalizing rounds' r r' with
  | zero => omega
  | succ rounds ih =>
      obtain ⟨rounds', rfl⟩ := Nat.exists_eq_add_of_le' (Nat.le_trans (Nat.le_add_left 1 rounds) more)
      refine .lexeme near ?_
      split
      · rename_i front
        exact (Agree.advance near.either (front ▸ rfl) low).either
      · rename_i front
        refine (Agree.advance near.either (front ▸ rfl) (Nat.le_refl _)).bind fun _ r₁ r₁' near first_low => ?_
        have within := within.mono low
        refine (within.type near.either first_low).bind fun _ r₂ r₂' either type_low => ?_
        have type_low : r₂.left < r.left := type_low
        refine .isMark either (.ite (fun closes => ?_) fun _ => .fail)
        have closes := beq_iff_eq.mp closes
        have near := either.near_of_ne (Lexeme.ne_ending_of_isRead (closes ▸ rfl))
        have same : r₂.token.asTemplate.start = r₂.token.start := Token.asTemplate_start _
        refine .retake (T := K.near) (K.asTemplate near.token closes) near fun near => ?_
        have left : ({ r₂ with token := r₂.token.asTemplate } : Reader).left = r₂.left := by
          rw [Reader.left, Token.asTemplate_start, Reader.left]
        exact ih near (by omega) (by omega) (by omega)
      · exact .fail

theorem endTypeMember (either : Beside K.either r r') (low : r.left < k) :
    K.Agree K.either (below k) endTypeMember endTypeMember s r r' :=
  .eatMark "," rfl either (Nat.le_of_lt low)
    (fun _ _ _ near low => .pure near.either low) fun _ => Agree.endStatement either low

theorem signature (within : K.Within p p' k c) (either : Beside K.either r r') (low : r.left ≤ k) :
    K.Agree K.either (below k) (signature p) (signature p') s r r' := by
  refine (within.typeParametersHere either low).bind fun _ r₁ r₁' either le => ?_
  refine (within.parameters false either (Nat.le_trans le low)).bind fun _ r₂ r₂' either low => ?_
  exact (within.resultAnnotated either low).bind fun _ _ _ either low => .pure either low

theorem indexSignature (within : K.Within p p' k c) (either : Beside K.either r r') (low : r.left ≤ k) :
    K.Agree K.either (below k) (indexSignature p) (indexSignature p') s r r' := by
  refine (Agree.takeMark "[" rfl either low).bind fun _ r₁ r₁' near low => ?_
  refine (Agree.bindingName near.either low.le).bind fun _ r₂ r₂' near low => ?_
  refine (Agree.takeMark ":" rfl near.either low.le).bind fun _ r₃ r₃' near low => ?_
  refine (within.type near.either low).bind fun _ r₄ r₄' either low => ?_
  refine (Agree.takeMark "]" rfl either low.le).bind fun _ r₅ r₅' near low => ?_
  exact within.annotated near.either low

theorem leadsTypeMember {word : String} (near : Beside K.near r r') :
    K.Look (leading r) (leadsTypeMember word) (leadsTypeMember word) s r r' := by
  refine .ahead (.isImport (T := K.near) near (.ite (fun isWord => ?_) fun _ => .pure near nofun))
  have goes := Lexeme.goesOn_of_isWord isWord
  refine (Agree.advance near.either goes (Nat.le_refl _)).bind fun _ r₁ r₁' near _ => .newLine near ?_
  exact (isKeyAhead near).bind fun _ _ => .pure near fun _ => goes

theorem keyedTypeMember (within : K.Within p p' k c) (near : Beside K.near r r') (low : r.left ≤ k) :
    K.Agree K.either (below k) (keyedTypeMember p) (keyedTypeMember p') s r r' := by
  refine (within.key near low).bind fun _ r₁ r₁' near low => ?_
  refine (Agree.eatsMark near.either low).bind fun _ r₂ r₂' either low => ?_
  exact .isOneOf either (.ite (fun _ => within.signature either low.le) fun _ => within.annotated either low)

/-- A member of a type takes something, as its key does. -/
theorem typeMember (within : K.Within p p' k c) (near : Beside K.near r r') (low : r.left ≤ k) :
    K.Agree K.either (below k) (typeMember p) (typeMember p') s r r' := by
  unfold Grammar.typeMember
  refine .isOneOf near.either ?_
  extract_lets last keyed keyed'
  have ends {r r'} (either : Beside K.either r r') (low : r.left < k) :
      K.Agree K.either (below k) (last ()) (last ()) s r r' := endTypeMember either low
  have keyed_agree {r r'} (near : Beside K.near r r') (low : r.left ≤ k) :
      K.Agree K.either (below k) (keyed ()) (keyed' ()) s r r' := by
    refine (leadsTypeMember near).bind fun get getLeads => (leadsTypeMember near).bind fun set setLeads => ?_
    refine .ite (fun accesses => ?_) fun _ => ?_
    · have goes := (Bool.or_eq_true_iff.mp accesses).elim getLeads setLeads
      refine (Agree.advance near.either goes low).bind fun _ r₁ r₁' near low => ?_
      refine (within.key near low.le).bind fun _ r₂ r₂' near low => ?_
      exact (within.signature near.either low.le).bind fun _ _ _ either low => ends either low
    · refine .attempt (within.indexSignature near.either low) (fun _ _ _ either low => ends either low) ?_
      exact (within.keyedTypeMember near low).bind fun _ _ _ either low => ends either low
  refine .ite (fun _ => ?_) fun _ => ?_
  · exact (within.signature near.either low).bind fun _ _ _ either low => ends either low
  refine Look.bind
    (Look.wordAhead "new" rfl near.either fun _ _ near => (Look.isOneOf near.either).sees near) fun isNew goes =>
    ?_
  refine .ite (fun holds => ?_) fun _ => ?_
  · refine (Agree.advance near.either (goes holds) low).bind fun _ r₁ r₁' near low => ?_
    exact (within.signature near.either low.le).bind fun _ _ _ either low => ends either low
  refine (leadsTypeMember near).bind fun readonly leads => .ite (fun holds => ?_) fun _ => keyed_agree near low
  exact (Agree.advance near.either (leads holds) low).bind fun _ r₁ r₁' near low => keyed_agree near low.le

/-- Items between braces of which none can start with an import. -/
theorem closedItems {item item' : Reading α}
    (each : ∀ {j r r'}, j < k → Beside K.near r r' → r.token.lexeme ≠ .mark "\x7d" → r.left ≤ j →
      K.Agree K.either (below j) item item' s r r')
    (never : ∀ {r : Reader}, r.token.OpensImport → item' (s.grown K.more) r = Option.none) (within : K.Within p p' k c)
    (either : Beside K.either r r') (low : r.left < k) :
    K.Agree K.either (below k)
      (do let _ ← repeatWhile (do return !(← isMark "\x7d") && !(← isEnding)) item p.rounds
          Reading.takeMark "\x7d")
      (do let _ ← repeatWhile (do return !(← isMark "\x7d") && !(← isEnding)) item' p'.rounds
          Reading.takeMark "\x7d") s r r' := by
  refine .closeBrace (P := fun _ => False) (fun _ none => none.elim) (Agree.braced isInside_run rfl ?_ ?_ either low
    (Nat.lt_trans low within.rounds) within.more) (fun _ => Agree.closes_take) (fun _ => Agree.closes_take)
    fun _ _ _ either low => Agree.closeMark either (Nat.le_of_lt low)
  · intro j r r' le near goes low
    refine .inl (each le near (fun closes => ?_) low)
    rw [closes] at goes
    cases goes
  · rintro r rounds xs next (⟨token, seam⟩ | none) given
    · cases rounds with
      | zero => cases given
      | succ rounds =>
          have opens := K.opensImport seam
          have leads : r.token.lexeme.isInside = true := opens.lexeme ▸ rfl
          rw [Agree.repeatWhile_step (isInside_run _ r), leads, if_pos rfl, never opens] at given
          cases given
    · exact none

theorem typeMembers (within : K.Within p p' k c) (either : Beside K.either r r') (low : r.left ≤ k) :
    K.Agree K.either (below k) (typeMembers p) (typeMembers p') s r r' := by
  refine (Agree.takeMark "\x7b" rfl either low).bind fun _ r₁ r₁' near low => ?_
  exact closedItems (fun lt near _ low => (within.mono (Nat.le_of_lt lt)).typeMember near low) typeMember_import within
    near.either low

theorem signedMark {m : Reading Bool} (either : Beside K.either r r') (low : r.left < k)
    (each : ∀ {r r'}, Beside K.either r r' → r.left < k → K.Agree K.either (below k) m m s r r') :
    K.Agree K.either (below k) (signed m) (signed m) s r r' := by
  refine .isOneOf either (.ite (fun sign => ?_) fun _ => ?_)
  · refine (Agree.advance either (Lexeme.goesOn_of_isOneOf sign (by decide)) (Nat.le_of_lt low)).bind
      fun _ r₁ r₁' near low => ?_
    exact (each near.either low).bind fun found _ _ either low => .ite (fun _ => .pure either low) fun _ => .fail
  · exact (each either low).bind fun _ _ _ either low => .pure either low

theorem eatsWordHere (word : String) (other : ("import" == word) = false) (either : Beside K.either r r')
    (low : r.left < k) :
    K.Agree K.either (below k) (Reading.eatWord word) (Reading.eatWord word) s r r' := by
  refine .isWord word other either (.ite (fun _ => ?_) fun _ => .pure either low)
  exact (Agree.takeWord word other either (Nat.le_of_lt low)).bind fun _ _ _ near low => .pure near.either low

theorem isAnyWord (near : Beside K.near r r') :
    K.Look (fun found => found = true → r.token.lexeme.goesOn = true) Reading.isAnyWord Reading.isAnyWord s r r' := by
  refine .of_agree near (.lexeme near ?_)
  split
  · rename_i front
    exact .pure near.here ⟨fun _ => front ▸ rfl, rfl⟩
  · exact .pure near.here ⟨nofun, rfl⟩

theorem isMappedAhead (near : Beside K.near r r') (goes : r.token.lexeme.goesOn = true) :
    K.Look (fun _ => True) isMappedAhead isMappedAhead s r r' := by
  refine Look.ahead (T := K.either) ?_
  refine (Agree.advance near.either goes (Nat.le_refl _)).bind fun _ r₁ r₁' near low => ?_
  refine .isOneOf near.either (.ite (fun sign => ?_) fun _ => ?_)
  · refine (Agree.advance near.either (Lexeme.goesOn_of_isOneOf sign (by decide)) low.le).bind fun _ _ _ near _ => ?_
    exact (Look.isWord "readonly" rfl near.either).sees near.either
  · refine (Agree.eatsWord near low).bind fun _ r₂ r₂' near low => ?_
    refine .eatMark "[" rfl near.either low.le (fun _ r₃ r₃' near low => ?_) fun _ => .pure near.either trivial
    refine (isAnyWord near).bind fun found leads => ?_
    cases found with
    | false => exact .pure near.either trivial
    | true =>
        refine (Agree.advance near.either (leads rfl) (Nat.le_of_lt low)).bind fun _ _ _ near _ => ?_
        exact (Look.isWord "in" rfl near.either).sees near.either

theorem mappedType (within : K.Within p p' k c) (either : Beside K.either r r') (low : r.left ≤ k) :
    K.Agree K.either (below k) (mappedType p) (mappedType p') s r r' := by
  refine (Agree.takeMark "\x7b" rfl either low).bind fun _ r₁ r₁' near low => ?_
  refine (signedMark near.either low fun either low => eatsWordHere "readonly" rfl either low).bind
    fun _ r₂ r₂' either low => ?_
  refine (Agree.takeMark "[" rfl either low.le).bind fun _ r₃ r₃' near low => ?_
  refine (Agree.anyWord near low.le).bind fun _ r₄ r₄' near low => ?_
  refine (Agree.takeWord "in" rfl near.either low.le).bind fun _ r₅ r₅' near low => ?_
  refine (within.type near.either low).bind fun _ r₆ r₆' either low => ?_
  have rest {r r' : Reader} (either : Beside K.either r r') (low : r.left < k) :
      K.Agree K.either (below k)
        (do
          Reading.takeMark "]"
          signed (Reading.eatMark "?")
          p.annotation
          Grammar.endTypeMember
          Reading.takeMark "\x7d")
        (do
          Reading.takeMark "]"
          signed (Reading.eatMark "?")
          p'.annotation
          Grammar.endTypeMember
          Reading.takeMark "\x7d")
        s r r' := by
    refine (Agree.takeMark "]" rfl either (Nat.le_of_lt low)).bind fun _ r₁ r₁' near low => ?_
    refine (signedMark near.either low fun either low => Agree.eatsMark either low).bind fun _ r₂ r₂' either low => ?_
    refine (within.annotated either low).bind fun _ r₃ r₃' either low => ?_
    refine (endTypeMember either low).bind fun _ r₄ r₄' either low => ?_
    exact Agree.closeMark either low.le
  refine .eatWord "as" rfl either low.le (fun r₇ r₇' near low => ?_) (rest either low)
  exact (within.type near.either low).bind fun _ _ _ either low => rest either low

theorem tupleMember (within : K.Within p p' k c) (near : Beside K.near r r') (low : r.left < k) :
    K.Agree K.either (below k) (tupleMember p) (tupleMember p') s r r' := by
  refine (Agree.eatsMarkNear "..." rfl near low).bind fun spread r₁ r₁' near low => ?_
  refine Look.bind (Look.holdsAhead (P := r₁.token.lexeme.goesOn = true) (T := K.either) ?_) fun isNamed leads => ?_
  · refine (Agree.wordTaken near (Nat.le_refl _)).bind fun _ r₂ r₂' near ⟨goes, _⟩ => ?_
    refine (Agree.eatsMarkNear "?" rfl near (Nat.lt_succ_self _)).bind fun _ _ _ near _ => ?_
    exact .isMark near.either (.pure near.either fun _ => goes)
  refine .ite (fun holds => ?_) fun _ => ?_
  · refine (Agree.advance near.either (leads holds) low.le).bind fun _ r₂ r₂' near low => ?_
    refine (Agree.eatsMark near.either low).bind fun _ r₃ r₃' either low => ?_
    refine (Agree.takeMark ":" rfl either low.le).bind fun _ r₄ r₄' near low => ?_
    exact within.type near.either low
  · refine (within.type near.either low).bind fun _ r₂ r₂' either low => ?_
    refine .ite (fun _ => ?_) fun _ => .pure either low
    exact (Agree.eatsMark either low).bind fun _ _ _ either low => .pure either low

theorem functionType (within : K.Within p p' k c) (either : Beside K.either r r') (low : r.left ≤ k) :
    K.Agree K.either (below k) (functionType p) (functionType p') s r r' := by
  refine (within.typeParametersHere either low).bind fun _ r₁ r₁' either le => ?_
  refine (within.parameters false either (Nat.le_trans le low)).bind fun _ r₂ r₂' either low => ?_
  refine (Agree.takeMark "=>" rfl either low.le).bind fun _ r₃ r₃' near low => ?_
  exact within.resultType near.either low

/-- A type that may stand behind `is`. -/
theorem assertedType (within : K.Within p p' k c) (near : Beside K.near r r') (low : r.left < k) :
    K.Agree K.either (below k)
      (do if (← Reading.isWord "is") && !(← Reading.newLine) then
            Reading.advance
            p.type)
      (do if (← Reading.isWord "is") && !(← Reading.newLine) then
            Reading.advance
            p'.type) s r r' := by
  refine .isWord "is" rfl near.either (.newLine near (.ite (fun holds => ?_) fun _ => .pure near.either low))
  have goes := Lexeme.goesOn_of_isWord (Bool.and_eq_true_iff.mp holds).1
  refine (Agree.advance near.either goes (Nat.le_of_lt low)).bind fun _ _ _ near low => ?_
  exact within.type near.either low

/-- What `asserts` is looked at for: the word behind it, on the same line. -/
theorem isAssertionAhead (either : Beside K.either r r') (goes : r.token.lexeme.goesOn = true) :
    K.Look (fun found => found = true → (Agree.behind r).token.lexeme.goesOn = true)
      (Reading.ahead (do
        Reading.advance
        return !(← Reading.newLine) && ((← Reading.isBindingWord) || (← Reading.isWord "this"))))
      (Reading.ahead (do
        Reading.advance
        return !(← Reading.newLine) && ((← Reading.isBindingWord) || (← Reading.isWord "this")))) s r r' := by
  refine Look.ahead (T := K.either) ?_
  refine (Agree.advanceTo either goes (Nat.le_refl _)).bind fun _ r₁ r₁' near ⟨same, _⟩ => ?_
  subst same
  refine .newLine near (.isBindingWord near.either (.isWord "this" rfl near.either (.pure near.either fun found => ?_)))
  rcases Bool.or_eq_true_iff.mp (Bool.and_eq_true_iff.mp found).2 with isBinding | isThis
  · exact Lexeme.goesOn_of_isBindingWord isBinding
  · exact Lexeme.goesOn_of_isWord isThis

/-- No type starts at the seam. -/
theorem plainType_seam (seam : Beside K.seam r r') :
    K.Agree K.either (below k) (plainType p) (plainType p') s r r' := by
  have ending := seam.ending
  have opens := seam.opensImport
  have there : r'.token.lexeme = .word "import" false := opens.lexeme
  have brace : r'.next.token.lexeme = .mark "\x7b" := opens.brace
  have here_none : Grammar.plainType p s r = Option.none := by
    simp [Grammar.plainType, ending, Grammar.namedType, Reading.anyWord]
  have there_none : Grammar.plainType p' (s.grown K.more) r' = Option.none := by
    simp [Grammar.plainType, there, Grammar.importType, Reading.takeWord, Lexeme.isWord, Reading.advance, takeMark_run,
      brace]
  rw [Agree, here_none, there_none]
  exact .fails

theorem plainType (within : K.Within p p' k c) (either : Beside K.either r r') (low : r.left ≤ k) :
    K.Agree K.either (below k) (plainType p) (plainType p') s r r' := by
  rcases either.cases with near | seam
  case inr => exact plainType_seam seam
  refine .lexeme near ?_
  have only (goes : r.token.lexeme.goesOn = true) :
      K.Agree K.either (below k) Reading.advance Reading.advance s r r' := (Agree.advance either goes low).either
  split
  · rename_i front
    exact only (front ▸ rfl)
  · rename_i front
    exact only (front ▸ rfl)
  · rename_i front
    exact only (front ▸ rfl)
  · exact within.templatePieces near low (Nat.lt_of_le_of_lt low within.rounds) within.more
  · rename_i front
    refine (Agree.advance either (front ▸ rfl) low).bind fun _ r₁ r₁' near low => .lexeme near ?_
    split
    · rename_i front
      exact (Agree.advance near.either (front ▸ rfl) low.le).either
    · rename_i front
      exact (Agree.advance near.either (front ▸ rfl) low.le).either
    · exact .fail
  · rename_i front
    refine (Agree.advance either (front ▸ rfl) low).bind fun _ r₁ r₁' near low => ?_
    refine (within.type near.either low).bind fun _ r₂ r₂' either low => ?_
    exact (Agree.takeMark ")" rfl either low.le).either
  · rename_i front
    refine (Agree.advance either (front ▸ rfl) low).bind fun _ r₁ r₁' near low => ?_
    refine (Agree.separated (fun le near low => (within.mono le).tupleMember near low) near low
      (Nat.lt_trans low within.rounds) within.more).bind fun _ r₂ r₂' either low => ?_
    exact (Agree.takeMark "]" rfl either low.le).either
  · rename_i front
    refine (isMappedAhead near (front ▸ rfl)).bind fun mapped _ => ?_
    exact .ite (fun _ => within.mappedType either low) fun _ => within.typeMembers either low
  · rename_i front
    refine (Agree.advance either (front ▸ rfl) low).bind fun _ r₁ r₁' near low => ?_
    exact .attempt (within.read .typeOperand rfl near.either low) (fun _ _ _ either low => .pure either low)
      (.pure near.either low)
  · rename_i front
    refine (Agree.advance either (front ▸ rfl) low).bind fun _ r₁ r₁' near low => ?_
    exact .attempt (within.read .typeOperand rfl near.either low) (fun _ _ _ either low => .pure either low)
      (.pure near.either low)
  · rename_i front
    refine (Agree.advance either (front ▸ rfl) low).bind fun _ r₁ r₁' near low => ?_
    exact within.assertedType near low
  · exact within.typeOfValue either low
  · exact within.importType near low
  · rename_i front
    exact only (front ▸ rfl)
  · rename_i front
    exact only (front ▸ rfl)
  · rename_i front
    exact only (front ▸ rfl)
  · rename_i front
    exact only (front ▸ rfl)
  · rename_i front
    have goes : r.token.lexeme.goesOn = true := front ▸ rfl
    refine (isAssertionAhead either goes).bind fun isAssertion leads => ?_
    refine .ite (fun holds => ?_) fun _ => within.namedType near low
    refine (Agree.advanceTo either goes low).bind fun _ r₁ r₁' near ⟨same, low⟩ => ?_
    subst same
    refine (Agree.advance near.either (leads holds) (Nat.le_of_lt low)).bind fun _ r₂ r₂' near low => ?_
    exact within.assertedType near low
  · exact within.namedType near low

theorem isTypeAhead (within : K.Within p p' k c) (either : Beside K.either r r') (low : r.left ≤ k) :
    K.Look (fun _ => True) (isTypeAhead p) (isTypeAhead p') s r r' := by
  have agree := within.plainType (s := s) either low
  unfold Agree at agree
  have look (found : Bool) (here : Grammar.isTypeAhead p s r = some (found, r))
      (there : Grammar.isTypeAhead p' (s.grown K.more) r' = some (found, r')) :
      K.Look (fun _ => True) (Grammar.isTypeAhead p) (Grammar.isTypeAhead p') s r r' :=
    ⟨some found, fun _ _ => trivial, here, there⟩
  generalize here : Grammar.plainType p s r = outcome,
    there : Grammar.plainType p' (s.grown K.more) r' = outcome' at agree
  cases agree with
  | fails => exact look false (by rw [Grammar.isTypeAhead, here]) (by rw [Grammar.isTypeAhead, there])
  | gives => exact look true (by rw [Grammar.isTypeAhead, here]) (by rw [Grammar.isTypeAhead, there])

theorem typeTail (within : K.Within p p' k c) (either : Beside K.either r r') (low : r.left < k) (u : Unit) :
    K.Agree K.either (Agree.grew r) (typeTail p u) (typeTail p' u) s r r' := by
  have none {r r'} (either : Beside K.either r r') :
      K.Agree K.either (Agree.grew r) (Pure.pure (Option.none : Option Unit)) (Pure.pure Option.none) s r r' :=
    .pure either (Nat.le_refl _)
  have within := within.mono (Nat.le_of_lt low)
  rcases either.cases with near | seam
  · refine .newLine near (.ite (fun _ => none either) fun _ => .lexeme near ?_)
    split
    · rename_i front
      refine (Agree.advance either (front ▸ rfl) (Nat.le_refl _)).bind fun _ r₁ r₁' near low => ?_
      have rest {r₁ r₁' : Reader} (either : Beside K.either r₁ r₁') (low : r₁.left < r.left) :
          K.Agree K.either (Agree.grew r) (do Reading.takeMark "]"; return some ())
            (do Reading.takeMark "]"; return some ()) s r₁ r₁' :=
        (Agree.takeMark "]" rfl either (Nat.le_of_lt low)).bind fun _ _ _ near low => .pure near.either low
      refine .isMark near.either (.ite (fun _ => ?_) fun _ => rest near.either low)
      exact (within.type near.either low).bind fun _ _ _ either low => rest either low
    · rename_i front
      exact (Agree.advance either (front ▸ rfl) (Nat.le_refl _)).bind fun _ _ _ near low => .pure near.either low
    · rename_i front
      have goes : r.token.lexeme.goesOn = true := front ▸ rfl
      refine Look.bind (Look.ahead (P := fun _ => True) (T := K.either) ?_) fun goesOn _ => ?_
      · refine (Agree.advance either goes (Nat.le_refl _)).bind fun _ r₁ r₁' near low => ?_
        exact (within.isTypeAhead near.either low.le).sees near.either
      · refine .ite (fun _ => none either) fun _ => ?_
        exact (Agree.advance either goes (Nat.le_refl _)).bind fun _ _ _ near low => .pure near.either low
    · exact none either
  · have here : Grammar.typeTail p u s r = some (Option.none, r) := by
      cases newLine : r.token.newLine
      all_goals simp [Grammar.typeTail, newLine, seam.ending]
    have there : Grammar.typeTail p' u (s.grown K.more) r' = some (Option.none, r') := by
      simp [Grammar.typeTail, seam.opensImport.newLine]
    rw [Agree, here, there]
    exact .gives either (Nat.le_refl _)

theorem inferredBound (within : K.Within p p' k c) (either : Beside K.either r r') (low : r.left < k) :
    K.Agree K.either (below k) (inferredBound p) (inferredBound p') s r r' := by
  refine .isWord "extends" rfl either (.ite (fun isExtends => .setting ?_) fun _ => .pure either low)
  have bound : K.Agree K.either (below k)
      (do Reading.advance
          Reading.under (fun s => { s with conditionalTypes := false }) p.type
          if s.conditionalTypes then Reading.need !(← Reading.isMark "?"))
      (do Reading.advance
          Reading.under (fun s => { s with conditionalTypes := false }) p'.type
          if s.conditionalTypes then Reading.need !(← Reading.isMark "?")) s r r' := by
    refine (Agree.advance either (Lexeme.goesOn_of_isWord isExtends) (Nat.le_of_lt low)).bind fun _ r₁ r₁' near low =>
      ?_
    refine (Agree.under (by rfl) (within.type near.either low)).bind fun _ r₂ r₂' either low => ?_
    refine .ite (fun _ => .isMark either ?_) fun _ => .pure either low
    exact (Agree.need either).imp (fun _ _ => id) fun _ _ ⟨_, same⟩ => same ▸ low
  exact .attempt bound (fun _ _ _ either low => .pure either low) (.pure either low)

theorem operandType (within : K.Within p p' k c) (either : Beside K.either r r') (low : r.left ≤ k) :
    K.Agree K.either (below k) (operandType p) (operandType p') s r r' := by
  refine .isWord "keyof" rfl either
    (.isWord "unique" rfl either (.isWord "readonly" rfl either (.ite (fun word => ?_) fun _ => ?_)))
  · have goes : r.token.lexeme.goesOn = true := by
      rcases Bool.or_eq_true_iff.mp word with word | isReadonly
      · exact (Bool.or_eq_true_iff.mp word).elim Lexeme.goesOn_of_isWord Lexeme.goesOn_of_isWord
      · exact Lexeme.goesOn_of_isWord isReadonly
    refine (Agree.advance either goes low).bind fun _ r₁ r₁' near low => ?_
    exact within.read .typeOperand rfl near.either low
  · refine .isWord "infer" rfl either (.ite (fun isInfer => ?_) fun _ => .under (by rfl) ?_)
    · refine (Agree.advance either (Lexeme.goesOn_of_isWord isInfer) low).bind fun _ r₁ r₁' near low => ?_
      refine (Agree.bindingName near.either low.le).bind fun _ r₂ r₂' near low => ?_
      exact within.inferredBound near.either low
    · refine (within.plainType either low).bind fun _ r₁ r₁' either low => ?_
      exact Agree.grow (fun either low => within.typeTail either low _) either low (Nat.lt_trans low within.rounds)
        within.more ()

theorem joinedType (mark : String) (goes : Lexeme.goesOn (.mark mark) = true) {item item' : Reading Unit}
    (within : K.Within p p' k c)
    (each : ∀ {j r r'}, j ≤ k → Beside K.either r r' → r.left ≤ j → K.Agree K.either (below j) item item' s r r')
    (either : Beside K.either r r') (low : r.left ≤ k) :
    K.Agree K.either (below k) (joinedType p mark item) (joinedType p' mark item') s r r' := by
  have rest {r r' : Reader} (either : Beside K.either r r') (low : r.left ≤ k) :
      K.Agree K.either (below k)
        (do item
            let _ ← repeatWhile (Reading.eatMark mark) item p.rounds)
        (do item'
            let _ ← repeatWhile (Reading.eatMark mark) item' p'.rounds) s r r' := by
    refine (each (Nat.le_refl _) either low).bind fun _ r₁ r₁' either low => ?_
    refine (Agree.repeatMarked mark goes (fun lt near low => each (Nat.le_of_lt lt) near.either (Nat.le_of_lt low))
      either low (Nat.lt_trans low within.rounds) within.more).bind fun _ _ _ either low => ?_
    exact .pure either low
  refine .eatMark mark goes either low (fun _ r₁ r₁' near low => ?_) fun _ => rest either low
  exact rest near.either (Nat.le_of_lt low)

theorem unionType (within : K.Within p p' k c) (lower : Goal.typeOperand.rank < c) (either : Beside K.either r r')
    (low : r.left ≤ k) : K.Agree K.either (below k) (unionType p) (unionType p') s r r' :=
  within.joinedType "|" rfl (fun le either low => (within.mono le).joinedType "&" rfl
    (fun le' either low => (within.mono (Nat.le_trans le' le)).readLower .typeOperand rfl either low lower) either low)
    either low

/-- Two words behind each other. -/
theorem wordsAhead (first second : String) (other : ("import" == first) = false)
    (other' : ("import" == second) = false) (either : Beside K.either r r') :
    K.Look (fun found => found = true → r.token.lexeme.goesOn = true ∧ (Agree.behind r).token.lexeme.goesOn = true)
      (Reading.holdsAhead (do Reading.takeWord first; Reading.isWord second))
      (Reading.holdsAhead (do Reading.takeWord first; Reading.isWord second)) s r r' := by
  refine Look.holdsAhead (T := K.either) ?_
  refine (Agree.takeWordTo first other either).bind fun _ r₁ r₁' near ⟨goes, same⟩ => ?_
  subst same
  refine ((Look.isWord second other' near.either).agree near.either).imp (fun _ _ => id) fun found _ ⟨is, _⟩ holds => ?_
  exact ⟨goes, Lexeme.goesOn_of_isWord (is ▸ holds)⟩

theorem callableType (within : K.Within p p' k c) (either : Beside K.either r r') (low : r.left ≤ k) :
    K.Agree K.either (below k) (callableType p) (callableType p') s r r' := by
  refine (wordsAhead "abstract" "new" rfl rfl either).bind fun isNew leads => .ite (fun holds => ?_) fun _ => ?_
  · refine (Agree.advanceTo either (leads holds).1 low).bind fun _ r₁ r₁' near ⟨same, low⟩ => ?_
    subst same
    refine (Agree.advance near.either (leads holds).2 (Nat.le_of_lt low)).bind fun _ r₂ r₂' near low => ?_
    exact within.functionType near.either low.le
  · exact .isOneOf either (.ite (fun _ => within.functionType either low) fun _ => .fail)

theorem anyType (within : K.Within p p' k c) (lower : Goal.typeOperand.rank < c) (either : Beside K.either r r')
    (low : r.left ≤ k) : K.Agree K.either (below k) (anyType p) (anyType p') s r r' := by
  refine .isWord "new" rfl either (.ite (fun isNew => ?_) fun _ => ?_)
  · refine (Agree.advance either (Lexeme.goesOn_of_isWord isNew) low).bind fun _ r₁ r₁' near low => ?_
    exact within.functionType near.either low.le
  refine .attempt (within.callableType either low) (fun _ _ _ either low => .pure either low) ?_
  refine (within.unionType lower either low).bind fun _ r₁ r₁' either low => .setting (.isWord "extends" rfl either ?_)
  refine .newLineAt either (fun near => .ite (fun asks => ?_) fun _ => .pure either low) fun seam b b' => ?_
  · have goes := Lexeme.goesOn_of_isWord (Bool.and_eq_true_iff.mp (Bool.and_eq_true_iff.mp asks).1).2
    refine (Agree.advance either goes low.le).bind fun _ r₂ r₂' near low => ?_
    refine (Agree.under (by rfl) (within.type near.either low)).bind fun _ r₃ r₃' either low => ?_
    refine (Agree.takeMark "?" rfl either low.le).bind fun _ r₄ r₄' near low => ?_
    refine (Agree.under (by rfl) (within.type near.either low)).bind fun _ r₅ r₅' either low => ?_
    refine (Agree.takeMark ":" rfl either low.le).bind fun _ r₆ r₆' near low => ?_
    exact Agree.under (by rfl) (within.type near.either low)
  · simp only [seam.ending, Lexeme.isWord, Bool.and_false, Bool.false_and, Bool.false_eq_true, if_false]
    exact .pure either low

end Types

end Within

end Lockstep

end Realms.Script
