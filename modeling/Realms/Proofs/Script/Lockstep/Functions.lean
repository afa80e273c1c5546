import Realms.Proofs.Script.Lockstep.Types

/-!
Patterns and functions, read in step.
-/
namespace Realms.Script.Lockstep.Within

open Grammar Reading

variable {α : Type} {K : Lockstep} {p p' : Inner} {k c : Nat} {s : Setting} {r r' : Reader}

section Patterns

theorem defaultValue (within : K.Within p p' k c) (either : Beside K.either r r') (low : r.left < k) :
    K.Agree K.either (below k) (defaultValue p) (defaultValue p') s r r' :=
  .under (by rfl) (within.expression either low)

theorem patternWithDefault (within : K.Within p p' k c) (either : Beside K.either r r') (low : r.left < k) :
    K.Agree K.either (below k) (patternWithDefault p) (patternWithDefault p') s r r' := by
  refine (within.pattern either low).bind fun target r₁ r₁' either low => ?_
  refine .eatMark "=" rfl either low.le (fun _ r₂ r₂' near low => ?_) fun _ => .pure either low
  exact (within.defaultValue near.either low).bind fun _ _ _ either low => .pure either low

theorem endOfRest {close : String} (either : Beside K.either r r') (low : r.left < k) :
    K.Agree K.either (below k) (endOfRest close) (endOfRest close) s r r' :=
  commaFlaw either low fun either low => Agree.closeMark either (Nat.le_of_lt low)

theorem arrayPattern {rounds rounds' : Nat} (within : K.Within p p' k c) (near : Beside K.near r r') (low : r.left < k)
    (enough : r.left < rounds) (more : rounds ≤ rounds') :
    K.Agree K.either (below k) (arrayPattern p rounds) (arrayPattern p' rounds') s r r' := by
  induction rounds generalizing rounds' r r' with
  | zero => omega
  | succ rounds ih =>
      obtain ⟨rounds', rfl⟩ := Nat.exists_eq_add_of_le' (Nat.le_trans (Nat.le_add_left 1 rounds) more)
      refine .eatMark "]" rfl near.either (Nat.le_of_lt low) (fun _ _ _ near low => .pure near.either low) fun _ => ?_
      refine .eatMark "," rfl near.either (Nat.le_refl _) (fun _ r₁ r₁' near comma_low => ?_) fun _ => ?_
      · refine (ih near (by omega) (by omega) (by omega)).bind fun _ _ _ either low => ?_
        exact .pure either low
      refine .eatMark "..." rfl near.either (Nat.le_of_lt low) (fun _ r₁ r₁' near low => ?_) fun _ => ?_
      · refine (within.pattern near.either low).bind fun _ r₂ r₂' either low => ?_
        exact (endOfRest either low).bind fun _ _ _ either low => .pure either low
      have le : r.left + 1 ≤ k := low
      refine ((within.mono le).patternWithDefault near.either (Nat.lt_succ_self _)).bind
        fun first r₁ r₁' either first_low => ?_
      have first_low : r₁.left ≤ r.left := Nat.le_of_lt_succ first_low
      refine .eatMark "]" rfl either (Nat.le_trans first_low (Nat.le_of_lt low))
        (fun _ _ _ near low => .pure near.either low) fun _ => ?_
      refine (Agree.takeMark "," rfl either (Nat.le_refl r₁.left)).bind fun _ r₂ r₂' near comma_low => ?_
      have comma_low : r₂.left < r₁.left := comma_low
      refine (ih near (by omega) (by omega) (by omega)).bind fun _ _ _ either low => ?_
      exact .pure either low

theorem patternMember (within : K.Within p p' k c) (near : Beside K.near r r') (low : r.left ≤ k) :
    K.Agree K.either (below k) (patternMember p) (patternMember p') s r r' := by
  unfold Grammar.patternMember
  refine .isBindingWord near.either ((within.key near low).bind fun key r₁ r₁' near low => ?_)
  extract_lets rest rest'
  have last {r r'} (either : Beside K.either r r') (low : r.left < k) :
      K.Agree K.either (below k) (rest ()) (rest' ()) s r r' := by
    refine (Agree.takeMark ":" rfl either (Nat.le_of_lt low)).bind fun _ r₁ r₁' near low => ?_
    exact (within.patternWithDefault near.either low).bind fun _ _ _ either low => .pure either low
  cases key with
  | name name =>
      refine .isMark near.either (.ite (fun _ => ?_) fun _ => last near.either low)
      refine (Agree.checkName near low).bind fun _ r₂ r₂' near low => ?_
      refine .eatMark "=" rfl near.either low.le (fun _ r₃ r₃' near low => ?_) fun _ => .pure near.either low
      exact (within.defaultValue near.either low).bind fun _ _ _ either low => .pure either low
  | _ => exact last near.either low

theorem objectPattern {rounds rounds' : Nat} (within : K.Within p p' k c) (near : Beside K.near r r') (low : r.left < k)
    (enough : r.left < rounds) (more : rounds ≤ rounds') :
    K.Agree K.either (below k) (objectPattern p rounds) (objectPattern p' rounds') s r r' := by
  induction rounds generalizing rounds' r r' with
  | zero => omega
  | succ rounds ih =>
      obtain ⟨rounds', rfl⟩ := Nat.exists_eq_add_of_le' (Nat.le_trans (Nat.le_add_left 1 rounds) more)
      refine .eatClose near.either (Nat.le_of_lt low) (fun _ _ either low => .pure either low) fun _ => ?_
      refine .eatMark "..." rfl near.either (Nat.le_of_lt low) (fun _ r₁ r₁' near low => ?_) fun _ => ?_
      · refine (within.pattern near.either low).bind fun target r₂ r₂' either low => ?_
        have last {r r'} (either : Beside K.either r r') (low : r.left < k) :
            K.Agree K.either (below k)
              (do Grammar.endOfRest "\x7d"
                  return [PatternMember.rest target])
              (do Grammar.endOfRest "\x7d"
                  return [PatternMember.rest target]) s r r' :=
          (endOfRest either low).bind fun _ _ _ either low => .pure either low
        cases target with
        | name => exact last either low
        | _ => exact .flawIf either fun either => last either low
      have le : r.left + 1 ≤ k := low
      refine ((within.mono le).patternMember near (Nat.le_succ _)).bind fun first r₁ r₁' either first_low => ?_
      have first_low : r₁.left ≤ r.left := Nat.le_of_lt_succ first_low
      refine .eatClose either (Nat.le_trans first_low (Nat.le_of_lt low)) (fun _ _ either low => .pure either low)
        fun _ => ?_
      refine (Agree.takeMark "," rfl either (Nat.le_refl r₁.left)).bind fun _ r₂ r₂' near comma_low => ?_
      have comma_low : r₂.left < r₁.left := comma_low
      refine (ih near (by omega) (by omega) (by omega)).bind fun _ _ _ either low => ?_
      exact .pure either low

theorem bindingPattern (within : K.Within p p' k c) (either : Beside K.either r r') (low : r.left ≤ k) :
    K.Agree K.either (below k) (bindingPattern p) (bindingPattern p') s r r' := by
  refine .eatMark "[" rfl either low (fun _ r₁ r₁' near low => ?_) fun _ => ?_
  · exact (within.arrayPattern near low (Nat.lt_trans low within.rounds) within.more).bind
      fun _ _ _ either low => .pure either low
  refine .eatMark "\x7b" rfl either low (fun _ r₁ r₁' near low => ?_) fun _ => ?_
  · exact (within.objectPattern near low (Nat.lt_trans low within.rounds) within.more).bind
      fun _ _ _ either low => .pure either low
  · exact (Agree.bindingName either low).bind fun _ _ _ near low => .pure near.either low

/-- The left side of an assignment, which is not one itself. -/
theorem targetNames {operator : String} {e : Expr} (beside : Beside K.near r r') (low : r.left < k) :
    K.Agree K.near (fun _ next => next.token = r.token ∧ next.left < k)
      (do if operator == "=" then
            match targetNames e with
            | some starts => settleDefaults starts
            | none => Reading.fail
          else Reading.need (isSimpleTarget e))
      (do if operator == "=" then
            match targetNames e with
            | some starts => settleDefaults starts
            | none => Reading.fail
          else Reading.need (isSimpleTarget e)) s r r' := by
  refine .ite (fun _ => ?_) fun _ => ?_
  · cases Grammar.targetNames e with
    | none => exact .fail
    | some starts =>
        exact .gives (beside.change (fun r => { r with defaults := r.defaults.filter (!starts.contains ·) })
          (fun _ => rfl) fun _ _ => rfl) ⟨rfl, low⟩
  · exact (Agree.need beside).imp (fun _ _ => id) fun _ _ ⟨_, same⟩ => ⟨same ▸ rfl, same ▸ low⟩

theorem checkTarget {operator : String} {e : Expr} (beside : Beside K.near r r') (low : r.left < k) :
    K.Agree K.near (fun _ next => next.token = r.token ∧ next.left < k) (checkTarget operator e)
      (checkTarget operator e) s r r' := by
  unfold Grammar.checkTarget
  cases e with
  | assign => exact .fail
  | _ => exact targetNames beside low

end Patterns

section Functions

theorem block (within : K.Within p p' k c) (either : Beside K.either r r') (low : r.left ≤ k) :
    K.Agree K.either (below k) (block p) (block p') s r r' := by
  refine (Agree.takeMark "\x7b" rfl either low).bind fun _ r₁ r₁' near low => ?_
  refine .closeBrace (P := K.lost) (fun _ => K.lost_open) (Agree.braced isInside_run rfl ?_ within.strayStatements
    near.either low (Nat.lt_trans low within.rounds) within.more) (fun _ => Agree.closes_bind Agree.closes_take)
    (fun _ => Agree.closes_bind Agree.closes_take) fun _ _ _ either low => ?_
  · intro j r r' lt near _ low
    exact .inl ((within.statement false near (Nat.lt_of_le_of_lt low lt)).mono low)
  · exact (Agree.closeMark either (Nat.le_of_lt low)).bind fun _ _ _ either low => .pure either low

theorem functionTail (isAsync isGenerator ofConstructor : Bool) (name : Option String) (within : K.Within p p' k c)
    (either : Beside K.either r r') (low : r.left ≤ k) :
    K.Agree K.either (below k) (functionTail p isAsync isGenerator ofConstructor name)
      (functionTail p' isAsync isGenerator ofConstructor name) s r r' := by
  refine .under (by rfl) ?_
  refine (within.typeParametersHere either low).bind fun _ r₁ r₁' either le => ?_
  refine (within.parameters ofConstructor either (Nat.le_trans le low)).bind fun parameters r₂ r₂' either low => ?_
  refine (within.resultAnnotated either low).bind fun _ r₃ r₃' either low => ?_
  refine .isMark either (.ite (fun _ => ?_) fun _ => ?_)
  · refine .setting (.flawIf either fun either => ?_)
    exact (Agree.under (by rfl) (within.block either low.le)).bind fun _ _ _ either low => .pure either low
  · refine .typed ((Agree.need either).bind fun _ _ _ either ⟨_, same⟩ => ?_)
    exact .pure either (same ▸ low)

theorem isAsyncFunctionAhead (either : Beside K.either r r') :
    K.Look (leading r) isAsyncFunctionAhead isAsyncFunctionAhead s r r' := by
  refine .ahead (.isWord "async" rfl (T := K.either) either (.ite (fun isAsync => ?_) fun _ => .pure either nofun))
  have goes := Lexeme.goesOn_of_isWord isAsync
  refine (Agree.advance either goes (Nat.le_refl _)).bind fun _ r₁ r₁' near _ => ?_
  exact .isWord "function" rfl near.either (.newLine near (.pure near.either fun _ => goes))

theorem functionValue (within : K.Within p p' k c) (either : Beside K.either r r') (low : r.left ≤ k) :
    K.Agree K.either (below k) (functionValue p) (functionValue p') s r r' := by
  have rest (isAsync : Bool) {r r' : Reader} (either : Beside K.either r r') (low : r.left ≤ k) :
      K.Agree K.either (below k)
        (do Reading.takeWord "function"
            let isGenerator ← Reading.eatMark "*"
            let name ← Reading.under (inFunction isAsync isGenerator) Reading.optionalBindingName
            return Expr.function (← Grammar.functionTail p isAsync isGenerator false name))
        (do Reading.takeWord "function"
            let isGenerator ← Reading.eatMark "*"
            let name ← Reading.under (inFunction isAsync isGenerator) Reading.optionalBindingName
            return Expr.function (← Grammar.functionTail p' isAsync isGenerator false name)) s r r' := by
    refine (Agree.takeWord "function" rfl either low).bind fun _ r₁ r₁' near low => ?_
    refine (Agree.eatsMark near.either low).bind fun isGenerator r₂ r₂' either low => ?_
    refine (Agree.under (by rfl) (Agree.optionalBindingName either low)).bind fun name r₃ r₃' either low => ?_
    exact (within.functionTail isAsync isGenerator false name either low.le).bind
      fun _ _ _ either low => .pure either low
  exact .eatWord "async" rfl either low
    (fun _ _ near low => rest true near.either (Nat.le_of_lt low)) (rest false either low)

theorem functionDeclaration (needsName : Bool) (within : K.Within p p' k c) (either : Beside K.either r r')
    (low : r.left ≤ k) :
    K.Agree K.either (below k) (functionDeclaration p needsName) (functionDeclaration p' needsName) s r r' := by
  have rest (isAsync : Bool) {r r' : Reader} (either : Beside K.either r r') (low : r.left ≤ k) :
      K.Agree K.either (below k)
        (do Reading.takeWord "function"
            let isGenerator ← Reading.eatMark "*"
            let name ← Reading.optionalBindingName
            Reading.flawIf (needsName && name.isNone)
            let found ← Grammar.functionTail p isAsync isGenerator false name
            if !found.hasBody then Reading.endStatement
            return found)
        (do Reading.takeWord "function"
            let isGenerator ← Reading.eatMark "*"
            let name ← Reading.optionalBindingName
            Reading.flawIf (needsName && name.isNone)
            let found ← Grammar.functionTail p' isAsync isGenerator false name
            if !found.hasBody then Reading.endStatement
            return found) s r r' := by
    refine (Agree.takeWord "function" rfl either low).bind fun _ r₁ r₁' near low => ?_
    refine (Agree.eatsMark near.either low).bind fun isGenerator r₂ r₂' either low => ?_
    refine (Agree.optionalBindingName either low).bind fun name r₃ r₃' either low => .flawIf either fun either => ?_
    refine (within.functionTail isAsync isGenerator false name either low.le).bind fun found r₄ r₄' either low => ?_
    refine .ite (fun _ => ?_) fun _ => .pure either low
    exact (Agree.endStatement either low).bind fun _ _ _ either low => .pure either low
  exact .eatWord "async" rfl either low
    (fun _ _ near low => rest true near.either (Nat.le_of_lt low)) (rest false either low)

end Functions

section Arrows

theorem mayStartParameters (either : Beside K.either r r') :
    K.Look (fun _ => True) mayStartParameters mayStartParameters s r r' := by
  refine (Agree.holdsAhead (T := K.either) (P := fun _ _ => True) ?_).imp fun _ _ => trivial
  refine .isMark either (.ite (fun angle => ?_) fun _ => ?_)
  · have goes := Lexeme.goesOn_of_isMark angle rfl
    refine (Agree.advance either goes (Nat.le_refl _)).bind fun _ r₁ r₁' near low => ?_
    refine (Agree.eatsWord near low).bind fun _ r₂ r₂' near low => .isBindingWord near.either ?_
    cases isBinding : r₂.token.lexeme.isBindingWord with
    | false => exact .pure near.either trivial
    | true =>
        refine (Agree.advance near.either (Lexeme.goesOn_of_isBindingWord isBinding) low.le).bind
          fun _ r₃ r₃' near low => ?_
        refine .eatWord "extends" rfl near.either low.le
          (fun r₄ r₄' near low => ?_) ((Look.isOneOf near.either).sees near.either)
        exact .isOneOf near.either (.pure near.either trivial)
  · refine (Agree.takeMark "(" rfl either (Nat.le_refl _)).bind fun _ r₁ r₁' near low => ?_
    refine .isOneOf near.either (.ite (fun _ => .pure near.either trivial) fun _ => ?_)
    refine .isBindingWord near.either
      (.isWord "this" rfl near.either (.ite (fun word => ?_) fun _ => .pure near.either trivial))
    have goes : r₁.token.lexeme.goesOn = true :=
      (Bool.or_eq_true_iff.mp word).elim Lexeme.goesOn_of_isBindingWord Lexeme.goesOn_of_isWord
    refine (leadsParameter near.either).bind fun leading _ => ?_
    refine (Agree.advance near.either goes low.le).bind fun _ r₂ r₂' near low => ?_
    exact .isOneOf near.either (.pure near.either trivial)

theorem arrowHead (isAsync : Bool) (within : K.Within p p' k c) (either : Beside K.either r r') (low : r.left ≤ k) :
    K.Agree K.near (below k) (arrowHead p isAsync) (arrowHead p' isAsync) s r r' := by
  refine .under (by rfl) ?_
  refine (within.typeParametersHere either low).bind fun _ r₁ r₁' either le => ?_
  refine (within.parameters false either (Nat.le_trans le low)).bind fun _ r₂ r₂' either low => ?_
  refine (within.resultAnnotated either low).bind fun _ r₃ r₃' either low => .isMark either ?_
  refine (Agree.need either).bind fun _ r₄ r₄' passed ⟨arrow, same⟩ => ?_
  subst same
  have goes := Lexeme.goesOn_of_isMark arrow rfl
  have near := passed.near_of_ne (Lexeme.ne_ending_of_isRead (Lexeme.isRead_of_goesOn goes))
  refine .newLine near (.flawIf near fun near => ?_)
  exact (Agree.advance near.either goes low.le).bind fun _ _ _ near low => .pure near low

theorem arrowBody (isAsync resultType : Bool) (within : K.Within p p' k c) (either : Beside K.either r r')
    (low : r.left < k) :
    K.Agree K.either (below k) (arrowBody p isAsync resultType) (arrowBody p' isAsync resultType) s r r' := by
  refine .under (by rfl) (.isMark either (.ite (fun _ => ?_) fun _ => ?_))
  · exact (Agree.under (by rfl) (Agree.under (by rfl) (within.block either (Nat.le_of_lt low)))).bind
      fun _ _ _ either low => .pure either low
  · exact (within.read (.assignment resultType) rfl either low).bind fun _ _ _ either low => .pure either low

theorem arrowFunction (resultType : Bool) (within : K.Within p p' k c) (either : Beside K.either r r')
    (low : r.left ≤ k) :
    K.Agree K.either (Agree.moved r) (arrowFunction p resultType) (arrowFunction p' resultType) s r r' := by
  have within := within.mono low
  refine Look.bind (Look.wordAhead "async" rfl (T := K.either) either fun _ _ near => ?_) fun isAsync goes => ?_
  · exact .newLine near (.isOneOf near.either (.pure near.either trivial))
  refine Look.bind (P := fun _ => True) ((Agree.holdsAhead (T := K.either) (P := fun _ _ => True) ?_).imp
    fun _ _ => trivial) fun starts _ => .ite (fun _ => .pure either rfl) fun _ => ?_
  · refine .ite (fun holds => ?_) fun _ => (mayStartParameters either).sees either
    refine (Agree.advance either (goes holds) (Nat.le_refl _)).bind fun _ _ _ near _ => ?_
    exact (mayStartParameters near.either).sees near.either
  have rest {r₁ r₁' : Reader} (either : Beside K.either r₁ r₁') (low : r₁.left ≤ r.left) :
      K.Agree K.either (below r.left)
        (do let hasType ← Grammar.arrowHead p isAsync
            Grammar.arrowBody p isAsync resultType
            if hasType && !resultType then Reading.need (← Reading.isMark ":")
            return Expr.other)
        (do let hasType ← Grammar.arrowHead p' isAsync
            Grammar.arrowBody p' isAsync resultType
            if hasType && !resultType then Reading.need (← Reading.isMark ":")
            return Expr.other) s r₁ r₁' := by
    refine (within.arrowHead isAsync either low).bind fun hasType r₂ r₂' near low => ?_
    refine (within.arrowBody isAsync resultType near.either low).bind fun _ r₃ r₃' either low => ?_
    refine .ite (fun _ => .isMark either ?_) fun _ => .pure either low
    exact (Agree.need either).bind fun _ _ _ either ⟨_, same⟩ => .pure either (same ▸ low)
  refine .tried either (.ite (fun _ => ?_) fun _ => rest either (Nat.le_refl _))
  exact (Agree.takeWord "async" rfl either (Nat.le_refl _)).bind fun _ _ _ near low => rest near.either low.le

theorem asyncNameArrow (resultType : Bool) (within : K.Within p p' k c) (either : Beside K.either r r')
    (low : r.left ≤ k) :
    K.Agree K.either (Agree.moved r) (asyncNameArrow p resultType) (asyncNameArrow p' resultType) s r r' := by
  have within := within.mono low
  refine Look.bind (Look.wordAhead "async" rfl (T := K.either) either fun r₁ r₁' near => ?_) fun starts _ =>
    .ite (fun _ => .pure either rfl) fun _ => ?_
  · refine .newLine near (.isBindingWord near.either ?_)
    cases isBinding : r₁.token.lexeme.isBindingWord with
    | false =>
        rw [Bool.not_false, Bool.or_true]
        exact .pure near.either trivial
    | true =>
        refine .ite (fun _ => .pure near.either trivial) fun _ => ?_
        refine (Agree.advance near.either (Lexeme.goesOn_of_isBindingWord isBinding) (Nat.le_refl _)).bind
          fun _ _ _ near _ => ?_
        exact (Look.isMark near.either).sees near.either
  refine (Agree.takeWord "async" rfl either (Nat.le_refl _)).bind fun _ r₁ r₁' near low => ?_
  refine (Agree.under (by rfl) (Agree.bindingName near.either low.le)).bind fun _ r₂ r₂' near low => ?_
  refine .newLine near (.flawIf near fun near => ?_)
  refine (Agree.takeMark "=>" rfl near.either low.le).bind fun _ r₃ r₃' near low => ?_
  exact (within.arrowBody true resultType near.either low).bind fun _ _ _ either low => .pure either low

end Arrows

end Realms.Script.Lockstep.Within

/-!
Classes, read in step.
-/
namespace Realms.Script

open Grammar Reading

namespace Lockstep.Within

variable {K : Lockstep} {p p' : Inner} {k c : Nat} {s : Setting} {r r' : Reader}

theorem canFollowMemberWord (near : Beside K.near r r') :
    K.Look (fun _ => True) canFollowMemberWord canFollowMemberWord s r r' := by
  refine .of_agree near (.isOneOf near.either (.ite (fun _ => .pure near.here ⟨trivial, rfl⟩) fun _ => ?_))
  exact (isKeyAhead near).agree near.here

theorem leadsMember (before : List String) (either : Beside K.either r r') :
    K.Look (leading r) (leadsMember before) (leadsMember before) s r r' := by
  refine .ahead (.lexemeAt (T := K.either) either (fun near => ?_) fun _ => ?_)
  · split
    · rename_i name escaped front
      have goes : r.token.lexeme.goesOn = true := front ▸ rfl
      refine .ite (fun _ => .pure either nofun) fun _ => .ite (fun _ => .pure either nofun) fun _ => ?_
      refine (Agree.advance either goes (Nat.le_refl _)).bind fun _ r₁ r₁' near _ => .ite (fun _ => ?_) fun _ => ?_
      · refine (canFollowMemberWord near).bind fun follows _ => ?_
        exact .isMark near.either (.pure near.either fun _ => goes)
      · refine .newLine near ((canFollowMemberWord near).bind fun follows _ => ?_)
        exact .pure near.either fun _ => goes
    · exact .pure either nofun
  · have other : (memberWords ++ typedMemberWords).contains "import" = false := by decide
    simp only [other]
    exact .pure either nofun

theorem leadingWords {rounds rounds' : Nat} (either : Beside K.either r r') (low : r.left < k)
    (enough : r.left < rounds)
    (more : rounds ≤ rounds') (before : List String) :
    K.Agree K.either (below k) (leadingWords before rounds) (leadingWords before rounds') s r r' := by
  induction rounds generalizing rounds' r r' before with
  | zero => omega
  | succ rounds ih =>
      obtain ⟨rounds', rfl⟩ := Nat.exists_eq_add_of_le' (Nat.le_trans (Nat.le_add_left 1 rounds) more)
      refine (leadsMember before either).bind fun found leads => .ite (fun holds => ?_) fun _ => .pure either low
      have near := either.near_of_ne (Lexeme.ne_ending_of_isRead (Lexeme.isRead_of_goesOn (leads holds)))
      refine (Agree.languageWord near (Nat.le_refl _)).bind fun word r₁ r₁' near word_low => ?_
      have word_low : r₁.left < r.left := word_low
      refine .flawIf near fun near => .typed (.flawIf near fun near => ?_)
      exact ih near.either (Nat.lt_trans word_low low) (Nat.lt_of_lt_of_le word_low (Nat.le_of_lt_succ enough))
        (by omega) _

theorem accessorAhead (either : Beside K.either r r') :
    K.Look (fun found => found.isSome = true → r.token.lexeme.goesOn = true) accessorAhead accessorAhead s r r' := by
  have leads (word : String) (other : ("import" == word) = false) :
      K.Look (leading r) (Reading.holdsAhead (do Reading.takeWord word; Grammar.isKeyAhead))
        (Reading.holdsAhead (do Reading.takeWord word; Grammar.isKeyAhead)) s r r' :=
    .wordAhead word other (T := K.either) either fun _ _ near => (isKeyAhead near).sees near.either
  refine .of_agree either ((leads "get" rfl).bind fun get getLeads => .ite (fun holds => ?_) fun _ => ?_)
  · exact .pure either.here ⟨fun _ => getLeads holds, rfl⟩
  refine (leads "set" rfl).bind fun set setLeads => .ite (fun holds => ?_) fun _ => .pure either.here ⟨nofun, rfl⟩
  exact .pure either.here ⟨fun _ => setLeads holds, rfl⟩

theorem endMethod {value : Function} (either : Beside K.either r r') (low : r.left < k) :
    K.Agree K.either (below k) (endMethod value) (endMethod value) s r r' :=
  .ite (fun _ => Agree.endStatement either low) fun _ => .pure either low

theorem classAccessor (kind : AccessorKind) (isStatic : Bool) (within : K.Within p p' k c)
    (either : Beside K.either r r')
    (goes : r.token.lexeme.goesOn = true) (low : r.left ≤ k) :
    K.Agree K.either (below k) (classAccessor p kind isStatic) (classAccessor p' kind isStatic) s r r' := by
  refine (Agree.advance either goes low).bind fun _ r₁ r₁' near low => ?_
  refine (within.key near low.le).bind fun key r₂ r₂' near low => .flawIf near fun near => .flawIf near fun near => ?_
  refine (within.functionTail false false false none near.either (Nat.le_of_lt low)).bind
    fun value r₃ r₃' either low => ?_
  exact .flawIf either fun either => endMethod either low

theorem classField (within : K.Within p p' k c) (either : Beside K.either r r') (low : r.left < k) :
    K.Agree K.either (below k) (classField p) (classField p') s r r' := by
  refine (within.annotated either low).bind fun _ r₁ r₁' either low => ?_
  refine .eatMark "=" rfl either low.le (fun _ r₂ r₂' near low => ?_) fun _ => Agree.endStatement either low
  refine (Agree.under (by rfl) (within.expression near.either low)).bind fun _ r₃ r₃' either low => ?_
  exact Agree.endStatement either low

theorem classKeyed_near (words : List String) (decorated : Bool) (within : K.Within p p' k c)
    (near : Beside K.near r r')
    (low : r.left ≤ k) :
    K.Agree K.either (below k) (classKeyed p words decorated) (classKeyed p' words decorated) s r r' := by
  unfold Grammar.classKeyed
  refine (Agree.eatsMarkHere "*" rfl near low).bind fun isGenerator r₁ r₁' near low => ?_
  refine (within.key near low).bind fun key r₂ r₂' near low => ?_
  refine .flawIf near fun near => .flawIf near fun near => .typed ?_
  extract_lets rest rest'
  have last {r r' : Reader} (either : Beside K.either r r') (low : r.left < k) :
      K.Agree K.either (below k) (rest ()) (rest' ()) s r r' := by
    refine .isOneOf either (.ite (fun _ => .flawIf either fun either => ?_) fun _ => .flawIf either fun either => ?_)
    · refine (within.functionTail _ isGenerator _ none either (Nat.le_of_lt low)).bind
        fun value r₁ r₁' either low => ?_
      exact endMethod either low
    · exact within.classField either low
  refine .ite (fun _ => ?_) fun _ => last near.either low
  refine .eatMark "?" rfl near.either (Nat.le_of_lt low) (fun _ _ _ near low => last near.either low) fun _ => ?_
  refine .newLine near (.ite (fun _ => ?_) fun _ => last near.either low)
  exact (Agree.eatsMark near.either low).bind fun _ _ _ either low => last either low

end Lockstep.Within

section Imports

variable {α β : Type} {p : Inner} {s : Setting} {r : Reader}

/-- In front of a brace on the line of what was read. -/
structure OnBrace (r : Reader) : Prop where
  brace : r.token.lexeme = .mark "\x7b"
  onLine : r.token.newLine = false

theorem OnBrace.other (on : OnBrace r) (mark : String) (other : ("\x7b" == mark) = false) :
    (r.token.lexeme == .mark mark) = false := by
  rw [on.brace]
  exact beq_eq_false_iff_ne.mpr fun same => beq_eq_false_iff_ne.mp other (Lexeme.mark.inj same)

/-- A reading that cannot go on with a brace. -/
def Stuck (m : Reading α) : Prop := ∀ s r, OnBrace r → m s r = none

/-- A reading that stays in front of a brace. -/
def Stays (m : Reading α) : Prop := ∀ s r, OnBrace r → ∃ a next, m s r = some (a, next) ∧ OnBrace next

namespace Stuck

variable {m n : Reading α} {f : α → Reading β}

theorem bind (stays : Stays m) (later : ∀ a, Stuck (f a)) : Stuck (m >>= f) := fun s r on => by
  obtain ⟨a, next, runs, on⟩ := stays s r on
  rw [bind_run, runs]
  exact later a s next on

theorem first (stuck : Stuck m) : Stuck (m >>= f) := fun s r on => by
  rw [bind_run, stuck s r on]

theorem under {change : Setting → Setting} (stuck : Stuck m) : Stuck (Reading.under change m) :=
  fun s r on => stuck (change s) r on

theorem ite {c : Prop} [Decidable c] (yes : c → Stuck m) (no : ¬c → Stuck n) : Stuck (if c then m else n) := by
  split
  · exact yes ‹_›
  · exact no ‹_›

theorem takeMark {mark : String} (other : ("\x7b" == mark) = false) : Stuck (Reading.takeMark mark) := fun s r on => by
  rw [takeMark_run, on.other mark other]
  rfl

theorem eatMark {mark : String} {f : Bool → Reading β} (other : ("\x7b" == mark) = false) (later : Stuck (f false)) :
    Stuck (Reading.eatMark mark >>= f) := fun s r on => by
  rw [bind_run, Reading.eatMark_other (on.other mark other)]
  exact later s r on

theorem endStatement : Stuck Reading.endStatement := fun s r on => by
  simp [Reading.endStatement, canEnd, on.onLine, on.brace]

end Stuck

namespace Stays

theorem flawIf (broken : Bool) : Stays (Reading.flawIf broken) := fun _ _ on => ⟨_, _, rfl, on.brace, on.onLine⟩

theorem isOneOf (marks : List String) : Stays (Reading.isOneOf marks) := fun _ _ on => ⟨_, _, isOneOf_run marks, on⟩

theorem typed : Stays Reading.typed := fun _ _ on => ⟨_, _, rfl, on⟩

theorem newLine : Stays Reading.newLine := fun _ _ on => ⟨_, _, rfl, on⟩

theorem eatMark {mark : String} (other : ("\x7b" == mark) = false) : Stays (Reading.eatMark mark) :=
  fun _ _ on => ⟨_, _, Reading.eatMark_other (on.other mark other), on⟩

theorem annotated : Stays p.annotation := fun s r on => by
  refine ⟨(), r, ?_, on⟩
  unfold Inner.annotation
  cases types : s.types
  all_goals simp [types, Reading.eatMark_other (on.other ":" rfl)]

theorem typeParameters : Stays (typeParameters p) := fun s r on => by
  refine ⟨(), r, ?_, on⟩
  cases types : s.types
  all_goals simp [Grammar.typeParameters, types, on.brace]

end Stays

theorem functionTail_stuck {isAsync isGenerator ofConstructor : Bool} {name : Option String} :
    Stuck (functionTail p isAsync isGenerator ofConstructor name) :=
  .under (.bind .typeParameters fun _ => .first (.first (.takeMark rfl)))

theorem classField_stuck : Stuck (classField p) :=
  .bind .annotated fun _ => .eatMark rfl (.ite nofun fun _ => .endStatement)

/-- No member of a class is an import with a brace behind it. -/
theorem classKeyed_import (words : List String) (decorated : Bool) (opens : r.token.OpensImport) :
    classKeyed p words decorated s r = none := by
  have word : r.token.lexeme = .word "import" false := opens.lexeme
  have notStar : (r.token.lexeme == .mark "*") = false := by
    rw [word]
    rfl
  have keyed : key p s r = some (.name "import", r.next) := by simp [key, word, anyWord, Reading.skipName]
  unfold classKeyed
  rw [bind_run, Reading.eatMark_other notStar]
  dsimp only
  rw [bind_run, keyed]
  dsimp only
  have tail : Stuck (do
      if false || words.contains "async" || (← Reading.isOneOf ["(", "<"]) then
        Reading.flawIf ((!words.contains "static" && isPlainKey (.name "import") "constructor") &&
          (words.contains "async" || false || decorated))
        let value ← functionTail p (words.contains "async") false
          (!words.contains "static" && isPlainKey (.name "import") "constructor") none
        endMethod value
      else
        Reading.flawIf (isPlainKey (.name "import") "constructor")
        classField p) :=
    .bind (.isOneOf _) fun _ => .ite (fun _ => .bind (.flawIf _) fun _ => .first functionTail_stuck)
      fun _ => .bind (.flawIf _) fun _ => classField_stuck
  refine (?_ : Stuck _) s r.next ⟨opens.brace, opens.onLine⟩
  refine .bind (.flawIf _) fun _ => .bind (.flawIf _) fun _ => .bind .typed fun _ => .ite (fun _ => ?_) fun _ => tail
  refine .eatMark rfl (.ite (fun _ => ?_) fun other => absurd rfl other)
  refine .bind .newLine fun _ => .ite (fun _ => ?_) fun _ => tail
  exact .bind (.eatMark rfl) fun _ => tail

theorem classMember_import (opens : r.token.OpensImport) : classMember p s r = none := by
  have word : r.token.lexeme = .word "import" false := opens.lexeme
  have notAt : (r.token.lexeme == .mark "@") = false := by
    rw [word]
    rfl
  have notBracket : (r.token.lexeme == .mark "[") = false := by
    rw [word]
    rfl
  have noWord (name : String) (other : ("import" == name) = false) : takeWord name s r = none := by
    simp [takeWord, word, Lexeme.isWord, other]
  have leads : leadsMember [] s r = some (false, r) := by
    have other : "import" ∉ memberWords ∧ "import" ∉ typedMemberWords := by decide
    simp [leadsMember, word, other]
  have words : leadingWords [] p.rounds s r = some ([], r) := by
    cases p.rounds with
    | zero => rfl
    | succ rounds => simp [leadingWords, leads]
  have accessor : accessorAhead s r = some (none, r) := by
    simp [accessorAhead, noWord "get" rfl, noWord "set" rfl]
  have decorated : decorators p s r = none ∨ decorators p s r = some (false, r) := by
    cases rounds : p.rounds with
    | zero => exact .inl (by simp [decorators, rounds, repeatWhile])
    | succ rounds => exact .inr (by simp [decorators, rounds, repeatWhile, Reading.eatMark_other notAt])
  rcases decorated with fails | runs
  · simp [classMember, fails]
  · cases types : s.types
    all_goals
      simp [classMember, runs, noWord "static" rfl, words, accessor, types, notBracket, classKeyed_import _ _ opens]

end Imports

namespace Lockstep.Within

variable {K : Lockstep} {p p' : Inner} {k c : Nat} {s : Setting} {r r' : Reader}

theorem classKeyed (words : List String) (decorated : Bool) (within : K.Within p p' k c) (either : Beside K.either r r')
    (low : r.left ≤ k) :
    K.Agree K.either (below k) (classKeyed p words decorated) (classKeyed p' words decorated) s r r' := by
  rcases either.cases with near | seam
  · exact within.classKeyed_near words decorated near low
  · have notStar : (r.token.lexeme == .mark "*") = false := by
      rw [seam.ending]
      rfl
    have here_none : Grammar.classKeyed p words decorated s r = none := by
      simp [Grammar.classKeyed, Reading.eatMark_other notStar, Grammar.key, seam.ending, anyWord]
    rw [Agree, here_none, classKeyed_import words decorated seam.opensImport]
    exact .fails

theorem classMember (within : K.Within p p' k c) (either : Beside K.either r r') (low : r.left ≤ k) :
    K.Agree K.either (below k) (classMember p) (classMember p') s r r' := by
  refine (within.decoratorsHere either low).bind fun decorated r₁ r₁' either le => ?_
  have low₁ : r₁.left ≤ k := Nat.le_trans le low
  refine Look.bind
    (Look.wordAhead "static" rfl (T := K.either) either fun _ _ near => (Look.isMark near.either).sees near.either)
    fun opensBlock goes => .ite (fun holds => ?_) fun _ => ?_
  · refine .flawIf either fun either => ?_
    refine (Agree.advance either (goes holds) low₁).bind fun _ r₂ r₂' near low => ?_
    exact (Agree.under (by rfl) (within.block near.either low.le)).bind fun _ _ _ either low => .pure either low
  refine (leadingWords either (Nat.lt_succ_self _) (Nat.lt_of_le_of_lt low₁ within.rounds) within.more []).bind
    fun words r₂ r₂' either words_low => ?_
  have low₂ : r₂.left ≤ k := Nat.le_trans (Nat.le_of_lt_succ words_low) low₁
  refine (accessorAhead either).bind fun accessor goes => ?_
  cases accessor with
  | some kind => exact within.classAccessor kind _ either (goes rfl) low₂
  | none =>
      refine .typed (.isMark either (.ite (fun _ => ?_) fun _ => within.classKeyed words decorated either low₂))
      have signed : K.Agree K.either (below k) (do Grammar.indexSignature p; Grammar.endTypeMember)
          (do Grammar.indexSignature p'; Grammar.endTypeMember) s r₂ r₂' :=
        (within.indexSignature either low₂).bind fun _ _ _ either low => endTypeMember either low
      exact .attempt signed (fun _ _ _ either low => .pure either low) (within.classKeyed words decorated either low₂)

theorem classBody (within : K.Within p p' k c) (either : Beside K.either r r') (low : r.left ≤ k) :
    K.Agree K.either (below k) (classBody p) (classBody p') s r r' := by
  refine (Agree.takeMark "\x7b" rfl either low).bind fun _ r₁ r₁' near low => ?_
  refine closedItems (fun lt near _ low => ?_) (fun opens => ?_) within near.either low
  · refine .eatClose near.either low (fun _ _ either low => .pure either low) fun _ => ?_
    exact (within.mono (Nat.le_of_lt lt)).classMember near.either low
  · have notEnd : (Lexeme.word "import" false == .mark ";") = false := rfl
    rw [bind_run, Reading.eatMark_other (opens.lexeme ▸ notEnd)]
    exact classMember_import opens

theorem heritage (within : K.Within p p' k c) (either : Beside K.either r r') (low : r.left < k) :
    K.Agree K.either (below k) (heritage p) (heritage p') s r r' := by
  unfold Grammar.heritage
  have implemented {r r' : Reader} (either : Beside K.either r r') (low : r.left < k) :
      K.Agree K.either (below k)
        (do if (← Reading.typed) && (← Reading.isWord "implements") then
              Reading.advance
              p.type
              let _ ← repeatWhile (Reading.eatMark ",") p.type p.rounds)
        (do if (← Reading.typed) && (← Reading.isWord "implements") then
              Reading.advance
              p'.type
              let _ ← repeatWhile (Reading.eatMark ",") p'.type p'.rounds) s r r' := by
    refine .typed (.isWord "implements" rfl either (.ite (fun holds => ?_) fun _ => .pure either low))
    have goes := Lexeme.goesOn_of_isWord (Bool.and_eq_true_iff.mp holds).2
    refine (Agree.advance either goes (Nat.le_of_lt low)).bind fun _ r₁ r₁' near low => ?_
    refine (within.type near.either low).bind fun _ r₂ r₂' either low => ?_
    refine (Agree.repeatMarked "," rfl
      (fun lt near low => (within.mono (Nat.le_of_lt lt)).type near.either low) either low
      (Nat.lt_trans low within.rounds) within.more).bind fun _ _ _ either low => ?_
    exact .pure either low
  refine .eatWord "extends" rfl either (Nat.le_of_lt low) (fun r₁ r₁' near low => ?_) (implemented either low)
  refine (within.read .operand rfl near.either low).bind fun _ r₂ r₂' either low => .typed (.isOneOf either ?_)
  refine .ite (fun _ => ?_) fun _ => implemented either low
  exact (within.typeArguments either low).bind fun _ _ _ either low => implemented either low

theorem classTail (within : K.Within p p' k c) (either : Beside K.either r r') (low : r.left ≤ k) :
    K.Agree K.either (below k) (classTail p) (classTail p') s r r' := by
  have rest (name : Option String) {r r' : Reader} (either : Beside K.either r r') (low : r.left < k) :
      K.Agree K.either (below k)
        (do Grammar.typeParameters p
            Grammar.heritage p
            Reading.under (fun s => { s with inOperator := true, decorator := false, ambient := s.ambient })
              (Grammar.classBody p)
            return name)
        (do Grammar.typeParameters p'
            Grammar.heritage p'
            Reading.under (fun s => { s with inOperator := true, decorator := false, ambient := s.ambient })
              (Grammar.classBody p')
            return name) s r r' := by
    refine (within.typeParameters either low).bind fun _ r₁ r₁' either low => ?_
    refine (within.heritage either low).bind fun _ r₂ r₂' either low => ?_
    exact (Agree.under (by rfl) (within.classBody either low.le)).bind fun _ _ _ either low => .pure either low
  refine (Agree.takeWord "class" rfl either low).bind
    fun _ r₁ r₁' near low => .isWord "implements" rfl near.either (.ite (fun _ => ?_) fun _ => ?_)
  · exact rest none near.either low
  · exact (Agree.optionalBindingName near.either low).bind fun name _ _ either low => rest name either low

end Lockstep.Within

end Realms.Script
