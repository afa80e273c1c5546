import Realms.Proofs.Script.Lockstep.ModuleItems

/-!
Statements, read in step. At the seam the first text ends, so no statement starts there in step.
-/
namespace Realms.Script

/-- A lexeme that stands in a case. -/
def Lexeme.isCased (lexeme : Lexeme) : Bool := lexeme.isInside && !lexeme.isWord "case" && !lexeme.isWord "default"

namespace Lockstep

open Grammar Reading

variable {α β : Type} {K : Lockstep} {p p' : Inner} {k c : Nat} {s : Setting} {r r' : Reader}

namespace Within

section Control

theorem body (within : K.Within p p' k c) (near : Beside K.near r r') (low : r.left < k) :
    K.Agree K.either (below k) (Grammar.body p) (Grammar.body p') s r r' :=
  ((within.statement true near low).mono (Nat.le_of_lt low)).bind fun _ _ _ either low => .pure either low

/-- What a statement ends with. -/
theorem bodied (stmt : Stmt) (within : K.Within p p' k c) (near : Beside K.near r r') (low : r.left < k) :
    K.Agree K.either (below k) (do Grammar.body p; return stmt) (do Grammar.body p'; return stmt) s r r' :=
  (within.body near low).bind fun _ _ _ either low => .pure either low

theorem condition (within : K.Within p p' k c) (either : Beside K.either r r') (low : r.left ≤ k) :
    K.Agree K.near (below k) (condition p) (condition p') s r r' := by
  refine (Agree.takeMark "(" rfl either low).bind fun _ r₁ r₁' near low => ?_
  exact (within.sequence near.either low).bind fun _ _ _ either low => Agree.takeMark ")" rfl either low.le

theorem ifStatement (within : K.Within p p' k c) (either : Beside K.either r r') (low : r.left ≤ k) :
    K.Agree K.either (below k) (ifStatement p) (ifStatement p') s r r' := by
  refine (Agree.takeWord "if" rfl either low).bind fun _ r₁ r₁' near low => ?_
  refine (within.condition near.either low.le).bind fun _ r₂ r₂' near low => ?_
  refine (within.body near low).bind fun _ r₃ r₃' either low => ?_
  exact .eatWord "else" rfl either low.le (fun _ _ near low => within.bodied .other near low) (.pure either low)

theorem doStatement (within : K.Within p p' k c) (either : Beside K.either r r') (low : r.left ≤ k) :
    K.Agree K.either (below k) (doStatement p) (doStatement p') s r r' := by
  refine (Agree.takeWord "do" rfl either low).bind fun _ r₁ r₁' near low => ?_
  refine (within.body near low).bind fun _ r₂ r₂' either low => ?_
  refine (Agree.takeWord "while" rfl either low.le).bind fun _ r₃ r₃' near low => ?_
  refine (within.condition near.either low.le).bind fun _ r₄ r₄' near low => ?_
  exact (Agree.eatsMark near.either low).bind fun _ _ _ either low => .pure either low

theorem guardedStatement (word : String) (within : K.Within p p' k c) (near : Beside K.near r r') (low : r.left ≤ k) :
    K.Agree K.either (below k) (guardedStatement p word) (guardedStatement p' word) s r r' := by
  refine (Agree.takeImport near low).bind fun _ r₁ r₁' near low => ?_
  exact (within.condition near.either low.le).bind fun _ _ _ near low => within.bodied .other near low

theorem countingTail (isAwait : Bool) (within : K.Within p p' k c) (either : Beside K.either r r') (low : r.left ≤ k) :
    K.Agree K.either (below k) (countingTail p isAwait) (countingTail p' isAwait) s r r' := by
  have closed {r r' : Reader} (either : Beside K.either r r') (low : r.left < k) :
      K.Agree K.either (below k)
        (do
          Reading.takeMark ")"
          Reading.flawIf isAwait
          Grammar.body p
          return Stmt.other)
        (do
          Reading.takeMark ")"
          Reading.flawIf isAwait
          Grammar.body p'
          return Stmt.other) s r r' := by
    refine (Agree.takeMark ")" rfl either (Nat.le_of_lt low)).bind fun _ r₁ r₁' near low => ?_
    exact .flawIf near fun near => within.bodied .other near low
  have stepped {r r' : Reader} (either : Beside K.either r r') (low : r.left < k) :
      K.Agree K.either (below k)
        (do
          Reading.takeMark ";"
          if !(← Reading.isMark ")") then
            let _ ← p.sequence
          Reading.takeMark ")"
          Reading.flawIf isAwait
          Grammar.body p
          return Stmt.other)
        (do
          Reading.takeMark ";"
          if !(← Reading.isMark ")") then
            let _ ← p'.sequence
          Reading.takeMark ")"
          Reading.flawIf isAwait
          Grammar.body p'
          return Stmt.other) s r r' := by
    refine (Agree.closeMark either (Nat.le_of_lt low)).bind fun _ r₁ r₁' either low => .isMark either ?_
    refine .ite (fun _ => ?_) fun _ => closed either low
    exact (within.sequence either low).bind fun _ _ _ either low => closed either low
  refine (Agree.closeMark either low).bind fun _ r₁ r₁' either low => .isMark either ?_
  refine .ite (fun _ => ?_) fun _ => stepped either low
  exact (within.sequence either low).bind fun _ _ _ either low => stepped either low

theorem iteratingTail (isAwait : Bool) (within : K.Within p p' k c) (either : Beside K.either r r')
    (goes : r.token.lexeme.goesOn = true) (low : r.left ≤ k) :
    K.Agree K.either (below k) (iteratingTail p isAwait) (iteratingTail p' isAwait) s r r' := by
  refine .isWord "in" rfl either ((Agree.advance either goes low).bind fun _ r₁ r₁' near low => ?_)
  extract_lets rest rest'
  have closed {r r' : Reader} (either : Beside K.either r r') (low : r.left < k) :
      K.Agree K.either (below k) (rest ()) (rest' ()) s r r' := by
    refine (Agree.takeMark ")" rfl either (Nat.le_of_lt low)).bind fun _ r₁ r₁' near low => ?_
    exact .flawIf near fun near => within.bodied .other near low
  refine .ite (fun _ => ?_) fun _ => ?_
  · exact (within.sequence near.either low).bind fun _ _ _ either low => closed either low
  · exact (within.expression near.either low).bind fun _ _ _ either low => closed either low

theorem loopTail (isAwait : Bool) (within : K.Within p p' k c) (either : Beside K.either r r') (low : r.left ≤ k) :
    K.Agree K.either (below k) (loopTail p isAwait) (loopTail p' isAwait) s r r' := by
  refine .isWord "in" rfl either
    (.isWord "of" rfl either (.ite (fun word => ?_) fun _ => within.countingTail isAwait either low))
  exact within.iteratingTail isAwait either
    ((Bool.or_eq_true_iff.mp word).elim Lexeme.goesOn_of_isWord Lexeme.goesOn_of_isWord) low

theorem isUsingAhead (either : Beside K.either r r') :
    K.Look (leading r) isUsingAhead isUsingAhead s r r' :=
  Look.wordAhead "using" rfl (T := K.near) either
    fun _ _ near => .isBindingWord near.either (.newLine near (.pure near trivial))

theorem isAwaitUsingAhead (either : Beside K.either r r') :
    K.Look (fun found => found = true → r.token.lexeme.goesOn = true ∧ (Agree.behind r).token.lexeme.goesOn = true)
      isAwaitUsingAhead isAwaitUsingAhead s r r' := by
  refine Look.holdsAhead (T := K.near) ?_
  refine (Agree.takeWordTo "await" rfl either).bind fun _ r₁ r₁' near ⟨goes, same⟩ => ?_
  subst same
  refine .newLine near ((isUsingAhead near.either).bind fun isUsing leads => .pure near fun found => ?_)
  exact ⟨goes, leads (Bool.and_eq_true_iff.mp found).2⟩

/-- The words in front of the variables of a loop are read up to the last one. -/
theorem loopVariables (near : Beside K.near r r') (low : r.left < k) :
    K.Agree K.near (fun found next => next.left < k ∧ (found.isSome = true → next.token.lexeme.goesOn = true))
      loopVariables loopVariables s r r' := by
  have either := near.either
  refine .isWord "let" rfl either (.ite (fun isLet => ?_) fun _ => ?_)
  · have goes := Lexeme.goesOn_of_isWord isLet
    refine Look.bind (Look.ahead (P := fun _ => True) (T := K.near) ?_) fun declares _ => ?_
    · refine (Agree.advance either goes (Nat.le_refl _)).bind fun _ r₁ r₁' near _ => .lexeme near ?_
      split
      · exact .pure near trivial
      · exact (Look.isOneOf near.either).sees near
    · exact .pure near ⟨low, fun _ => goes⟩
  refine (isUsingAhead either).bind fun isUsing goes => .ite (fun holds => ?_) fun _ => ?_
  · have goes := goes holds
    refine Look.bind (Look.ahead (P := fun _ => True) (T := K.near) ?_) fun isName _ => ?_
    · refine (Agree.advance either goes (Nat.le_refl _)).bind fun _ r₁ r₁' near _ => ?_
      exact .isWord "of" rfl near.either (.pure near trivial)
    · exact .pure near ⟨low, fun _ => goes⟩
  refine (isAwaitUsingAhead either).bind fun isUsing leads => .ite (fun holds => ?_) fun _ => ?_
  · refine (Agree.advanceTo either (leads holds).1 (Nat.le_of_lt low)).bind fun _ r₁ r₁' near ⟨same, low⟩ => ?_
    exact .pure near ⟨low, fun _ => same ▸ (leads holds).2⟩
  · refine ((variableKind either).agree near).imp (fun _ _ => id) fun _ _ ⟨goes, same⟩ => ?_
    exact same ▸ ⟨low, goes⟩

theorem expressionLoop (isAwait : Bool) (within : K.Within p p' k c) (either : Beside K.either r r') (low : r.left < k)
    :
    K.Agree K.either (below k) (expressionLoop p isAwait) (expressionLoop p' isAwait) s r r' := by
  refine .isWord "let" rfl either (Look.bind (Look.wordAhead "async" rfl (T := K.near) either fun _ _ near =>
    (Look.isWord "of" rfl near.either).sees near) fun isAsyncOf _ => ?_)
  refine (Agree.under (by rfl) (within.sequence either low)).bind fun first r₁ r₁' either low => .isWord "in" rfl either
    (.isWord "of" rfl either ?_)
  refine .ite (fun word => ?_) fun _ => within.countingTail isAwait either low.le
  have goes := (Bool.or_eq_true_iff.mp word).elim Lexeme.goesOn_of_isWord Lexeme.goesOn_of_isWord
  have near := either.near_of_ne (Lexeme.ne_ending_of_isRead (Lexeme.isRead_of_goesOn goes))
  refine (checkTarget near low).bind
    fun _ r₂ r₂' near ⟨same, low⟩ => .isWord "of" rfl near.either (.flawIf near fun near => ?_)
  exact within.iteratingTail isAwait near.either (same ▸ goes) (Nat.le_of_lt low)

theorem forStatement (within : K.Within p p' k c) (either : Beside K.either r r') (low : r.left ≤ k) :
    K.Agree K.either (below k) (forStatement p) (forStatement p') s r r' := by
  refine (Agree.takeWord "for" rfl either low).bind fun _ r₁ r₁' near low => .isWord "await" rfl near.either ?_
  extract_lets rest rest'
  have last {q q' : Reader} (near : Beside K.near q q') (short : q.left < k) :
      K.Agree K.either (below k) (rest ()) (rest' ()) s q q' := by
    refine (Agree.takeMark "(" rfl near.either (Nat.le_of_lt short)).bind
      fun _ r₂ r₂' near low => .isMark near.either ?_
    refine .ite (fun _ => within.countingTail _ near.either low.le) fun _ => ?_
    refine (loopVariables near low).bind fun kind r₃ r₃' near ⟨low, goes⟩ => ?_
    cases kind with
    | none => exact within.expressionLoop _ near.either low
    | some kind =>
        refine (Agree.advance near.either (goes rfl) (Nat.le_of_lt low)).bind fun _ r₄ r₄' near low => ?_
        refine (Agree.under (by rfl) (within.variableItems kind true near.either low)).bind
          fun _ r₅ r₅' either low => ?_
        exact within.loopTail _ either low.le
  refine .ite (fun isAwait => .setting (.flawIf near fun near => ?_)) fun _ => last near low
  exact (Agree.advance near.either (Lexeme.goesOn_of_isWord isAwait) (Nat.le_of_lt low)).bind
    fun _ _ _ near low => last near low

theorem jumpStatement (near : Beside K.near r r') (low : r.left ≤ k) :
    K.Agree K.either (below k) jumpStatement jumpStatement s r r' := by
  refine (Agree.languageWord near low).bind fun _ r₁ r₁' near low => (Agree.canEnd near.either).bind fun _ _ => ?_
  have ended {r r' : Reader} (either : Beside K.either r r') (low : r.left < k) :
      K.Agree K.either (below k) (do Reading.endStatement; return Stmt.other)
        (do Reading.endStatement; return Stmt.other)
        s r r' := (Agree.endStatement either low).bind fun _ _ _ either low => .pure either low
  refine .ite (fun _ => ?_) fun _ => ended near.either low
  exact (Agree.bindingName near.either low.le).bind fun _ _ _ near low => ended near.either low

theorem returnStatement (within : K.Within p p' k c) (either : Beside K.either r r') (low : r.left ≤ k) :
    K.Agree K.either (below k) (returnStatement p) (returnStatement p') s r r' := by
  refine .setting (.flawIf either fun either => ?_)
  refine (Agree.takeWord "return" rfl either low).bind
    fun _ r₁ r₁' near low => (Agree.canEnd near.either).bind fun _ _ => ?_
  refine .ite (fun _ => ?_) fun _ => ?_
  · exact (Agree.endStatement near.either low).bind fun _ _ _ either low => .pure either low
  · refine (within.sequence near.either low).bind fun value r₂ r₂' either low => ?_
    exact (Agree.endStatement either low).bind fun _ _ _ either low => .pure either low

end Control

section Switches

theorem isCased_run (s : Setting) (r : Reader) :
    (do return !(← Reading.isMark "\x7d") && !(← isEnding) && !(← Reading.isWord "case") &&
      !(← Reading.isWord "default") :
      Reading Bool) s r = some (r.token.lexeme.isCased, r) := by
  simp [Lexeme.isCased, Lexeme.isInside]

/-- A case of a switch. Its statements may go astray with the text behind the seam. -/
theorem switchCase (within : K.Within p p' k c) (near : Beside K.near r r') (low : r.left ≤ k) :
    Agree.Closing K K.lost k (switchCase p s r) (switchCase p' (s.grown K.more) r') := by
  have rest {r r' : Reader} (either : Beside K.either r r') (low : r.left < k) :
      Agree.Closing K K.lost k
        ((do
          Reading.takeMark ":"
          let _ ← repeatWhile (do
            return !(← Reading.isMark "\x7d") && !(← isEnding) && !(← Reading.isWord "case") &&
              !(← Reading.isWord "default"))
            (p.read (.statement false)) p.rounds) s r)
        ((do
          Reading.takeMark ":"
          let _ ← repeatWhile (do
            return !(← Reading.isMark "\x7d") && !(← isEnding) && !(← Reading.isWord "case") &&
              !(← Reading.isWord "default"))
            (p'.read (.statement false)) p'.rounds) (s.grown K.more) r') := by
    refine .bind (Agree.takeMark ":" rfl either (Nat.le_of_lt low)) fun _ r₁ r₁' near low => .map ?_
    refine Agree.braced isCased_run rfl ?_ within.strayCase near.either low (Nat.lt_trans low within.rounds) within.more
    exact fun lt near _ low => .inl ((within.statement false near (Nat.lt_of_le_of_lt low lt)).mono low)
  have eaten : K.Agree K.near (fun found next => (found = true → next.left < k) ∧ next.left ≤ k)
    (Reading.eatWord "case")
      (Reading.eatWord "case") s r r' := by
    refine .isWord "case" rfl near.either (.ite (fun _ => ?_) fun _ => .pure near ⟨nofun, low⟩)
    exact (Agree.takeWord "case" rfl near.either low).bind fun _ _ _ near low => .pure near ⟨fun _ => low, low.le⟩
  refine .bind eaten fun isCase r₁ r₁' near ⟨taken, low⟩ => ?_
  cases isCase with
  | true => exact .bind (within.sequence near.either (taken rfl)) fun _ _ _ either low => rest either low
  | false => exact .bind (Agree.takeWord "default" rfl near.either low) fun _ _ _ near low => rest near.either low

theorem switchStatement (within : K.Within p p' k c) (either : Beside K.either r r') (low : r.left ≤ k) :
    K.Agree K.either (below k) (switchStatement p) (switchStatement p') s r r' := by
  refine (Agree.takeWord "switch" rfl either low).bind fun _ r₁ r₁' near low => ?_
  refine (within.condition near.either low.le).bind fun _ r₂ r₂' near low => ?_
  refine (Agree.takeMark "\x7b" rfl near.either low.le).bind fun _ r₃ r₃' near low => ?_
  refine .closeBrace (P := K.lost) (fun _ => K.lost_open) (Agree.braced isInside_run rfl ?_ within.strayCases
    near.either low (Nat.lt_trans low within.rounds) within.more) (fun _ => Agree.closes_bind Agree.closes_take)
    (fun _ => Agree.closes_bind Agree.closes_take) fun _ _ _ either low => ?_
  · exact fun lt near _ low => (within.mono (Nat.le_of_lt lt)).switchCase near low
  · exact (Agree.closeMark either (Nat.le_of_lt low)).bind fun _ _ _ either low => .pure either low

end Switches

section Statements

theorem throwStatement (within : K.Within p p' k c) (either : Beside K.either r r') (low : r.left ≤ k) :
    K.Agree K.either (below k) (throwStatement p) (throwStatement p') s r r' := by
  refine (Agree.takeWord "throw" rfl either low).bind
    fun _ r₁ r₁' near low => .newLine near (.flawIf near fun near => ?_)
  refine (within.sequence near.either low).bind fun _ r₂ r₂' either low => ?_
  exact (Agree.endStatement either low).bind fun _ _ _ either low => .pure either low

theorem tryStatement (within : K.Within p p' k c) (either : Beside K.either r r') (low : r.left ≤ k) :
    K.Agree K.either (below k) (tryStatement p) (tryStatement p') s r r' := by
  refine (Agree.takeWord "try" rfl either low).bind fun _ r₁ r₁' near low => ?_
  refine (within.block near.either low.le).bind fun _ r₂ r₂' either low => ?_
  have finished (catches finishes : Bool) {r r' : Reader} (either : Beside K.either r r') (low : r.left < k) :
      K.Agree K.either (below k) (do Reading.flawIf (!catches && !finishes); return Stmt.other)
        (do Reading.flawIf (!catches && !finishes); return Stmt.other) s r r' :=
    .flawIf either fun either => .pure either low
  have finished (catches : Bool) {r r' : Reader} (either : Beside K.either r r') (low : r.left < k) :
      K.Agree K.either (below k)
        (do
          let finishes ← Reading.eatWord "finally"
          if finishes then
            let _ ← Grammar.block p
          Reading.flawIf (!catches && !finishes)
          return Stmt.other)
        (do
          let finishes ← Reading.eatWord "finally"
          if finishes then
            let _ ← Grammar.block p'
          Reading.flawIf (!catches && !finishes)
          return Stmt.other) s r r' := by
    refine .eatWord "finally" rfl either (Nat.le_of_lt low)
      (fun r₁ r₁' near low => ?_) (finished catches false either low)
    exact (within.block near.either (Nat.le_of_lt low)).bind fun _ _ _ either low => finished catches true either low
  have caught {r r' : Reader} (either : Beside K.either r r') (low : r.left < k) :
      K.Agree K.either (below k)
        (do
          let _ ← Grammar.block p
          let finishes ← Reading.eatWord "finally"
          if finishes then
            let _ ← Grammar.block p
          Reading.flawIf (!true && !finishes)
          return Stmt.other)
        (do
          let _ ← Grammar.block p'
          let finishes ← Reading.eatWord "finally"
          if finishes then
            let _ ← Grammar.block p'
          Reading.flawIf (!true && !finishes)
          return Stmt.other) s r r' :=
    (within.block either (Nat.le_of_lt low)).bind fun _ _ _ either low => finished true either low
  refine .eatWord "catch" rfl either low.le (fun r₃ r₃' near low => ?_) (finished false either low)
  refine .eatMark "(" rfl near.either (Nat.le_of_lt low) (fun _ r₄ r₄' near low => ?_) fun _ => caught near.either low
  refine (within.pattern near.either low).bind fun _ r₅ r₅' either low => ?_
  refine (within.annotated either low).bind fun _ r₆ r₆' either low => ?_
  exact (Agree.takeMark ")" rfl either low.le).bind fun _ _ _ near low => caught near.either low

theorem variableStatement (kind : VariableKind) (alone : Bool) (within : K.Within p p' k c)
    (either : Beside K.either r r')
    (goes : r.token.lexeme.goesOn = true) (low : r.left ≤ k) :
    K.Agree K.either (below k) (variableStatement p kind alone) (variableStatement p' kind alone) s r r' := by
  refine (Agree.advance either goes low).bind fun _ r₁ r₁' near low => ?_
  refine (within.variableItems kind false near.either low).bind fun found r₂ r₂' either low => ?_
  exact (Agree.endStatement either low).bind fun _ _ _ either low => .flawIf either fun either => .pure either low

theorem expressionStatement (lower : 4 < c) (within : K.Within p p' k c) (either : Beside K.either r r')
    (low : r.left ≤ k) : K.Agree K.either (below k) (expressionStatement p) (expressionStatement p') s r r' := by
  refine (within.sequenceFrom (within.readLower (.assignment true) rfl either low lower)).bind
    fun value r₁ r₁' either low => ?_
  have ended {q q' : Reader} (either : Beside K.either q q') (short : q.left < k) :
      K.Agree K.either (below k) (do Reading.endStatement; return Stmt.expression value)
        (do Reading.endStatement; return Stmt.expression value) s q q' :=
    (Agree.endStatement either short).bind fun _ _ _ either low => .pure either low
  cases value with
  | name =>
      refine .eatMark ":" rfl either low.le
        (fun _ r₂ r₂' near low => within.bodied .other near low) fun _ => ended either low
  | _ => exact ended either low

theorem letStatement (alone : Bool) (lower : 4 < c) (within : K.Within p p' k c) (near : Beside K.near r r')
    (goes : r.token.lexeme.goesOn = true) (low : r.left ≤ k) :
    K.Agree K.either (below k) (letStatement p alone) (letStatement p' alone) s r r' := by
  refine Look.bind (Look.ahead (P := fun _ => True) (T := K.near) ?_) fun isName _ => ?_
  · refine (Agree.advance near.either goes (Nat.le_refl _)).bind fun _ r₁ r₁' near _ => .lexeme near ?_
    split
    all_goals exact .pure near trivial
  · exact .ite (fun _ => within.expressionStatement lower near.either low)
      fun _ => within.variableStatement .letVar alone near.either goes low

theorem classStatement (alone : Bool) (within : K.Within p p' k c) (either : Beside K.either r r') (low : r.left ≤ k) :
    K.Agree K.either (below k) (classStatement p alone) (classStatement p' alone) s r r' := by
  refine .flawIf either fun either => ?_
  exact (within.classTail either low).bind fun _ _ _ either low => .pure either low

theorem functionStatement (alone : Bool) (within : K.Within p p' k c) (either : Beside K.either r r')
    (low : r.left ≤ k) :
    K.Agree K.either (below k) (functionStatement p alone) (functionStatement p' alone) s r r' := by
  refine (within.functionDeclaration true either low).bind fun found r₁ r₁' either low => ?_
  cases found
  exact .flawIf either fun either => .pure either low

theorem decoratedStatement (alone : Bool) (within : K.Within p p' k c) (either : Beside K.either r r')
    (low : r.left ≤ k) :
    K.Agree K.either (below k) (decoratedStatement p alone) (decoratedStatement p' alone) s r r' := by
  refine (within.decoratorsHere either low).bind fun _ r₁ r₁' either le => .isWord "export" rfl either ?_
  have low₁ : r₁.left ≤ k := Nat.le_trans le low
  refine .ite (fun isExport => ?_) fun _ => .typed ?_
  · have goes := Lexeme.isRead_of_goesOn (Lexeme.goesOn_of_isWord isExport)
    exact within.exportStatement true (either.near_of_ne (Lexeme.ne_ending_of_isRead goes)) goes low₁
  have rest (words : List String) {r r' : Reader} (either : Beside K.either r r') (low : r.left ≤ k) :
      K.Agree K.either (below k)
        (do
          Reading.flawIf (words.any fun word => word != "declare" && word != "abstract")
          Grammar.classStatement p alone)
        (do
          Reading.flawIf (words.any fun word => word != "declare" && word != "abstract")
          Grammar.classStatement p' alone) s r r' :=
    .flawIf either fun either => within.classStatement alone either low
  refine .ite (fun _ => ?_) fun _ => rest [] either low₁
  exact (within.wordsLedHere leadsDeclaration either low₁).bind
    fun words _ _ either le => rest words either (Nat.le_trans le low₁)

theorem typedStatement (within : K.Within p p' k c) (either : Beside K.either r r') (low : r.left ≤ k) :
    K.Agree K.either (below k) (typedStatement p) (typedStatement p') s r r' :=
  (within.wordedDeclaration either low).bind fun (_, _) _ _ either low => .pure either low

theorem wordStatement (alone : Bool) (name : String) (escaped : Bool) (lower : 4 < c) (within : K.Within p p' k c)
    (near : Beside K.near r r') (goes : r.token.lexeme.goesOn = true) (low : r.left ≤ k) :
    K.Agree K.either (below k) (wordStatement p alone name escaped) (wordStatement p' alone name escaped) s r r' := by
  have either := near.either
  have isRead := Lexeme.isRead_of_goesOn goes
  have expression := within.expressionStatement lower (s := s) either low
  have looks {m m' : Reading Bool}
      (inner : ∀ {next next'}, Beside K.near next next' → K.Agree K.near (fun _ _ => True) m m' s next next') :
      K.Look (fun _ => True) (Reading.ahead (do Reading.advance; m)) (Reading.ahead (do Reading.advance; m')) s r r' :=
    Look.ahead (T := K.near) ((Agree.advance either goes (Nat.le_refl _)).bind
      fun _ _ _ near _ => inner near)
  unfold Grammar.wordStatement
  split
  · exact within.ifStatement either low
  · exact within.doStatement either low
  · exact within.guardedStatement _ near low
  · exact within.guardedStatement _ near low
  · exact within.forStatement either low
  · exact jumpStatement near low
  · exact jumpStatement near low
  · exact within.returnStatement either low
  · exact within.switchStatement either low
  · exact within.throwStatement either low
  · exact within.tryStatement either low
  · refine (Agree.advance either goes low).bind fun _ r₁ r₁' near low => ?_
    exact (Agree.endStatement near.either low).bind fun _ _ _ either low => .pure either low
  · exact within.classStatement alone either low
  · exact within.functionStatement alone either low
  · exact within.exportStatement false near isRead low
  · refine (looks fun near => (Look.isOneOf near.either).sees near).bind fun _ _ => ?_
    exact .ite (fun _ => expression) fun _ => within.importStatement near isRead low
  · exact within.variableStatement .var alone either goes low
  · refine .typed ((looks fun near => (Look.isWord "enum" rfl near.either).sees near).bind fun _ _ => ?_)
    exact .ite (fun _ => within.typedStatement either low) fun _ => within.variableStatement .const alone either goes
      low
  · exact .ite (fun _ => expression) fun _ => within.letStatement alone lower near goes low
  · refine (isAsyncFunctionAhead either).bind fun _ _ => .ite (fun _ => within.functionStatement alone either low) fun
      _ => ?_
    refine (isUsingAhead either).bind fun _ _ => ?_
    refine .ite (fun _ => within.variableStatement .managed alone either goes low) fun _ => .setting ?_
    refine (isAwaitUsingAhead either).bind fun _ leads => .ite (fun holds => ?_) fun _ => .typed ?_
    · refine (Agree.advanceTo either goes low).bind fun _ r₁ r₁' near ⟨same, low⟩ => ?_
      have manages := (leads (Bool.and_eq_true_iff.mp holds).2).2
      exact within.variableStatement .managed alone near.either (same ▸ manages) (Nat.le_of_lt low)
    · refine (within.isDeclarationAhead near low).bind fun _ _ => ?_
      exact .ite (fun _ => within.typedStatement either low) fun _ => expression

theorem wholeStatement (alone : Bool) (lower : 4 < c) (within : K.Within p p' k c) (near : Beside K.near r r')
    (low : r.left ≤ k) :
    K.Agree K.either (below k) (Grammar.statement p alone) (Grammar.statement p' alone) s r r' := by
  refine .lexeme near ?_
  split
  · exact (within.block near.either low).bind fun _ _ _ either low => .pure either low
  · rename_i front
    exact (Agree.advanceOver near.either (front ▸ rfl) low).bind fun _ _ _ either low => .pure either low
  · exact within.decoratedStatement alone near.either low
  · rename_i name escaped front
    exact within.wordStatement alone name escaped lower near (front ▸ rfl) low
  · exact within.expressionStatement lower near.either low

end Statements

end Within

end Lockstep

end Realms.Script

/-!
The whole grammar, read in step. The induction is on the levels of the first reading: those that are left are enough for
the text that is left, and the second reading may have more of them.
-/
namespace Realms.Script

open Grammar Reading

theorem Goal.rank_lt (goal : Goal) : goal.rank < 16 := by
  cases goal with
  | _ => simp [rank]

namespace Lockstep

variable {K : Lockstep} {d e m k c : Nat} {s : Setting} {r r' : Reader}

/-- The parts of the grammar that are read up to a level. -/
def upTo (levels : Nat) : Inner := ⟨levels, readAt levels⟩

namespace Within

variable {p p' : Inner}

theorem part (goal : Goal) (within : K.Within (upTo m) (upTo (m + d)) k c) (either : Beside K.either r r')
    (low : r.left ≤ k) (lower : goal.rank ≤ c) (inner : goal.isInner = true) :
    K.Agree K.either (below k) (readAt (m + 1) goal) (readAt (m + d + 1) goal) s r r' := by
  cases goal with
  | assignment resultType => exact within.assignment resultType lower either low
  | binary above => exact within.binary above lower either low
  | unary => exact within.unary lower either low
  | operand => exact within.chainValue true lower either low
  | callee => exact within.chainValue false lower either low
  | statement alone => cases inner
  | pattern => exact within.bindingPattern either low
  | element => exact (within.wholeElement either low).imp (fun _ _ => .inl) fun _ _ found => found.2
  | type => exact within.anyType lower either low
  | typeOperand => exact within.operandType either low

end Within

/-- Each level is read in step as far as the ones in it reach. -/
theorem within (strays : ∀ levels, d + e ≤ levels → K.Strays (upTo levels)) (enough : 16 * k + c + e < m) :
    K.Within (upTo m) (upTo (m + d)) k c := by
  induction m generalizing k c with
  | zero => omega
  | succ m ih =>
      have level : m + 1 + d = m + d + 1 := Nat.succ_add m d
      rw [level]
      refine { strays (m + d + 1) (by omega) with
        rounds := ?_, more := ?_, reads := ?_, statement := ?_, element := ?_ }
      · exact (by omega : k < m + 1)
      · exact (by omega : m + 1 ≤ m + d + 1)
      · intro goal s r r' either inner low
        have ranked := goal.rank_lt
        exact (ih (by omega)).part goal either (Nat.le_refl _) (Nat.le_refl _) inner
      · intro alone s r r' near low
        have inside : K.Within (upTo m) (upTo (m + d)) r.left 5 := ih (by omega)
        exact inside.wholeStatement alone (by decide) near (Nat.le_refl _)
      · intro s r r' either low
        have inside : K.Within (upTo m) (upTo (m + d)) r.left 0 := ih (by omega)
        exact inside.wholeElement either (Nat.le_refl _)

/-- A statement is read in step if the levels are enough for its text. -/
theorem statement (strays : ∀ levels, d + e ≤ levels → K.Strays (upTo levels)) (near : Beside K.near r r')
    (enough : 16 * r.left + e + 22 ≤ m) :
    K.Agree K.either (below r.left) (readAt m (.statement false)) (readAt (m + d) (.statement false)) s r r' :=
  (within (k := r.left + 1) (c := 5) strays (by omega)).statement false near (Nat.lt_succ_self _)

end Lockstep

end Realms.Script
