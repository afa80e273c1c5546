import Realms.Proofs.Script.Continues

/-!
Directives, read with types and without. A text that starts a statement is a directive unless what stands behind it
makes it a part of a longer expression; types only add what would end no statement of a plain script.
-/
namespace Realms.Script

open Grammar Reading

variable {p : Inner} {n : Nat} {s : Setting} {r : Reader}

/-- Whether a statement may end in front of a token. -/
def Token.mayEnd (token : Token) : Bool :=
  token.newLine || token.lexeme == .ending || token.lexeme == .mark ";" || token.lexeme == .mark "\x7d"

theorem canEnd_run : canEnd s r = some (r.token.mayEnd, r) := by
  simp only [canEnd, bind_run, newLine_run, Token.mayEnd]
  cases r.token.newLine with
  | true => rfl
  | false =>
      simp only [Bool.false_eq_true, if_false, bind_run, lexeme_run]
      cases r.token.lexeme with
      | mark mark => simp [beq_eq_decide]
      | ending => rfl
      | _ => rfl

/-- The reader behind its token. -/
def Reader.behind (r : Reader) : Reader := { r.next with flawed := r.next.flawed || r.token.isDisguised }

/-- The reader at its token, taken as an operator. -/
def Reader.joined (r : Reader) : Reader := { r with token := r.token.joinAngle }

section Levels

variable {value : String} {whole : Bool} {goesOn : Bool} {last : Reader}

/-- A text is read only if it is in front and nothing goes on with it. -/
def ReadsAlone (m : Reading Expr) (s : Setting) (r : Reader) (goesOn : Bool) (last : Reader) : Prop :=
  m.Leads s r fun e next => ∀ value, e.text? = some value →
    (∃ whole, r.token.lexeme = .text value whole) ∧ goesOn = false ∧ next = last

/-- A text that is in front and that nothing goes on with is read. -/
def ReadsText (m : Reading Expr) (s : Setting) (r : Reader) (value : String) (last : Reader) : Prop :=
  m.Leads s r fun e next => e = .text value ∧ next = last

/-- What is no text needs no more to be known. -/
theorem leads_other {m : Reading Expr} {Q : Expr → Reader → String → Prop} (gives : m.Gives s (·.text? = none)) :
    m.Leads s r fun e next => ∀ value, e.text? = some value → Q e next value :=
  fun e next read _ isText => nomatch (gives r e next read).symm.trans isText

/-- Behind a value, a reading keeps a text only where nothing goes on with it. -/
def Keeps (f : Expr → Reading Expr) (s : Setting) (goesOn : Reader → Bool) (step : Reader → Reader) : Prop :=
  ∀ e r, (f e).Leads s r fun found next => ∀ value, found.text? = some value →
    e = found ∧ goesOn r = false ∧ next = step r

theorem ReadsAlone.bind {m : Reading Expr} {f : Expr → Reading Expr} {g : Reader → Bool} {h : Reader → Reader}
    (inner : ReadsAlone m s r goesOn last) (keeps : Keeps f s g h) :
    ReadsAlone (m >>= f) s r (goesOn || g last) (h last) := by
  refine Leads.bind inner fun e between alone => (keeps e between).imp fun found next kept value isText => ?_
  obtain ⟨rfl, apart, rfl⟩ := kept value isText
  obtain ⟨front, single, rfl⟩ := alone value isText
  exact ⟨front, Bool.or_eq_false_iff.mpr ⟨single, apart⟩, rfl⟩

theorem primary_readsAlone : ReadsAlone (primary p) s r false r.behind := by
  intro e next read value isText
  cases front : r.token.lexeme with
  | text found whole =>
      have single : primary p s r = some (.text found, r.behind) := by
        rw [primary, bind_run, lexeme_run, front]
        rfl
      obtain ⟨rfl, rfl⟩ := Prod.mk.inj (Option.some.inj (single.symm.trans read))
      obtain rfl := Option.some.inj isText
      exact ⟨⟨whole, rfl⟩, rfl, rfl⟩
  | _ =>
      have other := primary_gives (p := p) (s := s) (r := r) (by simp [front]) e next read
      cases other.symm.trans isText

theorem primary_readsText (front : r.token.lexeme = .text value whole) : ReadsText (primary p) s r value r.behind := by
  intro e next read
  rw [primary, bind_run, lexeme_run, front] at read
  obtain ⟨rfl, rfl⟩ := Prod.mk.inj (Option.some.inj read)
  exact ⟨rfl, rfl⟩

theorem operand_readsAlone (plain : s.decorator = false) :
    ReadsAlone (operand p) s r (r.next.token.chains s.types) r.behind := by
  refine primary_readsAlone.bind (g := fun r => r.token.chains s.types) (h := id) fun first between => ?_
  refine .bind (grow_leads (k := fun chain => chain.value.text?) (chainStep_gives true) p.rounds _) ?_
  refine fun chain next kept => .pure fun value isText => ?_
  obtain ⟨stays, rfl⟩ := kept value isText
  obtain ⟨same, apart⟩ := chainStep_none plain stays
  exact ⟨rfl, apart, same⟩

theorem operand_readsText (front : r.token.lexeme = .text value whole) (apart : r.next.token.chains s.types = false)
    (noList : r.next.token.lexeme.isOneOf ["<", "<<"] = false) : ReadsText (operand p) s r value r.behind := by
  refine .bind (primary_readsText front) ?_
  rintro _ _ ⟨rfl, rfl⟩
  have stays : chainStep p true ⟨.text value, false⟩ s r.behind = some (none, r.behind) := chainStep_run apart noList
  refine .bind (grow_none stays p.rounds) ?_
  rintro _ _ ⟨rfl, rfl⟩
  exact .pure ⟨rfl, rfl⟩

/-- What is changed is no text. -/
theorem update_keeps : Keeps (fun value => do
    if (← isOneOf ["++", "--"]) && !(← newLine) then
      need (isSimpleTarget value)
      advance
      return .other
    else return value) s (fun r => r.token.updates) id := by
  refine fun value r => .isOneOf (.newLine ?_)
  split
  · exact leads_other (.after fun _ => .after fun _ => .pure rfl)
  · rename_i still
    exact .pure fun text isText => ⟨rfl, Bool.eq_false_iff.mpr still, rfl⟩

theorem updatable_readsAlone (inner : ReadsAlone (p.read .operand) s r goesOn r.behind) :
    ReadsAlone (updatable p) s r (goesOn || r.next.token.updates) r.behind := by
  refine .isOneOf ?_
  split
  · exact leads_other (.after fun _ => .after fun _ => .after fun _ => .pure rfl)
  · refine .behind (holdsAhead_looks _) fun isElement => ?_
    split
    · exact leads_other (.after fun _ => .after fun _ => .pure rfl)
    · exact inner.bind update_keeps

theorem updatable_readsText (front : r.token.lexeme = .text value whole) (apart : r.next.token.updates = false)
    (inner : ReadsText (p.read .operand) s r value r.behind) : ReadsText (updatable p) s r value r.behind := by
  have noElement : isElementAhead s r = some (false, r) := by simp [isElementAhead, takeMark_run, front]
  refine .isOneOf ?_
  rw [front]
  refine .bind (P := fun found next => false = found ∧ r = next) ?_ ?_
  · intro found next read
    exact Prod.mk.inj (Option.some.inj (noElement.symm.trans read))
  · rintro _ _ ⟨rfl, rfl⟩
    refine .bind inner ?_
    rintro _ _ ⟨rfl, rfl⟩
    refine .isOneOf (.newLine ?_)
    have still : (r.behind.token.lexeme.isOneOf ["++", "--"] && !r.behind.token.newLine) = false := apart
    rw [still]
    exact .pure ⟨rfl, rfl⟩

theorem unary_readsAlone (inner : ReadsAlone (p.read .operand) s r goesOn r.behind) :
    ReadsAlone (unary p) s r (goesOn || r.next.token.updates) r.behind := by
  have updated := updatable_readsAlone inner
  refine .lexeme ?_
  split
  · split
    · exact leads_other (.after fun _ => .after fun _ => .pure rfl)
    · exact updated
  · refine .setting ?_
    extract_lets waits
    split
    · exact leads_other (.after fun _ => .after fun _ => .pure rfl)
    · exact updated
  · exact updated

theorem unary_readsText (front : r.token.lexeme = .text value whole) (apart : r.next.token.updates = false)
    (inner : ReadsText (p.read .operand) s r value r.behind) : ReadsText (unary p) s r value r.behind := by
  refine .lexeme ?_
  rw [front]
  exact updatable_readsText front apart inner

theorem grow_keeps (isOperator : s.inOperator = true) (rounds : Nat) :
    Keeps (grow (binaryStep p 0) rounds) s (fun r => r.token.operates s.types) Reader.joined := by
  intro first r
  refine (grow_leads (binaryStep_gives 0) rounds first).imp fun e next kept value isText => ?_
  obtain ⟨stays, same⟩ := kept value isText
  obtain ⟨joined, single⟩ := binaryStep_none isOperator stays
  exact ⟨same, single, joined⟩

theorem binary_readsAlone (isOperator : s.inOperator = true)
    (inner : ReadsAlone (p.read .operand) s r goesOn r.behind) :
    ReadsAlone (binary p 0) s r (goesOn || r.next.token.updates || r.next.token.operates s.types) r.behind.joined := by
  have grows := grow_keeps (p := p) isOperator p.rounds
  refine .lexeme ?_
  split
  · -- a private name in front stands for no value of its own, so what grows from it is no text
    refine .setting fun e next read value isText => ?_
    obtain ⟨_, between, _, read⟩ := bind_eq_some.mp read
    obtain ⟨_, between, _, read⟩ := bind_eq_some.mp read
    obtain ⟨_, between, _, read⟩ := bind_eq_some.mp read
    obtain ⟨_, between, _, read⟩ := bind_eq_some.mp read
    obtain ⟨rfl, -⟩ := grows .other between e next read value isText
    cases isText
  · exact (unary_readsAlone inner).bind grows

theorem binary_readsText (isOperator : s.inOperator = true) (front : r.token.lexeme = .text value whole)
    (apart : r.next.token.updates = false) (single : r.next.token.operates s.types = false)
    (inner : ReadsText (p.read .operand) s r value r.behind) : ReadsText (binary p 0) s r value r.behind.joined := by
  refine .lexeme ?_
  rw [front]
  refine .bind (unary_readsText front apart inner) ?_
  rintro _ _ ⟨rfl, rfl⟩
  have stays : binaryStep p 0 (.text value) s r.behind = some (none, r.behind.joined) :=
    binaryStep_run isOperator single
  exact grow_none stays p.rounds

theorem eatMark_leads (mark : String) : (eatMark mark).Leads s r fun found next =>
    found = (r.token.lexeme == .mark mark) ∧ (found = false → next = r) := by
  intro found next read
  cases there : r.token.lexeme == .mark mark with
  | true =>
      rw [eatMark, bind_run, isMark_run, there] at read
      obtain ⟨rfl, rfl⟩ := Prod.mk.inj (Option.some.inj read)
      exact ⟨rfl, fun missing => absurd missing (by decide)⟩
  | false =>
      obtain ⟨rfl, rfl⟩ := Prod.mk.inj (Option.some.inj ((eatMark_other there).symm.trans read))
      exact ⟨rfl, fun _ => rfl⟩

theorem choiceTail_keeps (resultType : Bool) :
    Keeps (choiceTail p resultType) s (fun r => r.token.lexeme == .mark "?") id := by
  refine fun left r => .bind (eatMark_leads "?") fun found next ⟨there, stays⟩ => ?_
  split
  · exact leads_other (.after fun _ => .after fun _ => .after fun _ => .pure rfl)
  · rename_i other
    have other := Bool.eq_false_iff.mpr other
    exact .pure fun value _ => ⟨rfl, there.symm.trans other, stays other⟩

/-- What is assigned to is no text, and what is left to itself has no question mark behind it. -/
theorem assignmentTail_keeps (resultType : Bool) :
    Keeps (assignmentTail p resultType) s (fun r => r.token.lexeme == .mark "?") id := by
  refine fun left r => .lexeme ?_
  split
  · split
    · split
      · exact leads_other (.after fun _ => .after fun _ => .after fun _ => .after fun _ => .pure rfl)
      · exact .fail
    · split
      · exact leads_other (.after fun _ => .after fun _ => .after fun _ => .pure rfl)
      · exact choiceTail_keeps resultType left r
  · rename_i other
    exact .pure fun value _ => ⟨rfl, beq_eq_false_iff_ne.mpr (other "?"), rfl⟩

theorem arrowFunction_leads (resultType : Bool) : (arrowFunction p resultType).Leads s r fun found next =>
    (∀ e, found = some e → e.text? = none) ∧ (found = none → next = r) := by
  refine .behind (holdsAhead_looks _) fun isAsync => .behind (holdsAhead_looks _) fun starts => ?_
  split
  · exact .pure ⟨nofun, fun _ => rfl⟩
  · refine attempt_leads ?_
    repeat' with_reducible first
      | refine .after fun _ => ?_
      | exact .pure rfl
      | split

theorem asyncNameArrow_leads (resultType : Bool) : (asyncNameArrow p resultType).Leads s r fun found next =>
    (∀ e, found = some e → e.text? = none) ∧ (found = none → next = r) := by
  refine .behind (holdsAhead_looks _) fun starts => ?_
  split
  · exact .pure ⟨nofun, fun _ => rfl⟩
  · have given : (do
        takeWord "async"
        let _ ← under (fun s => { s with awaits := true }) bindingName
        flawIf (← newLine)
        takeMark "=>"
        arrowBody p true resultType
        return some .other : Reading (Option Expr)).Gives s (· = some .other) :=
      .after fun _ => .after fun _ => .after fun _ => .after fun _ => .after fun _ => .after fun _ => .pure rfl
    intro found next read
    obtain rfl := given r found next read
    exact ⟨by rintro _ ⟨⟩; rfl, nofun⟩

theorem yieldValue_gives : (yieldValue p).Gives s (·.text? = none) := by
  unfold yieldValue
  repeat' with_reducible first
    | refine .after fun _ => ?_
    | exact .pure rfl
    | split

theorem assignment_readsAlone (resultType : Bool) (inner : ReadsAlone (p.read (.binary 0)) s r goesOn r.behind.joined) :
    ReadsAlone (assignment p resultType) s r (goesOn || r.behind.joined.token.lexeme == .mark "?") r.behind.joined := by
  refine .isWord (.setting ?_)
  split
  · exact leads_other yieldValue_gives
  · refine .bind (arrowFunction_leads resultType) fun found next ⟨other, stays⟩ => ?_
    split
    · exact .pure fun value isText => nomatch (other _ rfl).symm.trans isText
    · obtain rfl := stays rfl
      refine .bind (asyncNameArrow_leads resultType) fun found next ⟨other, stays⟩ => ?_
      split
      · exact .pure fun value isText => nomatch (other _ rfl).symm.trans isText
      · obtain rfl := stays rfl
        exact inner.bind (assignmentTail_keeps resultType)

theorem arrow_of_text (resultType : Bool) (front : r.token.lexeme = .text value whole) :
    arrowFunction p resultType s r = some (none, r) ∧ asyncNameArrow p resultType s r = some (none, r) := by
  have noAsync : takeWord "async" s r = none := takeWord_other (by rw [front]; rfl)
  have noParameters : mayStartParameters s r = some (false, r) :=
    mayStartParameters_other (by simp [front]) (by simp [front])
  exact ⟨by simp [arrowFunction, noAsync, noParameters], by simp [asyncNameArrow, noAsync]⟩

theorem assignmentTail_readsText (resultType : Bool) (apart : (r.token.lexeme == .mark "?") = false) :
    ReadsText (assignmentTail p resultType (.text value)) s r value r := by
  refine .lexeme ?_
  split
  · split
    · exact .fail
    · split
      · refine .bind (P := fun _ _ => False) (fun a next read => ?_) nofun
        simp only [checkTarget, targetNames, isSimpleTarget] at read
        split at read
        all_goals cases read
      · exact .known (eatMark_other apart) (.pure ⟨rfl, rfl⟩)
  · exact .pure ⟨rfl, rfl⟩

theorem assignment_readsText (resultType : Bool) (front : r.token.lexeme = .text value whole)
    (apart : (r.behind.joined.token.lexeme == .mark "?") = false)
    (inner : ReadsText (p.read (.binary 0)) s r value r.behind.joined) :
    ReadsText (assignment p resultType) s r value r.behind.joined := by
  obtain ⟨noArrow, noName⟩ := arrow_of_text (p := p) (s := s) resultType front
  refine .isWord (.setting ?_)
  rw [front]
  refine .known noArrow (.known noName (.bind inner ?_))
  rintro _ _ ⟨rfl, rfl⟩
  exact assignmentTail_readsText resultType apart

theorem sequence_readsAlone (inner : ReadsAlone p.expression s r goesOn r.behind.joined) :
    ReadsAlone p.sequence s r (goesOn || r.behind.joined.token.lexeme == .mark ",") r.behind.joined := by
  refine inner.bind (g := fun r => r.token.lexeme == .mark ",") (h := id) fun first between => .isMark ?_
  split
  · exact leads_other (.after fun _ => .pure rfl)
  · rename_i other
    exact .pure fun value _ => ⟨rfl, Bool.eq_false_iff.mpr other, rfl⟩

theorem sequence_readsText (apart : (r.behind.joined.token.lexeme == .mark ",") = false)
    (inner : ReadsText p.expression s r value r.behind.joined) : ReadsText p.sequence s r value r.behind.joined := by
  refine .bind inner ?_
  rintro _ _ ⟨rfl, rfl⟩
  refine .isMark ?_
  rw [apart]
  exact .pure ⟨rfl, rfl⟩

end Levels

section Depths

variable {value : String} {whole : Bool}

theorem readAt_operand (plain : s.decorator = false) :
    ReadsAlone (readAt n .operand) s r (r.next.token.chains s.types) r.behind := by
  cases n with
  | zero => exact .fail
  | succ n => exact operand_readsAlone plain

theorem readAt_binary (plain : s.decorator = false) (isOperator : s.inOperator = true) :
    ReadsAlone (readAt n (.binary 0)) s r
      (r.next.token.chains s.types || r.next.token.updates || r.next.token.operates s.types) r.behind.joined := by
  cases n with
  | zero => exact .fail
  | succ n => exact binary_readsAlone (p := ⟨n, readAt n⟩) isOperator (readAt_operand plain)

/-- A sequence is read as a text only if one is in front and the token behind it does not go on. -/
theorem readAt_readsAlone (plain : s.decorator = false) (isOperator : s.inOperator = true) :
    ReadsAlone (Inner.mk n (readAt n)).sequence s r (r.next.token.joins s.types) r.behind.joined := by
  refine sequence_readsAlone ?_
  cases n with
  | zero => exact .fail
  | succ n => exact assignment_readsAlone (p := ⟨n, readAt n⟩) true (readAt_binary plain isOperator)

/-- A text in front is all of the sequence if the token behind it does not go on. -/
theorem readAt_readsText (isOperator : s.inOperator = true) (front : r.token.lexeme = .text value whole)
    (apart : r.next.token.joins s.types = false) :
    ReadsText (Inner.mk n (readAt n)).sequence s r value r.behind.joined := by
  simp only [Token.joins, Bool.or_eq_false_iff] at apart
  obtain ⟨⟨⟨⟨chains, updates⟩, operates⟩, choice⟩, comma⟩ := apart
  refine sequence_readsText comma ?_
  cases n with
  | zero => exact .fail
  | succ n =>
      refine assignment_readsText (p := ⟨n, readAt n⟩) true front choice ?_
      cases n with
      | zero => exact .fail
      | succ n =>
          refine binary_readsText (p := ⟨n, readAt n⟩) isOperator front updates operates ?_
          cases n with
          | zero => exact .fail
          | succ n =>
              exact operand_readsText (p := ⟨n, readAt n⟩) front chains (Token.not_angle operates)

/-- What stands in front of a directive and behind it. -/
structure Reader.AtDirective (r : Reader) (types : Bool) (value : String) : Prop where
  front : ∃ whole, r.token.lexeme = .text value whole
  apart : r.next.token.joins types = false
  ends : r.next.token.joinAngle.mayEnd = true

theorem endStatement_leads : endStatement.Leads s r fun _ _ => r.token.mayEnd = true := by
  refine .known canEnd_run ?_
  split
  · rename_i ends
    exact fun _ _ _ => ends
  · exact .fail

theorem expressionStatement_atDirective (plain : s.decorator = false) (isOperator : s.inOperator = true) :
    (expressionStatement ⟨n, readAt n⟩).GivesAt s r fun stmt =>
      ∀ value, stmt = .expression (.text value) → r.AtDirective s.types value := by
  refine Leads.bind (readAt_readsAlone plain isOperator) fun e next alone => ?_
  extract_lets rest
  have ended : (rest ()).GivesAt s next fun stmt =>
      ∀ value, stmt = .expression (.text value) → r.AtDirective s.types value := by
    refine Leads.bind endStatement_leads fun _ _ ends => .pure ?_
    rintro value ⟨⟩
    obtain ⟨front, apart, rfl⟩ := alone value rfl
    exact ⟨front, apart, ends⟩
  split
  · refine Leads.bind (eatMark_leads ":") fun isLabel between ⟨_, stays⟩ => ?_
    split
    · exact Gives.here (.after fun _ => .pure nofun)
    · rename_i other
      rw [stays (Bool.eq_false_iff.mpr other)]
      exact ended
  · exact ended

theorem statement_atDirective (plain : s.decorator = false) (isOperator : s.inOperator = true) (alone : Bool) :
    (statement ⟨n, readAt n⟩ alone).GivesAt s r fun stmt =>
      ∀ value, stmt = .expression (.text value) → r.AtDirective s.types value :=
  Forms.statement_gives {
    other := nofun
    empty := nofun
    result := fun _ => nofun
    bindings := fun _ => .always fun _ => nofun
    classOf := fun _ => nofun
    function := .always fun _ => nofun
    value := expressionStatement_atDirective plain isOperator
    typed := fun _ => typedStatement_gives nofun nofun
    imported := .after fun _ => .after fun _ => ImportForms.importTail_gives {
      bare := nofun
      imported := fun _ _ _ => .after fun _ => .after fun _ => .after fun _ => .pure nofun
      renamed := nofun }
    exported := exportStatement_gives fun _ _ => {
      other := nofun
      names := exportNames_always nofun
      all := fun typeOnly => exportAll_always typeOnly nofun
      default := exportDefault_always nofun nofun
      declared := exportDeclared_always nofun
      renamed := fun _ => .always nofun } } alone

theorem statement_of_text (isOperator : s.inOperator = true) {value : String} {whole : Bool}
    (front : r.token.lexeme = .text value whole) (apart : r.next.token.joins s.types = false) (alone : Bool) :
    (statement ⟨n, readAt n⟩ alone).GivesAt s r (· = .expression (.text value)) := by
  refine .lexeme ?_
  rw [front]
  refine Leads.bind (readAt_readsText isOperator front apart) ?_
  rintro _ _ ⟨rfl, rfl⟩
  exact Gives.here (.after fun _ => .pure rfl)

end Depths

/-- Types go on with a text only where a plain script cannot end its statement. -/
theorem Token.joins_of_mayEnd {types : Bool} {token : Token} (apart : token.joins types = false)
    (ends : token.joinAngle.mayEnd = true) (types' : Bool) : token.joins types' = false := by
  simp only [joins, Bool.or_eq_false_iff] at apart ⊢
  obtain ⟨⟨⟨⟨chains, updates⟩, operates⟩, choice⟩, comma⟩ := apart
  refine ⟨⟨⟨⟨?_, updates⟩, ?_⟩, choice⟩, comma⟩
  · unfold Token.chains at chains ⊢
    cases front : token.lexeme with
    | mark mark =>
        have below : mark = "!" → token.newLine = true := by
          rintro rfl
          simpa [joinAngle, front, mayEnd] using ends
        simp only [front, Bool.or_eq_false_iff] at chains ⊢
        refine ⟨chains.1, ?_⟩
        by_cases asserts : mark = "!"
        · simp [below asserts]
        · simp [asserts]
    | template => simp [front] at chains
    | _ => rfl
  · unfold Token.operates at operates ⊢
    have same : token.joinAngle.operator? types' = token.joinAngle.operator? types := by
      unfold operator?
      cases front : token.joinAngle.lexeme with
      | word name escaped =>
          have below : token.joinAngle.newLine = true := by simpa [mayEnd, front] using ends
          simp [below]
      | _ => rfl
    rw [same]
    exact operates

/-- Whether a statement is a directive does not depend on whether it is read with types. -/
theorem directive_of_types {types types' : Bool} {size : Nat} {stmt stmt' : Stmt} {between between' : Reader}
    {value : String} (read : readAt n (.statement false) (moduleSetting types size) r = some (stmt, between))
    (read' : readAt n (.statement false) (moduleSetting types' size) r = some (stmt', between'))
    (directive : stmt = .expression (.text value)) : stmt' = .expression (.text value) := by
  cases n with
  | zero => cases read
  | succ n =>
      obtain ⟨⟨whole, front⟩, apart, ends⟩ := statement_atDirective rfl rfl false stmt between read value directive
      exact statement_of_text rfl front (Token.joins_of_mayEnd apart ends _) false stmt' between' read'

theorem head?_leadingTexts {stmt : Stmt} {more : List Stmt} {value : String} :
    (leadingTexts (stmt :: more)).head? = some value ↔ stmt = .expression (.text value) := by
  unfold leadingTexts
  split
  · rename_i same
    obtain ⟨rfl, rfl⟩ := List.cons.inj same
    simp
  · rename_i other
    refine iff_of_false nofun ?_
    rintro rfl
    exact other value more rfl

/-- The first directive of a text is the same whether it is read with types or without, if it can be read both ways. -/
theorem readText_head? {types types' : Bool} {text : List Char} {found found' : SourceRead}
    (read : readText types text = some found) (read' : readText types' text = some found') :
    found.script.directives.head? = found'.script.directives.head? := by
  obtain ⟨stmts, last, passes, ends, -, rfl⟩ := readText_eq_some read
  obtain ⟨stmts', last', passes', ends', -, rfl⟩ := readText_eq_some read'
  change (leadingTexts stmts).head? = (leadingTexts stmts').head?
  cases passes with
  | none =>
      cases passes' with
      | none => rfl
      | next goesOn => exact absurd ends goesOn
  | next goesOn first _ =>
      cases passes' with
      | none => exact absurd ends' goesOn
      | next _ first' _ =>
          refine Option.ext fun value => ?_
          rw [head?_leadingTexts, head?_leadingTexts]
          exact ⟨directive_of_types first first', directive_of_types first' first⟩

end Realms.Script
