import Realms.Proofs.Script.Gives

/-!
What goes on with a value. A token behind a value looks into it, changes it, joins it with another one, or leaves it as
it is; and only a text is read as one, so a text that is read was left as it is.
-/
namespace Realms.Script

open Grammar Reading

variable {p : Inner} {s : Setting} {r next : Reader}

def Expr.text? : Expr → Option String
  | .text value => some value
  | _ => none

namespace Token

/-- Whether a token looks into the value in front of it. -/
def chains (types : Bool) (token : Token) : Bool :=
  match token.lexeme with
  | .mark mark => [".", "[", "(", "?."].contains mark || types && !token.newLine && mark == "!"
  | .template _ _ => true
  | _ => false

def updates (token : Token) : Bool := token.lexeme.isOneOf ["++", "--"] && !token.newLine

/-- The operator that a token is where `in` is one. -/
def operator? (types : Bool) (token : Token) : Option String :=
  match token.lexeme with
  | .mark mark => some mark
  | .word name _ =>
    if name == "in" then some name
    else if name == "instanceof" then some name
    else if name == "as" || name == "satisfies" then if types && !token.newLine then some name else none
    else none
  | _ => none

def operates (types : Bool) (token : Token) : Bool := ((token.joinAngle.operator? types).bind level).isSome

/-- Whether a token makes a text in front of it a part of a longer expression. -/
def joins (types : Bool) (token : Token) : Bool :=
  token.chains types || token.updates || token.operates types || token.joinAngle.lexeme == .mark "?" ||
    token.joinAngle.lexeme == .mark ","

end Token

/-- An opening angle bracket is an operator. -/
theorem Token.not_angle {types : Bool} {token : Token} (single : token.operates types = false) :
    token.lexeme.isOneOf ["<", "<<"] = false := by
  cases front : token.lexeme with
  | mark mark =>
      refine Bool.eq_false_iff.mpr fun angle => ?_
      rcases List.mem_cons.mp (List.contains_iff_mem.mp angle) with rfl | other
      · simp [operates, joinAngle, operator?, front, level] at single
      · obtain rfl := List.mem_singleton.mp other
        simp [operates, joinAngle, operator?, front, level] at single
  | _ => rfl

section Grow

variable {α β : Type} {step : α → Reading (Option α)} {k : α → Option β}

/-- If no step leads to a value of some kind, such a value did not grow at all. -/
theorem grow_leads (leaves : ∀ a, (step a).Gives s fun found => ∀ b, found = some b → k b = none) (rounds : Nat)
    (a : α) : (grow step rounds a).Leads s r fun b next =>
      ∀ value, k b = some value → step a s r = some (none, next) ∧ a = b := by
  induction rounds generalizing a r with
  | zero => exact .fail
  | succ rounds ih =>
      intro b next grown value isKind
      rw [grow] at grown
      obtain ⟨found, between, stepped, grown⟩ := bind_eq_some.mp grown
      cases found with
      | none =>
          obtain ⟨rfl, rfl⟩ := Prod.mk.inj (Option.some.inj grown)
          exact ⟨stepped, rfl⟩
      | some c =>
          obtain ⟨_, rfl⟩ := ih c b next grown value isKind
          cases (leaves a r _ _ stepped _ rfl).symm.trans isKind

theorem grow_none {a : α} (stays : step a s r = some (none, next)) (rounds : Nat) :
    (grow step rounds a).Leads s r fun b last => b = a ∧ last = next := by
  cases rounds with
  | zero => exact .fail
  | succ rounds =>
      intro b last grown
      rw [grow, bind_run, stays] at grown
      obtain ⟨rfl, rfl⟩ := Prod.mk.inj (Option.some.inj grown)
      exact ⟨rfl, rfl⟩

end Grow

section Values

theorem functionValue_gives : (functionValue p).Gives s (·.text? = none) :=
  .after fun _ => .after fun _ => .after fun _ => .after fun _ => .after fun _ => .pure rfl

theorem importCall_gives (start : Nat) : (importCall p start).Gives s (·.text? = none) := by
  unfold importCall
  repeat' with_reducible first
    | refine .after fun _ => ?_
    | exact .pure rfl
    | split

theorem importValue_gives : (importValue p).Gives s (·.text? = none) := by
  unfold importValue
  repeat' with_reducible first
    | exact importCall_gives _
    | exact .fail
    | refine .after fun _ => ?_
    | exact .pure rfl
    | split

theorem newValue_gives : (newValue p).Gives s (·.text? = none) := by
  unfold newValue
  repeat' with_reducible first
    | exact .fail
    | refine .after fun _ => ?_
    | exact .pure rfl
    | split

theorem wordValue_gives (name : String) : (wordValue p name).Gives s (·.text? = none) := by
  unfold wordValue
  split
  · exact .after fun _ => .pure rfl
  · exact .after fun _ => .pure rfl
  · exact .after fun _ => .pure rfl
  · exact .after fun _ => .pure rfl
  · exact functionValue_gives
  · exact .after fun _ => .pure rfl
  · exact newValue_gives
  · exact .after fun _ => .after fun _ => .after fun _ => .pure rfl
  · exact importValue_gives
  · refine .after fun isAsync => ?_
    split
    · exact functionValue_gives
    · exact .after fun name => .pure rfl

theorem patternLiteral_gives : patternLiteral.Gives s (·.text? = none) := by
  refine .after fun _ => .after fun lexeme => ?_
  split
  · exact .after fun _ => .pure rfl
  · exact .fail

/-- Only a text is read as one. -/
theorem primary_gives (other : ∀ value whole, r.token.lexeme ≠ .text value whole) :
    (primary p).GivesAt s r (·.text? = none) := by
  unfold primary
  refine .lexeme ?_
  split
  · rename_i front
    exact absurd front (other _ _)
  · exact Gives.here (.after fun _ => .pure rfl)
  · exact Gives.here (.after fun _ => .pure rfl)
  · exact Gives.here (.after fun _ => .pure rfl)
  · exact Gives.here (wordValue_gives _)
  · exact Gives.here (.after fun _ => .after fun inner => .after fun _ => .pure rfl)
  · exact Gives.here (.after fun _ => .after fun items => .pure rfl)
  · exact Gives.here (.after fun _ => .after fun members => .after fun _ => .pure rfl)
  · exact Gives.here patternLiteral_gives
  · exact Gives.here patternLiteral_gives
  · exact Gives.here (.after fun _ => .after fun _ => .pure rfl)
  · exact Gives.here (.after fun _ => .after fun _ => .pure rfl)
  · exact Gives.here .fail

theorem grown_text? (chain : Chain) {value : Expr} (other : value.text? = none) :
    (chain.grown value).value.text? = none := by
  unfold Chain.grown
  split
  · rfl
  · exact other

theorem grown_gives (chain : Chain) {value : Expr} (other : value.text? = none) :
    (pure (some (chain.grown value)) : Reading (Option Chain)).Gives s fun found =>
      ∃ longer, found = some longer ∧ longer.value.text? = none :=
  .pure ⟨_, rfl, grown_text? chain other⟩

theorem optionalStep_gives (chain : Chain) : (optionalStep p chain).Gives s fun found =>
    ∃ longer, found = some longer ∧ longer.value.text? = none := by
  refine .after fun _ => .after fun lexeme => ?_
  split
  · exact .after fun _ => grown_gives _ rfl
  · exact .after fun _ => .after fun _ => grown_gives _ rfl
  · exact .after fun _ => grown_gives _ rfl
  · exact .after fun _ => grown_gives _ rfl
  · refine .after fun types => .after fun isList => ?_
    extract_lets rest
    have called : (rest ()).Gives s fun found => ∃ longer, found = some longer ∧ longer.value.text? = none :=
      .after fun _ => grown_gives _ rfl
    split
    · exact .after fun _ => called
    · exact called

/-- What is looked into is no text any more. -/
theorem chainStep_gives (calls : Bool) (chain : Chain) : (chainStep p calls chain).Gives s fun found =>
    ∀ longer, found = some longer → longer.value.text? = none := by
  have stays : (pure none : Reading (Option Chain)).Gives s fun found =>
      ∀ longer, found = some longer → longer.value.text? = none := .pure nofun
  have grows {m : Reading (Option Chain)} (given : m.Gives s fun found =>
      ∃ longer, found = some longer ∧ longer.value.text? = none) :
      m.Gives s fun found => ∀ longer, found = some longer → longer.value.text? = none := by
    refine given.imp ?_
    rintro _ ⟨longer, rfl, other⟩ _ ⟨⟩
    exact other
  unfold chainStep
  refine .after fun lexeme => ?_
  split
  · exact .after fun _ => .after fun _ => grows (grown_gives _ rfl)
  · refine .after fun setting => ?_
    split
    · exact stays
    · exact .after fun _ => grows (grown_gives _ rfl)
  · exact .after fun _ => .after fun _ => grows (grown_gives _ rfl)
  · split
    · exact grows (optionalStep_gives _)
    · exact stays
  · split
    · exact .after fun _ => grows (grown_gives _ rfl)
    · exact stays
  · refine .after fun types => .after fun newLine => ?_
    split
    · exact .after fun _ => grows (grown_gives _ rfl)
    · exact stays
  · refine .after fun isList => ?_
    split
    · exact grows (grown_gives _ rfl)
    · exact stays
  · refine .after fun isList => ?_
    split
    · exact grows (grown_gives _ rfl)
    · exact stays
  · exact stays

/-- The step that an operator takes. -/
theorem operation_gives (left : Expr) (operator : String) (found : Nat) :
    (do
      if operator == "as" || operator == "satisfies" then
        advance
        p.type
        return some (.typed left)
      flawIf (operator == "**" && isUnary left)
      match ← lexeme with
      | .word name _ => takeWord name
      | _ => advance
      let right ← p.read (.binary found)
      flawIf (operator == "??" && (isAndOr left || isAndOr right))
      return some (.binary operator left right) : Reading (Option Expr)).Gives s fun found =>
        ∃ longer, found = some longer ∧ longer.text? = none := by
  split
  · exact .after fun _ => .after fun _ => .pure ⟨_, rfl, rfl⟩
  · refine .after fun _ => .after fun lexeme => ?_
    extract_lets rest
    have binary : (rest ()).Gives s fun found => ∃ longer, found = some longer ∧ longer.text? = none :=
      .after fun right => .after fun _ => .pure ⟨_, rfl, rfl⟩
    split
    · exact .after fun _ => binary
    · exact .after fun _ => binary

theorem binaryStep_gives (above : Nat) (left : Expr) : (binaryStep p above left).Gives s fun found =>
    ∀ longer, found = some longer → longer.text? = none := by
  have stays : (pure none : Reading (Option Expr)).Gives s fun found =>
      ∀ longer, found = some longer → longer.text? = none := .pure nofun
  refine .after fun operator => ?_
  split
  · exact stays
  · split
    · exact stays
    · split
      · exact stays
      · refine (operation_gives left _ _).imp ?_
        rintro _ ⟨longer, rfl, other⟩ _ ⟨⟩
        exact other

/-- Type arguments that cannot be read are not there. -/
theorem typeArgumentsBehind_leads : (typeArgumentsBehind p).Leads s r fun found next => found = false → next = r := by
  refine .typed (.isOneOf ?_)
  split
  · refine .bind (attempt_leads (.always fun _ => trivial)) fun found next ⟨_, stays⟩ => .pure fun without => ?_
    exact stays (Option.isNone_iff_eq_none.mp (Option.isSome_eq_false_iff.mp without))
  · exact .pure fun _ => rfl

theorem chainStep_run {chain : Chain} (apart : r.token.chains s.types = false)
    (noList : r.token.lexeme.isOneOf ["<", "<<"] = false) : chainStep p true chain s r = some (none, r) := by
  cases front : r.token.lexeme with
  | mark mark =>
      simp [Token.chains, front] at apart
      simp [Lexeme.isOneOf, front] at noList
      by_cases asserts : mark = "!"
      · cases types : s.types with
        | false => simp [chainStep, front, asserts, types]
        | true =>
            have below : r.token.newLine = true := by simpa [types, asserts] using apart.2
            simp [chainStep, front, asserts, types, below]
      · simp [chainStep, front, asserts, noList, apart]
  | template last valid => simp [Token.chains, front] at apart
  | _ => simp [chainStep, front]

/-- A token that looks into a value is not left in front. -/
theorem chainStep_isSome {chain : Chain} (plain : s.decorator = false) (chains : r.token.chains s.types = true) :
    (chainStep p true chain).GivesAt s r (·.isSome = true) := by
  unfold chainStep
  refine .lexeme ?_
  unfold Token.chains at chains
  split
  · exact Gives.here (.after fun _ => .after fun _ => .pure rfl)
  · refine .setting ?_
    rw [plain]
    exact Gives.here (.after fun _ => .pure rfl)
  · exact Gives.here (.after fun _ => .after fun _ => .pure rfl)
  · refine Gives.here ((optionalStep_gives chain).imp ?_)
    rintro _ ⟨longer, rfl, -⟩
    rfl
  · exact Gives.here (.after fun _ => .pure rfl)
  · rename_i front
    refine .typed (.newLine ?_)
    rw [if_pos (by simpa [front] using chains)]
    exact Gives.here (.after fun _ => .pure rfl)
  · rename_i front
    simp [front] at chains
  · rename_i front
    simp [front] at chains
  · rename_i dot bracket template optional call assertion angle angles
    split at chains
    · rename_i mark front
      have other {found : String} (not : r.token.lexeme = .mark found → False) : mark ≠ found :=
        fun same => not (same ▸ front)
      simp [other dot, other bracket, other optional, other call, other assertion] at chains
    · rename_i last valid front
      exact absurd front (template last valid)
    · cases chains

/-- Where no step goes on, the token in front does not look into a value. -/
theorem chainStep_none {chain : Chain} (plain : s.decorator = false)
    (stays : chainStep p true chain s r = some (none, next)) : next = r ∧ r.token.chains s.types = false := by
  cases chains : r.token.chains s.types with
  | true => cases chainStep_isSome plain chains _ _ stays
  | false =>
      refine ⟨?_, rfl⟩
      cases lists : r.token.lexeme.isOneOf ["<", "<<"] with
      | false => exact (Prod.mk.inj (Option.some.inj ((chainStep_run chains lists).symm.trans stays))).2.symm
      | true =>
          have behind : (typeArgumentsBehind p >>= fun found =>
              if found then pure (some (chain.grown .other)) else pure none : Reading (Option Chain)) s r =
                some (none, next) := by
            cases front : r.token.lexeme with
            | mark mark =>
                simp [Lexeme.isOneOf, front] at lists
                rcases lists with rfl | rfl
                all_goals simpa [chainStep, front] using stays
            | _ => simp [Lexeme.isOneOf, front] at lists
          obtain ⟨found, between, without, ends⟩ := bind_eq_some.mp behind
          cases found with
          | true => cases (Prod.mk.inj (Option.some.inj ends)).1
          | false => exact (Prod.mk.inj (Option.some.inj ends)).2.symm.trans (typeArgumentsBehind_leads _ _ without rfl)

theorem operatorAhead_run (isOperator : s.inOperator = true) : operatorAhead s r =
    some (r.token.joinAngle.operator? s.types, { r with token := r.token.joinAngle }) := by
  simp only [operatorAhead, bind_run, retake, lexeme_run, Token.operator?]
  cases r.token.joinAngle.lexeme with
  | mark mark => rfl
  | word name escaped =>
      dsimp only
      split
      · simp [isOperator]
      · split
        · rfl
        · split
          · simp
          · rfl
  | _ => rfl

theorem level_ne_zero {operator : String} : level operator ≠ some 0 := by
  fun_cases level operator
  all_goals nofun

theorem binaryStep_run {left : Expr} (isOperator : s.inOperator = true) (single : r.token.operates s.types = false) :
    binaryStep p 0 left s r = some (none, { r with token := r.token.joinAngle }) := by
  rw [binaryStep, bind_run, operatorAhead_run isOperator]
  unfold Token.operates at single
  cases operator : r.token.joinAngle.operator? s.types with
  | none => rfl
  | some operator =>
      rw [operator, Option.bind_some, Option.isSome_eq_false_iff, Option.isNone_iff_eq_none] at single
      simp only [single]
      rfl

theorem binaryStep_none {left : Expr} (isOperator : s.inOperator = true)
    (stays : binaryStep p 0 left s r = some (none, next)) :
    next = { r with token := r.token.joinAngle } ∧ r.token.operates s.types = false := by
  cases single : r.token.operates s.types with
  | false =>
      obtain ⟨-, rfl⟩ := Prod.mk.inj (Option.some.inj ((binaryStep_run isOperator single).symm.trans stays))
      exact ⟨rfl, rfl⟩
  | true =>
      rw [binaryStep, bind_run, operatorAhead_run isOperator] at stays
      unfold Token.operates at single
      obtain ⟨found, reached⟩ := Option.isSome_iff_exists.mp single
      obtain ⟨operator, ahead, above⟩ := Option.bind_eq_some_iff.mp reached
      have binds : (decide (found < 0) || found == 0 && operator != "**") = false := by
        have positive : found ≠ 0 := fun zero => level_ne_zero (zero ▸ above)
        simp [positive]
      simp only [ahead, above, binds] at stays
      obtain ⟨longer, same, -⟩ := operation_gives left operator found _ _ _ stays
      cases same

end Values

end Realms.Script
