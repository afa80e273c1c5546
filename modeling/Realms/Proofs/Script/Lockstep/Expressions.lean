import Realms.Proofs.Script.Lockstep.Functions
import Realms.Proofs.Script.Lockstep.Types

/-!
Markup, read in step. At the seam an element is open, and what stands behind it has no angle bracket that could close
it.
-/
namespace Realms.Script

open Grammar Reading

section Runs

variable {p : Inner} {s : Setting} {r : Reader}

theorem markupWord_run {name : String} (front : r.token.lexeme = .word name false) :
    markupWord s r = some (String.ofList (r.token.start.takeWhile isMarkupPart),
      { r with token := nextToken (r.token.start.dropWhile isMarkupPart) }) := by
  have token : Reading.token s r = some (r.token, r) := rfl
  unfold markupWord
  rw [bind_run, token]
  dsimp only
  rw [front]
  rfl

theorem markupWord_other (other : ∀ name, r.token.lexeme ≠ .word name false) : markupWord s r = none := by
  have token : Reading.token s r = some (r.token, r) := rfl
  unfold markupWord
  rw [bind_run, token]
  dsimp only
  cases front : r.token.lexeme with
  | word name escaped =>
      cases escaped with
      | false => exact absurd front (other name)
      | true => rfl
  | _ => rfl

/-- A lexeme that an attribute starts with. -/
def Lexeme.leadsAttribute : Lexeme → Bool
  | .word _ _ => true
  | lexeme => lexeme == .mark "\x7b"

theorem leadsAttribute_run (s : Setting) (r : Reader) :
    (do return (← isMark "\x7b") || (← isAnyWord) : Reading Bool) s r = some (r.token.lexeme.leadsAttribute, r) := by
  simp only [bind_run, isMark_run, isAnyWord, lexeme_run]
  cases r.token.lexeme
  all_goals simp [Lexeme.leadsAttribute]

/-- The value of an attribute from the text behind the equals sign on. -/
def attributeValueAt (p : Inner) (text : List Char) : Reading Unit :=
  match text with
  | '"' :: text => attributeValue.close '"' text
  | '\x27' :: text => attributeValue.close '\x27' text
  | '\x7b' :: text => do
    resume ('\x7b' :: text)
    container p false
    advance
  | '<' :: text => do
    resume ('<' :: text)
    p.read .element
    advance
  | _ => fail

theorem attributeValue_run :
    attributeValue p s r = attributeValueAt p (skipSpace .plain false r.token.rest).rest s r := rfl

theorem attributeValueAt_other {text : List Char}
    (other : ∀ c rest, text = c :: rest → c ∉ ['"', '\x27', '\x7b', '<']) : attributeValueAt p text = fail := by
  unfold attributeValueAt
  split
  · exact absurd (by simp) (other _ _ rfl)
  · exact absurd (by simp) (other _ _ rfl)
  · exact absurd (by simp) (other _ _ rfl)
  · exact absurd (by simp) (other _ _ rfl)
  · rfl

/-- Children from the text of an element on. -/
def childrenAt (p : Inner) (rounds : Nat) (text : List Char) : Reading Unit :=
  match text with
  | '\x7b' :: rest => do
    resume ('\x7b' :: rest)
    container p true
    children p rounds
  | '<' :: rest => do
    resume ('<' :: rest)
    if ← ahead (do advance; isMark "/") then return ()
    p.read .element
    children p rounds
  | _ => fail

theorem children_run (rounds : Nat) :
    children p (rounds + 1) s r = childrenAt p rounds (childText r.token.rest) s r := rfl

theorem childrenAt_other {rounds : Nat} {c : Char} {text : List Char} (other : c ≠ '\x7b' ∧ c ≠ '<') :
    childrenAt p rounds (c :: text) = fail := by
  unfold childrenAt
  split
  · rename_i same
    exact absurd (List.cons.inj same).1 other.1
  · rename_i same
    exact absurd (List.cons.inj same).1 other.2
  · rfl

end Runs

namespace Lockstep.Within

variable {K : Lockstep} {p p' : Inner} {k c : Nat} {s : Setting} {r r' : Reader}

theorem markupWord (near : Beside K.near r r') (low : r.left ≤ k) :
    K.Agree K.near (below k) markupWord markupWord s r r' := by
  by_cases word : ∃ name, r.token.lexeme = .word name false
  · obtain ⟨name, front⟩ := word
    obtain ⟨beside, same, shorter⟩ := K.name near.token front
    rw [Agree, markupWord_run front, markupWord_run (near.lexeme.trans front), same]
    exact .gives ⟨beside, by rw [near.noted]⟩ (Nat.lt_of_lt_of_le shorter low)
  · have other : ∀ name, r.token.lexeme ≠ .word name false := fun name front => word ⟨name, front⟩
    rw [Agree, markupWord_other other, markupWord_other fun name front => other name (near.lexeme ▸ front)]
    exact .fails

theorem memberWord (near : Beside K.near r r') (low : r.left ≤ k) :
    K.Agree K.near (below k) memberWord memberWord s r r' :=
  (markupWord near low).bind fun _ _ _ near low => .ite (fun _ => .fail) fun _ => .pure near low

theorem elementName (within : K.Within p p' k c) (near : Beside K.near r r') (low : r.left ≤ k) :
    K.Agree K.either (below k) (elementName p) (elementName p') s r r' := by
  refine (markupWord near low).bind fun first r₁ r₁' near low => ?_
  refine .eatMark ":" rfl near.either low.le (fun _ r₂ r₂' near low => ?_) fun _ => ?_
  · exact (markupWord near (Nat.le_of_lt low)).bind fun _ _ _ near low => .pure near.either low
  · refine (Agree.repeatMarked "." rfl (fun _ near low => (memberWord near (Nat.le_of_lt low)).either) near.either low
      (Nat.lt_trans low within.rounds) within.more).bind fun _ _ _ either low => ?_
    exact .pure either low

/-- The brace at the end of an embedded expression, which stays in front. -/
theorem containerEnd (either : Beside K.either r r') (low : r.left < k) :
    K.Agree K.near (fun _ next => next.token.lexeme = .mark "\x7d" ∧ next.left < k)
      (do Reading.need (← Reading.isMark "\x7d")) (do Reading.need (← Reading.isMark "\x7d")) s r r' := by
  refine .isMark either ?_
  cases closes : r.token.lexeme == .mark "\x7d" with
  | false => exact .fail
  | true =>
      have closes := beq_iff_eq.mp closes
      exact .gives (either.near_of_ne (closes ▸ nofun)) ⟨closes, low⟩

theorem containerValue (within : K.Within p p' k c) (either : Beside K.either r r') (low : r.left < k) :
    K.Agree K.near (fun _ next => next.token.lexeme = .mark "\x7d" ∧ next.left < k)
      (do
        let value ← Reading.under (fun s => { s with inOperator := true, decorator := false }) p.sequence
        match value with
        | .sequence _ => Reading.flaw
        | _ => Pure.pure ()
        Reading.need (← Reading.isMark "\x7d"))
      (do
        let value ← Reading.under (fun s => { s with inOperator := true, decorator := false }) p'.sequence
        match value with
        | .sequence _ => Reading.flaw
        | _ => Pure.pure ()
        Reading.need (← Reading.isMark "\x7d")) s r r' := by
  refine (Agree.under (by rfl) (within.sequence either low)).bind fun value r₁ r₁' either low => ?_
  cases value with
  | sequence => exact .flawIf either fun either => containerEnd either low
  | _ => exact containerEnd either low

theorem container (mayBeEmpty : Bool) (within : K.Within p p' k c) (near : Beside K.near r r') (low : r.left ≤ k) :
    K.Agree K.near (fun _ next => next.token.lexeme = .mark "\x7d" ∧ next.left < k) (container p mayBeEmpty)
      (container p' mayBeEmpty) s r r' := by
  refine (Agree.takeMark "\x7b" rfl near.either low).bind fun _ r₁ r₁' near low => .isMark near.either ?_
  refine .ite (fun empty => ?_) fun _ => .ite (fun _ => ?_) fun _ => within.containerValue near.either low
  · exact .pure near ⟨beq_iff_eq.mp (Bool.and_eq_true_iff.mp empty).2, low⟩
  · exact (Agree.eatsMark near.either low).bind fun _ _ _ either low => within.containerValue either low

/-- A value whose quote is closed in the second text only leads to where no angle bracket is. -/
theorem attributeValue (within : K.Within p p' k c) (near : Beside K.near r r') (equals : r.token.lexeme = .mark "=")
    (low : r.left ≤ k) :
    Agree.Closing K K.adrift k (attributeValue p s r) (attributeValue p' (s.grown K.more) r') := by
  have valued := K.value near.token equals
  rw [attributeValue_run, attributeValue_run]
  generalize (skipSpace .plain false r.token.rest).rest = text, (skipSpace .plain false r'.token.rest).rest = text'
    at valued
  cases valued with
  | @closed quote c c' text text' rest rest' isQuote here there beside shorter =>
      have closes : K.Agree K.either (below k) (Grammar.attributeValue.close quote text)
          (Grammar.attributeValue.close quote text') s r r' := by
        simp only [Grammar.attributeValue.close, here, there]
        exact .gives ⟨beside, by rw [near.noted]⟩ (Nat.lt_of_lt_of_le shorter low)
      rcases isQuote with rfl | rfl
      all_goals exact .inl closes
  | @unclosed quote text text' isQuote here there =>
      have unclosed : Grammar.attributeValue.close quote text s r = none := by
        simp only [Grammar.attributeValue.close, here, fail_run]
      have drifts (next : Reader) (given : Grammar.attributeValue.close quote text' (s.grown K.more) r' = some
        ((), next)) :
          K.adrift next.token := by
        unfold Grammar.attributeValue.close at given
        cases dropped : text'.dropWhile (· != quote) with
        | nil =>
            rw [dropped] at given
            cases given
        | cons c rest =>
            rw [dropped] at given
            obtain rfl : _ = next := (Prod.mk.inj (Option.some.inj given)).2
            exact there c rest dropped
      rcases isQuote with rfl | rfl
      all_goals exact .inr ⟨fun _ _ given => absurd (unclosed.symm.trans given) nofun, fun _ next given => drifts next
        given⟩
  | @opens c text text' opens beside shorter =>
      have shorter : (nextToken (c :: text)).start.length < k := Nat.lt_of_lt_of_le shorter low
      rcases opens with rfl | rfl
      · refine .inl (Agree.resume (T := K.near) near beside fun near => ?_)
        refine (within.container false near (Nat.le_of_lt shorter)).bind fun _ r₁ r₁' near ⟨brace, low⟩ => ?_
        exact Agree.advanceOver near.either (brace ▸ rfl) (Nat.le_of_lt low)
      · refine .inl (Agree.resume (T := K.near) near beside fun near => ?_)
        refine (within.element near.either (.inl shorter)).bind fun _ r₁ r₁' near ⟨angle, low⟩ => ?_
        exact (Agree.advance near.either (angle ▸ rfl) (Nat.le_of_lt (Nat.lt_trans low shorter))).either
  | other here there =>
      rw [attributeValueAt_other here, attributeValueAt_other there]
      exact .inl .fails

theorem elementAttribute (within : K.Within p p' k c) (near : Beside K.near r r') (low : r.left ≤ k) :
    Agree.Closing K K.adrift k (elementAttribute p s r) (elementAttribute p' (s.grown K.more) r') := by
  refine .bind (Agree.eatsMarkHere "\x7b" rfl near low) fun spread r₁ r₁' near low => ?_
  cases spread with
  | true =>
      refine .inl ?_
      refine (Agree.takeMark "..." rfl near.either low).bind fun _ r₂ r₂' near low => ?_
      refine (within.expression near.either low).bind fun _ r₃ r₃' either low => ?_
      exact Agree.closeMark either low.le
  | false =>
      have valued {r r' : Reader} (near : Beside K.near r r') (low : r.left < k) :
          Agree.Closing K K.adrift k ((do if ← Reading.isMark "=" then Grammar.attributeValue p) s r)
            ((do if ← Reading.isMark "=" then Grammar.attributeValue p') (s.grown K.more) r') := by
        rw [bind_run, bind_run, isMark_run, isMark_run, near.lexeme]
        cases equals : r.token.lexeme == .mark "=" with
        | false => exact .inl (.gives near.either low)
        | true => exact within.attributeValue near (beq_iff_eq.mp equals) (Nat.le_of_lt low)
      refine .bind (markupWord near low) fun _ r₂ r₂' near low => ?_
      refine .bind (Agree.eatsMarkNear ":" rfl near low) fun colon r₃ r₃' near low => ?_
      cases colon with
      | false => exact valued near low
      | true => exact .bind (markupWord near low.le) fun _ _ _ near low => valued near low

/-- Where no angle bracket follows, no element is closed. -/
theorem children_adrift (within : K.Within p p' k c) (s : Setting) (r : Reader) (rounds : Nat)
    (ends : ∀ c rest, childText r.token.rest = c :: rest → c ≠ '<' ∧ K.adrift (nextToken (c :: rest))) :
    children p' rounds s r = none := by
  induction rounds generalizing r with
  | zero => rfl
  | succ rounds ih =>
      rw [children_run]
      generalize childText r.token.rest = text at ends
      unfold childrenAt
      split
      · rename_i rest
        have drifts := (ends _ _ rfl).2
        have resumed : Reading.resume ('\x7b' :: rest) s r = some ((), { r with token := nextToken ('\x7b' :: rest) })
          := rfl
        rw [bind_run, resumed]
        dsimp only
        rw [bind_run]
        split
        · rename_i u next given
          exact ih _ (K.adrift_child (within.driftContainer drifts given))
        · rfl
      · exact absurd rfl (ends _ _ rfl).1
      · rfl

theorem children {rounds rounds' : Nat} (within : K.Within p p' k c) (near : Beside K.near r r')
    (isRead : r.token.lexeme.isRead = true) (low : r.left < k) (enough : r.left < rounds) (more : rounds ≤ rounds') :
    K.Agree K.near (below k) (children p rounds) (children p' rounds') s r r' := by
  induction rounds generalizing rounds' r r' with
  | zero => omega
  | succ rounds ih =>
      obtain ⟨rounds', rfl⟩ := Nat.exists_eq_add_of_le' (Nat.le_trans (Nat.le_add_left 1 rounds) more)
      have child := K.child near.token isRead
      have astray := within.children_adrift (s.grown K.more) r' (rounds' + 1)
      rw [Agree, children_run, children_run]
      rw [children_run] at astray
      generalize childText r.token.rest = text, childText r'.token.rest = text' at child astray
      cases child with
      | @opens c text text' opens beside goes shorter =>
          rcases opens with rfl | rfl
          · refine Agree.resume (T := K.near) near beside fun near => ?_
            have low : (nextToken ('\x7b' :: text)).start.length < k := Nat.lt_trans shorter low
            refine ((within.mono (Nat.le_of_lt low)).container true near (Nat.le_refl _)).bind
              fun _ r₁ r₁' near found => ?_
            obtain ⟨brace, shorter'⟩ := found
            have shorter' : r₁.left < r.left := Nat.lt_trans shorter' shorter
            exact ih near (brace ▸ rfl) (by omega) (by omega) (by omega)
          · refine Agree.resume (T := K.near) near beside fun near => ?_
            have low : (nextToken ('<' :: text)).start.length < k := Nat.lt_trans shorter low
            refine Look.bind (Look.ahead (P := fun _ => True) (T := K.either) ?_) fun closes _ => ?_
            · refine (Agree.advance near.either goes (Nat.le_refl _)).bind fun _ _ _ near _ => ?_
              exact (Look.isMark near.either).sees near.either |>.imp (fun _ _ => id) fun _ _ _ => trivial
            refine .ite (fun _ => .pure near low) fun _ => ?_
            refine (within.element near.either (.inl low)).bind fun _ r₁ r₁' near found => ?_
            obtain ⟨angle, shorter'⟩ := found
            have shorter' : r₁.left < r.left := Nat.lt_trans shorter' shorter
            exact ih near (angle ▸ rfl) (by omega) (by omega) (by omega)
      | @other c text text' neither =>
          rw [childrenAt_other neither, childrenAt_other neither]
          exact .fails
      | unended there =>
          rw [astray there]
          exact .fails

theorem closingTag (name : Option String) (within : K.Within p p' k c) (either : Beside K.either r r')
    (low : r.left ≤ k) :
    K.Agree K.near (fun _ next => next.token.lexeme = .mark ">" ∧ next.left < k) (closingTag p name)
      (closingTag p' name)
      s r r' := by
  have closed {r r' : Reader} (either : Beside K.either r r') (low : r.left < k) :
      K.Agree K.near (fun _ next => next.token.lexeme = .mark ">" ∧ next.left < k)
        (do Reading.need (← Reading.isMark ">")) (do Reading.need (← Reading.isMark ">")) s r r' := by
    refine .isMark either ?_
    cases closes : r.token.lexeme == .mark ">" with
    | false => exact .fail
    | true =>
        have closes := beq_iff_eq.mp closes
        exact .gives (either.near_of_ne (closes ▸ nofun)) ⟨closes, low⟩
  refine (Agree.takeMark "<" rfl either low).bind fun _ r₁ r₁' near low => ?_
  refine (Agree.takeMark "/" rfl near.either low.le).bind fun _ r₂ r₂' near low => .isMark near.either ?_
  refine .ite (fun _ => .flawIf near.either fun either => closed either low) fun _ => ?_
  refine (within.elementName near low.le).bind fun found r₃ r₃' either low => ?_
  exact .flawIf either fun either => closed either low

theorem elementChildren (name : Option String) (within : K.Within p p' k c) (either : Beside K.either r r')
    (angle : r.token.lexeme = .mark ">") (low : r.left < k) :
    K.Agree K.near (fun _ next => next.token.lexeme = .mark ">" ∧ next.left < k)
      (do Grammar.children p p.rounds; Grammar.closingTag p name)
      (do Grammar.children p' p'.rounds; Grammar.closingTag p' name) s r r' := by
  refine (within.children (either.near_of_ne (angle ▸ nofun)) (angle ▸ rfl) low (Nat.lt_trans low within.rounds)
    within.more).bind fun _ r₁ r₁' near low => ?_
  exact within.closingTag name near.either low.le

theorem elementAttributes (name : String) (within : K.Within p p' k c) (either : Beside K.either r r')
    (low : r.left < k) :
    K.Agree K.near (fun _ next => next.token.lexeme = .mark ">" ∧ next.left < k)
      (do
        let _ ← repeatWhile (do return (← Reading.isMark "\x7b") || (← Reading.isAnyWord))
          (Grammar.elementAttribute p)
          p.rounds
        if ← Reading.eatMark "/" then Reading.need (← Reading.isMark ">")
        else
          Reading.need (← Reading.isMark ">")
          Grammar.children p p.rounds
          Grammar.closingTag p (some name))
      (do
        let _ ← repeatWhile (do return (← Reading.isMark "\x7b") || (← Reading.isAnyWord))
          (Grammar.elementAttribute p')
          p'.rounds
        if ← Reading.eatMark "/" then Reading.need (← Reading.isMark ">")
        else
          Reading.need (← Reading.isMark ">")
          Grammar.children p' p'.rounds
          Grammar.closingTag p' (some name)) s r r' := by
  refine .closing (P := K.adrift) (Agree.braced leadsAttribute_run rfl ?_ ?_ either low
    (Nat.lt_trans low within.rounds)
    within.more) ?_ ?_ fun _ r₁ r₁' either low => ?_
  · exact fun lt near _ low => (within.mono (Nat.le_of_lt lt)).elementAttribute near low
  · rintro r rounds xs next (⟨token, seam⟩ | adrift) given
    · exact within.driftAttributes (K.seam_adrift seam) given
    · exact within.driftAttributes adrift given
  · intro a next ending
    have notSlash : (next.token.lexeme == .mark "/") = false := by
      rw [ending]
      rfl
    have notAngle : (next.token.lexeme == .mark ">") = false := by
      rw [ending]
      rfl
    simp [Reading.eatMark_other notSlash, notAngle, need]
  · intro a next adrift
    have notAngle : (next.token.lexeme == .mark ">") = false := beq_eq_false_iff_ne.mpr (K.adrift_open adrift)
    have behind : (nextToken next.token.rest).lexeme ≠ .mark ">" := K.adrift_open (K.adrift_next adrift)
    have behind : ((nextToken next.token.rest).lexeme == .mark ">") = false := beq_eq_false_iff_ne.mpr behind
    cases slash : next.token.lexeme == .mark "/" with
    | false => simp [Reading.eatMark_other slash, notAngle, need]
    | true => simp [Reading.eatMark, slash, advance, Reader.next, behind, need]
  · refine .eatMark "/" rfl either (Nat.le_of_lt low)
      (fun _ r₂ r₂' near low => .isMark near.either ?_) fun _ => .isMark either ?_
    · cases closes : r₂.token.lexeme == .mark ">" with
      | false => exact .fail
      | true => exact .gives near ⟨beq_iff_eq.mp closes, low⟩
    · cases closes : r₁.token.lexeme == .mark ">" with
      | false => exact .fail
      | true => exact within.elementChildren (some name) either (beq_iff_eq.mp closes) low

theorem wholeElement (within : K.Within p p' k c) (either : Beside K.either r r') (low : r.left ≤ k) :
    K.Agree K.near (fun _ next => next.token.lexeme = .mark ">" ∧ next.left < k) (Grammar.element p)
      (Grammar.element p') s r r' := by
  refine (Agree.takeMark "<" rfl either low).bind fun _ r₁ r₁' near low => .isMark near.either ?_
  refine .ite (fun angle => within.elementChildren none near.either (beq_iff_eq.mp angle) low) fun _ => ?_
  refine (within.elementName near low.le).bind fun name r₂ r₂' either low => .typed (.isOneOf either ?_)
  refine .ite (fun _ => ?_) fun _ => within.elementAttributes name either low
  exact (within.typeArguments either low).bind fun _ _ _ either low => within.elementAttributes name either low

end Lockstep.Within

end Realms.Script

/-!
Expressions, read in step.
-/
namespace Realms.Script.Lockstep

open Grammar Reading

variable {α β : Type} {K : Lockstep} {p p' : Inner} {k c : Nat} {s : Setting} {r r' : Reader}

namespace Agree

variable {T S : Token → Token → Prop} {Q : β → Reader → Prop} {f f' : Unit → Reading β}

theorem noteCall {call : ImportCall} (beside : Beside S r r')
    (later : ∀ {next next'}, Beside S next next' → next.left = r.left → K.Agree T Q (f ()) (f' ()) s next next') :
    K.Agree T Q (Reading.noteCall call >>= f) (Reading.noteCall call >>= f') s r r' :=
  changed (fun r => { r with calls := call :: r.calls }) beside rfl rfl (fun _ => rfl) (fun _ _ => rfl)
    fun beside => later beside rfl

theorem noteDefault {start : Nat} (beside : Beside S r r')
    (later : ∀ {next next'}, Beside S next next' → next.left = r.left → K.Agree T Q (f ()) (f' ()) s next next') :
    K.Agree T Q (Reading.noteDefault start >>= f) (Reading.noteDefault start >>= f') s r r' :=
  changed (fun r => { r with defaults := start :: r.defaults }) beside rfl rfl (fun _ => rfl) (fun _ _ => rfl)
    fun beside => later beside rfl

end Agree

namespace Within

section Values

theorem template (tagged : Bool) {rounds rounds' : Nat} (within : K.Within p p' k c) (near : Beside K.near r r')
    (low : r.left ≤ k) (enough : r.left < rounds) (more : rounds ≤ rounds') :
    K.Agree K.either (below k) (template p tagged rounds) (template p' tagged rounds') s r r' := by
  induction rounds generalizing rounds' r r' with
  | zero => omega
  | succ rounds ih =>
      obtain ⟨rounds', rfl⟩ := Nat.exists_eq_add_of_le' (Nat.le_trans (Nat.le_add_left 1 rounds) more)
      refine .lexeme near ?_
      split
      · rename_i last valid front
        refine .flawIf near fun near => ?_
        refine (Agree.advance near.either (front ▸ rfl) (Nat.le_refl r.left)).bind fun _ r₁ r₁' near first_low => ?_
        refine .ite (fun _ => .pure near.either (Nat.lt_of_lt_of_le first_low low)) fun _ => ?_
        have within := within.mono low
        refine (Agree.under (by rfl) (within.sequence near.either first_low)).bind
          fun _ r₂ r₂' either low => .isMark either ?_
        refine (Agree.need either).bind fun _ r₃ r₃' passed ⟨closes, same⟩ => ?_
        subst same
        have closes := beq_iff_eq.mp closes
        have near := passed.near_of_ne (Lexeme.ne_ending_of_isRead (closes ▸ rfl))
        refine .retake (T := K.near) (K.asTemplate near.token closes) near fun near => ?_
        have low : r₃.left < r.left := low
        have left : ({ r₃ with token := r₃.token.asTemplate } : Reader).left = r₃.left := by
          rw [Reader.left, Token.asTemplate_start, Reader.left]
        exact ih near (by omega) (by omega) (by omega)
      · exact .fail

theorem parenthesized (within : K.Within p p' k c) (either : Beside K.either r r') (low : r.left ≤ k) :
    K.Agree K.either (below k) (parenthesized p) (parenthesized p') s r r' := by
  refine (Agree.takeMark "(" rfl either low).bind fun _ r₁ r₁' near low => ?_
  refine (Agree.under (by rfl) (within.sequence near.either low)).bind fun inner r₂ r₂' either low => ?_
  exact (Agree.takeMark ")" rfl either low.le).bind fun _ _ _ near low => .pure near.either low

theorem spreadable (within : K.Within p p' k c) (either : Beside K.either r r') (low : r.left < k) :
    K.Agree K.either (below k) (spreadable p) (spreadable p') s r r' := by
  refine .eatMark "..." rfl either (Nat.le_of_lt low)
    (fun _ r₁ r₁' near low => ?_) fun _ => within.expression either low
  exact (within.expression near.either low).bind fun _ _ _ either low => .pure either low

theorem arrayItems {rounds rounds' : Nat} (within : K.Within p p' k c) (near : Beside K.near r r') (low : r.left < k)
    (enough : r.left < rounds) (more : rounds ≤ rounds') :
    K.Agree K.either (below k) (arrayItems p rounds) (arrayItems p' rounds') s r r' := by
  induction rounds generalizing rounds' r r' with
  | zero => omega
  | succ rounds ih =>
      obtain ⟨rounds', rfl⟩ := Nat.exists_eq_add_of_le' (Nat.le_trans (Nat.le_add_left 1 rounds) more)
      refine .eatMark "]" rfl near.either (Nat.le_of_lt low) (fun _ _ _ near low => .pure near.either low) fun _ => ?_
      refine .eatMark "," rfl near.either (Nat.le_refl _) (fun _ r₁ r₁' near comma_low => ?_) fun _ => ?_
      · refine (ih near (by omega) (by omega) (by omega)).bind fun _ _ _ either low => ?_
        exact .pure either low
      have le : r.left + 1 ≤ k := low
      refine ((within.mono le).spreadable near.either (Nat.lt_succ_self _)).bind fun first r₁ r₁' either first_low => ?_
      have first_low : r₁.left ≤ r.left := Nat.le_of_lt_succ first_low
      refine .eatMark "]" rfl either (Nat.le_trans first_low (Nat.le_of_lt low))
        (fun _ _ _ near low => .pure near.either low) fun _ => ?_
      refine (Agree.takeMark "," rfl either (Nat.le_refl r₁.left)).bind fun _ r₂ r₂' near comma_low => ?_
      have comma_low : r₂.left < r₁.left := comma_low
      refine .eatMark "]" rfl near.either (by omega) (fun _ _ _ near low => .pure near.either low) fun _ => ?_
      refine (ih near (by omega) (by omega) (by omega)).bind fun _ _ _ either low => ?_
      exact .pure either low

theorem arrayLiteral (within : K.Within p p' k c) (either : Beside K.either r r') (low : r.left ≤ k) :
    K.Agree K.either (below k) (arrayLiteral p) (arrayLiteral p') s r r' := by
  refine (Agree.takeMark "[" rfl either low).bind fun _ r₁ r₁' near low => ?_
  exact (Agree.under (by rfl) (within.arrayItems near low (Nat.lt_trans low within.rounds) within.more)).bind
    fun _ _ _ either low => .pure either low

theorem objectAccessor (kind : AccessorKind) (within : K.Within p p' k c) (either : Beside K.either r r')
    (goes : r.token.lexeme.goesOn = true) (low : r.left ≤ k) :
    K.Agree K.either (below k) (objectAccessor p kind) (objectAccessor p' kind) s r r' := by
  refine (Agree.advance either goes low).bind fun _ r₁ r₁' near low => ?_
  refine (within.key near low.le).bind fun _ r₂ r₂' near low => ?_
  refine (within.functionTail false false false none near.either low.le).bind fun value r₃ r₃' either low => ?_
  refine (Agree.need either).bind fun _ r₄ r₄' either ⟨_, same⟩ => ?_
  exact .flawIf either fun either => .pure either (same ▸ low)

/-- A place is only kept of a token that can be read. -/
theorem placed {f f' : Nat → Reading β} {T : Token → Token → Prop} {Q : β → Reader → Prop} (near : Beside K.near r r')
    (fails : r.token.lexeme.isRead = false → ∀ n n', f n s r = none ∧ f' n' (s.grown K.more) r' = none)
    (later : ∀ n, K.Agree T Q (f n) (f' n) s r r') :
    K.Agree T Q (Reading.place >>= f) (Reading.place >>= f') s r r' := by
  cases isRead : r.token.lexeme.isRead with
  | true => exact .place near isRead (later _)
  | false =>
      obtain ⟨here, there⟩ := fails isRead (s.size - byteCount r.token.start)
        ((s.grown K.more).size - byteCount r'.token.start)
      have runs : (Reading.place >>= f) s r = none := here
      have runs' : (Reading.place >>= f') (s.grown K.more) r' = none := there
      rw [Agree, runs, runs']
      exact .fails

theorem key_unread {s : Setting} {r : Reader} (unread : r.token.lexeme.isRead = false) : Grammar.key p s r = none := by
  unfold Grammar.key
  rw [bind_run, lexeme_run]
  dsimp only
  cases front : r.token.lexeme with
  | ending => simp [anyWord, front]
  | malformed => simp [anyWord, front]
  | _ =>
      rw [front] at unread
      cases unread

theorem objectKeyed (isAsync : Bool) (within : K.Within p p' k c) (near : Beside K.near r r') (low : r.left ≤ k) :
    K.Agree K.either (below k) (objectKeyed p isAsync) (objectKeyed p' isAsync) s r r' := by
  unfold Grammar.objectKeyed
  refine (Agree.eatsMarkHere "*" rfl near low).bind fun isGenerator r₁ r₁' near low => ?_
  refine placed near (fun unread _ _ => ?_) fun start => ?_
  · have unread' : r₁'.token.lexeme.isRead = false := near.lexeme ▸ unread
    constructor
    · simp [key_unread unread]
    · simp [key_unread unread']
  refine .isBindingWord near.either ((within.key near low).bind fun key r₂ r₂' near low => .isOneOf near.either ?_)
  refine .ite (fun _ => ?_) fun _ => ?_
  · refine (within.functionTail isAsync isGenerator false none near.either low.le).bind fun value r₃ r₃' either low =>
      ?_
    exact (Agree.need either).bind fun _ _ _ either ⟨_, same⟩ => .pure either (same ▸ low)
  have last {r r' : Reader} (either : Beside K.either r r') (low : r.left < k) :
      K.Agree K.either (below k)
        (do
          Reading.takeMark ":"
          return Member.entry key (← p.expression))
        (do
          Reading.takeMark ":"
          return Member.entry key (← p'.expression)) s r r' := by
    refine (Agree.takeMark ":" rfl either (Nat.le_of_lt low)).bind fun _ r₁ r₁' near low => ?_
    exact (within.expression near.either low).bind fun _ _ _ either low => .pure either low
  cases key with
  | name name =>
      refine .isMark near.either (.ite (fun _ => ?_) fun _ => last near.either low)
      refine (Agree.checkName near low).bind fun _ r₃ r₃' near low => ?_
      refine .eatMark "=" rfl near.either low.le (fun _ r₄ r₄' near low => ?_) fun _ => .pure near.either low
      refine .noteDefault near fun near same => ?_
      exact (within.defaultValue near.either (same ▸ low)).bind fun _ _ _ either low => .pure either low
  | _ => exact last near.either low

theorem objectMember (within : K.Within p p' k c) (near : Beside K.near r r') (low : r.left ≤ k) :
    K.Agree K.either (below k) (objectMember p) (objectMember p') s r r' := by
  refine .eatMark "..." rfl near.either low (fun _ r₁ r₁' near low => ?_) fun _ => ?_
  · exact (within.expression near.either low).bind fun _ _ _ either low => .pure either low
  refine (accessorAhead near.either).bind fun accessor goes => ?_
  cases accessor with
  | some kind => exact within.objectAccessor kind near.either (goes rfl) low
  | none =>
      refine Look.bind
        (Look.wordAhead "async" rfl (T := K.near) near.either fun _ _ near => .newLine near
          (.isMark near.either ((isKeyAhead near).bind fun _ _ => .pure near trivial))) fun isAsync goes => ?_
      refine .ite (fun holds => ?_) fun _ => within.objectKeyed isAsync near low
      exact (Agree.advance near.either (goes holds) low).bind
        fun _ _ _ near low => within.objectKeyed isAsync near low.le

theorem objectLiteral (within : K.Within p p' k c) (either : Beside K.either r r') (low : r.left ≤ k) :
    K.Agree K.either (below k) (objectLiteral p) (objectLiteral p') s r r' := by
  refine (Agree.takeMark "\x7b" rfl either low).bind fun _ r₁ r₁' near low => ?_
  refine (Agree.under (by rfl)
    (Agree.separated (fun le near low => (within.mono le).objectMember near (Nat.le_of_lt low)) near low
    (Nat.lt_trans low within.rounds) within.more)).bind fun (members, comma) r₂ r₂' either low => ?_
  exact (Agree.closeMark either low.le).bind fun _ _ _ either low => .pure either low

theorem callArguments (within : K.Within p p' k c) (either : Beside K.either r r') (low : r.left ≤ k) :
    K.Agree K.either (below k) (callArguments p) (callArguments p') s r r' := by
  refine (Agree.takeMark "(" rfl either low).bind fun _ r₁ r₁' near low => ?_
  refine (Agree.under (by rfl)
    (Agree.separated (fun le near low => (within.mono le).spreadable near.either low) near low
    (Nat.lt_trans low within.rounds) within.more)).bind fun (items, _) r₂ r₂' either low => ?_
  exact (Agree.takeMark ")" rfl either low.le).bind fun _ _ _ near low => .pure near.either low

theorem importedText (either : Beside K.either r r') :
    K.Look (fun _ => True) importedText importedText s r r' := by
  refine (Agree.ahead (T := K.either) (P := fun _ _ => True) ?_).imp fun _ _ => trivial
  refine .lexemeAt either (fun near => ?_) fun _ => .pure either trivial
  split
  · rename_i front
    refine (Agree.advance either (front ▸ rfl) (Nat.le_refl _)).bind fun _ r₁ r₁' near low => .isOneOf near.either ?_
    exact .ite (fun _ => .pure near.either trivial) fun _ => .pure near.either trivial
  · exact .pure either trivial

theorem importCall (start : Nat) (within : K.Within p p' k c) (either : Beside K.either r r') (low : r.left ≤ k) :
    K.Agree K.either (below k) (importCall p start) (importCall p' start) s r r' := by
  refine (Agree.takeMark "(" rfl either low).bind fun _ r₁ r₁' near low => ?_
  refine (importedText near.either).bind fun text _ => ?_
  have closed (source : Expr) {r r' : Reader} (either : Beside K.either r r') (low : r.left < k) :
      K.Agree K.either (below k) (do Reading.takeMark ")"; return Expr.importCall source)
        (do Reading.takeMark ")"; return Expr.importCall source) s r r' :=
    (Agree.takeMark ")" rfl either (Nat.le_of_lt low)).bind fun _ _ _ near low => .pure near.either low
  have rest {r r' : Reader} (either : Beside K.either r r') (low : r.left < k) :
      K.Agree K.either (below k)
        (do
          let source ← enclosed p.expression
          if ← Reading.eatMark "," then
            if !(← Reading.isMark ")") then
              let _ ← enclosed p.expression
              let _ ← Reading.eatMark ","
          Reading.takeMark ")"
          return Expr.importCall source)
        (do
          let source ← enclosed p'.expression
          if ← Reading.eatMark "," then
            if !(← Reading.isMark ")") then
              let _ ← enclosed p'.expression
              let _ ← Reading.eatMark ","
          Reading.takeMark ")"
          return Expr.importCall source) s r r' := by
    refine (Agree.under (by rfl) (within.expression either low)).bind fun source r₁ r₁' either low => ?_
    refine .eatMark "," rfl either low.le (fun _ r₂ r₂' near low => ?_) fun _ => closed source either low
    refine .isMark near.either (.ite (fun _ => ?_) fun _ => closed source near.either low)
    refine (Agree.under (by rfl) (within.expression near.either low)).bind fun _ r₃ r₃' either low => ?_
    exact (Agree.eatsMark either low).bind fun _ _ _ either low => closed source either low
  cases text with
  | none => exact rest near.either low
  | some specifier => exact .noteCall near fun near same => rest near.either (same ▸ low)

theorem importValue (within : K.Within p p' k c) (near : Beside K.near r r') (isRead : r.token.lexeme.isRead = true)
    (low : r.left ≤ k) : K.Agree K.either (below k) (importValue p) (importValue p') s r r' := by
  refine .place near isRead ((Agree.takeImport near low).bind fun _ r₁ r₁' near low => ?_)
  refine .eatMark "." rfl near.either low.le
    (fun _ r₂ r₂' near low => ?_) fun _ => within.importCall _ near.either low.le
  refine .isWord "meta" rfl near.either
    (.ite (fun isMeta => ?_) fun _ => .isWord "source" rfl near.either
      (.isWord "defer" rfl near.either (.ite (fun word => ?_) fun _ => .fail)))
  · exact (Agree.advance near.either (Lexeme.goesOn_of_isWord isMeta) (Nat.le_of_lt low)).bind
      fun _ _ _ near low => .pure near.either low
  · have goes := (Bool.or_eq_true_iff.mp word).elim Lexeme.goesOn_of_isWord Lexeme.goesOn_of_isWord
    exact (Agree.advance near.either goes (Nat.le_of_lt low)).bind
      fun _ _ _ near low => within.importCall _ near.either low.le

theorem newValue (within : K.Within p p' k c) (either : Beside K.either r r') (low : r.left ≤ k) :
    K.Agree K.either (below k) (newValue p) (newValue p') s r r' := by
  refine (Agree.takeWord "new" rfl either low).bind fun _ r₁ r₁' near low => ?_
  refine .eatMark "." rfl near.either low.le (fun _ r₂ r₂' near low => ?_) fun _ => ?_
  · refine .isWord "target" rfl near.either (.ite (fun isTarget => ?_) fun _ => .fail)
    exact (Agree.advance near.either (Lexeme.goesOn_of_isWord isTarget) (Nat.le_of_lt low)).bind
      fun _ _ _ near low => .pure near.either low
  have rest {r r' : Reader} (either : Beside K.either r r') (low : r.left < k) :
      K.Agree K.either (below k)
        (do
          Reading.flawIf (← Reading.isMark "?.")
          if ← Reading.isMark "(" then
            let _ ← Grammar.callArguments p
          return Expr.other)
        (do
          Reading.flawIf (← Reading.isMark "?.")
          if ← Reading.isMark "(" then
            let _ ← Grammar.callArguments p'
          return Expr.other) s r r' := by
    refine .isMark either (.flawIf either fun either => .isMark either (.ite (fun _ => ?_) fun _ => .pure either low))
    exact (within.callArguments either (Nat.le_of_lt low)).bind fun _ _ _ either low => .pure either low
  refine (within.read .callee rfl near.either low).bind fun callee r₂ r₂' either low => ?_
  cases callee with
  | importCall => exact .flawIf either fun either => rest either low
  | _ => exact rest either low

theorem superValue (either : Beside K.either r r') (low : r.left ≤ k) :
    K.Agree K.either (below k) superValue superValue s r r' := by
  refine (Agree.takeWord "super" rfl either low).bind fun _ r₁ r₁' near low => .isOneOf near.either ?_
  exact .flawIf near.either fun either => .pure either low

theorem wordValue (name : String) (within : K.Within p p' k c) (near : Beside K.near r r')
    (isRead : r.token.lexeme.isRead = true) (low : r.left ≤ k) :
    K.Agree K.either (below k) (wordValue p name) (wordValue p' name) s r r' := by
  have taken (word : String) :
      K.Agree K.either (below k) (do Reading.takeWord word; return Expr.other)
        (do Reading.takeWord word; return Expr.other)
        s r r' := (Agree.takeImport near low).bind fun _ _ _ near low => .pure near.either low
  unfold Grammar.wordValue
  split
  · exact taken _
  · exact taken _
  · exact taken _
  · exact taken _
  · exact within.functionValue near.either low
  · exact (within.classTail near.either low).bind fun _ _ _ either low => .pure either low
  · exact within.newValue near.either low
  · exact superValue near.either low
  · exact within.importValue near isRead low
  · refine (isAsyncFunctionAhead near.either).bind fun _ _ => ?_
    refine .ite (fun _ => within.functionValue near.either low) fun _ => ?_
    exact (Agree.bindingName near.either low).bind fun _ _ _ near low => .pure near.either low

theorem patternLiteral (near : Beside K.near r r') (slash : r.token.lexeme = .mark "/" ∨ r.token.lexeme = .mark "/=")
    (low : r.left ≤ k) : K.Agree K.either (below k) patternLiteral patternLiteral s r r' := by
  refine .retake (T := K.near) (K.asPattern near.token slash) near fun near => .lexeme near ?_
  have low : ({ r with token := r.token.asPattern } : Reader).left ≤ k := by
    rw [Reader.left, Token.asPattern_start]
    exact low
  split
  · rename_i front
    exact (Agree.advance near.either (front ▸ rfl) low).bind fun _ _ _ near low => .pure near.either low
  · exact .fail

/-- What a value goes on with behind its `import` does not start with a brace. -/
theorem importValue_stuck (start : Nat) : Stuck (do
    if ← Reading.eatMark "." then
      if ← Reading.isWord "meta" then
        Reading.advance
        return Expr.other
      else if (← Reading.isWord "source") || (← Reading.isWord "defer") then
        Reading.advance
        Grammar.importCall p start
      else Reading.fail
    else Grammar.importCall p start) :=
  .eatMark rfl (.ite nofun fun _ => .first (.takeMark rfl))

/-- No value starts at the seam. -/
theorem primary_seam (seam : Beside K.seam r r') : K.Agree K.either (below k) (primary p) (primary p') s r r' := by
  have opens := seam.opensImport
  have there : r'.token.lexeme = .word "import" false := opens.lexeme
  have on : OnBrace (Agree.behind r') := ⟨opens.brace, opens.onLine⟩
  have taken : Reading.takeWord "import" (s.grown K.more) r' = some ((), Agree.behind r') := by
    simp [Reading.takeWord, there, Lexeme.isWord, Reading.advance, Agree.behind]
  have here_none : Grammar.primary p s r = none := by simp [Grammar.primary, seam.ending]
  have there_none : Grammar.primary p' (s.grown K.more) r' = none := by
    have runs (start : Nat) : (do
        Reading.takeWord "import"
        if ← Reading.eatMark "." then
          if ← Reading.isWord "meta" then
            Reading.advance
            return Expr.other
          else if (← Reading.isWord "source") || (← Reading.isWord "defer") then
            Reading.advance
            Grammar.importCall p' start
          else Reading.fail
        else Grammar.importCall p' start : Reading Expr) (s.grown K.more) r' = none := by
      rw [bind_run, taken]
      exact importValue_stuck start _ _ on
    unfold Grammar.primary
    rw [bind_run, lexeme_run]
    dsimp only
    rw [there]
    exact runs _
  rw [Agree, here_none, there_none]
  exact .fails

theorem primary (lower : 0 < c) (within : K.Within p p' k c) (either : Beside K.either r r') (low : r.left ≤ k) :
    K.Agree K.either (below k) (primary p) (primary p') s r r' := by
  rcases either.cases with near | seam
  case inr => exact primary_seam seam
  have only (value : Expr) (goes : r.token.lexeme.goesOn = true) :
      K.Agree K.either (below k) (do Reading.advance; return value) (do Reading.advance; return value) s r r' :=
    (Agree.advance either goes low).bind fun _ _ _ near low => .pure near.either low
  refine .lexeme near ?_
  split
  · rename_i front
    exact only _ (front ▸ rfl)
  · rename_i front
    exact only _ (front ▸ rfl)
  · rename_i front
    exact only _ (front ▸ rfl)
  · exact (within.template false near low (Nat.lt_of_le_of_lt low within.rounds) within.more).bind
      fun _ _ _ either low => .pure either low
  · rename_i name escaped front
    exact within.wordValue name near (front ▸ rfl) low
  · exact within.parenthesized either low
  · exact within.arrayLiteral either low
  · exact within.objectLiteral either low
  · rename_i front
    exact patternLiteral near (.inl front) low
  · rename_i front
    exact patternLiteral near (.inr front) low
  · refine (within.element either (by omega)).bind fun _ r₁ r₁' near ⟨angle, shorter⟩ => ?_
    have low : r₁.left < k := Nat.lt_of_lt_of_le shorter low
    exact (Agree.advance near.either (angle ▸ rfl) (Nat.le_of_lt low)).bind fun _ _ _ near low => .pure near.either low
  · refine (within.decoratorsHere either low).bind fun _ r₁ r₁' either le => ?_
    exact (within.classTail either (Nat.le_trans le low)).bind fun _ _ _ either low => .pure either low
  · exact .fail

end Values

section Chains

theorem canFollowTypeArguments (near : Beside K.near r r') :
    K.Look (fun _ => True) canFollowTypeArguments canFollowTypeArguments s r r' := by
  refine .of_agree near (.lexeme near ?_)
  split
  all_goals first
    | exact .pure near.here ⟨trivial, rfl⟩
    | exact .newLine near (.pure near.here ⟨trivial, rfl⟩)

/-- Whether type arguments were read, and where the reader is then. -/
def typeArgumentsRead (r : Reader) (found : Bool) (next : Reader) : Prop :=
  if found then next.left < r.left else next = r

theorem typeArgumentsBehind (within : K.Within p p' k c) (either : Beside K.either r r') (low : r.left ≤ k) :
    K.Agree K.either (typeArgumentsRead r) (typeArgumentsBehind p) (typeArgumentsBehind p') s r r' := by
  refine .typed (.isOneOf either (.ite (fun _ => ?_) fun _ => .pure either rfl))
  have inner : K.Agree K.either (below r.left) (do p.typeArguments; Reading.need (← Grammar.canFollowTypeArguments))
      (do p'.typeArguments; Reading.need (← Grammar.canFollowTypeArguments)) s r r' := by
    refine ((within.mono low).typeArgumentsNear either (Nat.le_refl _)).bind fun _ r₁ r₁' near low => ?_
    refine (canFollowTypeArguments near).bind fun follows _ => ?_
    exact (Agree.need near.either).imp (fun _ _ => id) fun _ _ ⟨_, same⟩ => same ▸ low
  exact .attempt inner (fun _ _ _ either low => .pure either low) (.pure either rfl)

theorem memberName (near : Beside K.near r r') (low : r.left ≤ k) :
    K.Agree K.near (below k) memberName memberName s r r' := by
  refine .lexeme near ?_
  split
  · rename_i front
    exact (Agree.advance near.either (front ▸ rfl) low).bind fun _ _ _ near low => .pure near low
  · exact Agree.anyWord near low

theorem memberKey (within : K.Within p p' k c) (either : Beside K.either r r') (low : r.left ≤ k) :
    K.Agree K.either (below k) (memberKey p) (memberKey p') s r r' := by
  refine (Agree.takeMark "[" rfl either low).bind fun _ r₁ r₁' near low => ?_
  refine (Agree.under (by rfl) (within.sequence near.either low)).bind fun key r₂ r₂' either low => ?_
  exact (Agree.takeMark "]" rfl either low.le).bind fun _ _ _ near low => .pure near.either low

theorem taggedTemplate (chain : Chain) (within : K.Within p p' k c) (near : Beside K.near r r') (low : r.left ≤ k) :
    K.Agree K.either (below k) (taggedTemplate p chain) (taggedTemplate p' chain) s r r' := by
  refine .flawIf near fun near => ?_
  exact (within.template true near low (Nat.lt_of_le_of_lt low within.rounds) within.more).bind
    fun _ _ _ either low => .pure either low

theorem optionalStep (chain : Chain) (within : K.Within p p' k c) (either : Beside K.either r r') (low : r.left ≤ k) :
    K.Agree K.either (below k) (optionalStep p chain) (optionalStep p' chain) s r r' := by
  refine (Agree.takeMark "?." rfl either low).bind fun _ r₁ r₁' near low => .lexeme near ?_
  have called {r r' : Reader} (either : Beside K.either r r') (low : r.left < k) :
      K.Agree K.either (below k)
        (do
          let _ ← Grammar.callArguments p
          return some ((⟨chain.value, true⟩ : Chain).grown .other))
        (do
          let _ ← Grammar.callArguments p'
          return some ((⟨chain.value, true⟩ : Chain).grown .other)) s r r' :=
    (within.callArguments either (Nat.le_of_lt low)).bind fun _ _ _ either low => .pure either low
  split
  · exact (within.memberKey near.either low.le).bind fun _ _ _ either low => .pure either low
  · exact within.taggedTemplate _ near low.le
  · exact (memberName near low.le).bind fun _ _ _ near low => .pure near.either low
  · exact (memberName near low.le).bind fun _ _ _ near low => .pure near.either low
  · refine .typed (.isOneOf near.either (.ite (fun _ => ?_) fun _ => called near.either low))
    exact (within.typeArguments near.either low).bind fun _ _ _ either low => called either low

theorem chainStep (calls : Bool) (chain : Chain) (within : K.Within p p' k c) (either : Beside K.either r r')
    (low : r.left < k) :
    K.Agree K.either (Agree.grew r) (chainStep p calls chain) (chainStep p' calls chain) s r r' := by
  have within := within.mono (Nat.le_of_lt low)
  have none {r₁ r₁' : Reader} (either : Beside K.either r₁ r₁') (le : r₁.left ≤ r.left) :
      K.Agree K.either (Agree.grew r) (Pure.pure (Option.none : Option Chain)) (Pure.pure Option.none) s r₁ r₁' :=
    .pure either le
  have here := none either (Nat.le_refl _)
  have some_of {m m' : Reading (Option Chain)} (agree : K.Agree K.either (below r.left) m m' s r r') :
      K.Agree K.either (Agree.grew r) m m' s r r' := agree.imp (fun _ _ => id) fun found _ low => by
    cases found with
    | none => exact Nat.le_of_lt low
    | some => exact low
  refine .lexemeAt either (fun near => ?_) fun _ => here
  split
  · rename_i front
    refine some_of ((Agree.advance either (front ▸ rfl) (Nat.le_refl _)).bind fun _ r₁ r₁' near low => ?_)
    exact (memberName near low.le).bind fun _ _ _ near low => .pure near.either low
  · refine .setting (.ite (fun _ => here) fun _ => some_of ?_)
    exact (within.memberKey either (Nat.le_refl _)).bind fun _ _ _ either low => .pure either low
  · exact some_of (within.taggedTemplate chain near (Nat.le_refl _))
  · exact .ite (fun _ => some_of (within.optionalStep chain either (Nat.le_refl _))) fun _ => here
  · refine .ite (fun _ => some_of ?_) fun _ => here
    exact (within.callArguments either (Nat.le_refl _)).bind fun _ _ _ either low => .pure either low
  · rename_i front
    refine .typed (.newLine near (.ite (fun _ => some_of ?_) fun _ => here))
    exact (Agree.advance either (front ▸ rfl) (Nat.le_refl _)).bind fun _ _ _ near low => .pure near.either low
  · refine (within.typeArgumentsBehind either (Nat.le_refl _)).bind fun found r₁ r₁' either read => ?_
    cases found with
    | true => exact .pure either read
    | false => exact none either (read ▸ Nat.le_refl _)
  · refine (within.typeArgumentsBehind either (Nat.le_refl _)).bind fun found r₁ r₁' either read => ?_
    cases found with
    | true => exact .pure either read
    | false => exact none either (read ▸ Nat.le_refl _)
  · exact here

theorem chainValue (calls : Bool) (lower : 0 < c) (within : K.Within p p' k c) (either : Beside K.either r r')
    (low : r.left ≤ k) : K.Agree K.either (below k) (chainValue p calls) (chainValue p' calls) s r r' := by
  refine (within.primary lower either low).bind fun first r₁ r₁' either low => ?_
  exact (Agree.grow (fun either low => within.chainStep calls _ either low) either low (Nat.lt_trans low within.rounds)
    within.more _).bind fun chain _ _ either low => .pure either low

end Chains

section Operators

theorem isElementAhead (either : Beside K.either r r') :
    K.Look (fun _ => True) isElementAhead isElementAhead s r r' := by
  refine (Agree.holdsAhead (T := K.either) (P := fun _ _ => True) ?_).imp fun _ _ => trivial
  refine (Agree.takeMark "<" rfl either (Nat.le_refl _)).bind fun _ r₁ r₁' near low => ?_
  exact (isAnyWord near).bind fun _ _ => .isMark near.either (.pure near.either trivial)

theorem updatable (lower : 1 < c) (within : K.Within p p' k c) (either : Beside K.either r r') (low : r.left ≤ k) :
    K.Agree K.either (below k) (updatable p) (updatable p') s r r' := by
  refine .isOneOf either (.ite (fun update => ?_) fun _ => ?_)
  · refine (Agree.advance either (Lexeme.goesOn_of_isOneOf update (by decide)) low).bind fun _ r₁ r₁' near low => ?_
    refine (within.read .unary rfl near.either low).bind fun target r₂ r₂' either low => ?_
    exact (Agree.need either).bind fun _ _ _ either ⟨_, same⟩ => .pure either (same ▸ low)
  refine (isElementAhead either).bind fun element _ => .ite (fun _ => ?_) fun _ => ?_
  · refine (within.element either (by omega)).bind fun _ r₁ r₁' near ⟨angle, shorter⟩ => ?_
    have low : r₁.left < k := Nat.lt_of_lt_of_le shorter low
    exact (Agree.advance near.either (angle ▸ rfl) (Nat.le_of_lt low)).bind fun _ _ _ near low => .pure near.either low
  · refine (within.readLower .operand rfl either low lower).bind fun value r₁ r₁' either low => .isOneOf either ?_
    refine .newLineAt either (fun near => .ite (fun update => ?_) fun _ => .pure either low) fun seam b b' => ?_
    · refine (Agree.need either).bind fun _ r₂ r₂' passed ⟨_, same⟩ => ?_
      subst same
      have goes := Lexeme.goesOn_of_isOneOf (Bool.and_eq_true_iff.mp update).1 (by decide)
      exact (Agree.advance passed goes low.le).bind fun _ _ _ near low => .pure near.either low
    · simp only [seam.ending, Lexeme.isOneOf, Bool.false_and, Bool.false_eq_true]
      exact .pure either low

theorem unary (lower : 1 < c) (within : K.Within p p' k c) (either : Beside K.either r r') (low : r.left ≤ k) :
    K.Agree K.either (below k) (unary p) (unary p') s r r' := by
  have updated := within.updatable lower (s := s) either low
  refine .lexemeAt either (fun near => ?_) fun seam => ?_
  · split
    · rename_i mark front
      refine .ite (fun isSign => ?_) fun _ => updated
      have signs : ∀ mark ∈ ["+", "-", "~", "!"], Lexeme.goesOn (.mark mark) = true := by decide
      have goes : r.token.lexeme.goesOn = true := front ▸ signs mark (List.contains_iff_mem.mp isSign)
      refine (Agree.advance either goes low).bind fun _ r₁ r₁' near low => ?_
      exact (within.read .unary rfl near.either low).bind fun _ _ _ either low => .pure either low
    · refine .setting (.ite (fun _ => ?_) fun _ => updated)
      refine (Agree.takeImport near low).bind fun _ r₁ r₁' near low => ?_
      exact (within.read .unary rfl near.either low).bind fun _ _ _ either low => .pure either low
    · exact updated
  · have other : ["typeof", "void", "delete"].contains "import" = false := by decide
    have notAwait : ("import" == "await") = false := by decide
    simp only [other, notAwait, Bool.false_and, Bool.or_self, Bool.false_eq_true, if_false]
    exact updated

/-- The operator that was found in front. -/
def operatorFound (r : Reader) (found : Option String) (next : Reader) : Prop :=
  next.left = r.left ∧ ∀ operator, found = some operator →
    next.token.lexeme = .mark operator ∨ ∃ escaped, next.token.lexeme = .word operator escaped

theorem operatorAhead (either : Beside K.either r r') :
    K.Agree K.either (operatorFound r) operatorAhead operatorAhead s r r' := by
  refine .retake (T := K.either) (either_joinAngle either) either fun either => ?_
  have left : ({ r with token := r.token.joinAngle } : Reader).left = r.left := by
    rw [Reader.left, Token.joinAngle_start, Reader.left]
  have none : K.Agree K.either (operatorFound r) (Pure.pure Option.none) (Pure.pure Option.none) s
      { r with token := r.token.joinAngle } { r' with token := r'.token.joinAngle } :=
    .pure either ⟨left, fun _ given => absurd given.symm (Option.some_ne_none _)⟩
  refine .lexemeAt either (fun near => ?_) fun _ => ?_
  · split
    · rename_i mark front
      refine .pure either ⟨left, fun operator same => .inl ?_⟩
      obtain rfl := Option.some.inj same
      exact front
    · rename_i name escaped front
      have found : K.Agree K.either (operatorFound r) (Pure.pure (some name)) (Pure.pure (some name)) s
          { r with token := r.token.joinAngle } { r' with token := r'.token.joinAngle } :=
        .pure either ⟨left, fun operator same => .inr ⟨escaped, Option.some.inj same ▸ front⟩⟩
      have chosen (allowed : Bool) : K.Agree K.either (operatorFound r)
          (Pure.pure (if allowed then some name else Option.none)) (Pure.pure
            (if allowed then some name else Option.none)) s
          { r with token := r.token.joinAngle } { r' with token := r'.token.joinAngle } := by
        cases allowed with
        | true => exact found
        | false => exact none
      refine .ite (fun _ => .setting (chosen s.inOperator)) fun _ => .ite (fun _ => found) fun _ => ?_
      exact .ite (fun _ => .typed (.newLine near (chosen _))) fun _ => none
    · exact none
  · have other (word : String) (other : ("import" == word) = false) : ("import" == word) = false := other
    simp only [other "in" rfl, other "instanceof" rfl, other "as" rfl, other "satisfies" rfl, Bool.or_self,
      Bool.false_eq_true, if_false]
    exact none

theorem goesOn_of_level {operator : String} {found : Nat} (isOperator : level operator = some found) :
    Lexeme.goesOn (.mark operator) = true := by
  have semicolon : operator ≠ ";" := by
    rintro rfl
    cases isOperator
  have brace : operator ≠ "\x7d" := by
    rintro rfl
    cases isOperator
  simp [Lexeme.goesOn, Lexeme.isRead, semicolon, brace]

theorem binaryStep (above : Nat) (left : Expr) (within : K.Within p p' k c) (either : Beside K.either r r')
    (low : r.left < k) :
    K.Agree K.either (Agree.grew r) (binaryStep p above left) (binaryStep p' above left) s r r' := by
  have within := within.mono (Nat.le_of_lt low)
  refine (operatorAhead either).bind fun operator r₁ r₁' either ⟨same, found⟩ => ?_
  have low₁ : r₁.left ≤ r.left := Nat.le_of_eq same
  have none : K.Agree K.either (Agree.grew r) (Pure.pure (Option.none : Option Expr)) (Pure.pure Option.none)
      s r₁ r₁' :=
    .pure either low₁
  cases operator with
  | none => exact none
  | some operator =>
      have front := found operator rfl
      cases isOperator : level operator with
      | none =>
          simp only [isOperator]
          exact none
      | some found =>
          simp only [isOperator]
          have goes : r₁.token.lexeme.goesOn = true := by
            rcases front with front | ⟨escaped, front⟩
            · exact front ▸ goesOn_of_level isOperator
            · exact front ▸ rfl
          have near := either.near_of_ne (Lexeme.ne_ending_of_isRead (Lexeme.isRead_of_goesOn goes))
          refine .ite (fun _ => none) fun _ => .ite (fun _ => ?_) fun _ => ?_
          · refine (Agree.advance either goes low₁).bind fun _ r₂ r₂' near low => ?_
            exact (within.type near.either low).bind fun _ _ _ either low => .pure either low
          refine .flawIf near fun near => .lexeme near ?_
          have rest {r₂ r₂' : Reader} (near : Beside K.near r₂ r₂') (low : r₂.left < r.left) :
              K.Agree K.either (Agree.grew r)
                (do
                  let right ← p.read (Goal.binary found)
                  Reading.flawIf (operator == "??" && (isAndOr left || isAndOr right))
                  return some (Expr.binary operator left right))
                (do
                  let right ← p'.read (Goal.binary found)
                  Reading.flawIf (operator == "??" && (isAndOr left || isAndOr right))
                  return some (Expr.binary operator left right)) s r₂ r₂' := by
            refine (within.read (.binary found) rfl near.either low).bind fun right r₃ r₃' either low => ?_
            exact .flawIf either fun either => .pure either low
          split
          · exact (Agree.takeImport near low₁).bind fun _ _ _ near low => rest near low
          · exact (Agree.advance near.either goes low₁).bind fun _ _ _ near low => rest near low

theorem binary (above : Nat) (lower : 2 < c) (within : K.Within p p' k c) (either : Beside K.either r r')
    (low : r.left ≤ k) : K.Agree K.either (below k) (binary p above) (binary p' above) s r r' := by
  have grown (first : Expr) {r r' : Reader} (either : Beside K.either r r') (low : r.left < k) :
      K.Agree K.either (below k) (grow (Grammar.binaryStep p above) p.rounds first)
        (grow (Grammar.binaryStep p' above) p'.rounds first) s r r' :=
    Agree.grow (fun either low => within.binaryStep above _ either low) either low (Nat.lt_trans low within.rounds)
      within.more first
  have plain : K.Agree K.either (below k)
      (do let first ← Grammar.unary p
          grow (Grammar.binaryStep p above) p.rounds first)
      (do let first ← Grammar.unary p'
          grow (Grammar.binaryStep p' above) p'.rounds first) s r r' :=
    (within.unary (by omega) either low).bind fun first _ _ either low => grown first either low
  refine .lexemeAt either (fun near => ?_) fun _ => plain
  split
  · rename_i front
    refine .setting ((Agree.need either).bind fun _ r₁ r₁' passed ⟨_, same⟩ => ?_)
    subst same
    refine (Agree.advance passed (front ▸ rfl) low).bind fun _ r₂ r₂' near low => ?_
    refine (Agree.takeWord "in" rfl near.either low.le).bind fun _ r₃ r₃' near low => ?_
    exact (within.read (.binary 8) rfl near.either low).bind fun _ _ _ either low => grown .other either low
  · exact plain

end Operators

section Assignments

theorem yieldValue (within : K.Within p p' k c) (either : Beside K.either r r') (low : r.left ≤ k) :
    K.Agree K.either (below k) (yieldValue p) (yieldValue p') s r r' := by
  refine (Agree.takeWord "yield" rfl either low).bind fun _ r₁ r₁' near low => .newLine near ?_
  refine .ite (fun _ => ?_) fun _ => .pure near.either low
  refine .eatMark "*" rfl near.either low.le (fun _ r₂ r₂' near low => ?_) fun _ => .isOneOf near.either ?_
  · exact (within.expression near.either low).bind fun _ _ _ either low => .pure either low
  refine .known rfl (?_ : _ = some (r₁.token.lexeme == .ending, _)) (.isWord "in" rfl near.either ?_)
  · rw [isEnding_run, near.lexeme]
  refine .ite (fun _ => ?_) fun _ => .pure near.either low
  exact (within.expression near.either low).bind fun _ _ _ either low => .pure either low

theorem choiceTail (resultType : Bool) (condition : Expr) (within : K.Within p p' k c) (either : Beside K.either r r')
    (low : r.left < k) :
    K.Agree K.either (below k) (choiceTail p resultType condition) (choiceTail p' resultType condition) s r r' := by
  refine .eatMark "?" rfl either (Nat.le_of_lt low) (fun _ r₁ r₁' near low => ?_) fun _ => .pure either low
  refine (Agree.under (by rfl) (within.read (.assignment false) rfl near.either low)).bind fun _ r₂ r₂' either low => ?_
  refine (Agree.takeMark ":" rfl either low.le).bind fun _ r₃ r₃' near low => ?_
  exact (within.read (.assignment resultType) rfl near.either low).bind fun _ _ _ either low => .pure either low

theorem assignmentTail (resultType : Bool) (left : Expr) (within : K.Within p p' k c) (either : Beside K.either r r')
    (low : r.left < k) :
    K.Agree K.either (below k) (assignmentTail p resultType left) (assignmentTail p' resultType left) s r r' := by
  refine .lexemeAt either (fun near => ?_) fun _ => .pure either low
  split
  · rename_i mark front
    refine .ite (fun arrow => ?_) fun _ => .ite (fun isAssignment => ?_) fun _ => within.choiceTail _ _ either low
    · have goes : r.token.lexeme.goesOn = true := front ▸ beq_iff_eq.mp arrow ▸ rfl
      split
      · refine .newLine near (.flawIf either fun either => ?_)
        refine (Agree.advance either goes (Nat.le_of_lt low)).bind fun _ r₁ r₁' near low => ?_
        exact (within.arrowBody false resultType near.either low).bind fun _ _ _ either low => .pure either low
      · exact .fail
    · have marks : ∀ mark ∈ assignmentMarks, Lexeme.goesOn (.mark mark) = true := by decide
      have goes : r.token.lexeme.goesOn = true := front ▸ marks mark (List.contains_iff_mem.mp isAssignment)
      refine (checkTarget near low).bind fun _ r₁ r₁' near ⟨same, low⟩ => ?_
      refine (Agree.advance near.either (same ▸ goes) (Nat.le_of_lt low)).bind fun _ r₂ r₂' near low => ?_
      exact (within.read (.assignment resultType) rfl near.either low).bind fun _ _ _ either low => .pure either low
  · exact .pure either low

theorem assignment (resultType : Bool) (lower : 3 < c) (within : K.Within p p' k c) (either : Beside K.either r r')
    (low : r.left ≤ k) : K.Agree K.either (below k) (assignment p resultType) (assignment p' resultType) s r r' := by
  refine .isWord "yield" rfl either (.setting (.ite (fun _ => within.yieldValue either low) fun _ => ?_))
  refine (within.arrowFunction resultType either low).bind fun found r₁ r₁' passed moved => ?_
  cases found with
  | some found => exact .pure passed (Nat.lt_of_lt_of_le moved low)
  | none =>
      have moved : r₁ = r := moved
      subst moved
      refine (within.asyncNameArrow resultType passed low).bind fun found r₂ r₂' passed' moved => ?_
      cases found with
      | some found => exact .pure passed' (Nat.lt_of_lt_of_le moved low)
      | none =>
          have moved : r₂ = r₁ := moved
          subst moved
          refine (within.readLower (.binary 0) rfl passed' low lower).bind fun value r₃ r₃' either low => ?_
          exact within.assignmentTail resultType value either low

end Assignments

end Within

end Realms.Script.Lockstep
