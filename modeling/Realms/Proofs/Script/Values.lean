import Realms.Proofs.Script.Steps

/-!
Expressions read back. For each form of generated code: when its parts are read as they were written, so is the
whole, wherever it stands, whatever space is in it and however deep the grammar has come.
-/
namespace Realms.Script

open Grammar Reading

/-- A lexeme that a single value starts with. -/
def Lexeme.opensValue : Lexeme → Bool
  | .word name _ => name == "async" || !languageWords.contains name
  | .text _ _ => true
  | .mark found => found == "\x7b"
  | _ => false

/-- A text with the start of a single value in front; `async` starts one only with a function behind it. -/
structure Front (text : List Char) : Prop where
  starts : ∃ lexeme rest, Starts text lexeme rest ∧ lexeme.opensValue = true ∧ (lexeme.isWord "async" = true →
    OnLine rest ∧ ∃ behind, Starts rest (.word "function" false) behind)

/-- The marks that stand behind a whole expression. -/
def closers : List String := [",", ")", "\x7d", ";"]

/-- A text behind an expression: it does not go on a name, and a mark in front of it ends the expression. -/
structure Closes (rest : List Char) : Prop where
  endsName : endsName rest = true
  closer : ∃ mark behind, mark ∈ closers ∧ Starts rest (.mark mark) behind

variable {p : Inner} {n : Nat} {s : Setting} {r : Reader} {text rest : List Char} {e : Expr} {resultType : Bool}

namespace Lexeme

variable {lexeme : Lexeme}

theorem opensValue_not_word (opens : lexeme.opensValue = true) (word : String) (member : word ∈ languageWords)
    (notAsync : word ≠ "async") : lexeme.isWord word = false := by
  cases lexeme with
  | word name escaped =>
      refine beq_eq_false_iff_ne.mpr ?_
      rintro rfl
      simp [opensValue, member, notAsync] at opens
  | _ => rfl

theorem opensValue_not_mark (opens : lexeme.opensValue = true) (mark : String) (other : mark ≠ "\x7b") :
    lexeme ≠ .mark mark := by
  rintro rfl
  exact other (beq_iff_eq.mp opens)

theorem opensValue_not_oneOf (opens : lexeme.opensValue = true) {marks : List String} (others : "\x7b" ∉ marks) :
    lexeme.isOneOf marks = false := by
  cases lexeme with
  | mark mark =>
      obtain rfl := beq_iff_eq.mp opens
      simpa [isOneOf] using others
  | _ => rfl

end Lexeme

namespace Closes

theorem lexeme (closes : Closes rest) : (r.goTo rest).token.lexeme = .mark "," ∨ (r.goTo rest).token.lexeme = .mark ")" ∨
    (r.goTo rest).token.lexeme = .mark "\x7d" ∨ (r.goTo rest).token.lexeme = .mark ";" := by
  obtain ⟨mark, behind, member, starts⟩ := closes.closer
  rw [starts.lexeme_goTo]
  simpa [closers] using member

theorem assignmentTail (closes : Closes rest) (e : Expr) :
    assignmentTail p resultType e s (r.goTo rest) = some (e, r.goTo rest) := by
  rcases closes.lexeme (r := r) with closer | closer | closer | closer
  all_goals simp [Grammar.assignmentTail, closer, assignmentMarks, choiceTail, Reading.eatMark]

theorem binaryStep (closes : Closes rest) (above : Nat) (e : Expr) :
    binaryStep p above e s (r.goTo rest) = some (none, r.goTo rest) := by
  rcases closes.lexeme (r := r) with closer | closer | closer | closer
  all_goals
    have same : (r.goTo rest).token.joinAngle = (r.goTo rest).token := by simp [Token.joinAngle, closer]
    simp [Grammar.binaryStep, operatorAhead, Reading.retake, same, closer, level]

theorem not_update (closes : Closes rest) : (r.goTo rest).token.lexeme.isOneOf ["++", "--"] = false := by
  rcases closes.lexeme (r := r) with closer | closer | closer | closer
  all_goals
    rw [closer]
    rfl

theorem chainStep (closes : Closes rest) (calls : Bool) (chain : Chain) :
    chainStep p calls chain s (r.goTo rest) = some (none, r.goTo rest) := by
  rcases closes.lexeme (r := r) with closer | closer | closer | closer
  all_goals simp [Grammar.chainStep, closer]

end Closes

theorem mayStartParameters_other (notAngle : r.token.lexeme ≠ .mark "<") (notOpen : r.token.lexeme ≠ .mark "(") :
    mayStartParameters s r = some (false, r) := by
  simp [mayStartParameters, takeMark_run, notAngle, notOpen]

theorem takeWord_other {word : String} (other : r.token.lexeme.isWord word = false) : takeWord word s r = none := by
  simp [takeWord, other]

/-- No arrow function starts like a single value. -/
theorem Front.no_arrow (front : Front text) :
    arrowFunction p resultType s (r.goTo text) = some (none, r.goTo text) ∧
      asyncNameArrow p resultType s (r.goTo text) = some (none, r.goTo text) := by
  obtain ⟨lexeme, rest, starts, opens, behindAsync⟩ := front
  have found := starts.lexeme_goTo (r := r)
  have noParameters : mayStartParameters s (r.goTo text) = some (false, r.goTo text) :=
    mayStartParameters_other (found ▸ Lexeme.opensValue_not_mark opens _ (by decide))
      (found ▸ Lexeme.opensValue_not_mark opens _ (by decide))
  cases isAsync : lexeme.isWord "async" with
  | false =>
      have takes := takeWord_other (s := s) (found ▸ isAsync)
      constructor
      · simp [arrowFunction, takes, noParameters]
      · simp [asyncNameArrow, takes]
  | true =>
      obtain ⟨onLine, behind, next⟩ := behindAsync isAsync
      have takes : takeWord "async" s (r.goTo text) = some ((), r.goTo rest) := by
        simp [takeWord, found, isAsync, starts.advance]
      have word := next.lexeme_goTo (r := r)
      have reserved : Lexeme.isBindingWord (.word "function" false) = false := by decide
      constructor
      · simp [arrowFunction, takes, word, onLine.newLine_goTo, Lexeme.isOneOf, noParameters]
      · simp [asyncNameArrow, takes, word, onLine.newLine_goTo, reserved]

theorem updatable_run (front : Front text) (closes : Closes rest)
    (reads : p.read .operand s (r.goTo text) = some (e, r.goTo rest)) :
    updatable p s (r.goTo text) = some (e, r.goTo rest) := by
  obtain ⟨lexeme, behind, starts, opens, _⟩ := front
  have found := starts.lexeme_goTo (r := r)
  have notElement := Lexeme.opensValue_not_mark opens "<" (by decide)
  simp [updatable, found, Lexeme.opensValue_not_oneOf opens, isElementAhead, takeMark_run, notElement, reads,
    closes.not_update]
  rfl

theorem unary_run (front : Front text) (closes : Closes rest)
    (reads : p.read .operand s (r.goTo text) = some (e, r.goTo rest)) :
    unary p s (r.goTo text) = some (e, r.goTo rest) := by
  have updates := updatable_run front closes reads
  obtain ⟨lexeme, behind, starts, opens, _⟩ := front
  have found := starts.lexeme_goTo (r := r)
  cases lexeme with
  | word name escaped =>
      have notWord (word : String) (member : word ∈ languageWords) (notAsync : word ≠ "async") : name ≠ word :=
        beq_eq_false_iff_ne.mp (Lexeme.opensValue_not_word opens word member notAsync)
      simp [unary, found, notWord "await" (by decide) (by decide), notWord "typeof" (by decide) (by decide),
        notWord "void" (by decide) (by decide), notWord "delete" (by decide) (by decide), updates]
  | mark mark =>
      obtain rfl := beq_iff_eq.mp opens
      simp [unary, found, updates]
  | text value whole => simp [unary, found, updates]
  | _ => cases opens

theorem binary_run (front : Front text) (closes : Closes rest) (deep : 0 < p.rounds)
    (reads : p.read .operand s (r.goTo text) = some (e, r.goTo rest)) :
    binary p 0 s (r.goTo text) = some (e, r.goTo rest) := by
  have first := unary_run front closes reads
  obtain ⟨rounds, enough⟩ := Nat.exists_eq_add_of_lt deep
  have grows : grow (binaryStep p 0) p.rounds e s (r.goTo rest) = some (e, r.goTo rest) := by
    rw [enough]
    simp [grow, closes.binaryStep]
  obtain ⟨lexeme, behind, starts, opens, _⟩ := front
  have found := starts.lexeme_goTo (r := r)
  cases lexeme with
  | privateName name => cases opens
  | _ => simp [binary, found, first, grows]

theorem assignment_run (front : Front text) (closes : Closes rest)
    (reads : p.read (.binary 0) s (r.goTo text) = some (e, r.goTo rest)) :
    assignment p resultType s (r.goTo text) = some (e, r.goTo rest) := by
  obtain ⟨noArrow, noName⟩ : arrowFunction p resultType s (r.goTo text) = some (none, r.goTo text) ∧
    asyncNameArrow p resultType s (r.goTo text) = some (none, r.goTo text) := front.no_arrow
  obtain ⟨lexeme, behind, starts, opens, _⟩ := front
  have notYield := Lexeme.opensValue_not_word opens "yield" (by decide) (by decide)
  simp [assignment, starts.lexeme_goTo, notYield, noArrow, noName, reads, closes.assignmentTail]

/-- The members of a chain that were read behind a first value, and those that may still come. -/
def chainFrom (n rounds : Nat) (e : Expr) : Reading Chain := grow (chainStep ⟨n, readAt n⟩ true) rounds ⟨e, false⟩

/-- A text that a single value is read from, wherever one may stand and at any depth that its length allows. -/
structure Writes (text : List Char) (e : Expr) : Prop where
  front : ∀ {space rest : List Char}, Space space → endsName rest = true → Front (space ++ (text ++ rest))
  onLine : ∀ rest, OnLine (text ++ rest)
  chain : ∀ {n : Nat} {s : Setting} {r : Reader} {space rest : List Char}, Space space → endsName rest = true →
    s.ambient = false → 4 * text.length ≤ n →
    ∃ left, n ≤ left + text.length ∧
      (primary ⟨n, readAt n⟩ >>= chainFrom n n) s (r.goTo (space ++ (text ++ rest))) =
        chainFrom n left e s (r.goTo rest)

theorem Writes.read (writes : Writes text e) {space : List Char} (skips : Space space) (closes : Closes rest)
    (real : s.ambient = false) (deep : 4 * text.length + 4 ≤ n) :
    (Inner.mk n (readAt n)).expression s (r.goTo (space ++ (text ++ rest))) = some (e, r.goTo rest) := by
  obtain ⟨m, rfl⟩ := Nat.exists_eq_add_of_le' (show 4 ≤ n by omega)
  have front := writes.front skips closes.endsName
  obtain ⟨left, rounds, chain⟩ := writes.chain (n := m + 1) (r := r) skips closes.endsName real (by omega)
  refine assignment_run front closes (binary_run front closes (Nat.succ_pos _) ?_)
  obtain ⟨left, rfl⟩ := Nat.exists_eq_add_of_le' (show 1 ≤ left by omega)
  have ends : chainFrom (m + 1) (left + 1) e s (r.goTo rest) = some (⟨e, false⟩, r.goTo rest) := by
    simp [chainFrom, grow, closes.chainStep]
  rw [ends, bind_run] at chain
  have whole : chainValue ⟨m + 1, readAt (m + 1)⟩ true s (r.goTo (space ++ (text ++ rest))) = some (e, r.goTo rest) := by
    cases first : primary ⟨m + 1, readAt (m + 1)⟩ s (r.goTo (space ++ (text ++ rest))) with
    | none =>
        rw [first] at chain
        cases chain
    | some found =>
        rw [first] at chain
        simp only [chainFrom] at chain
        simp [chainValue, first, chain]
  exact whole

/-- Spaces and the characters of lines, as generated code has them between lexemes. -/
def IsLayout (layout : List Char) : Prop := ∀ c ∈ layout, c = ' ' ∨ c = '\n' ∨ c = '\t'

theorem IsLayout.space {layout : List Char} (plain : IsLayout layout) : Space layout := by
  refine .gaps fun c member => ?_
  rcases plain c member with rfl | rfl | rfl
  all_goals rfl

theorem IsLayout.nil : IsLayout [] := nofun

theorem IsLayout.blank : IsLayout [' '] := by simp [IsLayout]

theorem Space.blank : Space [' '] := IsLayout.blank.space

theorem endsName_layout {layout : List Char} (plain : IsLayout layout) (ends : endsName rest = true) :
    endsName (layout ++ rest) = true := by
  cases layout with
  | nil => exact ends
  | cons c more =>
      rcases plain c List.mem_cons_self with rfl | rfl | rfl
      all_goals rfl

theorem closes_of_layout {layout : List Char} (plain : IsLayout layout) {c : Char} (closer : c ∈ [',', ')', '\x7d', ';'])
    (rest : List Char) : Closes (layout ++ c :: rest) := by
  simp only [List.mem_cons, List.not_mem_nil, or_false] at closer
  have ends : endsName (c :: rest) = true := by
    rcases closer with rfl | rfl | rfl | rfl
    all_goals rfl
  refine ⟨endsName_layout plain ends, _, rest, ?_, (starts_mark ?_ rest).after plain.space⟩
  · rcases closer with rfl | rfl | rfl | rfl
    all_goals decide
  · rcases closer with rfl | rfl | rfl | rfl
    all_goals decide

theorem closes_mark {c : Char} (closer : c ∈ [',', ')', '\x7d', ';']) (rest : List Char) : Closes (c :: rest) :=
  closes_of_layout .nil closer rest

/-- An item of a list between brackets, read wherever it stands in the list. -/
structure Item {α : Type} (item : Reading α) (close : Char) (s : Setting) (text : List Char) (a : α) : Prop where
  opens : ∀ {space rest : List Char}, Space space → endsName rest = true →
    ∃ lexeme behind, Starts (space ++ (text ++ rest)) lexeme behind ∧ lexeme ≠ .mark (String.singleton close)
  reads : ∀ {r : Reader} {space rest : List Char}, Space space → Closes rest →
    item s (r.goTo (space ++ (text ++ rest))) = some (a, r.goTo rest)

/-- A list between brackets, with one layout behind its commas and one behind its last item. -/
theorem separated_run {α : Type} {item : Reading α} {close : Char} {items : List (List Char × α)}
    {space gap last : List Char} {rounds : Nat} (closing : close = ')' ∨ close = '\x7d') (skips : Space space)
    (gaps : IsLayout gap) (ends : IsLayout last) (each : ∀ found ∈ items, Item item close s found.1 found.2)
    (nonempty : items ≠ []) (enough : items.length ≤ rounds) (rest : List Char) :
    separated (String.singleton close) item rounds s
        (r.goTo (space ++ (Print.separated (',' :: gap) (items.map Prod.fst) ++ (last ++ close :: rest)))) =
      some ((items.map Prod.snd, false), r.goTo (last ++ close :: rest)) := by
  have closes := closes_of_layout ends (c := close) (by rcases closing with rfl | rfl <;> decide) rest
  have closer : Starts (last ++ close :: rest) (.mark (String.singleton close)) rest :=
    (starts_mark (by rcases closing with rfl | rfl <;> decide) rest).after ends.space
  induction items generalizing space rounds with
  | nil => exact absurd rfl nonempty
  | cons found more ih =>
      obtain ⟨text, a⟩ := found
      obtain ⟨opens, reads⟩ := each _ List.mem_cons_self
      obtain ⟨rounds, rfl⟩ := Nat.exists_eq_add_of_le' (Nat.le_trans (Nat.le_add_left 1 _) enough)
      cases more with
      | nil =>
          obtain ⟨lexeme, behind, starts, notClose⟩ := opens skips closes.endsName
          simp [Print.separated, separated, starts.lexeme_goTo, notClose, reads skips closes, closer.lexeme_goTo]
      | cons next more =>
          obtain ⟨tail, same⟩ : ∃ tail, tail = gap ++ (Print.separated (',' :: gap) ((next :: more).map Prod.fst) ++
            (last ++ close :: rest)) := ⟨_, rfl⟩
          have spread : space ++ (Print.separated (',' :: gap) (((text, a) :: next :: more).map Prod.fst) ++
              (last ++ close :: rest)) = space ++ (text ++ ',' :: tail) := by
            simp [same, Print.separated]
          have comma : Starts (',' :: tail) (.mark ",") tail := starts_mark (by decide) tail
          have goes : Closes (',' :: tail) := closes_mark (by decide) tail
          have notComma : "," ≠ String.singleton close := by
            rcases closing with rfl | rfl
            all_goals decide
          have more := ih gaps.space (fun found member => each found (List.mem_cons_of_mem _ member))
            (List.cons_ne_nil _ _) (Nat.le_of_succ_le_succ enough)
          rw [← same] at more
          have goesOn : ((r.goTo tail).token.lexeme == .mark (String.singleton close)) = false := by
            cases ends : (r.goTo tail).token.lexeme == .mark (String.singleton close) with
            | false => rfl
            | true =>
                cases rounds with
                | zero => cases more
                | succ rounds =>
                    rw [separated, bind_run, isMark_run, ends] at more
                    cases more
          obtain ⟨lexeme, behind, starts, notClose⟩ := opens skips goes.endsName
          rw [spread]
          simp [separated, starts.lexeme_goTo, notClose, reads skips goes, comma.lexeme_goTo, notComma, comma.takeMark,
            goesOn, more]

end Realms.Script
