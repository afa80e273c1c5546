import Mathlib.Order.Basic
import Realms.Proofs.Script.Steps

/-!
Readings in step. Two texts may be alike up to a seam, where one of them ends and the other goes on. A reading of the
one and the same reading of the other, from places that stand beside each other, both fail or both give the same, and
then stand beside each other again. What is known of the tokens is left open here, so that the readings of the grammar
are gone through once: `Lockstep` says what is needed.
-/
namespace Realms.Script

open Reading
open Realms.Text

variable {α β : Type}

namespace Lexeme

/-- A lexeme that a reader can go on behind. -/
def isRead (lexeme : Lexeme) : Bool := lexeme != .ending && lexeme != .malformed

/-- A lexeme that no statement ends with. -/
def goesOn (lexeme : Lexeme) : Bool := lexeme.isRead && lexeme != .mark ";" && lexeme != .mark "\x7d"

variable {lexeme : Lexeme}

theorem isRead_of_goesOn (goes : lexeme.goesOn = true) : lexeme.isRead = true :=
  (Bool.and_eq_true_iff.mp (Bool.and_eq_true_iff.mp goes).1).1

theorem ne_ending_of_isRead (isRead : lexeme.isRead = true) : lexeme ≠ .ending := by
  rintro rfl
  cases isRead

theorem goesOn_of_isWord {word : String} (isWord : lexeme.isWord word = true) : lexeme.goesOn = true := by
  cases lexeme with
  | word => rfl
  | _ => cases isWord

theorem goesOn_of_isBindingWord (isBinding : lexeme.isBindingWord = true) : lexeme.goesOn = true := by
  cases lexeme with
  | word => rfl
  | _ => cases isBinding

theorem goesOn_of_isMark {mark : String} (isMark : (lexeme == .mark mark) = true)
    (goes : goesOn (.mark mark) = true) : lexeme.goesOn = true := beq_iff_eq.mp isMark ▸ goes

theorem goesOn_of_isOneOf {marks : List String} (isOneOf : lexeme.isOneOf marks = true)
    (goes : ∀ mark ∈ marks, goesOn (.mark mark) = true) : lexeme.goesOn = true := by
  cases lexeme with
  | mark mark => exact goes mark (List.contains_iff_mem.mp isOneOf)
  | _ => cases isOneOf

theorem ne_ending_of_isBindingWord (isBinding : lexeme.isBindingWord = true) : lexeme ≠ .ending := by
  rintro rfl
  cases isBinding

end Lexeme

/-- The first word of an import, with a brace behind it on its line and a word behind the brace. -/
structure Token.OpensImport (token : Token) : Prop where
  lexeme : token.lexeme = .word "import" false
  newLine : token.newLine = true
  brace : (nextToken token.rest).lexeme = .mark "\x7b"
  onLine : (nextToken token.rest).newLine = false

/-- Whether a character ends the text between two tags. -/
def endsChild (c : Char) : Bool := "\x7b\x7d<>".toList.contains c

/-- The text of an element up to what stands in it. -/
def childText (text : List Char) : List Char := text.dropWhile fun c => !endsChild c

/-- What stands in a name of an element or an attribute. -/
def isMarkupPart (c : Char) : Bool := isIdentifierPart c || c == '-'

/-- Values of an attribute in two texts that stand beside each other. A quote may be closed in the second text only, and
then what is behind it is adrift. -/
inductive Valued (near either : Token → Token → Prop) (adrift : Token → Prop) (k : Nat) : List Char → List Char → Prop
  | closed {quote c c' : Char} {text text' rest rest' : List Char} (isQuote : quote = '"' ∨ quote = '\x27')
      (here : text.dropWhile (· != quote) = c :: rest) (there : text'.dropWhile (· != quote) = c' :: rest')
      (beside : either (nextToken rest) (nextToken rest')) (low : (nextToken rest).start.length < k) :
      Valued near either adrift k (quote :: text) (quote :: text')
  | unclosed {quote : Char} {text text' : List Char} (isQuote : quote = '"' ∨ quote = '\x27')
      (here : text.dropWhile (· != quote) = [])
      (there : ∀ c rest, text'.dropWhile (· != quote) = c :: rest → adrift (nextToken rest)) :
      Valued near either adrift k (quote :: text) (quote :: text')
  | opens {c : Char} {text text' : List Char} (opens : c = '\x7b' ∨ c = '<')
      (beside : near (nextToken (c :: text)) (nextToken (c :: text')))
      (low : (nextToken (c :: text)).start.length < k) : Valued near either adrift k (c :: text) (c :: text')
  | other {text text' : List Char} (here : ∀ c rest, text = c :: rest → c ∉ ['"', '\x27', '\x7b', '<'])
      (there : ∀ c rest, text' = c :: rest → c ∉ ['"', '\x27', '\x7b', '<']) : Valued near either adrift k text text'

/-- Texts of an element that stand beside each other. -/
inductive Child (near : Token → Token → Prop) (adrift : Token → Prop) (k : Nat) : List Char → List Char → Prop
  | opens {c : Char} {text text' : List Char} (opens : c = '\x7b' ∨ c = '<')
      (beside : near (nextToken (c :: text)) (nextToken (c :: text')))
      (goes : (nextToken (c :: text)).lexeme.goesOn = true)
      (low : (nextToken (c :: text)).start.length < k) : Child near adrift k (c :: text) (c :: text')
  | other {c : Char} {text text' : List Char} (other : c ≠ '\x7b' ∧ c ≠ '<') :
      Child near adrift k (c :: text) (c :: text')
  | unended {text' : List Char} (there : ∀ c rest, text' = c :: rest → c ≠ '<' ∧ adrift (nextToken (c :: rest))) :
      Child near adrift k [] text'

/-- Tokens of two texts that stand beside each other. Those that are `near` look alike; those at the `seam` are the end
of the first text and the import that goes on with the second. From a token that is `lost`, the second text is read to
its end without a brace that closes anything, and from one that is `adrift`, without an angle bracket. -/
structure Lockstep where
  more : Nat
  near : Token → Token → Prop
  seam : Token → Token → Prop
  lost : Token → Prop
  adrift : Token → Prop
  lexeme : ∀ {t t'}, near t t' → t'.lexeme = t.lexeme
  newLine : ∀ {t t'}, near t t' → t'.newLine = t.newLine
  flawed : ∀ {t t'}, near t t' → t'.flawed = t.flawed
  place : ∀ {t t'}, near t t' → t.lexeme.isRead = true → byteCount t'.start = byteCount t.start + more
  next : ∀ {t t'}, near t t' → t.lexeme.isRead = true →
    near (nextToken t.rest) (nextToken t'.rest) ∨ seam (nextToken t.rest) (nextToken t'.rest)
  stops : ∀ {t t'}, near t t' → t.lexeme.isRead = false → t.rest = [] ∧ t'.rest = []
  goesOn : ∀ {t t'}, near t t' → t.lexeme.goesOn = true → near (nextToken t.rest) (nextToken t'.rest)
  shorter : ∀ {t t'}, near t t' → t.lexeme.isRead = true → (nextToken t.rest).start.length < t.start.length
  joinAngle : ∀ {t t'}, near t t' → near t.joinAngle t'.joinAngle
  splitAngle : ∀ {t t'}, near t t' → near t.splitAngle t'.splitAngle
  asPattern : ∀ {t t'}, near t t' → t.lexeme = .mark "/" ∨ t.lexeme = .mark "/=" → near t.asPattern t'.asPattern
  asTemplate : ∀ {t t'}, near t t' → t.lexeme = .mark "\x7d" → near t.asTemplate t'.asTemplate
  name : ∀ {t t' name}, near t t' → t.lexeme = .word name false →
    near (nextToken (t.start.dropWhile isMarkupPart)) (nextToken (t'.start.dropWhile isMarkupPart)) ∧
      t'.start.takeWhile isMarkupPart = t.start.takeWhile isMarkupPart ∧
        (nextToken (t.start.dropWhile isMarkupPart)).start.length < t.start.length
  value : ∀ {t t'}, near t t' → t.lexeme = .mark "=" →
    Valued near (fun t t' => near t t' ∨ seam t t') adrift t.start.length (skipSpace .plain false t.rest).rest
      (skipSpace .plain false t'.rest).rest
  child : ∀ {t t'}, near t t' → t.lexeme.isRead = true →
    Child near adrift t.start.length (childText t.rest) (childText t'.rest)
  ending : ∀ {t t'}, seam t t' → t.lexeme = .ending
  opensImport : ∀ {t t'}, seam t t' → t'.OpensImport
  lost_open : ∀ {t}, lost t → t.lexeme ≠ .mark "\x7d"
  seam_adrift : ∀ {t t'}, seam t t' → adrift t'
  adrift_open : ∀ {t}, adrift t → t.lexeme ≠ .mark ">"
  adrift_next : ∀ {t}, adrift t → adrift (nextToken t.rest)
  adrift_child : ∀ {t}, adrift t → ∀ c more, childText t.rest = c :: more → c ≠ '<' ∧ adrift (nextToken (c :: more))

namespace Lockstep

variable (K : Lockstep)

def either (t t' : Token) : Prop := K.near t t' ∨ K.seam t t'

end Lockstep

/-- Readers whose tokens stand beside each other, and that have noted the same. -/
structure Beside (T : Token → Token → Prop) (r r' : Reader) : Prop where
  token : T r.token r'.token
  noted : r' = { r with token := r'.token }

/-- How much of the text is left, the token in front included. -/
def Reader.left (r : Reader) : Nat := r.token.start.length

def below (k : Nat) (_ : α) (r : Reader) : Prop := r.left < k

theorem below.le {a : α} {k : Nat} {r : Reader} (low : below k a r) : r.left ≤ k := Nat.le_of_lt low

/-- The setting of a text that goes on. -/
def Setting.grown (s : Setting) (more : Nat) : Setting := { s with size := s.size + more }

/-- What two readings come to: both fail, or both give the same. -/
inductive Outcomes (T : Token → Token → Prop) (P : α → Reader → Prop) :
    Option (α × Reader) → Option (α × Reader) → Prop
  | fails : Outcomes T P none none
  | gives {a : α} {r r' : Reader} (beside : Beside T r r') (holds : P a r) : Outcomes T P (some (a, r)) (some (a, r'))

/-- Readings from two readers that stand beside each other come to the same. -/
def Lockstep.Agree (K : Lockstep) (T : Token → Token → Prop) (P : α → Reader → Prop) (m m' : Reading α) (s : Setting)
    (r r' : Reader) : Prop := Outcomes T P (m s r) (m' (s.grown K.more) r')

variable {K : Lockstep} {T T' : Token → Token → Prop} {P P' : α → Reader → Prop} {Q : β → Reader → Prop}
  {m m' n n' : Reading α} {s : Setting} {r r' next next' : Reader} {k : Nat}

namespace Beside

theorem either (near : Beside K.near r r') : Beside K.either r r' := ⟨.inl near.token, near.noted⟩

theorem cases (either : Beside K.either r r') : Beside K.near r r' ∨ Beside K.seam r r' :=
  either.token.imp (⟨·, either.noted⟩) (⟨·, either.noted⟩)

theorem noted_as (beside : Beside T r r') : ∃ token, r' = { r with token } := ⟨_, beside.noted⟩

theorem lexeme (near : Beside K.near r r') : r'.token.lexeme = r.token.lexeme := K.lexeme near.token

theorem newLine (near : Beside K.near r r') : r'.token.newLine = r.token.newLine := K.newLine near.token

theorem ending (seam : Beside K.seam r r') : r.token.lexeme = .ending := K.ending seam.token

theorem opensImport (seam : Beside K.seam r r') : r'.token.OpensImport := K.opensImport seam.token

/-- A reader that is not at the end of its text is not at the seam. -/
theorem near_of_ne (either : Beside K.either r r') (more : r.token.lexeme ≠ .ending) : Beside K.near r r' :=
  either.cases.resolve_right fun seam => more seam.ending

/-- What the readers have noted may change in the same way. -/
theorem change (beside : Beside T r r') (change : Reader → Reader) (keeps : ∀ r, (change r).token = r.token)
    (apart : ∀ r token, change { r with token } = { change r with token }) : Beside T (change r) (change r') := by
  refine ⟨by rw [keeps, keeps]; exact beside.token, ?_⟩
  rw [keeps]
  exact (congrArg change beside.noted).trans (apart _ _)

/-- The token in front may be taken as another one. -/
theorem retake (beside : Beside T r r') {change : Token → Token} (taken : T' (change r.token) (change r'.token)) :
    Beside T' { r with token := change r.token } { r' with token := change r'.token } :=
  ⟨taken, by rw [beside.noted]⟩

end Beside

namespace Lockstep.Agree

theorem fail : K.Agree T P (fail : Reading α) Reading.fail s r r' := .fails

theorem pure {a : α} (beside : Beside T r r') (holds : P a r) :
    K.Agree T P (pure a : Reading α) (Pure.pure a) s r r' := .gives beside holds

theorem bind {f f' : α → Reading β} (first : K.Agree T P m m' s r r')
    (later : ∀ a next next', Beside T next next' → P a next → K.Agree T' Q (f a) (f' a) s next next') :
    K.Agree T' Q (m >>= f) (m' >>= f') s r r' := by
  unfold Agree at first
  rw [Agree, bind_run, bind_run]
  generalize m s r = outcome, m' (s.grown K.more) r' = outcome' at first
  cases first with
  | fails => exact .fails
  | gives beside holds => exact later _ _ _ beside holds

theorem imp (agree : K.Agree T P m m' s r r') (same : ∀ t t', T t t' → T' t t')
    (weaker : ∀ a next, P a next → P' a next) :
    K.Agree T' P' m m' s r r' := by
  unfold Agree at agree ⊢
  generalize m s r = outcome, m' (s.grown K.more) r' = outcome' at agree
  cases agree with
  | fails => exact .fails
  | gives beside holds => exact .gives ⟨same _ _ beside.token, beside.noted⟩ (weaker _ _ holds)

theorem either (agree : K.Agree K.near P m m' s r r') : K.Agree K.either P m m' s r r' :=
  agree.imp (fun _ _ => .inl) fun _ _ => id

theorem mono {j : Nat} (agree : K.Agree T (below j) m m' s r r') (le : j ≤ k) : K.Agree T (below k) m m' s r r' :=
  agree.imp (fun _ _ => id) fun _ _ low => Nat.lt_of_lt_of_le low le

theorem ite {c : Prop} [Decidable c] (yes : c → K.Agree T P m m' s r r') (no : ¬c → K.Agree T P n n' s r r') :
    K.Agree T P (if c then m else n) (if c then m' else n') s r r' := by
  split
  · rename_i holds
    exact yes holds
  · rename_i fails
    exact no fails

/-- What is known to be read next in both texts. -/
theorem known {f f' : α → Reading β} {a : α} (runs : m s r = some (a, r))
    (runs' : m' (s.grown K.more) r' = some (a, r'))
    (later : K.Agree T Q (f a) (f' a) s r r') : K.Agree T Q (m >>= f) (m' >>= f') s r r' := by
  rw [Agree, bind_run, bind_run, runs, runs']
  exact later

theorem setting {f f' : Setting → Reading β} (later : K.Agree T Q (f s) (f' (s.grown K.more)) s r r') :
    K.Agree T Q (Reading.setting >>= f) (Reading.setting >>= f') s r r' := later

theorem typed {f f' : Bool → Reading β} (later : K.Agree T Q (f s.types) (f' s.types) s r r') :
    K.Agree T Q (Reading.typed >>= f) (Reading.typed >>= f') s r r' := later

theorem under {change : Setting → Setting} (apart : change (s.grown K.more) = (change s).grown K.more)
    (agree : K.Agree T P m m' (change s) r r') :
    K.Agree T P (Reading.under change m) (Reading.under change m') s r r' := by
  rw [Agree, under_run, under_run, apart]
  exact agree

end Lockstep.Agree

/-- Readings that only look, and see the same. -/
def Lockstep.Look (K : Lockstep) (P : α → Prop) (m m' : Reading α) (s : Setting) (r r' : Reader) : Prop :=
  ∃ found : Option α, (∀ a, found = some a → P a) ∧
    m s r = found.map (·, r) ∧ m' (s.grown K.more) r' = found.map (·, r')

namespace Lockstep.Look

variable {P P' : α → Prop} {f f' : α → Reading β}

theorem bind (look : K.Look P m m' s r r') (later : ∀ a, P a → K.Agree T Q (f a) (f' a) s r r') :
    K.Agree T Q (m >>= f) (m' >>= f') s r r' := by
  obtain ⟨found, holds, runs, runs'⟩ := look
  cases found with
  | none =>
      rw [Agree, bind_run, bind_run, runs, runs']
      exact .fails
  | some a => exact .known runs runs' (later a (holds a rfl))

theorem agree (look : K.Look P m m' s r r') (beside : Beside T r r') :
    K.Agree T (fun a next => P a ∧ next = r) m m' s r r' := by
  obtain ⟨found, holds, runs, runs'⟩ := look
  rw [Agree, runs, runs']
  cases found with
  | none => exact .fails
  | some a => exact .gives beside ⟨holds a rfl, rfl⟩

theorem sees (look : K.Look P m m' s r r') (beside : Beside T r r') : K.Agree T (fun _ _ => True) m m' s r r' :=
  (look.agree beside).imp (fun _ _ => id) fun _ _ _ => trivial

theorem imp (look : K.Look P m m' s r r') (weaker : ∀ a, P a → P' a) : K.Look P' m m' s r r' := by
  obtain ⟨found, holds, runs⟩ := look
  exact ⟨found, fun a same => weaker a (holds a same), runs⟩

end Lockstep.Look

section Looks

variable {f f' : Bool → Reading β} {word mark : String} {marks : List String}

namespace Lockstep.Look

theorem known {a : α} (runs : m s r = some (a, r)) (runs' : m' (s.grown K.more) r' = some (a, r')) :
    K.Look (· = a) m m' s r r' := ⟨some a, fun _ same => (Option.some.inj same).symm, runs, runs'⟩

theorem isMark (either : Beside K.either r r') :
    K.Look (· = (r.token.lexeme == .mark mark)) (Reading.isMark mark) (Reading.isMark mark) s r r' := by
  refine known rfl ?_
  rcases either.cases with near | seam
  · rw [isMark_run, near.lexeme]
  · rw [isMark_run, seam.ending, seam.opensImport.lexeme]
    rfl

theorem isOneOf (either : Beside K.either r r') :
    K.Look (· = r.token.lexeme.isOneOf marks) (Reading.isOneOf marks) (Reading.isOneOf marks) s r r' := by
  refine known (isOneOf_run marks) ?_
  rcases either.cases with near | seam
  · rw [isOneOf_run, near.lexeme]
  · rw [isOneOf_run, seam.ending, seam.opensImport.lexeme]
    rfl

theorem isWord (word : String) (other : ("import" == word) = false) (either : Beside K.either r r') :
    K.Look (· = r.token.lexeme.isWord word) (Reading.isWord word) (Reading.isWord word) s r r' := by
  refine known (isWord_run word) ?_
  rcases either.cases with near | seam
  · rw [isWord_run, near.lexeme]
  · rw [isWord_run, seam.ending, seam.opensImport.lexeme]
    simp only [Lexeme.isWord, other]

theorem isBindingWord (either : Beside K.either r r') :
    K.Look (· = r.token.lexeme.isBindingWord) Reading.isBindingWord Reading.isBindingWord s r r' := by
  refine known isBindingWord_run ?_
  rcases either.cases with near | seam
  · rw [isBindingWord_run, near.lexeme]
  · rw [isBindingWord_run, seam.ending, seam.opensImport.lexeme]
    rfl

end Lockstep.Look

namespace Lockstep.Agree

theorem isMark (either : Beside K.either r r')
    (later : K.Agree T Q (f (r.token.lexeme == .mark mark)) (f' (r.token.lexeme == .mark mark)) s r r') :
    K.Agree T Q (Reading.isMark mark >>= f) (Reading.isMark mark >>= f') s r r' :=
  (Look.isMark either).bind fun _ same => same ▸ later

theorem isOneOf (either : Beside K.either r r')
    (later : K.Agree T Q (f (r.token.lexeme.isOneOf marks)) (f' (r.token.lexeme.isOneOf marks)) s r r') :
    K.Agree T Q (Reading.isOneOf marks >>= f) (Reading.isOneOf marks >>= f') s r r' :=
  (Look.isOneOf either).bind fun _ same => same ▸ later

theorem isWord (word : String) (other : ("import" == word) = false) (either : Beside K.either r r')
    (later : K.Agree T Q (f (r.token.lexeme.isWord word)) (f' (r.token.lexeme.isWord word)) s r r') :
    K.Agree T Q (Reading.isWord word >>= f) (Reading.isWord word >>= f') s r r' :=
  (Look.isWord word other either).bind fun _ same => same ▸ later

theorem isBindingWord (either : Beside K.either r r')
    (later : K.Agree T Q (f r.token.lexeme.isBindingWord) (f' r.token.lexeme.isBindingWord) s r r') :
    K.Agree T Q (Reading.isBindingWord >>= f) (Reading.isBindingWord >>= f') s r r' :=
  (Look.isBindingWord either).bind fun _ same => same ▸ later

theorem isImport (near : Beside K.near r r')
    (later : K.Agree T Q (f (r.token.lexeme.isWord word)) (f' (r.token.lexeme.isWord word)) s r r') :
    K.Agree T Q (Reading.isWord word >>= f) (Reading.isWord word >>= f') s r r' := by
  refine known (isWord_run word) ?_ later
  rw [isWord_run, near.lexeme]

theorem newLine (near : Beside K.near r r')
    (later : K.Agree T Q (f r.token.newLine) (f' r.token.newLine) s r r') :
    K.Agree T Q (Reading.newLine >>= f) (Reading.newLine >>= f') s r r' := by
  refine known rfl ?_ later
  rw [newLine_run, near.newLine]

theorem lexeme {f f' : Lexeme → Reading β} (near : Beside K.near r r')
    (later : K.Agree T Q (f r.token.lexeme) (f' r.token.lexeme) s r r') :
    K.Agree T Q (Reading.lexeme >>= f) (Reading.lexeme >>= f') s r r' := by
  refine known rfl ?_ later
  rw [lexeme_run, near.lexeme]

/-- At the seam, the one text ends and the other has an import. -/
theorem lexemeAt {f f' : Lexeme → Reading β} (either : Beside K.either r r')
    (near : Beside K.near r r' → K.Agree T Q (f r.token.lexeme) (f' r.token.lexeme) s r r')
    (seam : Beside K.seam r r' → K.Agree T Q (f .ending) (f' (.word "import" false)) s r r') :
    K.Agree T Q (Reading.lexeme >>= f) (Reading.lexeme >>= f') s r r' := by
  rcases either.cases with isNear | isSeam
  · exact lexeme isNear (near isNear)
  · have later := seam isSeam
    rw [Agree, bind_run, bind_run, lexeme_run, lexeme_run, isSeam.ending, isSeam.opensImport.lexeme]
    exact later

/-- At the seam, no line ends in front of the end of the one text, and it does in front of the import. -/
theorem newLineAt (either : Beside K.either r r')
    (near : Beside K.near r r' → K.Agree T Q (f r.token.newLine) (f' r.token.newLine) s r r')
    (seam : Beside K.seam r r' → ∀ b b', K.Agree T Q (f b) (f' b') s r r') :
    K.Agree T Q (Reading.newLine >>= f) (Reading.newLine >>= f') s r r' := by
  rcases either.cases with isNear | isSeam
  · exact newLine isNear (near isNear)
  · exact seam isSeam _ _

theorem place {f f' : Nat → Reading β} (near : Beside K.near r r') (isRead : r.token.lexeme.isRead = true)
    (later : K.Agree T Q (f (s.size - byteCount r.token.start)) (f' (s.size - byteCount r.token.start)) s r r') :
    K.Agree T Q (Reading.place >>= f) (Reading.place >>= f') s r r' := by
  refine known rfl ?_ later
  have same : (s.grown K.more).size - byteCount r'.token.start = s.size - byteCount r.token.start := by
    rw [K.place near.token isRead]
    exact Nat.add_sub_add_right _ _ _
  rw [← same]
  rfl

end Lockstep.Agree

end Looks

namespace Lockstep.Agree

section Changes

variable {f f' : Unit → Reading β}

/-- A reader on which something is noted. -/
theorem changed (change : Reader → Reader) {u u' : Reading Unit} (beside : Beside T r r')
    (runs : u s r = some ((), change r)) (runs' : u' (s.grown K.more) r' = some ((), change r'))
    (keeps : ∀ r, (change r).token = r.token) (apart : ∀ r token, change { r with token } = { change r with token })
    (later : Beside T (change r) (change r') → K.Agree T' Q (f ()) (f' ()) s (change r) (change r')) :
    K.Agree T' Q (u >>= f) (u' >>= f') s r r' := by
  rw [Agree, bind_run, bind_run, runs, runs']
  exact later (beside.change change keeps apart)

theorem flawIf {broken : Bool} (beside : Beside T r r')
    (later : Beside T { r with flawed := r.flawed || broken } { r' with flawed := r'.flawed || broken } →
      K.Agree T' Q (f ()) (f' ()) s { r with flawed := r.flawed || broken } { r' with flawed := r'.flawed || broken }) :
    K.Agree T' Q (Reading.flawIf broken >>= f) (Reading.flawIf broken >>= f') s r r' :=
  changed (fun r => { r with flawed := r.flawed || broken }) beside rfl rfl (fun _ => rfl) (fun _ _ => rfl) later

end Changes

theorem flaws {broken : Bool} (beside : Beside T r r') (low : r.left < k) :
    K.Agree T (below k) (Reading.flawIf broken) (Reading.flawIf broken) s r r' :=
  .gives (beside.change (fun r => { r with flawed := r.flawed || broken }) (fun _ => rfl) fun _ _ => rfl) low

theorem need {holds : Bool} (beside : Beside T r r') :
    K.Agree T (fun _ next => holds = true ∧ next = r) (Reading.need holds) (Reading.need holds) s r r' := by
  cases holds with
  | true => exact .gives beside ⟨rfl, rfl⟩
  | false => exact .fails

/-- Goes on behind a token that no statement ends with. -/
theorem advance (either : Beside K.either r r') (goes : r.token.lexeme.goesOn = true) (low : r.left ≤ k) :
    K.Agree K.near (below k) Reading.advance Reading.advance s r r' := by
  have isRead := Lexeme.isRead_of_goesOn goes
  have near := either.near_of_ne (Lexeme.ne_ending_of_isRead isRead)
  obtain ⟨token, rfl⟩ := near.noted_as
  refine .gives ⟨K.goesOn near.token goes, ?_⟩ (Nat.lt_of_lt_of_le (K.shorter near.token isRead) low)
  have lexeme : token.lexeme = r.token.lexeme := K.lexeme near.token
  have flawed : token.flawed = r.token.flawed := K.flawed near.token
  simp only [Reader.next, Token.isDisguised, lexeme, flawed]

theorem advanceOver (either : Beside K.either r r') (isRead : r.token.lexeme.isRead = true) (low : r.left ≤ k) :
    K.Agree K.either (below k) Reading.advance Reading.advance s r r' := by
  have near := either.near_of_ne (Lexeme.ne_ending_of_isRead isRead)
  obtain ⟨token, rfl⟩ := near.noted_as
  refine .gives ⟨K.next near.token isRead, ?_⟩ (Nat.lt_of_lt_of_le (K.shorter near.token isRead) low)
  have lexeme : token.lexeme = r.token.lexeme := K.lexeme near.token
  have flawed : token.flawed = r.token.flawed := K.flawed near.token
  simp only [Reader.next, Token.isDisguised, lexeme, flawed]

/-- The reader behind the token in front. -/
def behind (r : Reader) : Reader := { r.next with flawed := r.next.flawed || r.token.isDisguised }

theorem advanceTo (either : Beside K.either r r') (goes : r.token.lexeme.goesOn = true) (low : r.left ≤ k) :
    K.Agree K.near (fun _ next => next = behind r ∧ next.left < k) Reading.advance Reading.advance s r r' := by
  have agree := advance (s := s) either goes low
  unfold Agree at agree ⊢
  cases agree with
  | gives near low => exact .gives near ⟨rfl, low⟩

theorem skipName (near : Beside K.near r r') (goes : r.token.lexeme.goesOn = true) (low : r.left ≤ k) :
    K.Agree K.near (below k) Reading.skipName Reading.skipName s r r' := by
  obtain ⟨token, rfl⟩ := near.noted_as
  refine .gives ⟨K.goesOn near.token goes, ?_⟩
    (Nat.lt_of_lt_of_le (K.shorter near.token (Lexeme.isRead_of_goesOn goes)) low)
  have flawed : token.flawed = r.token.flawed := K.flawed near.token
  simp only [Reader.next, flawed]

section Marks

variable {mark word : String} {f f' : Bool → Reading β}

theorem takeMark (mark : String) (goes : Lexeme.goesOn (.mark mark) = true) (either : Beside K.either r r')
    (low : r.left ≤ k) :
    K.Agree K.near (below k) (Reading.takeMark mark) (Reading.takeMark mark) s r r' := by
  refine .isMark either (.ite (fun holds => ?_) fun _ => .fail)
  exact advance either (beq_iff_eq.mp holds ▸ goes) low

/-- A mark that may close the text. -/
theorem closeMark (either : Beside K.either r r') (low : r.left ≤ k) :
    K.Agree K.either (below k) (Reading.takeMark mark) (Reading.takeMark mark) s r r' := by
  refine .isMark either (.ite (fun holds => ?_) fun _ => .fail)
  exact advanceOver either (beq_iff_eq.mp holds ▸ rfl) low

/-- What a mark opens is read where it stands, and something else where it does not. -/
theorem eatMarkTo {S : Token → Token → Prop} (either : Beside K.either r r')
    (taken : r.token.lexeme = .mark mark → K.Agree S (below k) Reading.advance Reading.advance s r r')
    (eaten : r.token.lexeme = .mark mark →
      ∀ next next', Beside S next next' → next.left < k → K.Agree T Q (f true) (f' true) s next next')
    (absent : r.token.lexeme ≠ .mark mark → K.Agree T Q (f false) (f' false) s r r') :
    K.Agree T Q (Reading.eatMark mark >>= f) (Reading.eatMark mark >>= f') s r r' := by
  by_cases front : r.token.lexeme = .mark mark
  · have first : K.Agree S (fun found next => found = true ∧ next.left < k) (Reading.eatMark mark)
        (Reading.eatMark mark) s r r' := by
      refine .isMark either (.ite (fun _ => ?_) fun other => absurd (beq_iff_eq.mpr front) other)
      exact (taken front).bind fun _ _ _ beside low => .pure beside ⟨rfl, low⟩
    refine first.bind fun found next next' beside holds => ?_
    obtain ⟨rfl, low⟩ := holds
    exact eaten front next next' beside low
  · have other : (r.token.lexeme == .mark mark) = false := beq_eq_false_iff_ne.mpr front
    have other' : (r'.token.lexeme == .mark mark) = false := by
      rcases either.cases with near | seam
      · rw [near.lexeme, other]
      · rw [seam.opensImport.lexeme]
        rfl
    exact known (eatMark_other other) (eatMark_other other') (absent front)

theorem eatMark (mark : String) (goes : Lexeme.goesOn (.mark mark) = true) (either : Beside K.either r r')
    (low : r.left ≤ k)
    (eaten : r.token.lexeme = .mark mark →
      ∀ next next', Beside K.near next next' → next.left < k → K.Agree T Q (f true) (f' true) s next next')
    (absent : r.token.lexeme ≠ .mark mark → K.Agree T Q (f false) (f' false) s r r') :
    K.Agree T Q (Reading.eatMark mark >>= f) (Reading.eatMark mark >>= f') s r r' :=
  .eatMarkTo either (fun front => advance either (front ▸ goes) low) eaten absent

/-- The same for a mark that may close the text. -/
theorem eatClose (either : Beside K.either r r') (low : r.left ≤ k)
    (eaten : ∀ next next', Beside K.either next next' → next.left < k → K.Agree T Q (f true) (f' true) s next next')
    (absent : r.token.lexeme ≠ .mark mark → K.Agree T Q (f false) (f' false) s r r') :
    K.Agree T Q (Reading.eatMark mark >>= f) (Reading.eatMark mark >>= f') s r r' :=
  .eatMarkTo either (fun front => advanceOver either (front ▸ rfl) low) (fun _ => eaten) absent

/-- Eats a mark, if one is in front. -/
theorem eatsMark (either : Beside K.either r r') (low : r.left < k) :
    K.Agree K.either (below k) (Reading.eatMark mark) (Reading.eatMark mark) s r r' := by
  refine .isMark either (.ite (fun holds => ?_) fun _ => .pure either low)
  exact (advanceOver either (beq_iff_eq.mp holds ▸ rfl) (Nat.le_of_lt low)).bind
    fun _ _ _ either low => .pure either low

theorem eatsMarkNear (mark : String) (goes : Lexeme.goesOn (.mark mark) = true) (near : Beside K.near r r')
    (low : r.left < k) :
    K.Agree K.near (below k) (Reading.eatMark mark) (Reading.eatMark mark) s r r' := by
  refine .isMark near.either (.ite (fun holds => ?_) fun _ => .pure near low)
  exact (advance near.either (beq_iff_eq.mp holds ▸ goes) (Nat.le_of_lt low)).bind fun _ _ _ near low => .pure near low

/-- What is left does not grow. -/
theorem eatsMarkHere (mark : String) (goes : Lexeme.goesOn (.mark mark) = true) (near : Beside K.near r r')
    (low : r.left ≤ k) :
    K.Agree K.near (fun _ next => next.left ≤ k) (Reading.eatMark mark) (Reading.eatMark mark) s r r' :=
  (eatsMarkNear mark goes near (Nat.lt_succ_of_le low)).imp (fun _ _ => id) fun _ _ low => Nat.le_of_lt_succ low

theorem resume {S : Token → Token → Prop} {text text' : List Char} {f f' : Unit → Reading β} (beside : Beside S r r')
    (taken : T (nextToken text) (nextToken text'))
    (later : Beside T { r with token := nextToken text } { r' with token := nextToken text' } →
      K.Agree T' Q (f ()) (f' ()) s { r with token := nextToken text } { r' with token := nextToken text' }) :
    K.Agree T' Q (Reading.resume text >>= f) (Reading.resume text' >>= f') s r r' := by
  rw [Agree, bind_run, bind_run]
  exact later ⟨taken, by rw [beside.noted]⟩

theorem takeWord (word : String) (other : ("import" == word) = false) (either : Beside K.either r r')
    (low : r.left ≤ k) :
    K.Agree K.near (below k) (Reading.takeWord word) (Reading.takeWord word) s r r' := by
  refine .isWord word other either (.ite (fun holds => ?_) fun _ => .fail)
  exact advance either (Lexeme.goesOn_of_isWord holds) low

theorem takeWordTo (word : String) (other : ("import" == word) = false) (either : Beside K.either r r') :
    K.Agree K.near (fun _ next => r.token.lexeme.goesOn = true ∧ next = behind r) (Reading.takeWord word)
      (Reading.takeWord word) s r r' := by
  refine .isWord word other either (.ite (fun isFirst => ?_) fun _ => .fail)
  have goes := Lexeme.goesOn_of_isWord isFirst
  exact (advanceTo either goes (Nat.le_refl _)).imp (fun _ _ => id) fun _ _ ⟨same, _⟩ => ⟨goes, same⟩

theorem eatsWord (near : Beside K.near r r') (low : r.left < k) :
    K.Agree K.near (below k) (Reading.eatWord word) (Reading.eatWord word) s r r' := by
  refine .isImport near (.ite (fun holds => ?_) fun _ => .pure near low)
  refine Agree.bind (T := K.near) (P := below k) ?_ fun _ _ _ near low => .pure near low
  refine .isImport near (.ite (fun holds => ?_) fun _ => .fail)
  exact advance near.either (Lexeme.goesOn_of_isWord holds) (Nat.le_of_lt low)

theorem takeImport (near : Beside K.near r r') (low : r.left ≤ k) :
    K.Agree K.near (below k) (Reading.takeWord word) (Reading.takeWord word) s r r' := by
  refine .isImport near (.ite (fun holds => ?_) fun _ => .fail)
  exact advance near.either (Lexeme.goesOn_of_isWord holds) low

theorem eatWord (word : String) (other : ("import" == word) = false) (either : Beside K.either r r')
    (low : r.left ≤ k)
    (eaten : ∀ next next', Beside K.near next next' → next.left < k → K.Agree T Q (f true) (f' true) s next next')
    (absent : K.Agree T Q (f false) (f' false) s r r') :
    K.Agree T Q (Reading.eatWord word >>= f) (Reading.eatWord word >>= f') s r r' := by
  cases front : r.token.lexeme.isWord word with
  | true =>
      have first : K.Agree K.near (fun found next => found = true ∧ next.left < k) (Reading.eatWord word)
          (Reading.eatWord word) s r r' := by
        refine .isWord word other either (.ite (fun _ => ?_) fun absent => absurd front absent)
        exact (takeWord word other either low).bind fun _ _ _ near low => .pure near ⟨rfl, low⟩
      refine first.bind fun found next next' near holds => ?_
      obtain ⟨rfl, low⟩ := holds
      exact eaten next next' near low
  | false =>
      have front' : r'.token.lexeme.isWord word = false := by
        rcases either.cases with near | seam
        · rw [near.lexeme, front]
        · rw [seam.opensImport.lexeme]
          exact other
      exact known (by simp [Reading.eatWord, front]) (by simp [Reading.eatWord, front']) absent

end Marks

section Words

theorem wordTaken (near : Beside K.near r r') (low : r.left ≤ k) :
    K.Agree K.near (fun _ next => r.token.lexeme.goesOn = true ∧ next.left < k) Reading.anyWord Reading.anyWord
      s r r' := by
  refine .lexeme near ?_
  cases front : r.token.lexeme with
  | word name escaped =>
      refine (skipName near (front ▸ rfl) low).bind fun _ _ _ near low => ?_
      exact .pure near ⟨rfl, low⟩
  | _ => exact .fail

theorem anyWord (near : Beside K.near r r') (low : r.left ≤ k) :
    K.Agree K.near (below k) Reading.anyWord Reading.anyWord s r r' :=
  (wordTaken near low).imp (fun _ _ => id) fun _ _ => And.right

theorem languageWord (near : Beside K.near r r') (low : r.left ≤ k) :
    K.Agree K.near (below k) Reading.languageWord Reading.languageWord s r r' := by
  refine .lexeme near ?_
  cases front : r.token.lexeme with
  | word name escaped =>
      refine (advance near.either (front ▸ rfl) low).bind fun _ _ _ near low => ?_
      exact .pure near low
  | _ => exact .fail

theorem checkName {name : String} (beside : Beside T r r') (low : r.left < k) :
    K.Agree T (below k) (Reading.checkName name) (Reading.checkName name) s r r' :=
  .setting (flaws beside low)

theorem bindingName (either : Beside K.either r r') (low : r.left ≤ k) :
    K.Agree K.near (below k) Reading.bindingName Reading.bindingName s r r' := by
  refine .isBindingWord either (.ite (fun isBinding => ?_) fun _ => .fail)
  have near := either.near_of_ne (Lexeme.ne_ending_of_isBindingWord isBinding)
  refine (anyWord near low).bind fun _ _ _ near low => ?_
  exact (checkName near low).bind fun _ _ _ near low => .pure near low

theorem optionalBindingName (either : Beside K.either r r') (low : r.left < k) :
    K.Agree K.either (below k) Reading.optionalBindingName Reading.optionalBindingName s r r' := by
  refine .isBindingWord either (.ite (fun _ => ?_) fun _ => .pure either low)
  exact (bindingName either (Nat.le_of_lt low)).bind fun _ _ _ near low => .pure near.either low

theorem textLiteral (either : Beside K.either r r') (low : r.left ≤ k) :
    K.Agree K.near (below k) Reading.textLiteral Reading.textLiteral s r r' := by
  refine .lexemeAt either (fun near => ?_) fun _ => .fail
  cases front : r.token.lexeme with
  | text value wellFormed =>
      refine (advance near.either (front ▸ rfl) low).bind fun _ _ _ near low => ?_
      exact .pure near low
  | _ => exact .fail

end Words

end Lockstep.Agree

/-- The tokens of two readers. -/
def here (r r' : Reader) (token token' : Token) : Prop := token = r.token ∧ token' = r'.token

theorem Beside.here (beside : Beside T r r') : Beside (here r r') r r' := ⟨⟨rfl, rfl⟩, beside.noted⟩

/-- Readings that stay where they are only look. -/
theorem Lockstep.Look.of_agree {P : α → Prop} (beside : Beside T r r')
    (agree : K.Agree (here r r') (fun a next => P a ∧ next = r) m m' s r r') : K.Look P m m' s r r' := by
  unfold Agree at agree
  refine ⟨(m s r).map Prod.fst, ?_⟩
  generalize m s r = outcome, m' (s.grown K.more) r' = outcome' at agree
  cases agree with
  | fails => exact ⟨nofun, rfl, rfl⟩
  | @gives a next next' stays holds =>
      obtain ⟨holds, rfl⟩ := holds
      refine ⟨fun a same => Option.some.inj same ▸ holds, rfl, ?_⟩
      have back : next' = r' := by rw [stays.noted, stays.token.2, ← beside.noted]
      rw [back]
      rfl

namespace Lockstep.Agree

theorem ahead (inner : K.Agree T P m m' s r r') :
    K.Look (fun a => ∃ next, P a next) (Reading.ahead m) (Reading.ahead m') s r r' := by
  unfold Agree at inner
  refine ⟨(m s r).map Prod.fst, ?_, ?_, ?_⟩
  · generalize m s r = outcome, m' (s.grown K.more) r' = outcome' at inner
    cases inner with
    | fails => exact nofun
    | gives _ holds => exact fun a same => Option.some.inj same ▸ ⟨_, holds⟩
  · rw [ahead_run, Option.map_map]
    rfl
  · rw [ahead_run]
    generalize m s r = outcome, m' (s.grown K.more) r' = outcome' at inner
    cases inner with
    | fails => rfl
    | gives => rfl

theorem holdsAhead {P : Bool → Reader → Prop} {m m' : Reading Bool} (inner : K.Agree T P m m' s r r') :
    K.Look (fun found => found = true → ∃ next, P true next) (Reading.holdsAhead m) (Reading.holdsAhead m') s r r' := by
  unfold Agree at inner
  refine ⟨some (((m s r).map Prod.fst).getD false), ?_, ?_, ?_⟩
  · generalize m s r = outcome, m' (s.grown K.more) r' = outcome' at inner
    rintro a same rfl
    cases inner with
    | fails => cases same
    | gives _ holds =>
        obtain rfl := Option.some.inj same
        exact ⟨_, holds⟩
  · rw [holdsAhead_run]
    cases m s r
    all_goals rfl
  · rw [holdsAhead_run]
    generalize m s r = outcome, m' (s.grown K.more) r' = outcome' at inner
    cases inner with
    | fails => rfl
    | gives => rfl

end Lockstep.Agree

/-- A word that leads to something else goes on. -/
def leading (r : Reader) (found : Bool) : Prop := found = true → r.token.lexeme.goesOn = true

namespace Lockstep.Look

theorem ahead {P : α → Prop} (inner : K.Agree T (fun a _ => P a) m m' s r r') :
    K.Look P (Reading.ahead m) (Reading.ahead m') s r r' := (Agree.ahead inner).imp fun _ ⟨_, holds⟩ => holds

theorem holdsAhead {P : Prop} {m m' : Reading Bool}
    (inner : K.Agree T (fun found _ => found = true → P) m m' s r r') :
    K.Look (fun found => found = true → P) (Reading.holdsAhead m) (Reading.holdsAhead m') s r r' :=
  (Agree.holdsAhead inner).imp fun _ holds found => (holds found).elim fun _ holds => holds rfl

/-- What is found leads on only in front of a word. -/
theorem wordAhead (word : String) (other : ("import" == word) = false) {m m' : Reading Bool}
    (either : Beside K.either r r')
    (later : ∀ next next', Beside K.near next next' → K.Agree T (fun _ _ => True) m m' s next next') :
    K.Look (leading r) (Reading.holdsAhead (do Reading.takeWord word; m))
      (Reading.holdsAhead (do Reading.takeWord word; m')) s r r' := by
  refine holdsAhead (T := T) ?_
  cases front : r.token.lexeme.isWord word with
  | true =>
      have goes := Lexeme.goesOn_of_isWord front
      refine (Agree.takeWord word other either (Nat.le_refl _)).bind fun _ next next' near _ => ?_
      exact (later next next' near).imp (fun _ _ => id) fun _ _ _ _ => goes
  | false =>
      have absent : K.Agree T (fun _ _ => False) (Reading.takeWord word) (Reading.takeWord word) s r r' :=
        .isWord word other either (.ite (fun holds => absurd holds (front ▸ nofun)) fun _ => .fail)
      exact absent.bind fun _ _ _ _ none => none.elim

end Lockstep.Look

namespace Lockstep.Agree

theorem attempt {f f' : Option α → Reading β} (inner : K.Agree T P m m' s r r')
    (found : ∀ a next next', Beside T next next' → P a next → K.Agree T' Q (f (some a)) (f' (some a)) s next next')
    (none : K.Agree T' Q (f none) (f' none) s r r') :
    K.Agree T' Q (Reading.attempt m >>= f) (Reading.attempt m' >>= f') s r r' := by
  unfold Agree at inner
  rw [Agree, bind_run, bind_run, Reading.attempt, Reading.attempt]
  generalize m s r = outcome, m' (s.grown K.more) r' = outcome' at inner
  cases inner with
  | fails => exact none
  | gives beside holds => exact found _ _ _ beside holds

/-- A reading that was tried has gone on if it gives something, and else left the reader where it was. -/
def moved (r : Reader) (found : Option α) (next : Reader) : Prop :=
  match found with
  | none => next = r
  | some _ => next.left < r.left

theorem tried (beside : Beside T r r') (inner : K.Agree T (below r.left) m m' s r r') :
    K.Agree T (moved r) (Reading.attempt m) (Reading.attempt m') s r r' := by
  unfold Agree at inner ⊢
  rw [Reading.attempt, Reading.attempt]
  generalize m s r = outcome, m' (s.grown K.more) r' = outcome' at inner
  cases inner with
  | fails => exact .gives beside rfl
  | gives beside low => exact .gives beside low

section Ends

/-- A statement may end where the text does, and in front of an import on a line of its own. -/
theorem canEnd (either : Beside K.either r r') :
    K.Look (fun _ => True) Reading.canEnd Reading.canEnd s r r' := by
  rcases either.cases with near | seam
  · obtain ⟨found, runs, same⟩ : ∃ found, Reading.canEnd s r = some (found, r) ∧
        Reading.canEnd (s.grown K.more) r' = some (found, r') := by
      simp only [Reading.canEnd, bind_run, newLine_run, near.newLine]
      cases r.token.newLine with
      | true => exact ⟨true, rfl, rfl⟩
      | false =>
          simp only [Bool.false_eq_true, if_false, bind_run, lexeme_run, near.lexeme]
          cases r.token.lexeme
          all_goals exact ⟨_, rfl, rfl⟩
    exact ⟨some found, fun _ _ => trivial, runs, same⟩
  · refine ⟨some true, fun _ _ => trivial, ?_, ?_⟩
    · simp only [Reading.canEnd, bind_run, newLine_run]
      cases r.token.newLine with
      | true => rfl
      | false => simp only [Bool.false_eq_true, if_false, bind_run, lexeme_run, seam.ending, pure_run, Option.map_some]
    · simp only [Reading.canEnd, bind_run, newLine_run, seam.opensImport.newLine]
      rfl

theorem endStatement (either : Beside K.either r r') (low : r.left < k) :
    K.Agree K.either (below k) Reading.endStatement Reading.endStatement s r r' := by
  refine (canEnd either).bind fun ends _ => .ite (fun _ => ?_) fun _ => .fail
  exact (eatsMark either low).bind fun _ _ _ either low => .pure either low

end Ends

section Loops

variable {item item' : Reading α} {rounds rounds' : Nat}

/-- Items up to a closing mark. The rounds are enough, since each one takes a comma. -/
theorem separated {close : String}
    (each : ∀ {j r r'}, j ≤ k → Beside K.near r r' → r.left < j → K.Agree K.either (below j) item item' s r r')
    (near : Beside K.near r r') (low : r.left < k) (enough : r.left < rounds) (more : rounds ≤ rounds') :
    K.Agree K.either (below k) (Reading.separated close item rounds) (Reading.separated close item' rounds')
      s r r' := by
  induction rounds generalizing rounds' r r' with
  | zero => omega
  | succ rounds ih =>
      obtain ⟨rounds', rfl⟩ := Nat.exists_eq_add_of_le' (Nat.le_trans (Nat.le_add_left 1 rounds) more)
      refine .isMark near.either (.ite (fun _ => .pure near.either low) fun _ => ?_)
      refine (each (j := r.left + 1) low near (Nat.lt_succ_self _)).bind fun first r₁ r₁' either first_low => ?_
      have first_low : r₁.left ≤ r.left := Nat.le_of_lt_succ first_low
      refine .isMark either (.ite (fun _ => .pure either (Nat.lt_of_le_of_lt first_low low)) fun _ => ?_)
      refine (takeMark "," rfl either (Nat.le_refl r₁.left)).bind fun _ r₂ r₂' near comma_low => ?_
      have comma_low : r₂.left < r.left := Nat.lt_of_lt_of_le comma_low first_low
      refine .isMark near.either (.ite (fun _ => .pure near.either (Nat.lt_trans comma_low low)) fun _ => ?_)
      refine (ih near (by omega) (by omega) (by omega)).bind fun found r₃ r₃' either low => ?_
      exact .pure either low

/-- Items each behind a mark. -/
theorem repeatMarked (mark : String) (goes : Lexeme.goesOn (.mark mark) = true)
    (each : ∀ {j r r'}, j < k → Beside K.near r r' → r.left < j → K.Agree K.either (below j) item item' s r r')
    (either : Beside K.either r r') (low : r.left < k) (enough : r.left < rounds) (more : rounds ≤ rounds') :
    K.Agree K.either (below k) (repeatWhile (Reading.eatMark mark) item rounds)
      (repeatWhile (Reading.eatMark mark) item' rounds') s r r' := by
  induction rounds generalizing rounds' r r' with
  | zero => omega
  | succ rounds ih =>
      obtain ⟨rounds', rfl⟩ := Nat.exists_eq_add_of_le' (Nat.le_trans (Nat.le_add_left 1 rounds) more)
      refine eatMark mark goes either (Nat.le_refl r.left) (fun _ r₁ r₁' near mark_low => ?_) fun _ => .pure either low
      refine (each (j := r.left) low near mark_low).bind fun first r₂ r₂' either item_low => ?_
      have item_low : r₂.left < r.left := item_low
      refine (ih either (by omega) (by omega) (by omega)).bind fun found r₃ r₃' either low => ?_
      exact .pure either low

/-- Items that a test leads to. Each of them takes something. -/
theorem repeatLed {test test' : Reading Bool} (Leads : Reader → Prop)
    (tests : ∀ {r r'}, Beside K.either r r' → K.Look (fun found => found = true → Leads r) test test' s r r')
    (each : ∀ {j r r'}, j < k → Beside K.either r r' → Leads r → r.left ≤ j →
      K.Agree K.either (below j) item item' s r r')
    (either : Beside K.either r r') (low : r.left < k) (enough : r.left < rounds) (more : rounds ≤ rounds') :
    K.Agree K.either (below k) (repeatWhile test item rounds) (repeatWhile test' item' rounds') s r r' := by
  induction rounds generalizing rounds' r r' with
  | zero => omega
  | succ rounds ih =>
      obtain ⟨rounds', rfl⟩ := Nat.exists_eq_add_of_le' (Nat.le_trans (Nat.le_add_left 1 rounds) more)
      refine (tests either).bind fun found leads => .ite (fun holds => ?_) fun _ => .pure either low
      refine (each (j := r.left) low either (leads holds) (Nat.le_refl _)).bind
        fun first r₁ r₁' either item_low => ?_
      have item_low : r₁.left < r.left := item_low
      refine (ih either (by omega) (by omega) (by omega)).bind fun found r₂ r₂' either low => ?_
      exact .pure either low

/-- Two outcomes are alike, or the first text is at its end, and what follows in the second one closes nothing. -/
def Closing (K : Lockstep) (P : Token → Prop) (k : Nat) (outcome outcome' : Option (α × Reader)) : Prop :=
  Outcomes K.either (below k) outcome outcome' ∨
    (∀ a next, outcome = some (a, next) → next.token.lexeme = .ending) ∧
      ∀ a next, outcome' = some (a, next) → P next.token

theorem repeatWhile_step {test : Reading Bool} {rounds : Nat} {found : Bool} (tests : test s r = some (found, r)) :
    repeatWhile test item (rounds + 1) s r =
      if found then (item s r).bind fun (first, next) =>
        (repeatWhile test item rounds s next).map fun (more, last) => (first :: more, last)
      else some ([], r) := by
  simp only [repeatWhile, bind_run, tests]
  cases found with
  | false => rfl
  | true =>
      simp only [if_true, bind_run]
      cases item s r with
      | none => rfl
      | some outcome =>
          obtain ⟨first, next⟩ := outcome
          simp only [Option.bind_some]
          cases repeatWhile test item rounds s next
          all_goals rfl

/-- Items up to the end of the text. -/
theorem repeatWhile_ending {test : Reading Bool} {goes : Lexeme → Bool} {rounds : Nat} {xs : List α}
    (tests : ∀ r, test s r = some (goes r.token.lexeme, r)) (ends : goes .ending = false)
    (isEnding : r.token.lexeme = .ending) (given : repeatWhile test item rounds s r = some (xs, next)) : next = r := by
  cases rounds with
  | zero => cases given
  | succ rounds =>
      rw [repeatWhile_step (tests r), isEnding, ends] at given
      exact (Prod.mk.inj (Option.some.inj given)).2.symm

/-- Items that a test leads to, up to one that is not one. At the seam, the first text ends, and nothing is closed in
the other one. -/
theorem braced {P : Token → Prop} {test : Reading Bool} {goes : Lexeme → Bool}
    (tests : ∀ s r, test s r = some (goes r.token.lexeme, r)) (ends : goes .ending = false)
    (each : ∀ {j r r'}, j < k → Beside K.near r r' → goes r.token.lexeme = true → r.left ≤ j →
      Closing K P j (item s r) (item' (s.grown K.more) r'))
    (stray : ∀ {r rounds xs next}, (∃ token, K.seam token r.token) ∨ P r.token →
      repeatWhile test item' rounds (s.grown K.more) r = some (xs, next) → P next.token)
    (either : Beside K.either r r') (low : r.left < k) (enough : r.left < rounds) (more : rounds ≤ rounds') :
    Closing K P k (repeatWhile test item rounds s r) (repeatWhile test item' rounds' (s.grown K.more) r') := by
  induction rounds generalizing rounds' r r' with
  | zero => omega
  | succ rounds ih =>
      obtain ⟨rounds', rfl⟩ := Nat.exists_eq_add_of_le' (Nat.le_trans (Nat.le_add_left 1 rounds) more)
      rcases either.cases with near | seam
      · rw [repeatWhile_step (tests s r), repeatWhile_step (tests (s.grown K.more) r'), near.lexeme]
        cases leads : goes r.token.lexeme with
        | false => exact .inl (.gives near.either low)
        | true =>
            have first := each (j := r.left) low near leads (Nat.le_refl _)
            simp only [if_true]
            generalize item s r = outcome, item' (s.grown K.more) r' = outcome' at first
            rcases first with (_ | @⟨a, next, next', either, item_low⟩) | ⟨ends_first, astray⟩
            · exact .inl .fails
            · have item_low : next.left < r.left := item_low
              have fewer : rounds ≤ rounds' := by omega
              have rest := ih either (by omega) (by omega) fewer
              simp only [Option.bind_some]
              generalize repeatWhile test item rounds s next = outcome,
                repeatWhile test item' rounds' (s.grown K.more) next' = outcome' at rest
              rcases rest with (_ | ⟨either, low⟩) | ⟨ends_rest, astray⟩
              · exact .inl .fails
              · exact .inl (.gives either low)
              · refine .inr ⟨fun xs last given => ?_, fun xs last given => ?_⟩
                · obtain ⟨⟨more, last⟩, runs, same⟩ := Option.map_eq_some_iff.mp given
                  exact (Prod.mk.inj same).2 ▸ ends_rest more last runs
                · obtain ⟨⟨more, last⟩, runs, same⟩ := Option.map_eq_some_iff.mp given
                  exact (Prod.mk.inj same).2 ▸ astray more last runs
            · refine .inr ⟨fun xs last given => ?_, fun xs last given => ?_⟩
              · obtain ⟨⟨a, next⟩, runs, given⟩ := Option.bind_eq_some_iff.mp given
                obtain ⟨⟨more, last⟩, rest, same⟩ := Option.map_eq_some_iff.mp given
                have isEnding := ends_first a next runs
                exact (Prod.mk.inj same).2 ▸ repeatWhile_ending (tests s) ends isEnding rest ▸ isEnding
              · obtain ⟨⟨a, next⟩, runs, given⟩ := Option.bind_eq_some_iff.mp given
                obtain ⟨⟨more, last⟩, rest, same⟩ := Option.map_eq_some_iff.mp given
                exact (Prod.mk.inj same).2 ▸ stray (.inr (astray a next runs)) rest
      · refine .inr ⟨fun xs next given => ?_, fun xs next given => stray (.inl ⟨_, seam.token⟩) given⟩
        exact repeatWhile_ending (tests s) ends seam.ending given ▸ seam.ending

/-- A reading that starts with a closing brace. -/
def Closes (m : Reading α) : Prop := ∀ s r, r.token.lexeme ≠ .mark "\x7d" → m s r = none

theorem closes_take : Closes (Reading.takeMark "\x7d") := fun _ _ other => by
  rw [takeMark_run, if_neg fun same => other (beq_iff_eq.mp same)]

theorem closes_bind {f : α → Reading β} (closes : Closes m) : Closes (m >>= f) := fun s r other => by
  rw [bind_run, closes s r other]

/-- What closes the items fails where the text ends. -/
theorem closing {P : Token → Prop} {items items' : Reading α} {f f' : α → Reading β}
    (closing : Closing K P k (items s r) (items' (s.grown K.more) r'))
    (ends : ∀ a next, next.token.lexeme = .ending → f a s next = none)
    (astray : ∀ a next, P next.token → f' a (s.grown K.more) next = none)
    (later : ∀ a next next', Beside K.either next next' → next.left < k → K.Agree T Q (f a) (f' a) s next next') :
    K.Agree T Q (items >>= f) (items' >>= f') s r r' := by
  rcases closing with alike | ⟨ended, strayed⟩
  · have agree : K.Agree K.either (below k) items items' s r r' := alike
    exact agree.bind later
  · have fails {items : Reading α} {f : α → Reading β} {s : Setting} {r : Reader}
        (never : ∀ a next, items s r = some (a, next) → f a s next = none) : (items >>= f) s r = none := by
      rw [bind_run]
      split
      · rename_i a next given
        exact never a next given
      · rfl
    rw [Agree, fails fun a next given => ends a next (ended a next given),
      fails fun a next given => astray a next (strayed a next given)]
    exact .fails

/-- The brace that closes the items. -/
theorem closeBrace {P : Token → Prop} {items items' : Reading α} {f f' : α → Reading β}
    (opens : ∀ t, P t → t.lexeme ≠ .mark "\x7d") (closing : Closing K P k (items s r) (items' (s.grown K.more) r'))
    (closes : ∀ a, Closes (f a)) (closes' : ∀ a, Closes (f' a))
    (later : ∀ a next next', Beside K.either next next' → next.left < k → K.Agree T Q (f a) (f' a) s next next') :
    K.Agree T Q (items >>= f) (items' >>= f') s r r' :=
  .closing closing (fun a _ ends => closes a _ _ (ends ▸ nofun)) (fun a _ astray => closes' a _ _ (opens _ astray))
    later

/-- A part in front of which nothing goes astray. -/
theorem Closing.bind {P : Token → Prop} {S : Token → Token → Prop} {R : α → Reader → Prop} {f f' : α → Reading β}
    (first : K.Agree S R m m' s r r')
    (later : ∀ a next next', Beside S next next' → R a next →
      Closing K P k (f a s next) (f' a (s.grown K.more) next')) :
    Closing K P k ((m >>= f) s r) ((m' >>= f') (s.grown K.more) r') := by
  unfold Agree at first
  rw [bind_run, bind_run]
  generalize m s r = outcome, m' (s.grown K.more) r' = outcome' at first
  cases first with
  | fails => exact .inl .fails
  | gives beside holds => exact later _ _ _ beside holds

theorem Closing.map {P : Token → Prop} {b : α → β} (closing : Closing K P k (m s r) (m' (s.grown K.more) r')) :
    Closing K P k ((m >>= fun a => Pure.pure (b a)) s r) ((m' >>= fun a => Pure.pure (b a)) (s.grown K.more) r') := by
  rw [bind_run, bind_run]
  generalize m s r = outcome, m' (s.grown K.more) r' = outcome' at closing
  rcases closing with (_ | ⟨either, low⟩) | ⟨ends, astray⟩
  · exact .inl .fails
  · exact .inl (.gives either low)
  · refine .inr ⟨fun b next given => ?_, fun b next given => ?_⟩
    · cases outcome with
      | none => cases given
      | some found => exact (Prod.mk.inj (Option.some.inj given)).2 ▸ ends found.1 found.2 rfl
    · cases outcome' with
      | none => cases given
      | some found => exact (Prod.mk.inj (Option.some.inj given)).2 ▸ astray found.1 found.2 rfl

/-- What a step finds is behind where it starts. -/
def grew (r : Reader) (found : Option β) (next : Reader) : Prop :=
  match found with
  | none => next.left ≤ r.left
  | some _ => next.left < r.left

theorem grow {step step' : α → Reading (Option α)}
    (each : ∀ {a r r'}, Beside K.either r r' → r.left < k → K.Agree K.either (grew r) (step a) (step' a) s r r')
    (either : Beside K.either r r') (low : r.left < k) (enough : r.left < rounds) (more : rounds ≤ rounds') (a : α) :
    K.Agree K.either (below k) (Reading.grow step rounds a) (Reading.grow step' rounds' a) s r r' := by
  induction rounds generalizing rounds' r r' a with
  | zero => omega
  | succ rounds ih =>
      obtain ⟨rounds', rfl⟩ := Nat.exists_eq_add_of_le' (Nat.le_trans (Nat.le_add_left 1 rounds) more)
      refine (each either low).bind fun found r₁ r₁' either grown => ?_
      cases found with
      | none => exact .pure either (Nat.lt_of_le_of_lt grown low)
      | some a =>
          have grown : r₁.left < r.left := grown
          exact ih either (by omega) (by omega) (by omega) a

end Loops

end Lockstep.Agree

end Realms.Script
