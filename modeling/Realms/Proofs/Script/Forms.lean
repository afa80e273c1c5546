import Mathlib.Data.List.Forall2
import Realms.Proofs.Script.Values

/-!
The forms of values in generated code, one lemma for each: names, texts, members, calls and objects.
-/
namespace Realms.Script

open Grammar Reading
open Realms.Text (isIdentifierName isIdentifierStart)

/-- A name that is no word of the language. -/
structure IsOrdinary (name : String) : Prop where
  identifier : isIdentifierName name.toList = true
  ordinary : name ∉ languageWords

instance (name : String) : Decidable (IsOrdinary name) :=
  decidable_of_iff (isIdentifierName name.toList = true ∧ name ∉ languageWords)
    ⟨fun ⟨identifier, ordinary⟩ => ⟨identifier, ordinary⟩, fun ⟨identifier, ordinary⟩ => ⟨identifier, ordinary⟩⟩

variable {p : Inner} {n : Nat} {s : Setting} {r : Reader} {text rest : List Char} {e : Expr} {name : String}

theorem IsOrdinary.not_word (ordinary : IsOrdinary name) (word : String) (member : word ∈ languageWords) :
    name ≠ word := by
  rintro rfl
  exact ordinary.ordinary member

theorem IsOrdinary.not_reserved (ordinary : IsOrdinary name) : name ∉ reservedWords := by
  have within : ∀ word ∈ reservedWords, word ∈ languageWords := by decide
  exact fun member => ordinary.ordinary (within name member)

theorem name_front (identifier : isIdentifierName name.toList = true) :
    ∃ c more, name.toList = c :: more ∧ isIdentifierStart c = true := by
  cases spelled : name.toList with
  | nil => simp [isIdentifierName, spelled] at identifier
  | cons c more =>
      rw [spelled, isIdentifierName, Bool.and_eq_true] at identifier
      exact ⟨c, more, rfl, identifier.1⟩

theorem onLine_name (identifier : isIdentifierName name.toList = true) (rest : List Char) :
    OnLine (name.toList ++ rest) := by
  obtain ⟨c, more, spelled, start⟩ := name_front identifier
  rw [spelled]
  exact onLine_opens (opensLexeme_of_start start) _

theorem bindingName_run (starts : Starts text (.word name false) rest) (notReserved : name ∉ reservedWords)
    (notAwait : name ≠ "await") (notYield : name ≠ "yield") :
    bindingName s (r.goTo text) = some (name, r.goTo rest) := by
  have binds : Lexeme.isBindingWord (.word name false) = true := by simpa [Lexeme.isBindingWord] using notReserved
  have awaits : (name == "await") = false := beq_eq_false_iff_ne.mpr notAwait
  have yields : (name == "yield") = false := beq_eq_false_iff_ne.mpr notYield
  simp [bindingName, starts.lexeme_goTo, binds, starts.anyWord, checkName, awaits, yields]

theorem wordValue_ordinary (ordinary : IsOrdinary name) (starts : Starts text (.word name false) rest) :
    wordValue p name s (r.goTo text) = some (.name name, r.goTo rest) := by
  have notAsync : Lexeme.isWord (.word name false) "async" = false :=
    beq_eq_false_iff_ne.mpr (ordinary.not_word _ (by decide))
  have binds : bindingName s (r.goTo text) = some (name, r.goTo rest) :=
    bindingName_run starts ordinary.not_reserved (ordinary.not_word _ (by decide)) (ordinary.not_word _ (by decide))
  unfold wordValue
  split
  iterate 9 exact absurd rfl (ordinary.not_word _ (by decide))
  simp [isAsyncFunctionAhead, starts.lexeme_goTo, notAsync, binds]

theorem writes_name (ordinary : IsOrdinary name) : Writes name.toList (.name name) where
  front skips ends := by
    have starts := (starts_name ordinary.identifier ends).after skips
    have notAsync := ordinary.not_word "async" (by decide)
    refine ⟨_, _, starts, ?_, fun isAsync => absurd (beq_iff_eq.mp isAsync) notAsync⟩
    simp [Lexeme.opensValue, ordinary.ordinary]
  onLine := onLine_name ordinary.identifier
  chain {n s r space rest} skips ends _ _ := by
    have starts := (starts_name ordinary.identifier ends).after skips
    have value : primary ⟨n, readAt n⟩ s (r.goTo (space ++ (name.toList ++ rest))) = some (.name name, r.goTo rest) := by
      simp [primary, starts.lexeme_goTo, wordValue_ordinary ordinary starts]
    exact ⟨n, Nat.le_add_right n _, by rw [bind_run, value]⟩

theorem primary_text {value : String} (starts : Starts text (.text value true) rest) :
    primary p s (r.goTo text) = some (.text value, r.goTo rest) := by
  simp [primary, starts.lexeme_goTo, starts.advance]

theorem writes_text {written : List Char} {value : String} (quotes : Quotes written value) :
    Writes ('"' :: written ++ ['"']) (.text value) := by
  have starts (rest : List Char) : Starts ('"' :: written ++ ['"'] ++ rest) (.text value true) rest := by
    rw [List.append_assoc]
    exact starts_text quotes rest
  refine ⟨fun skips _ => ⟨_, _, (starts _).after skips, rfl, nofun⟩, fun rest => onLine_opens rfl _, ?_⟩
  intro n s r space rest skips _ _ _
  exact ⟨n, Nat.le_add_right n _, by rw [bind_run, primary_text ((starts rest).after skips)]⟩

/-- One more step of a chain: what stands behind a value is read with it. -/
theorem Writes.step (writes : Writes text e) {more : List Char} {grown : Expr} (some : more ≠ [])
    (goesOn : ∀ rest, endsName (more ++ rest) = true)
    (steps : ∀ {n : Nat} {s : Setting} {r : Reader} {rest : List Char}, endsName rest = true → s.ambient = false →
      4 * (text.length + more.length) ≤ n →
      chainStep ⟨n, readAt n⟩ true ⟨e, false⟩ s (r.goTo (more ++ rest)) = .some (.some ⟨grown, false⟩, r.goTo rest)) :
    Writes (text ++ more) grown where
  front skips ends := by
    rw [List.append_assoc]
    exact writes.front skips (goesOn _)
  onLine rest := by
    rw [List.append_assoc]
    exact writes.onLine _
  chain {n s r space rest} skips ends real deep := by
    rw [List.length_append] at deep
    have longer : 0 < more.length := List.length_pos_iff.mpr some
    obtain ⟨left, rounds, chain⟩ := writes.chain (r := r) skips (goesOn rest) real (show 4 * text.length ≤ n by omega)
    obtain ⟨left, rfl⟩ := Nat.exists_eq_add_of_le' (show 1 ≤ left by omega)
    refine ⟨left, by rw [List.length_append]; omega, ?_⟩
    rw [List.append_assoc, chain]
    simp [chainFrom, grow, steps ends real deep]

theorem chainStep_member {middle : List Char} {calls : Bool} (point : Starts text (.mark ".") middle)
    (word : Starts middle (.word name false) rest) :
    chainStep p calls ⟨e, false⟩ s (r.goTo text) = some (some ⟨.member e name, false⟩, r.goTo rest) := by
  simp [chainStep, point.lexeme_goTo, point.advance, memberName, word.lexeme_goTo, word.anyWord, Chain.grown]

theorem writes_member (writes : Writes text e) (identifier : isIdentifierName name.toList = true) :
    Writes (text ++ '.' :: name.toList) (.member e name) := by
  refine writes.step (List.cons_ne_nil _ _) (fun rest => rfl) ?_
  intro n s r rest ends _ _
  obtain ⟨c, more, spelled, start⟩ := name_front identifier
  have point : Starts ('.' :: name.toList ++ rest) (.mark ".") (name.toList ++ rest) := by
    rw [spelled]
    exact starts_point start _
  exact chainStep_member point (starts_name identifier ends)

theorem length_le_separated (between : List Char) {texts : List (List Char)} (member : text ∈ texts) :
    text.length ≤ (Print.separated between texts).length := by
  induction texts with
  | nil => cases member
  | cons first more ih =>
      cases more with
      | nil =>
          obtain rfl := List.mem_singleton.mp member
          exact Nat.le_refl _
      | cons next more =>
          simp only [Print.separated, List.length_append]
          rcases List.mem_cons.mp member with rfl | later
          · omega
          · have := ih later
            omega

theorem count_le_separated (c : Char) (gap : List Char) (texts : List (List Char)) :
    texts.length ≤ (Print.separated (c :: gap) texts).length + 1 := by
  induction texts with
  | nil => exact Nat.zero_le _
  | cons first more ih =>
      cases more with
      | nil => exact Nat.le_add_left 1 _
      | cons next more =>
          simp only [Print.separated, List.length_append, List.length_cons] at ih ⊢
          omega

/-- Values behind one another, as arguments of a call. -/
def arguments (texts : List (List Char)) : List Char := '(' :: Print.separated [',', ' '] texts ++ [')']

theorem spreadable_run (writes : Writes text e) (real : s.ambient = false) (deep : 4 * text.length + 4 ≤ n) :
    Item (spreadable ⟨n, readAt n⟩) ')' s text e := by
  constructor
  · intro space rest skips ends
    obtain ⟨lexeme, behind, starts, opens, _⟩ := writes.front skips ends
    exact ⟨lexeme, behind, starts, Lexeme.opensValue_not_mark opens _ (by decide)⟩
  · intro r space rest skips closes
    obtain ⟨lexeme, behind, starts, opens, _⟩ := writes.front skips closes.endsName
    have notDots := starts.eatMark_other (s := s) (r := r) (Lexeme.opensValue_not_mark opens "..." (by decide))
    simp [spreadable, notDots, writes.read skips closes real deep]

theorem callArguments_run {items : List (List Char × Expr)} (nonempty : items ≠ [])
    (each : ∀ found ∈ items, Writes found.1 found.2) (real : s.ambient = false)
    (deep : 4 * (arguments (items.map Prod.fst)).length ≤ n) (rest : List Char) :
    callArguments ⟨n, readAt n⟩ s (r.goTo (arguments (items.map Prod.fst) ++ rest)) =
      some (items.map Prod.snd, r.goTo rest) := by
  obtain ⟨inner, spelled⟩ : ∃ inner, inner = Print.separated [',', ' '] (items.map Prod.fst) := ⟨_, rfl⟩
  have whole : arguments (items.map Prod.fst) ++ rest = '(' :: (inner ++ ')' :: rest) := by
    simp [arguments, spelled]
  have size : (arguments (items.map Prod.fst)).length = inner.length + 2 := by simp [arguments, spelled]
  have opening : Starts ('(' :: (inner ++ ')' :: rest)) (.mark "(") (inner ++ ')' :: rest) := starts_mark (by decide) _
  have closing : Starts (')' :: rest) (.mark ")") rest := starts_mark (by decide) rest
  have count : items.length ≤ n := by
    have := count_le_separated ',' [' '] (items.map Prod.fst)
    rw [List.length_map, ← spelled] at this
    omega
  have list : separated ")" (spreadable ⟨n, readAt n⟩) n { s with inOperator := true, decorator := false }
      (r.goTo (inner ++ ')' :: rest)) = some ((items.map Prod.snd, false), r.goTo (')' :: rest)) := by
    rw [spelled]
    refine separated_run (.inl rfl) Space.nil .blank .nil (fun found member => ?_) nonempty count rest
    have within := length_le_separated [',', ' '] (List.mem_map_of_mem (f := Prod.fst) member)
    rw [← spelled] at within
    exact spreadable_run (each found member) real (by omega)
  rw [whole]
  simp [callArguments, opening.takeMark, enclosed, list, closing.takeMark]

theorem writes_call {texts : List (List Char)} {values : List Expr} (writes : Writes text e) (nonempty : texts ≠ [])
    (each : List.Forall₂ Writes texts values) : Writes (text ++ arguments texts) (.call e values) := by
  obtain ⟨items, rfl, rfl, written⟩ : ∃ items : List (List Char × Expr), items.map Prod.fst = texts ∧
      items.map Prod.snd = values ∧ ∀ found ∈ items, Writes found.1 found.2 := by
    refine ⟨texts.zip values, List.map_fst_zip (Nat.le_of_eq each.length_eq),
      List.map_snd_zip (Nat.le_of_eq each.length_eq.symm), ?_⟩
    rintro ⟨text, value⟩ member
    exact (List.forall₂_iff_zip.mp each).2 member
  refine writes.step (List.cons_ne_nil _ _) (fun rest => rfl) ?_
  intro n s r rest ends real deep
  have opening : Starts (arguments (items.map Prod.fst) ++ rest) (.mark "(") _ := starts_mark (by decide) _
  have read := callArguments_run (n := n) (r := r) (List.map_eq_nil_iff.not.mp nonempty) written real (by omega) rest
  simp [chainStep, opening.lexeme_goTo, read, Chain.grown]

/-- A member of an object: a name, its value and how that is written. -/
structure Property where
  key : String
  text : List Char
  value : Expr

namespace Property

def written (property : Property) : List Char := property.key.toList ++ ':' :: ' ' :: property.text

def member (property : Property) : Member := .entry (.name property.key) property.value

/-- The value is read as it is written, and the name is an ordinary one. -/
structure Reads (property : Property) : Prop where
  key : IsOrdinary property.key
  value : Writes property.text property.value

end Property

variable {property : Property} {properties : List Property} {gap last : List Char}

theorem key_word (starts : Starts text (.word name false) rest) :
    key p s (r.goTo text) = some (.name name, r.goTo rest) := by
  simp [key, starts.lexeme_goTo, starts.anyWord]

theorem accessorAhead_other (ordinary : IsOrdinary name) (starts : Starts text (.word name false) rest) :
    accessorAhead s (r.goTo text) = some (none, r.goTo text) := by
  have other (word : String) (member : word ∈ languageWords) : takeWord word s (r.goTo text) = none := by
    refine takeWord_other ?_
    rw [starts.lexeme_goTo]
    exact beq_eq_false_iff_ne.mpr (ordinary.not_word word member)
  simp [accessorAhead, other "get" (by decide), other "set" (by decide)]

theorem objectMember_run (reads : property.Reads) (real : s.ambient = false) (deep : 4 * property.text.length + 4 ≤ n) :
    Item (objectMember ⟨n, readAt n⟩) '\x7d' s property.written property.member := by
  have spread (space rest : List Char) : space ++ (property.written ++ rest) =
      space ++ (property.key.toList ++ ':' :: ([' '] ++ (property.text ++ rest))) := by
    simp [Property.written]
  constructor
  · intro space rest skips _
    rw [spread]
    exact ⟨_, _, (starts_name reads.key.identifier rfl).after skips, nofun⟩
  · intro r space rest skips closes
    rw [spread]
    have ends : endsName (':' :: ([' '] ++ (property.text ++ rest))) = true := rfl
    have word := (starts_name reads.key.identifier ends).after skips
    have colon : Starts (':' :: ([' '] ++ (property.text ++ rest))) (.mark ":") _ := starts_mark (by decide) _
    have value := reads.value.read (n := n) (r := r) Space.blank closes real deep
    generalize space ++ (property.key.toList ++ ':' :: ([' '] ++ (property.text ++ rest))) = text at word ⊢
    generalize ':' :: ([' '] ++ (property.text ++ rest)) = behind at word colon
    generalize [' '] ++ (property.text ++ rest) = inner at colon value
    have notAsync : takeWord "async" s (r.goTo text) = none := by
      refine takeWord_other ?_
      rw [word.lexeme_goTo]
      exact beq_eq_false_iff_ne.mpr (reads.key.not_word _ (by decide))
    have notCall : (Lexeme.mark ":").isOneOf ["(", "<"] = false := rfl
    have keyed : objectKeyed ⟨n, readAt n⟩ false s (r.goTo text) = some (property.member, r.goTo rest) := by
      simp [objectKeyed, word.eatMark_other, place, key_word word, colon.lexeme_goTo, notCall, colon.takeMark, value,
        Property.member]
    simp [objectMember, word.eatMark_other, accessorAhead_other reads.key word, notAsync, keyed]

/-- An object, with one layout in front of its members and one behind the last of them. -/
def objectText (gap last : List Char) (properties : List Property) : List Char :=
  '\x7b' :: gap ++ Print.separated (',' :: gap) (properties.map Property.written) ++ last ++ ['\x7d']

theorem objectLiteral_run (gaps : IsLayout gap) (ends : IsLayout last) (nonempty : properties ≠ [])
    (each : ∀ property ∈ properties, property.Reads) (real : s.ambient = false)
    (opening : Starts text (.mark "\x7b") (gap ++ (Print.separated (',' :: gap) (properties.map Property.written) ++
      (last ++ '\x7d' :: rest)))) (deep : 4 * (objectText gap last properties).length ≤ n) :
    objectLiteral ⟨n, readAt n⟩ s (r.goTo text) =
      some (.object (properties.map Property.member) false, r.goTo rest) := by
  have closing : Starts (last ++ '\x7d' :: rest) (.mark "\x7d") rest := (starts_mark (by decide) rest).after ends.space
  have size : (objectText gap last properties).length =
      gap.length + (Print.separated (',' :: gap) (properties.map Property.written)).length + last.length + 2 := by
    simp only [objectText, List.length_append, List.length_cons, List.length_nil]
    omega
  have count : (properties.map fun property => (property.written, property.member)).length ≤ n := by
    have := count_le_separated ',' gap (properties.map Property.written)
    rw [List.length_map] at this ⊢
    omega
  have items : ∀ found ∈ properties.map fun property => (property.written, property.member),
      Item (objectMember ⟨n, readAt n⟩) '\x7d' { s with inOperator := true, decorator := false } found.1 found.2 := by
    intro found member
    obtain ⟨property, listed, rfl⟩ := List.mem_map.mp member
    have within := length_le_separated (',' :: gap) (List.mem_map_of_mem (f := Property.written) listed)
    have smaller : property.text.length + 2 ≤ property.written.length := by
      simp only [Property.written, List.length_append, List.length_cons]
      omega
    exact objectMember_run (each property listed) real (by omega)
  have list := separated_run (r := r) (.inr rfl) gaps.space gaps ends items (by simpa using nonempty) count rest
  have close : String.singleton '\x7d' = "\x7d" := rfl
  simp only [List.map_map, Function.comp_def, close] at list
  simp [objectLiteral, opening.takeMark, enclosed, list, closing.takeMark]

theorem primary_object (starts : Starts text (.mark "\x7b") rest) :
    primary p s (r.goTo text) = objectLiteral p s (r.goTo text) := by
  simp [primary, starts.lexeme_goTo]

theorem writes_object (gaps : IsLayout gap) (ends : IsLayout last) (nonempty : properties ≠ [])
    (each : ∀ property ∈ properties, property.Reads) :
    Writes (objectText gap last properties) (.object (properties.map Property.member) false) := by
  have starts (rest : List Char) : Starts (objectText gap last properties ++ rest) (.mark "\x7b")
      (gap ++ (Print.separated (',' :: gap) (properties.map Property.written) ++ (last ++ '\x7d' :: rest))) := by
    have spread : objectText gap last properties ++ rest =
        '\x7b' :: (gap ++ (Print.separated (',' :: gap) (properties.map Property.written) ++
          (last ++ '\x7d' :: rest))) := by
      simp [objectText]
    rw [spread]
    exact starts_mark (by decide) _
  refine ⟨fun skips _ => ⟨_, _, (starts _).after skips, rfl, nofun⟩, fun rest => onLine_opens rfl _, ?_⟩
  intro n s r space rest skips _ real deep
  have opening := (starts rest).after skips
  refine ⟨n, Nat.le_add_right n _, ?_⟩
  rw [bind_run, primary_object opening, objectLiteral_run gaps ends nonempty each real opening deep]

end Realms.Script
