import Realms.Proofs.Script.Lockstep.Expressions

/-!
Declarations, read in step.
-/
namespace Realms.Script.Lockstep.Within

open Grammar Reading

variable {K : Lockstep} {p p' : Inner} {k c : Nat} {s : Setting} {r r' : Reader}

theorem variableItem (kind : VariableKind) (inLoop : Bool) (within : K.Within p p' k c) (either : Beside K.either r r')
    (low : r.left < k) :
    K.Agree K.either (below k) (variableItem p kind inLoop) (variableItem p' kind inLoop) s r r' := by
  unfold Grammar.variableItem
  refine (within.pattern either low).bind fun target r₁ r₁' either low => .typed ?_
  extract_lets finish rest annotate rest' annotate'
  have finished {r r' : Reader} (either : Beside K.either r r') (low : r.left < k) :
      K.Agree K.either (below k) (finish ()) (finish ()) s r r' := .pure either low
  have last {q q' : Reader} (either : Beside K.either q q') (short : q.left < k) :
      K.Agree K.either (below k) (rest ()) (rest' ()) s q q' := by
    refine .eatMark "=" rfl either (Nat.le_of_lt short) (fun _ r₁ r₁' near low => ?_) fun _ => ?_
    · exact (within.expression near.either low).bind fun _ _ _ either low => .pure either low
    refine .isWord "in" rfl either (.isWord "of" rfl either (.setting (.ite (fun _ => .flawIf either fun either => ?_)
      fun _ => finished either short)))
    split
    · exact finished either short
    · exact .flawIf either fun either => finished either short
  have annotated {r r' : Reader} (either : Beside K.either r r') (low : r.left < k) :
      K.Agree K.either (below k) (annotate ()) (annotate' ()) s r r' := by
    refine (Agree.eatsMark either low).bind fun _ r₁ r₁' either low => ?_
    exact (within.annotated either low).bind fun _ _ _ either low => last either low
  refine .ite (fun _ => .isMark either ?_) fun _ => last either low
  refine .newLineAt either (fun near => .ite (fun sure => ?_) fun _ => annotated either low) fun seam b b' => ?_
  · have goes := Lexeme.goesOn_of_isMark (Bool.and_eq_true_iff.mp sure).1 rfl
    exact (Agree.advance either goes low.le).bind fun _ _ _ near low => annotated near.either low
  · have other : (Lexeme.ending == .mark "!") = false := rfl
    simp only [seam.ending, other, Bool.false_and, Bool.false_eq_true, if_false]
    exact annotated either low

theorem variableItems (kind : VariableKind) (inLoop : Bool) (within : K.Within p p' k c) (either : Beside K.either r r')
    (low : r.left < k) :
    K.Agree K.either (below k) (variableItems p kind inLoop) (variableItems p' kind inLoop) s r r' := by
  refine (within.variableItem kind inLoop either low).bind fun first r₁ r₁' either low => ?_
  refine (Agree.repeatMarked "," rfl
    (fun lt near low => (within.mono (Nat.le_of_lt lt)).variableItem kind inLoop near.either low)
    either low (Nat.lt_trans low within.rounds) within.more).bind fun more r₂ r₂' either low => ?_
  exact .pure either low

theorem variableKind (either : Beside K.either r r') :
    K.Look (fun found => found.isSome = true → r.token.lexeme.goesOn = true) variableKind variableKind s r r' := by
  refine .of_agree either (.lexemeAt either (fun near => ?_) fun _ => .pure either.here ⟨nofun, rfl⟩)
  split
  · rename_i front
    exact .pure either.here ⟨fun _ => front ▸ rfl, rfl⟩
  · rename_i front
    exact .pure either.here ⟨fun _ => front ▸ rfl, rfl⟩
  · rename_i front
    exact .pure either.here ⟨fun _ => front ▸ rfl, rfl⟩
  · exact .pure either.here ⟨nofun, rfl⟩

theorem leadsDeclaration (either : Beside K.either r r') :
    K.Look (leading r) leadsDeclaration leadsDeclaration s r r' := by
  refine .ahead (.lexemeAt (T := K.either) either (fun near => ?_) fun _ => ?_)
  · split
    · rename_i name escaped front
      have goes : r.token.lexeme.goesOn = true := front ▸ rfl
      refine .ite (fun _ => .pure either nofun) fun _ => ?_
      refine (Agree.advance either goes (Nat.le_refl _)).bind fun _ r₁ r₁' near _ => .ite (fun _ => ?_) fun _ => ?_
      · exact ((canFollowMemberWord near).sees near.either).imp (fun _ _ => id) fun _ _ _ _ => goes
      · exact .newLine near ((canFollowMemberWord near).bind fun _ _ => .pure near.either fun _ => goes)
    · exact .pure either nofun
  · have other : declarationWords.contains "import" = false := by decide
    simp only [other]
    exact .pure either nofun

theorem declarationAhead {rounds rounds' : Nat} (near : Beside K.near r r') (enough : r.left < rounds)
    (more : rounds ≤ rounds') :
    K.Agree K.near (fun _ _ => True) (isDeclarationAhead.worker rounds) (isDeclarationAhead.worker rounds') s r r' := by
  induction rounds generalizing rounds' r r' with
  | zero => omega
  | succ rounds ih =>
      obtain ⟨rounds', rfl⟩ := Nat.exists_eq_add_of_le' (Nat.le_trans (Nat.le_add_left 1 rounds) more)
      refine .lexeme near ?_
      split
      · rename_i name escaped front
        have goes : r.token.lexeme.goesOn = true := front ▸ rfl
        refine .ite (fun _ => .pure near trivial) fun _ => ?_
        refine (Agree.advance near.either goes (Nat.le_refl _)).bind fun _ r₁ r₁' near low => ?_
        have low : r₁.left < r.left := low
        have again : K.Agree K.near (fun _ _ => True) (isDeclarationAhead.worker rounds)
            (isDeclarationAhead.worker rounds') s r₁ r₁' := ih near (by omega) (by omega)
        refine .ite (fun _ => .isBindingWord near.either (.newLine near (.pure near trivial))) fun _ => ?_
        refine .ite (fun _ => .newLine near (.ite (fun _ => .pure near trivial) fun _ => .lexeme near ?_)) fun _ => ?_
        · split
          · exact .pure near trivial
          · exact (Look.isBindingWord near.either).sees near
        refine .ite (fun _ => .isMark near.either (.isWord "export" rfl near.either (.isBindingWord near.either
          (.pure near trivial)))) fun _ => ?_
        refine .ite (fun _ => .lexeme near ?_) fun _ => ?_
        · split
          · exact .pure near trivial
          · exact .pure near trivial
          · exact (Look.isOneOf near.either).sees near
        refine .ite (fun _ => again) fun _ => .ite (fun _ => ?_) fun _ => .pure near trivial
        exact .newLine near (.ite (fun _ => .pure near trivial) fun _ => again)
      · exact .pure near trivial

theorem isDeclarationAhead (within : K.Within p p' k c) (near : Beside K.near r r') (low : r.left ≤ k) :
    K.Look (fun _ => True) (isDeclarationAhead p) (isDeclarationAhead p') s r r' :=
  (Agree.holdsAhead (declarationAhead near (Nat.lt_of_le_of_lt low within.rounds) within.more)).imp fun _ _ => trivial

theorem enumMember (within : K.Within p p' k c) (near : Beside K.near r r') (low : r.left ≤ k) :
    K.Agree K.either (below k) (enumMember p) (enumMember p') s r r' := by
  have valued {r r' : Reader} (either : Beside K.either r r') (low : r.left < k) :
      K.Agree K.either (below k)
        (do if ← Reading.eatMark "=" then let _ ← Grammar.defaultValue p)
        (do if ← Reading.eatMark "=" then let _ ← Grammar.defaultValue p') s r r' := by
    refine .eatMark "=" rfl either (Nat.le_of_lt low) (fun _ r₁ r₁' near low => ?_) fun _ => .pure either low
    exact (within.defaultValue near.either low).bind fun _ _ _ either low => .pure either low
  refine (within.key near low).bind fun key r₁ r₁' near low => ?_
  cases key with
  | number => exact .flawIf near fun near => valued near.either low
  | _ => exact valued near.either low

theorem enumDeclaration (within : K.Within p p' k c) (either : Beside K.either r r') (low : r.left ≤ k) :
    K.Agree K.either (below k) (enumDeclaration p) (enumDeclaration p') s r r' := by
  refine (Agree.takeWord "enum" rfl either low).bind fun _ r₁ r₁' near low => ?_
  refine (Agree.bindingName near.either low.le).bind fun name r₂ r₂' near low => ?_
  refine (Agree.takeMark "\x7b" rfl near.either low.le).bind fun _ r₃ r₃' near low => ?_
  refine (Agree.separated (fun le near low => (within.mono le).enumMember near (Nat.le_of_lt low)) near low
    (Nat.lt_trans low within.rounds) within.more).bind fun _ r₄ r₄' either low => ?_
  exact (Agree.closeMark either low.le).bind fun _ _ _ either low => .pure either low

theorem interfaceDeclaration (within : K.Within p p' k c) (either : Beside K.either r r') (low : r.left ≤ k) :
    K.Agree K.either (below k) (interfaceDeclaration p) (interfaceDeclaration p') s r r' := by
  refine (Agree.takeWord "interface" rfl either low).bind fun _ r₁ r₁' near low => ?_
  refine (Agree.bindingName near.either low.le).bind fun name r₂ r₂' near low => ?_
  refine (within.typeParameters near.either low).bind fun _ r₃ r₃' either low => ?_
  have members {r r' : Reader} (either : Beside K.either r r') (low : r.left < k) :
      K.Agree K.either (below k) (do Grammar.typeMembers p; return name) (do Grammar.typeMembers p'; return name) s r
        r' :=
    (within.typeMembers either (Nat.le_of_lt low)).bind fun _ _ _ either low => .pure either low
  refine .eatWord "extends" rfl either low.le (fun r₄ r₄' near low => ?_) (members either low)
  refine (within.type near.either low).bind fun _ r₅ r₅' either low => ?_
  exact (Agree.repeatMarked "," rfl (fun lt near low => (within.mono (Nat.le_of_lt lt)).type near.either low) either low
    (Nat.lt_trans low within.rounds) within.more).bind fun _ _ _ either low => members either low

theorem typeDeclaration (within : K.Within p p' k c) (either : Beside K.either r r') (low : r.left ≤ k) :
    K.Agree K.either (below k) (typeDeclaration p) (typeDeclaration p') s r r' := by
  refine (Agree.takeWord "type" rfl either low).bind fun _ r₁ r₁' near low => ?_
  refine (Agree.bindingName near.either low.le).bind fun name r₂ r₂' near low => ?_
  refine (within.typeParameters near.either low).bind fun _ r₃ r₃' either low => ?_
  refine (Agree.takeMark "=" rfl either low.le).bind fun _ r₄ r₄' near low => ?_
  refine (within.type near.either low).bind fun _ r₅ r₅' either low => ?_
  exact (Agree.endStatement either low).bind fun _ _ _ either low => .pure either low

theorem namespaceDeclaration (within : K.Within p p' k c) (near : Beside K.near r r') (low : r.left ≤ k) :
    K.Agree K.either (below k) (namespaceDeclaration p) (namespaceDeclaration p') s r r' := by
  refine (Agree.languageWord near low).bind fun _ r₁ r₁' near low => .lexeme near ?_
  split
  · rename_i front
    refine (Agree.advance near.either (front ▸ rfl) low.le).bind fun _ r₂ r₂' near low => .isMark near.either ?_
    refine .ite (fun _ => ?_) fun _ => ?_
    · exact (within.block near.either low.le).bind fun _ _ _ either low => .pure either low
    · exact (Agree.endStatement near.either low).bind fun _ _ _ either low => .pure either low
  · refine (Agree.bindingName near.either low.le).bind fun first r₂ r₂' near low => ?_
    refine (Agree.repeatMarked "." rfl
      (fun _ near low => (Agree.anyWord near (Nat.le_of_lt low)).either) near.either low
      (Nat.lt_trans low within.rounds) within.more).bind fun more r₃ r₃' either low => ?_
    exact (within.block either low.le).bind fun _ _ _ either low => .pure either low

theorem globalDeclaration (within : K.Within p p' k c) (either : Beside K.either r r') (low : r.left ≤ k) :
    K.Agree K.either (below k) (globalDeclaration p) (globalDeclaration p') s r r' := by
  refine (Agree.takeWord "global" rfl either low).bind fun _ r₁ r₁' near low => ?_
  exact (within.block near.either low.le).bind fun _ _ _ either low => .pure either low

theorem aliasTail (within : K.Within p p' k c) (either : Beside K.either r r') (low : r.left ≤ k) :
    K.Agree K.either (below k) (aliasTail p) (aliasTail p') s r r' := by
  refine (Agree.takeMark "=" rfl either low).bind fun _ r₁ r₁' near low => ?_
  refine Look.bind
    (Look.wordAhead "require" rfl (T := K.near) near.either fun _ _ near => (Look.isMark near.either).sees near)
    fun requires goes => .ite (fun holds => ?_) fun _ => ?_
  · refine (Agree.advance near.either (goes holds) low.le).bind fun _ r₂ r₂' near low => ?_
    refine (Agree.takeMark "(" rfl near.either low.le).bind fun _ r₃ r₃' near low => ?_
    refine (Agree.textLiteral near.either low.le).bind fun _ r₄ r₄' near low => ?_
    exact (Agree.takeMark ")" rfl near.either low.le).bind fun _ _ _ near low => Agree.endStatement near.either low
  · refine (Agree.anyWord near low.le).bind fun _ r₂ r₂' near low => ?_
    exact (within.dottedName near.either low).bind fun _ _ _ either low => Agree.endStatement either low

theorem declareAll (kind : VariableKind) (within : K.Within p p' k c) (near : Beside K.near r r') (low : r.left ≤ k) :
    K.Agree K.either (below k) (declaration.declareAll p kind) (declaration.declareAll p' kind) s r r' := by
  refine (Agree.languageWord near low).bind fun _ r₁ r₁' near low => ?_
  refine (within.variableItems kind false near.either low).bind fun found r₂ r₂' either low => ?_
  exact (Agree.endStatement either low).bind fun _ _ _ either low => .pure either low

theorem declaration (within : K.Within p p' k c) (either : Beside K.either r r') (low : r.left ≤ k) :
    K.Agree K.either (below k) (declaration p) (declaration p') s r r' := by
  refine .typed (.lexemeAt either (fun near => ?_) fun _ => ?_)
  · split
    · rename_i front
      have goes : r.token.lexeme.goesOn = true := front ▸ rfl
      have plain := within.declareAll .const (s := s) near low
      have enumerated : K.Agree K.either (below k) (do Reading.advance; Grammar.enumDeclaration p)
          (do Reading.advance; Grammar.enumDeclaration p') s r r' :=
        (Agree.advance either goes low).bind fun _ _ _ near low => within.enumDeclaration near.either low.le
      have look : K.Look (fun _ => True) (Reading.holdsAhead (do Reading.advance; Reading.isWord "enum"))
          (Reading.holdsAhead (do Reading.advance; Reading.isWord "enum")) s r r' :=
        (Agree.holdsAhead ((Agree.advance either goes (Nat.le_refl _)).bind fun _ _ _ near _ =>
          (Look.isWord "enum" rfl near.either).sees near)).imp fun _ _ => trivial
      exact look.bind fun _ _ => .ite (fun _ => enumerated) fun _ => plain
    · exact within.declareAll .var near low
    · exact within.declareAll .letVar near low
    · exact (within.classTail either low).bind fun _ _ _ either low => .pure either low
    · exact (within.functionDeclaration true either low).bind fun _ _ _ either low => .pure either low
    · refine (isAsyncFunctionAhead either).bind fun _ _ => (Agree.need either).bind fun _ r₁ r₁' passed ⟨_, same⟩ => ?_
      subst same
      exact (within.functionDeclaration true passed low).bind fun _ _ _ either low => .pure either low
    · refine (Agree.need near).bind fun _ r₁ r₁' passed ⟨_, same⟩ => ?_
      subst same
      split
      · exact within.enumDeclaration passed.either low
      · exact (within.interfaceDeclaration passed.either low).bind fun _ _ _ either low => .pure either low
      · exact within.typeDeclaration passed.either low
      · exact within.namespaceDeclaration passed low
      · exact within.namespaceDeclaration passed low
      · exact within.globalDeclaration passed.either low
      · exact .fail
    · exact .fail
  · cases types : s.types
    all_goals exact .fails

theorem wordedDeclaration (within : K.Within p p' k c) (either : Beside K.either r r') (low : r.left ≤ k) :
    K.Agree K.either (below k) (wordedDeclaration p) (wordedDeclaration p') s r r' := by
  have rest (words : List String) {r r' : Reader} (either : Beside K.either r r') (low : r.left ≤ k) :
      K.Agree K.either (below k)
        (do
          let ambient := words.contains "declare"
          let isClass ← Reading.isWord "class"
          Reading.flawIf (words.any fun word => word != "declare" && !(isClass && word == "abstract"))
          Reading.flawIf (words.eraseDups.length < words.length)
          let found ← Reading.under (fun s => { s with ambient := s.ambient || ambient }) (Grammar.declaration p)
          return (ambient, found))
        (do
          let ambient := words.contains "declare"
          let isClass ← Reading.isWord "class"
          Reading.flawIf (words.any fun word => word != "declare" && !(isClass && word == "abstract"))
          Reading.flawIf (words.eraseDups.length < words.length)
          let found ← Reading.under (fun s => { s with ambient := s.ambient || ambient }) (Grammar.declaration p')
          return (ambient, found)) s r r' := by
    refine .isWord "class" rfl either (.flawIf either fun either => .flawIf either fun either => ?_)
    exact (Agree.under (by rfl) (within.declaration either low)).bind fun _ _ _ either low => .pure either low
  refine .typed (.ite (fun _ => ?_) fun _ => rest [] either low)
  exact (within.wordsLedHere leadsDeclaration either low).bind
    fun words _ _ either le => rest words either (Nat.le_trans le low)

end Realms.Script.Lockstep.Within

/-!
Imports and exports, read in step.
-/
namespace Realms.Script.Lockstep

open Grammar Reading

variable {β : Type} {K : Lockstep} {p p' : Inner} {k c : Nat} {s : Setting} {r r' : Reader}

namespace Agree

variable {T S : Token → Token → Prop} {Q : β → Reader → Prop} {f f' : Unit → Reading β}

theorem noteExport {name : String} (beside : Beside S r r')
    (later : ∀ {next next'}, Beside S next next' → next.left = r.left → K.Agree T Q (f ()) (f' ()) s next next') :
    K.Agree T Q (Reading.noteExport name >>= f) (Reading.noteExport name >>= f') s r r' :=
  changed (fun r => { r with
    exported := name :: r.exported
    flawed := r.flawed || (!s.types && r.exported.contains name) }) beside rfl rfl (fun _ => rfl) (fun _ _ => rfl)
    fun beside => later beside rfl

theorem noteExports (names : List String) (noted : List Unit) (beside : Beside S r r') (low : r.left < k) :
    K.Agree S (below k) (List.mapM.loop Reading.noteExport names noted) (List.mapM.loop Reading.noteExport names noted)
      s
      r r' := by
  induction names generalizing r r' noted with
  | nil => exact .pure beside low
  | cons name names ih => exact .noteExport beside fun beside same => ih _ beside (same ▸ low)

end Agree

namespace Within

section Names

theorem isOuterNameAhead (near : Beside K.near r r') :
    K.Look (fun _ => True) isOuterNameAhead isOuterNameAhead s r r' := by
  refine .of_agree near (.lexeme near ?_)
  split
  all_goals exact .pure near.here ⟨trivial, rfl⟩

theorem outerName (near : Beside K.near r r') (low : r.left ≤ k) :
    K.Agree K.near (below k) outerName outerName s r r' := by
  refine .lexeme near ?_
  split
  · rename_i front
    exact (Agree.skipName near (front ▸ rfl) low).bind fun _ _ _ near low => .pure near low
  · rename_i front
    refine .flawIf near fun near => ?_
    exact (Agree.advance near.either (front ▸ rfl) low).bind fun _ _ _ near low => .pure near low
  · exact .fail

theorem outerName_unread {s : Setting} {r : Reader} (unread : r.token.lexeme.isRead = false) :
    Grammar.outerName s r = none := by
  unfold Grammar.outerName
  rw [bind_run, lexeme_run]
  dsimp only
  cases front : r.token.lexeme with
  | ending => rfl
  | malformed => rfl
  | _ =>
      rw [front] at unread
      cases unread

theorem renamed (typeOnly : Bool) (first : OuterName) (near : Beside K.near r r') (low : r.left < k) :
    K.Agree K.near (below k) (renamed typeOnly first) (renamed typeOnly first) s r r' := by
  refine .eatWord "as" rfl near.either (Nat.le_of_lt low) (fun r₁ r₁' near low => ?_) (.pure near low)
  exact (outerName near (Nat.le_of_lt low)).bind fun _ _ _ near low => .pure near low

theorem typePair (first : OuterName) (near : Beside K.near r r') (low : r.left < k) :
    K.Agree K.near (below k) (typePair first) (typePair first) s r r' := by
  have named {pair : OuterName → NamePair} {r r' : Reader} (near : Beside K.near r r') (low : r.left < k) :
      K.Agree K.near (below k) (do return pair (← Grammar.outerName)) (do return pair (← Grammar.outerName)) s r r' :=
    (outerName near (Nat.le_of_lt low)).bind fun _ _ _ near low => .pure near low
  refine .eatWord "as" rfl near.either (Nat.le_of_lt low) (fun r₁ r₁' near low => ?_) ?_
  · refine .eatWord "as" rfl near.either (Nat.le_of_lt low) (fun r₂ r₂' near low => ?_) ?_
    · exact (isOuterNameAhead near).bind fun _ _ => .ite (fun _ => named near low) fun _ => .pure near low
    · exact (isOuterNameAhead near).bind fun _ _ => .ite (fun _ => named near low) fun _ => .pure near low
  · refine (isOuterNameAhead near).bind fun _ _ => .ite (fun _ => ?_) fun _ => .pure near low
    exact (outerName near (Nat.le_of_lt low)).bind fun _ _ _ near low => renamed true _ near low

theorem namePair (near : Beside K.near r r') (low : r.left ≤ k) :
    K.Agree K.near (below k) namePair namePair s r r' := by
  refine (outerName near low).bind fun first r₁ r₁' near low => .typed ?_
  exact .ite (fun _ => typePair first near low) fun _ => renamed false first near low

end Names

section Imports

theorem importAttribute (near : Beside K.near r r') (low : r.left < k) :
    K.Agree K.either (below k)
      (do
        let key ← match ← Reading.lexeme with
          | .text _ _ => Reading.textLiteral
          | _ => Reading.anyWord
        Reading.takeMark ":"
        let _ ← Reading.textLiteral
        return key)
      (do
        let key ← match ← Reading.lexeme with
          | .text _ _ => Reading.textLiteral
          | _ => Reading.anyWord
        Reading.takeMark ":"
        let _ ← Reading.textLiteral
        return key) s r r' := by
  have valued {key : String} {r r' : Reader} (near : Beside K.near r r') (low : r.left < k) :
      K.Agree K.either (below k) (do Reading.takeMark ":"; let _ ← Reading.textLiteral; return key)
        (do Reading.takeMark ":"; let _ ← Reading.textLiteral; return key) s r r' := by
    refine (Agree.takeMark ":" rfl near.either (Nat.le_of_lt low)).bind fun _ r₁ r₁' near low => ?_
    exact (Agree.textLiteral near.either low.le).bind fun _ _ _ near low => .pure near.either low
  refine .lexeme near ?_
  split
  · exact (Agree.textLiteral near.either (Nat.le_of_lt low)).bind fun _ _ _ near low => valued near low
  · exact (Agree.anyWord near (Nat.le_of_lt low)).bind fun _ _ _ near low => valued near low

theorem importAttributes (within : K.Within p p' k c) (near : Beside K.near r r') (low : r.left < k) :
    K.Agree K.either (below k) (importAttributes p) (importAttributes p') s r r' := by
  refine .isWord "with" rfl near.either
    (.isWord "assert" rfl near.either (.newLine near (.ite (fun word => ?_) fun _ => .pure near.either low)))
  have goes : r.token.lexeme.goesOn = true := by
    rcases Bool.or_eq_true_iff.mp word with isWith | isAssert
    · exact Lexeme.goesOn_of_isWord isWith
    · exact Lexeme.goesOn_of_isWord (Bool.and_eq_true_iff.mp isAssert).1
  refine (Agree.advance near.either goes (Nat.le_of_lt low)).bind fun _ r₁ r₁' near low => ?_
  refine (Agree.takeMark "\x7b" rfl near.either low.le).bind fun _ r₂ r₂' near low => ?_
  refine (Agree.separated (fun _ near low => importAttribute near low) near low (Nat.lt_trans low within.rounds)
    within.more).bind fun (keys, _) r₃ r₃' either low => ?_
  exact (Agree.closeMark either low.le).bind fun _ _ _ either low => Agree.flaws either low

theorem importName (typeOnly : Bool) (near : Beside K.near r r') (low : r.left ≤ k) :
    K.Agree K.either (below k) (importName typeOnly) (importName typeOnly) s r r' := by
  refine (namePair near low).bind fun pair r₁ r₁' near low => .flawIf near fun near => ?_
  refine (Agree.need near).bind fun _ r₂ r₂' passed ⟨_, same⟩ => ?_
  exact (Agree.checkName passed (same ▸ low)).bind fun _ _ _ near low => .pure near.either low

theorem importedNames (typeOnly : Bool) (within : K.Within p p' k c) (either : Beside K.either r r')
    (low : r.left < k) :
    K.Agree K.either (below k)
      (do
        if ← Reading.eatMark "*" then
          Reading.takeWord "as"
          return (some (← Reading.bindingName), none)
        else
          Reading.takeMark "\x7b"
          let (names, _) ← Reading.separated "\x7d" (Grammar.importName typeOnly) p.rounds
          Reading.takeMark "\x7d"
          return (none, some names))
      (do
        if ← Reading.eatMark "*" then
          Reading.takeWord "as"
          return (some (← Reading.bindingName), none)
        else
          Reading.takeMark "\x7b"
          let (names, _) ← Reading.separated "\x7d" (Grammar.importName typeOnly) p'.rounds
          Reading.takeMark "\x7d"
          return (none, some names)) s r r' := by
  refine .eatMark "*" rfl either (Nat.le_of_lt low) (fun _ r₁ r₁' near low => ?_) fun _ => ?_
  · refine (Agree.takeWord "as" rfl near.either (Nat.le_of_lt low)).bind fun _ r₂ r₂' near low => ?_
    exact (Agree.bindingName near.either low.le).bind fun _ _ _ near low => .pure near.either low
  · refine (Agree.takeMark "\x7b" rfl either (Nat.le_of_lt low)).bind fun _ r₁ r₁' near low => ?_
    refine (Agree.separated (fun _ near low => importName typeOnly near (Nat.le_of_lt low)) near low
      (Nat.lt_trans low within.rounds) within.more).bind fun (names, _) r₂ r₂' either low => ?_
    exact (Agree.closeMark either low.le).bind fun _ _ _ either low => .pure either low

theorem importClause (typeOnly : Bool) (defaultName : Option String) (within : K.Within p p' k c)
    (either : Beside K.either r r') (low : r.left < k) :
    K.Agree K.either (below k) (importClause p typeOnly defaultName) (importClause p' typeOnly defaultName) s r r' := by
  cases defaultName with
  | none => exact within.importedNames typeOnly either low
  | some name =>
      exact .eatMark "," rfl either (Nat.le_of_lt low)
        (fun _ _ _ near low => within.importedNames typeOnly near.either low) fun _ => .pure either low

theorem importedModule (within : K.Within p p' k c) (either : Beside K.either r r') (low : r.left ≤ k) :
    K.Agree K.either (below k) (importedModule p) (importedModule p') s r r' := by
  refine (Agree.textLiteral either low).bind fun specifier r₁ r₁' near low => ?_
  refine (within.importAttributes near low).bind fun _ r₂ r₂' either low => ?_
  exact (Agree.endStatement either low).bind fun _ _ _ either low => .pure either low

/-- What is looked for behind a token, whichever it is. -/
theorem behindAny (near : Beside K.near r r') :
    K.Look (fun _ => True)
      (Reading.holdsAhead (do Reading.advance; return (← Reading.isWord "from") || (← Reading.isMark "=")))
      (Reading.holdsAhead (do Reading.advance; return (← Reading.isWord "from") || (← Reading.isMark "="))) s r r' := by
  cases isRead : r.token.lexeme.isRead with
  | true =>
      refine (Agree.holdsAhead (T := K.either) (P := fun _ _ => True) ?_).imp fun _ _ => trivial
      refine (Agree.advanceOver near.either isRead (Nat.le_refl _)).bind fun _ r₁ r₁' either _ => ?_
      exact .isWord "from" rfl either (.isMark either (.pure either trivial))
  | false =>
      obtain ⟨here, there⟩ := K.stops near.token isRead
      have ends {s : Setting} {r : Reader} (rest : r.token.rest = []) :
          Reading.holdsAhead (do Reading.advance; return (← Reading.isWord "from") || (← Reading.isMark "=")) s r =
            some (false, r) := by
        have ending : (nextToken []).lexeme = .ending := rfl
        simp [Reading.advance, Reader.next, rest, ending, Lexeme.isWord]
      exact ⟨some false, fun _ _ => trivial, ends here, ends there⟩

theorem isTypeImport (near : Beside K.near r r') : K.Look (fun _ => True) isTypeImport isTypeImport s r r' := by
  refine .of_agree near (.isWord "from" rfl near.either ((behindAny near).bind fun _ _ => ?_))
  exact .isBindingWord near.either (.isOneOf near.either (.pure near.here ⟨trivial, rfl⟩))

theorem isSourceImport (near : Beside K.near r r') :
    K.Look (fun _ => True) isSourceImport isSourceImport s r r' := by
  refine .of_agree near (.isWord "from" rfl near.either (.ite (fun isFrom => ?_) fun _ => ?_))
  · have inner : K.Agree K.near (fun _ _ => True) (do Reading.advance; Reading.isWord "from")
        (do Reading.advance; Reading.isWord "from") s r r' :=
      (Agree.advance near.either (Lexeme.goesOn_of_isWord isFrom) (Nat.le_refl _)).bind
        fun _ _ _ near _ => (Look.isWord "from" rfl near.either).sees near
    exact ((Agree.holdsAhead inner).imp fun _ _ => trivial).agree near.here
  · exact ((Look.isBindingWord near.either).imp fun _ _ => trivial).agree near.here

theorem optionalBindingNameNear (near : Beside K.near r r') (low : r.left < k) :
    K.Agree K.near (below k) Reading.optionalBindingName Reading.optionalBindingName s r r' := by
  refine .isBindingWord near.either (.ite (fun _ => ?_) fun _ => .pure near low)
  exact (Agree.bindingName near.either (Nat.le_of_lt low)).bind fun _ _ _ near low => .pure near low

theorem imported (start : Nat) (typeOnly : Bool) (defaultName : Option String) (within : K.Within p p' k c)
    (either : Beside K.either r r') (low : r.left < k) :
    K.Agree K.either (below k) (importTail.imported p start typeOnly defaultName)
      (importTail.imported p' start typeOnly defaultName) s r r' := by
  refine (within.importClause typeOnly defaultName either low).bind fun (wholeName, names) r₁ r₁' either low => ?_
  refine (Agree.takeWord "from" rfl either low.le).bind fun _ r₂ r₂' near low => ?_
  exact (within.importedModule near.either low.le).bind fun _ _ _ either low => .pure either low

theorem importNamed (start : Nat) (typeOnly : Bool) (defaultName : Option String) (within : K.Within p p' k c)
    (either : Beside K.either r r') (low : r.left < k) :
    K.Agree K.either (below k)
      (match defaultName with
        | some name => do
          if (← Reading.isMark ",") || (← Reading.isWord "from") then
            Grammar.importTail.imported p start typeOnly defaultName
          else
            Reading.need (← Reading.typed)
            Grammar.aliasTail p
            return .declared (if typeOnly then .type name else .aliasOf name)
        | none => Grammar.importTail.imported p start typeOnly none)
      (match defaultName with
        | some name => do
          if (← Reading.isMark ",") || (← Reading.isWord "from") then
            Grammar.importTail.imported p' start typeOnly defaultName
          else
            Reading.need (← Reading.typed)
            Grammar.aliasTail p'
            return .declared (if typeOnly then .type name else .aliasOf name)
        | none => Grammar.importTail.imported p' start typeOnly none) s r r' := by
  cases defaultName with
  | none => exact within.imported start typeOnly none either low
  | some name =>
      refine .isMark either
        (.isWord "from" rfl either (.ite (fun _ => within.imported _ _ _ either low) fun _ => .typed ?_))
      refine (Agree.need either).bind fun _ r₁ r₁' passed ⟨_, same⟩ => ?_
      exact (within.aliasTail passed (same ▸ Nat.le_of_lt low)).bind fun _ _ _ either low => .pure either low

theorem importTail (start : Nat) (within : K.Within p p' k c) (near : Beside K.near r r') (low : r.left < k) :
    K.Agree K.either (below k) (importTail p start) (importTail p' start) s r r' := by
  refine .lexeme near ?_
  split
  · exact (within.importedModule near.either (Nat.le_of_lt low)).bind fun _ _ _ either low => .pure either low
  refine (optionalBindingNameNear near low).bind fun word r₁ r₁' near low => .typed ?_
  extract_lets rest rest'
  have behindType (typeOnly : Bool) : K.Agree K.either (below k) (rest typeOnly) (rest' typeOnly) s r₁ r₁' := by
    refine .ite (fun _ => (isSourceImport near).bind fun isSource _ => ?_) fun _ => ?_
    all_goals refine .ite (fun _ => .isMark near.either ?_) fun _ => ?_
    all_goals exact .ite (fun _ => (optionalBindingNameNear near low).bind
      fun name _ _ near low => within.importNamed start typeOnly name near.either low) fun _ =>
        within.importNamed start typeOnly word near.either low
  exact .ite (fun _ => (isTypeImport near).bind fun typeOnly _ => behindType typeOnly) fun _ => behindType false

theorem importStatement (within : K.Within p p' k c) (near : Beside K.near r r') (isRead : r.token.lexeme.isRead = true)
    (low : r.left ≤ k) : K.Agree K.either (below k) (importStatement p) (importStatement p') s r r' :=
  .place near isRead ((Agree.takeImport near low).bind fun _ _ _ near low => within.importTail _ near low)

end Imports

section Exports

theorem exportName (typeOnly : Bool) (near : Beside K.near r r') (low : r.left ≤ k) :
    K.Agree K.near (below k) (exportName typeOnly) (exportName typeOnly) s r r' := by
  refine placed near (fun unread _ _ => ?_) fun start => ?_
  · have unread' : r'.token.lexeme.isRead = false := near.lexeme ▸ unread
    constructor
    · simp [Grammar.namePair, outerName_unread unread]
    · simp [Grammar.namePair, outerName_unread unread']
  · refine (namePair near low).bind fun pair r₁ r₁' near low => .flawIf near fun near => ?_
    exact .noteExport near fun near same => .pure near (Nat.lt_of_le_of_lt (Nat.le_of_eq same) low)

theorem exportItem (typeOnly : Bool) (near : Beside K.near r r') (low : r.left < k) :
    K.Agree K.either (below k)
      (do
        let isText ← (do
          match ← Reading.lexeme with
          | .text _ _ => return true
          | _ => return false)
        return (isText, ← Grammar.exportName typeOnly))
      (do
        let isText ← (do
          match ← Reading.lexeme with
          | .text _ _ => return true
          | _ => return false)
        return (isText, ← Grammar.exportName typeOnly)) s r r' := by
  have named (isText : Bool) : K.Agree K.either (below k) (do return (isText, ← Grammar.exportName typeOnly))
      (do return (isText, ← Grammar.exportName typeOnly)) s r r' :=
    (exportName typeOnly near (Nat.le_of_lt low)).bind fun _ _ _ near low => .pure near.either low
  have looks : K.Look (fun _ => True)
      (do
        match ← Reading.lexeme with
        | .text _ _ => return true
        | _ => return false : Reading Bool)
      (do
        match ← Reading.lexeme with
        | .text _ _ => return true
        | _ => return false : Reading Bool) s r r' := by
    refine .of_agree near (.lexeme near ?_)
    split
    all_goals exact .pure near.here ⟨trivial, rfl⟩
  exact looks.bind fun isText _ => named isText

theorem exportNames (start : Nat) (typeOnly : Bool) (within : K.Within p p' k c) (either : Beside K.either r r')
    (low : r.left ≤ k) :
    K.Agree K.either (below k) (exportNames p start typeOnly) (exportNames p' start typeOnly) s r r' := by
  refine (Agree.takeMark "\x7b" rfl either low).bind fun _ r₁ r₁' near low => ?_
  refine (Agree.separated (fun _ near low => exportItem typeOnly near low) near low (Nat.lt_trans low within.rounds)
    within.more).bind fun (names, _) r₂ r₂' either low => ?_
  refine (Agree.closeMark either low.le).bind fun _ r₃ r₃' either low => ?_
  refine .eatWord "from" rfl either low.le (fun r₄ r₄' near low => ?_) (.flawIf either fun either => ?_)
  · exact (within.importedModule near.either (Nat.le_of_lt low)).bind fun _ _ _ either low => .pure either low
  · exact (Agree.endStatement either low).bind fun _ _ _ either low => .pure either low

theorem exportAllAs (start : Nat) (typeOnly : Bool) (exported : Option String) (within : K.Within p p' k c)
    (either : Beside K.either r r') (low : r.left < k) :
    K.Agree K.either (below k)
      (do
        Reading.takeWord "from"
        match exported with
        | some name => Reading.noteExport name
        | none => Pure.pure ()
        return Stmt.exportAll ⟨start, typeOnly, exported, ← Grammar.importedModule p⟩)
      (do
        Reading.takeWord "from"
        match exported with
        | some name => Reading.noteExport name
        | none => Pure.pure ()
        return Stmt.exportAll ⟨start, typeOnly, exported, ← Grammar.importedModule p'⟩) s r r' := by
  refine (Agree.takeWord "from" rfl either (Nat.le_of_lt low)).bind fun _ r₁ r₁' near low => ?_
  have last {r r' : Reader} (near : Beside K.near r r') (low : r.left < k) :
      K.Agree K.either (below k) (do return Stmt.exportAll ⟨start, typeOnly, exported, ← Grammar.importedModule p⟩)
        (do return Stmt.exportAll ⟨start, typeOnly, exported, ← Grammar.importedModule p'⟩) s r r' :=
    (within.importedModule near.either (Nat.le_of_lt low)).bind fun _ _ _ either low => .pure either low
  cases exported with
  | none => exact last near low
  | some name => exact .noteExport near fun near same => last near (same ▸ low)

theorem exportAll (start : Nat) (typeOnly : Bool) (within : K.Within p p' k c) (either : Beside K.either r r')
    (low : r.left ≤ k) :
    K.Agree K.either (below k) (exportAll p start typeOnly) (exportAll p' start typeOnly) s r r' := by
  refine (Agree.takeMark "*" rfl either low).bind fun _ r₁ r₁' near low => ?_
  refine .eatWord "as" rfl near.either low.le (fun r₂ r₂' near low => ?_) ?_
  · exact (outerName near (Nat.le_of_lt low)).bind
      fun name _ _ near low => within.exportAllAs start typeOnly (some name.name) near.either low
  · exact within.exportAllAs start typeOnly none near.either low

theorem exportDeclared (start : Nat) (within : K.Within p p' k c) (either : Beside K.either r r') (low : r.left ≤ k) :
    K.Agree K.either (below k) (exportDeclared p start) (exportDeclared p' start) s r r' := by
  refine (within.wordedDeclaration either low).bind fun (ambient, found) r₁ r₁' either low => ?_
  exact (Agree.noteExports found.valueNames [] either low).bind fun _ _ _ either low => .pure either low

theorem exportDefault (start : Nat) (within : K.Within p p' k c) (either : Beside K.either r r') (low : r.left ≤ k) :
    K.Agree K.either (below k) (exportDefault p start) (exportDefault p' start) s r r' := by
  refine (Agree.takeWord "default" rfl either low).bind fun _ r₁ r₁' near low => ?_
  refine .noteExport near fun {r₂ r₂'} near same => .typed ?_
  have low₂ : r₂.left < k := same ▸ low
  refine (within.decorators near.either low₂).bind fun decorated r₃ r₃' either low => ?_
  refine Look.bind
    (Look.wordAhead "abstract" rfl (T := K.near) either fun _ _ near => .isWord "class" rfl near.either
      (.newLine near (.pure near trivial))) fun isAbstract goes => ?_
  refine Look.bind
    (Look.wordAhead "interface" rfl (T := K.near) either fun _ _ near => .isBindingWord near.either
      (.newLine near (.pure near trivial))) fun isInterface _ => ?_
  extract_lets rest rest'
  have last {r r' : Reader} (either : Beside K.either r r') (low : r.left < k) :
      K.Agree K.either (below k) (rest ()) (rest' ()) s r r' := by
    refine .isWord "class" rfl either
      (.ite (fun _ => ?_) fun _ => .ite (fun _ => ?_) fun _ => .isWord "function" rfl either ?_)
    · exact (within.classTail either (Nat.le_of_lt low)).bind fun _ _ _ either low => .pure either low
    · exact (within.interfaceDeclaration either (Nat.le_of_lt low)).bind fun _ _ _ either low => .pure either low
    · refine (isAsyncFunctionAhead either).bind fun _ _ => .ite (fun _ => ?_) fun _ => ?_
      · exact (within.functionDeclaration false either (Nat.le_of_lt low)).bind fun _ _ _ either low => .pure either low
      · refine (within.expression either low).bind fun value r₁ r₁' either low => ?_
        exact (Agree.endStatement either low).bind fun _ _ _ either low => .pure either low
  refine .ite (fun holds => ?_) fun _ => last either low
  exact (Agree.advance either (goes holds) low.le).bind fun _ _ _ near low => last near.either low

theorem exportTyped (start : Nat) (within : K.Within p p' k c) (near : Beside K.near r r') (low : r.left ≤ k) :
    K.Agree K.either (Agree.moved r) (exportTyped p start) (exportTyped p' start) s r r' := by
  have within := within.mono low
  have ended (value : Stmt) {r₁ r₁' : Reader} (either : Beside K.either r₁ r₁') (low : r₁.left < r.left) :
      K.Agree K.either (Agree.moved r) (do Reading.endStatement; return some value)
        (do Reading.endStatement; return some value) s r₁ r₁' :=
    (Agree.endStatement either low).bind fun _ _ _ either low => .pure either low
  refine .typed (.ite (fun _ => .pure near.either rfl) fun _ => ?_)
  refine .eatMark "=" rfl near.either (Nat.le_refl _) (fun _ r₁ r₁' near low => ?_) fun _ => ?_
  · exact (within.sequence near.either low).bind fun _ _ _ either low => ended .other either low
  refine (wordsAhead "as" "namespace" rfl rfl near.either).bind
    fun isNamespace leads => .ite (fun holds => ?_) fun _ => ?_
  · refine (Agree.advanceTo near.either (leads holds).1 (Nat.le_refl _)).bind fun _ r₁ r₁' near ⟨same, low⟩ => ?_
    subst same
    refine (Agree.advance near.either (leads holds).2 (Nat.le_of_lt low)).bind fun _ r₂ r₂' near low => ?_
    exact (Agree.bindingName near.either low.le).bind fun _ _ _ near low => ended .other near.either low
  refine .isImport near (.ite (fun isImport => ?_) fun _ => ?_)
  · refine (Agree.advance near.either (Lexeme.goesOn_of_isWord isImport) (Nat.le_refl _)).bind
      fun _ r₁ r₁' near low => ?_
    refine (within.importTail start near low).bind fun found r₂ r₂' either low => ?_
    cases found with
    | declared => exact .pure either low
    | _ => exact .fail
  refine Look.bind
    (Look.wordAhead "type" rfl (T := K.near) near.either fun _ _ near => (Look.isMark near.either).sees near)
    fun isNames goes => .ite (fun holds => ?_) fun _ => ?_
  · refine (Agree.advance near.either (goes holds) (Nat.le_refl _)).bind fun _ r₁ r₁' near low => ?_
    exact (within.exportNames start true near.either low.le).bind fun _ _ _ either low => .pure either low
  refine Look.bind
    (Look.wordAhead "type" rfl (T := K.near) near.either fun _ _ near => (Look.isMark near.either).sees near)
    fun isAll goes => .ite (fun holds => ?_) fun _ => .pure near.either rfl
  refine (Agree.advance near.either (goes holds) (Nat.le_refl _)).bind fun _ r₁ r₁' near low => ?_
  exact (within.exportAll start true near.either low.le).bind fun _ _ _ either low => .pure either low

theorem exportStatement (decorated : Bool) (within : K.Within p p' k c) (near : Beside K.near r r')
    (isRead : r.token.lexeme.isRead = true) (low : r.left ≤ k) :
    K.Agree K.either (below k) (exportStatement p decorated) (exportStatement p' decorated) s r r' := by
  refine .place near isRead ((Agree.takeWord "export" rfl near.either low).bind fun _ r₁ r₁' near low => ?_)
  refine (within.exportTyped _ near (Nat.le_of_lt low)).bind fun found r₂ r₂' either moved => ?_
  cases found with
  | some found =>
      have low : r₂.left < k := Nat.lt_trans moved low
      exact .flawIf either fun either => .pure either low
  | none =>
      have moved : r₂ = r₁ := moved
      have low : r₂.left < k := moved ▸ low
      refine .isMark either (.ite (fun _ => within.exportAll _ false either (Nat.le_of_lt low)) fun _ => ?_)
      refine .isMark either (.ite (fun _ => within.exportNames _ false either (Nat.le_of_lt low)) fun _ => ?_)
      refine .isWord "default" rfl either (.ite (fun isDefault => ?_) fun _ => ?_)
      · have inner : K.Agree K.near (fun _ _ => True) (do Reading.advance; Reading.isMark "@")
            (do Reading.advance; Reading.isMark "@") s r₂ r₂' :=
          (Agree.advance either (Lexeme.goesOn_of_isWord isDefault) (Nat.le_refl _)).bind
            fun _ _ _ near _ => (Look.isMark near.either).sees near
        refine (Agree.holdsAhead inner).bind fun _ _ => .flawIf either fun either => ?_
        exact within.exportDefault _ either (Nat.le_of_lt low)
      · refine (within.decorators either low).bind fun inner r₃ r₃' either low => .flawIf either fun either => ?_
        have led : K.Agree K.either (fun _ _ => True)
            (do
              let _ ← repeatWhile Grammar.leadsDeclaration Reading.advance p.rounds
              Reading.isWord "class")
            (do
              let _ ← repeatWhile Grammar.leadsDeclaration Reading.advance p'.rounds
              Reading.isWord "class") s
            { r₃ with flawed := r₃.flawed || (decorated && inner) }
            { r₃' with flawed := r₃'.flawed || (decorated && inner) } :=
          (Agree.repeatLed _ leadsDeclaration (fun _ either goes low => (Agree.advance either goes low).either) either
            low (Nat.lt_trans low within.rounds) within.more).bind
              fun _ _ _ either _ => (Look.isWord "class" rfl either).sees either
        refine (Agree.holdsAhead led).bind fun _ _ => .flawIf either fun either => ?_
        exact within.exportDeclared _ either (Nat.le_of_lt low)

end Exports

end Within

end Realms.Script.Lockstep
