import Realms.Proofs.Script.Gives

/-!
What declarations bind. No pattern, function or class binds a reserved word; and where no types are written, a
declaration is one of values, each function has a body, and nothing is imported or exported as a type.
-/
namespace Realms.Script

open Grammar Reading

variable {p : Inner} {n : Nat} {s : Setting} {start : Nat}

/-- Names that can be bound. -/
def Bindable (names : List String) : Prop := ∀ name ∈ names, name ∉ reservedWords

namespace Bindable

variable {name : String} {names more : List String}

theorem nil : Bindable [] := nofun

theorem one (free : name ∉ reservedWords) : Bindable [name] := List.forall_mem_singleton.mpr free

theorem append (front : Bindable names) (back : Bindable more) : Bindable (names ++ more) :=
  List.forall_mem_append.mpr ⟨front, back⟩

end Bindable

theorem bindingName_gives : bindingName.Gives s (· ∉ reservedWords) := by
  intro r name next read
  cases front : r.token.lexeme with
  | word word escaped =>
      by_cases reserved : word ∈ reservedWords
      · simp [bindingName, front, Lexeme.isBindingWord, reserved] at read
      · simp [bindingName, front, Lexeme.isBindingWord, reserved, anyWord, skipName, checkName, flawIf] at read
        obtain ⟨rfl, _⟩ := read
        exact reserved
  | _ => simp [bindingName, front, Lexeme.isBindingWord] at read

theorem optionalBindingName_gives : optionalBindingName.Gives s fun name => Bindable name.toList := by
  unfold optionalBindingName
  refine .after fun isName => ?_
  split
  · exact .bind bindingName_gives fun name free => .pure (.one free)
  · exact .pure .nil

/-- A key that may also name a binding is no reserved word. -/
theorem key_gives (r : Reader) : (key p).GivesAt s r fun found =>
    ∀ name, found = .name name → r.token.lexeme.isBindingWord = true → name ∉ reservedWords := by
  rintro found next read name rfl binds
  cases front : r.token.lexeme with
  | word word escaped =>
      simp [key, front, anyWord, skipName] at read
      obtain ⟨rfl, _⟩ := read
      simpa [front, Lexeme.isBindingWord] using binds
  | _ =>
      rw [front] at binds
      cases binds

/-- Whether the patterns that are read one level further in bind no reserved word. -/
def Inner.Binds (p : Inner) : Prop := ∀ s, (p.read .pattern).Gives s fun found => Bindable (Pattern.names found)

section Patterns

variable (patterns : p.Binds)

include patterns

theorem patternWithDefault_gives : (patternWithDefault p).Gives s fun found => Bindable found.names := by
  unfold patternWithDefault
  refine .bind (patterns s) fun target names => .after fun hasDefault => ?_
  cases hasDefault with
  | true => exact .after fun _ => .pure names
  | false => exact .pure names

theorem arrayPattern_gives (rounds : Nat) :
    (arrayPattern p rounds).Gives s fun found => Bindable (itemPatternNames found) := by
  induction rounds with
  | zero => exact .fail
  | succ rounds ih =>
      unfold arrayPattern
      refine .after fun closes => ?_
      split
      · exact .pure .nil
      · refine .after fun isHole => ?_
        split
        · exact .bind ih fun more names => .pure names
        · refine .after fun isRest => ?_
          split
          · exact .bind (patterns s) fun target names => .after fun _ => .pure (names.append .nil)
          · refine .bind (patternWithDefault_gives patterns) fun first names => .after fun closes => ?_
            split
            · exact .pure (names.append .nil)
            · exact .after fun _ => .bind ih fun more others => .pure (names.append others)

theorem patternMember_gives : (patternMember p).Gives s fun found => Bindable found.names := by
  intro r
  unfold patternMember
  refine .isBindingWord (GivesAt.bind (key_gives r) fun key free => ?_)
  extract_lets last
  have keyed : (last ()).Gives s fun found => Bindable found.names :=
    .after fun _ => .bind (patternWithDefault_gives patterns) fun target names => .pure names
  split
  · refine .after fun isKeyed => ?_
    split
    · rename_i named
      have name := free _ rfl (Bool.and_eq_true_iff.mp named).1
      refine .after fun _ => .after fun hasDefault => ?_
      split
      · exact .after fun _ => .pure (.one name)
      · exact .pure (.one name)
    · exact keyed
  · exact keyed

theorem objectPattern_gives (rounds : Nat) :
    (objectPattern p rounds).Gives s fun found => Bindable (memberPatternNames found) := by
  induction rounds with
  | zero => exact .fail
  | succ rounds ih =>
      unfold objectPattern
      refine .after fun closes => ?_
      split
      · exact .pure .nil
      · refine .after fun isRest => ?_
        split
        · refine .bind (patterns s) fun target names => ?_
          have whole : Bindable (memberPatternNames [.rest target]) := names.append .nil
          extract_lets last
          have rest : (last ()).Gives s fun found => Bindable (memberPatternNames found) := .after fun _ => .pure whole
          split
          · exact rest
          · exact .after fun _ => rest
        · refine .bind (patternMember_gives patterns) fun first names => .after fun closes => ?_
          split
          · exact .pure (names.append .nil)
          · exact .after fun _ => .bind ih fun more others => .pure (names.append others)

theorem bindingPattern_gives : (bindingPattern p).Gives s fun found => Bindable found.names := by
  unfold bindingPattern
  refine .after fun isArray => ?_
  split
  · exact .bind (arrayPattern_gives patterns _) fun items names => .pure names
  · refine .after fun isObject => ?_
    split
    · exact .bind (objectPattern_gives patterns _) fun members names => .pure names
    · exact .bind bindingName_gives fun name free => .pure (.one free)

end Patterns

theorem readAt_binds (n : Nat) : (Inner.mk n (readAt n)).Binds := by
  induction n with
  | zero => exact fun s => .fail
  | succ n ih => exact fun s => bindingPattern_gives ih

theorem variableItem_gives (patterns : p.Binds)
    (kind : VariableKind) (inLoop : Bool) :
    (variableItem p kind inLoop).Gives s fun found => Bindable found.names := by
  unfold variableItem
  refine .bind (patterns s) fun target names => ?_
  have given (value : Option Expr) : (pure (.mk target value) : Reading Variable).Gives s fun found =>
      Bindable found.names := .pure names
  repeat' with_reducible first
    | exact given _
    | refine .after fun _ => ?_
    | split

theorem under_gives {α : Type} {change : Setting → Setting} {m : Reading α} {P : α → Prop}
    (gives : m.Gives (change s) P) : (under change m).Gives s P := gives

theorem functionTail_gives (isAsync isGenerator ofConstructor : Bool) (name : Option String) :
    (functionTail p isAsync isGenerator ofConstructor name).Gives s fun found =>
      found.name = name ∧ (s.types = false → found.hasBody = true) := by
  unfold functionTail
  refine under_gives (.after fun _ => .after fun _ => .after fun _ => .after fun hasBody => ?_)
  split
  · exact .after fun _ => .after fun _ => .after fun _ => .pure ⟨rfl, fun _ => rfl⟩
  · refine fun r => .typed ?_
    exact Gives.bind (need_gives _) (fun _ types => .pure ⟨rfl, fun plain => nomatch types.symm.trans plain⟩) r

theorem functionDeclaration_gives (needsName : Bool) : (functionDeclaration p needsName).Gives s fun found =>
    Bindable found.name.toList ∧ (s.types = false → found.hasBody = true) := by
  unfold functionDeclaration
  refine .after fun isAsync => .after fun _ => .after fun isGenerator => ?_
  refine .bind optionalBindingName_gives fun name free => .after fun _ => ?_
  refine .bind (functionTail_gives isAsync isGenerator false name) fun found holds => ?_
  obtain ⟨rfl, bodies⟩ := holds
  split
  · exact .after fun _ => .pure ⟨free, bodies⟩
  · exact .pure ⟨free, bodies⟩

theorem classTail_gives : (classTail p).Gives s fun name => Bindable name.toList := by
  unfold classTail
  refine .after fun _ => .after fun isNameless => ?_
  extract_lets rest
  have named (name : Option String) (free : Bindable name.toList) : (rest name).Gives s fun name =>
      Bindable name.toList := .after fun _ => .after fun _ => .after fun _ => .pure free
  split
  · exact named none .nil
  · exact .bind optionalBindingName_gives named

/-- What a declaration of a plain script declares. -/
def Declaration.Plain : Declaration → Prop
  | .bindings _ _ | .classOf _ => True
  | .function value => value.hasBody = true
  | _ => False

theorem variableItems_gives (patterns : p.Binds)
    (kind : VariableKind) (inLoop : Bool) :
    (variableItems p kind inLoop).Gives s fun found => Bindable found.valueNames ∧ found.Plain := by
  have item := variableItem_gives (s := s) patterns kind inLoop
  refine .bind item fun first names => .bind (repeatWhile_gives item p.rounds) fun more others => .pure ⟨?_, trivial⟩
  intro name listed
  obtain ⟨found, member, bound⟩ := List.mem_flatMap.mp listed
  rcases List.mem_cons.mp member with rfl | member
  · exact names name bound
  · exact others found member name bound

theorem nestedNamespace_valueNames (first : String) (more : List String) (body : List Stmt) :
    (nestedNamespace first more body).valueNames = [] := by
  cases more
  all_goals rfl

theorem enumDeclaration_gives : (enumDeclaration p).Gives s (·.valueNames = []) :=
  .after fun _ => .after fun _ => .after fun _ => .after fun _ => .after fun _ => .pure rfl

theorem typeDeclaration_gives : (typeDeclaration p).Gives s (·.valueNames = []) :=
  .after fun _ => .after fun _ => .after fun _ => .after fun _ => .after fun _ => .after fun _ => .pure rfl

theorem namespaceDeclaration_gives : (namespaceDeclaration p).Gives s (·.valueNames = []) := by
  unfold namespaceDeclaration
  refine .after fun _ => .after fun lexeme => ?_
  split
  · refine .after fun _ => .after fun hasBody => ?_
    split
    · exact .after fun _ => .pure rfl
    · exact .after fun _ => .pure rfl
  · exact .after fun first => .after fun more => .after fun body => .pure (nestedNamespace_valueNames first more body)

theorem globalDeclaration_gives : (globalDeclaration p).Gives s (·.valueNames = []) :=
  .after fun _ => .after fun _ => .pure rfl

/-- Only types leave room for a declaration that binds no values of a plain script. -/
theorem declaration_gives (patterns : p.Binds) :
    (declaration p).Gives s fun found => Bindable found.valueNames ∧ (s.types = false → found.Plain) := by
  have all (kind : VariableKind) : (declaration.declareAll p kind).Gives s fun found =>
      Bindable found.valueNames ∧ (s.types = false → found.Plain) :=
    .after fun _ => .bind (variableItems_gives patterns kind false) fun found holds =>
      .after fun _ => .pure ⟨holds.1, fun _ => holds.2⟩
  have function : (do return .function (← functionDeclaration p true) : Reading Declaration).Gives s fun found =>
      Bindable found.valueNames ∧ (s.types = false → found.Plain) :=
    .bind (functionDeclaration_gives true) fun found holds => .pure holds
  have unlisted {m : Reading Declaration} (types : s.types = true) (none : m.Gives s (·.valueNames = [])) :
      m.Gives s fun found => Bindable found.valueNames ∧ (s.types = false → found.Plain) :=
    none.imp fun found same => ⟨same ▸ .nil, fun plain => nomatch types.symm.trans plain⟩
  intro r
  unfold declaration
  refine .typed (.behind lexeme_looks fun lexeme => ?_)
  split
  · refine Gives.after (fun isEnum => ?_) r
    split
    · rename_i types
      exact .after fun _ => unlisted (Bool.and_eq_true_iff.mp types).1 enumDeclaration_gives
    · exact all .const
  · exact all .var r
  · exact all .letVar r
  · exact Gives.bind classTail_gives (fun name free => .pure ⟨free, fun _ => trivial⟩) r
  · exact function r
  · exact Gives.after (fun _ => .after fun _ => function) r
  · refine Gives.bind (need_gives _) (fun _ types => unlisted types ?_) r
    split
    · exact enumDeclaration_gives
    · exact .after fun _ => .pure rfl
    · exact typeDeclaration_gives
    · exact namespaceDeclaration_gives
    · exact namespaceDeclaration_gives
    · exact globalDeclaration_gives
    · exact .fail
  · exact Gives.fail r


theorem wordedDeclaration_gives (patterns : p.Binds) :
    (wordedDeclaration p).Gives s fun found =>
      Bindable found.2.valueNames ∧ (s.types = false → found.1 = false ∧ found.2.Plain) := by
  refine fun r => .typed ?_
  extract_lets rest
  have behind (words : List String) (none : s.types = false → words = []) : (rest words).Gives s fun found =>
      Bindable found.2.valueNames ∧ (s.types = false → found.1 = false ∧ found.2.Plain) := by
    refine .after fun _ => .after fun _ => .after fun _ => ?_
    refine .bind (under_gives (declaration_gives patterns)) fun found holds => .pure ⟨holds.1, fun plain => ?_⟩
    exact ⟨by rw [none plain]; rfl, holds.2 plain⟩
  split
  · rename_i types
    exact Gives.after (fun words => behind words fun plain => nomatch types.symm.trans plain) r
  · exact behind [] (fun _ => rfl) r

/-- What a statement of a plain script is: no types stand in it, and nothing is only described. -/
def Stmt.Plain : Stmt → Prop
  | .declared value => value.Plain
  | .described _ => False
  | .importFrom found => found.typeOnly = false ∧ ∀ name ∈ found.names.getD [], name.typeOnly = false
  | .exportDeclared _ ambient value => ambient = false ∧ value.Plain
  | .exportDefault _ runs _ => runs = true
  | _ => True

/-- What the grammar says of a statement, with or without types. -/
structure Stmt.Sound (types : Bool) (stmt : Stmt) : Prop where
  bindable : ∀ start ambient value, stmt = .exportDeclared start ambient value → Bindable value.valueNames
  plain : types = false → stmt.Plain

namespace Stmt.Sound

variable {types : Bool} {stmt : Stmt}

theorem unexported (plain : types = false → stmt.Plain)
    (other : ∀ start ambient value, stmt ≠ .exportDeclared start ambient value) : stmt.Sound types :=
  ⟨fun start ambient value same => absurd same (other start ambient value), plain⟩

theorem free (plain : stmt.Plain) (other : ∀ start ambient value, stmt ≠ .exportDeclared start ambient value) :
    stmt.Sound types := unexported (fun _ => plain) other

end Stmt.Sound

theorem namePair_gives : namePair.Gives s fun pair => pair.typeOnly = true → s.types = true := by
  have plain (first : OuterName) : (renamed false first).Gives s fun pair => pair.typeOnly = true → s.types = true := by
    unfold renamed
    refine .after fun isRenamed => ?_
    split
    · exact .after fun _ => .pure nofun
    · exact .pure nofun
  refine .after fun first r => .typed ?_
  split
  · rename_i types
    refine Gives.always (fun _ _ => ?_) r
    exact (Bool.and_eq_true_iff.mp (Bool.and_eq_true_iff.mp types).1).1
  · exact plain first r

theorem importName_gives (typeOnly : Bool) :
    (importName typeOnly).Gives s fun name => name.typeOnly = true → s.types = true := by
  unfold importName
  exact .bind namePair_gives fun pair types => .after fun _ => .after fun _ => .after fun _ => .pure types

theorem importClause_gives (typeOnly : Bool) (defaultName : Option String) :
    (importClause p typeOnly defaultName).Gives s fun found =>
      ∀ name ∈ found.2.getD [], name.typeOnly = true → s.types = true := by
  unfold importClause
  refine .branch fun more => ?_
  beta_reduce
  split
  · exact .pure nofun
  · refine .after fun isWhole => ?_
    split
    · exact .after fun _ => .after fun _ => .pure nofun
    · refine .after fun _ => .bind (separated_gives (importName_gives typeOnly) p.rounds) fun found each => ?_
      exact .after fun _ => .pure each

theorem imported_sound (typeOnly : Bool) (defaultName : Option String) (types : typeOnly = true → s.types = true) :
    (importTail.imported p start typeOnly defaultName).Gives s (Stmt.Sound s.types) := by
  unfold importTail.imported
  refine .bind (importClause_gives typeOnly defaultName) fun found each => .after fun _ => .after fun _ => ?_
  have never {holds : Bool} (needs : holds = true → s.types = true) (plain : s.types = false) : holds = false :=
    Bool.eq_false_iff.mpr fun holds => nomatch plain.symm.trans (needs holds)
  exact .pure (.unexported (fun plain => ⟨never types plain, fun name member => never (each name member) plain⟩) nofun)

theorem importTail_sound : (importTail p start).Gives s (Stmt.Sound s.types) :=
  ImportForms.importTail_gives {
    bare := fun _ => .free ⟨rfl, nofun⟩ nofun
    imported := imported_sound
    renamed := fun types _ _ => .unexported (fun plain => nomatch types.symm.trans plain) nofun }

theorem holdsAhead_gives {m : Reading Bool} {P : Bool → Prop} (gives : m.Gives s P) (none : P false) :
    (holdsAhead m).Gives s P := by
  intro r found next read
  rw [holdsAhead_run] at read
  split at read
  · rename_i reads
    obtain ⟨rfl, _⟩ := Prod.mk.inj (Option.some.inj read)
    exact gives r _ _ reads
  · obtain ⟨rfl, _⟩ := Prod.mk.inj (Option.some.inj read)
    exact none

/-- Where no types are written, what is exported by default runs. -/
theorem exportDefault_sound : (exportDefault p start).Gives s (Stmt.Sound s.types) := by
  have runs (runs : Bool) (name : Option String) (plain : s.types = false → runs = true) :
      Stmt.Sound s.types (.exportDefault start runs name) := .unexported plain nofun
  refine .after fun _ => .after fun _ r => .typed ?_
  refine Gives.after (fun decorated => .after fun isAbstract => ?_) r
  refine .bind (P := (· = true → s.types = true)) (holdsAhead_gives ?_ nofun) fun isInterface types => ?_
  · refine .after fun _ => .after fun isName => .after fun newLine => .pure fun holds => ?_
    exact (Bool.and_eq_true_iff.mp (Bool.and_eq_true_iff.mp holds).1).1
  · extract_lets rest
    have behind : (rest ()).Gives s (Stmt.Sound s.types) := by
      refine .after fun isClass => ?_
      split
      · exact .after fun name => .pure (runs true name fun _ => rfl)
      · split
        · rename_i interface
          exact .after fun name => .pure (runs false name fun plain => nomatch plain.symm.trans (types interface))
        · refine .after fun isFunction => .after fun isAsync => ?_
          split
          · exact .bind (functionDeclaration_gives false) fun value holds => .pure (runs _ _ holds.2)
          · exact .after fun value => .after fun _ => .pure (.free trivial nofun)
    split
    · exact .after fun _ => behind
    · exact behind

theorem exportDeclared_sound (patterns : p.Binds) :
    (exportDeclared p start).Gives s (Stmt.Sound s.types) := by
  unfold exportDeclared
  refine .bind (wordedDeclaration_gives patterns) fun found holds => .after fun _ => .pure ⟨?_, holds.2⟩
  rintro start ambient value same
  obtain ⟨-, -, rfl⟩ := Stmt.exportDeclared.inj same
  exact holds.1

/-- Another name for something is not listed. -/
theorem importTail_valueNames : (importTail p start).Gives s fun stmt =>
    ∀ found, stmt = .declared found → found.valueNames = [] :=
  ImportForms.importTail_gives {
    bare := nofun
    imported := fun _ _ _ => .after fun _ => .after fun _ => .after fun _ => .pure nofun
    renamed := by
      rintro types typeOnly name _ ⟨⟩
      cases typeOnly
      all_goals rfl }

theorem exportForms_sound (patterns : p.Binds) :
    ExportForms p s (Stmt.Sound s.types) start where
  other := .free trivial nofun
  names := exportNames_always fun _ => .free trivial nofun
  all := fun typeOnly => exportAll_always typeOnly fun _ _ => .free trivial nofun
  default := exportDefault_sound
  declared := exportDeclared_sound patterns
  renamed := fun types => importTail_valueNames.imp fun stmt none found same => by
    refine ⟨?_, fun plain => nomatch types.symm.trans plain⟩
    rintro _ _ value ⟨⟩
    exact none found same ▸ .nil

theorem forms_sound (patterns : p.Binds) (r : Reader) :
    Forms p s r (Stmt.Sound s.types) where
  other := .free trivial nofun
  empty := .free trivial nofun
  result := fun _ => .free trivial nofun
  bindings := fun kind => (variableItems_gives patterns kind false).imp fun _ holds => .free holds.2 nofun
  classOf := fun _ => .free trivial nofun
  function := (functionDeclaration_gives true).imp fun _ holds => .unexported holds.2 nofun
  value := expressionStatement_gives (.free trivial nofun) (fun _ => .free trivial nofun) r
  typed := fun types => by
    have typed {stmt : Stmt} (other : ∀ start ambient value, stmt ≠ .exportDeclared start ambient value) :
        stmt.Sound s.types := .unexported (fun plain => nomatch types.symm.trans plain) other
    exact typedStatement_gives (fun _ => typed nofun) fun _ => typed nofun
  imported := .after fun _ => .after fun _ => importTail_sound
  exported := exportStatement_gives fun _ _ => exportForms_sound patterns

/-- What the grammar says of the statements of a text. -/
theorem Passes.sound {r last : Reader} {stmts : List Stmt} (passes : Passes n s r stmts last) :
    ∀ stmt ∈ stmts, stmt.Sound s.types :=
  passes.all fun n r => forms_sound (readAt_binds n) r

end Realms.Script
