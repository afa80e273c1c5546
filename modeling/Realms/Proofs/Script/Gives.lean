import Realms.Proofs.Script.Statements

/-!
What readings give. A reading gives something with a property if its last part does, so most forms of a statement are
settled by what is behind their words: the forms are listed once here, for any property, and a result about statements
names what it needs of the few forms that keep something.
-/
namespace Realms.Script

open Grammar Reading

variable {α β : Type} {p : Inner} {s : Setting} {r : Reader}

/-- Whatever a reading gives from a reader on has a property, together with the reader that it leaves. -/
def Reading.Leads (m : Reading α) (s : Setting) (r : Reader) (P : α → Reader → Prop) : Prop :=
  ∀ a next, m s r = some (a, next) → P a next

def Reading.GivesAt (m : Reading α) (s : Setting) (r : Reader) (P : α → Prop) : Prop := m.Leads s r fun a _ => P a

/-- Whatever a reading gives in a setting has a property. -/
def Reading.Gives (m : Reading α) (s : Setting) (P : α → Prop) : Prop := ∀ r, m.GivesAt s r P

/-- A reading that only looks stays in front of what it looks at. -/
def Reading.Looks (m : Reading α) : Prop := ∀ s r a next, m s r = some (a, next) → next = r

namespace Reading.Gives

variable {m : Reading α} {f : α → Reading β} {P P' : α → Prop} {Q : β → Prop} {a : α}

theorem pure (holds : P a) : (pure a : Reading α).Gives s P := by
  intro r found next read
  obtain ⟨rfl, rfl⟩ := Prod.mk.inj (Option.some.inj read)
  exact holds

theorem bind (first : m.Gives s P) (later : ∀ a, P a → (f a).Gives s Q) : (m >>= f).Gives s Q := by
  intro r found next read
  obtain ⟨a, between, reads, read⟩ := bind_eq_some.mp read
  exact later a (first r a between reads) between found next read

/-- What is read first does not matter to what is given in the end. -/
theorem after (later : ∀ a, (f a).Gives s Q) : (m >>= f).Gives s Q :=
  bind (P := fun _ => True) (fun _ _ _ _ => trivial) fun a _ => later a

theorem branch {c : Prop} [Decidable c] {m' : Reading α} (later : ∀ a, (f a).Gives s Q) :
    (if c then m >>= f else m' >>= f).Gives s Q := by
  split
  · exact after later
  · exact after later

theorem fail : (fail : Reading α).Gives s P := by
  intro r a next read
  rw [fail_run] at read
  cases read

theorem always (holds : ∀ a, P a) : m.Gives s P := fun _ a _ _ => holds a

theorem here (gives : m.Gives s P) : m.GivesAt s r P := gives r

theorem imp (gives : m.Gives s P) (weaker : ∀ a, P a → P' a) : m.Gives s P' :=
  fun r a next read => weaker a (gives r a next read)

end Reading.Gives

theorem separated_gives {close : String} {item : Reading α} {P : α → Prop} (each : item.Gives s P) (rounds : Nat) :
    (separated close item rounds).Gives s fun found => ∀ a ∈ found.1, P a := by
  induction rounds with
  | zero => exact .fail
  | succ rounds ih =>
      unfold separated
      refine .after fun closes => ?_
      split
      · exact .pure (List.forall_mem_nil _)
      · refine .bind each fun first holds => .after fun closes => ?_
        have alone : ∀ a ∈ [first], P a := List.forall_mem_singleton.mpr holds
        split
        · exact .pure alone
        · refine .after fun _ => .after fun closes => ?_
          split
          · exact .pure alone
          · exact .bind ih fun more others => .pure (List.forall_mem_cons.mpr ⟨holds, others⟩)

theorem repeatWhile_gives {test : Reading Bool} {item : Reading α} {P : α → Prop} (each : item.Gives s P)
    (rounds : Nat) : (repeatWhile test item rounds).Gives s fun found => ∀ a ∈ found, P a := by
  induction rounds with
  | zero => exact .fail
  | succ rounds ih =>
      unfold repeatWhile
      refine .after fun goesOn => ?_
      split
      · exact .bind each fun first holds => .bind ih fun more others => .pure (List.forall_mem_cons.mpr ⟨holds, others⟩)
      · exact .pure (List.forall_mem_nil _)

namespace Reading

theorem ahead_looks (m : Reading α) : (ahead m).Looks := by
  intro s r a next read
  obtain ⟨found, _, same⟩ := Option.map_eq_some_iff.mp read
  exact (Prod.mk.inj same).2.symm

theorem holdsAhead_looks (m : Reading Bool) : (holdsAhead m).Looks := by
  intro s r a next read
  rw [holdsAhead_run] at read
  split at read
  · exact (Prod.mk.inj (Option.some.inj read)).2.symm
  · exact (Prod.mk.inj (Option.some.inj read)).2.symm

theorem setting_looks : Reading.setting.Looks := by
  intro s r a next read
  exact (Prod.mk.inj (Option.some.inj read)).2.symm

theorem lexeme_looks : Reading.lexeme.Looks := by
  intro s r a next read
  exact (Prod.mk.inj (Option.some.inj read)).2.symm

end Reading

namespace Reading.Leads

variable {m : Reading α} {f : α → Reading β} {P P' : α → Reader → Prop} {Q : β → Reader → Prop}

theorem pure {a : α} (holds : P a r) : (pure a : Reading α).Leads s r P := by
  intro found next read
  obtain ⟨rfl, rfl⟩ := Prod.mk.inj (Option.some.inj read)
  exact holds

theorem bind (first : m.Leads s r P) (later : ∀ a next, P a next → (f a).Leads s next Q) : (m >>= f).Leads s r Q := by
  intro found next read
  obtain ⟨a, between, reads, read⟩ := bind_eq_some.mp read
  exact later a between (first a between reads) found next read

theorem imp (leads : m.Leads s r P) (weaker : ∀ a next, P a next → P' a next) : m.Leads s r P' :=
  fun a next read => weaker a next (leads a next read)

theorem fail : (fail : Reading α).Leads s r P := by
  intro a next read
  cases read

/-- What is known to be read next. -/
theorem known {a : α} (runs : m s r = some (a, r)) (later : (f a).Leads s r Q) : (m >>= f).Leads s r Q := by
  intro found next read
  rw [bind_run, runs] at read
  exact later found next read

theorem behind (looks : m.Looks) (later : ∀ a, (f a).Leads s r Q) : (m >>= f).Leads s r Q :=
  bind (looks s r) fun a _ same => same ▸ later a

section Known

variable {Q : α → Reader → Prop}

theorem isBindingWord {f : Bool → Reading α} (later : (f r.token.lexeme.isBindingWord).Leads s r Q) :
    (Reading.isBindingWord >>= f).Leads s r Q := by
  intro found next read
  rw [bind_run, isBindingWord_run] at read
  exact later found next read

theorem isWord {f : Bool → Reading α} {word : String} (later : (f (r.token.lexeme.isWord word)).Leads s r Q) :
    (Reading.isWord word >>= f).Leads s r Q := by
  intro found next read
  rw [bind_run, isWord_run] at read
  exact later found next read

theorem isMark {f : Bool → Reading α} {mark : String} (later : (f (r.token.lexeme == .mark mark)).Leads s r Q) :
    (Reading.isMark mark >>= f).Leads s r Q := later

theorem isOneOf {f : Bool → Reading α} {marks : List String} (later : (f (r.token.lexeme.isOneOf marks)).Leads s r Q) :
    (Reading.isOneOf marks >>= f).Leads s r Q := by
  intro found next read
  rw [bind_run, isOneOf_run] at read
  exact later found next read

theorem setting {f : Setting → Reading α} (later : (f s).Leads s r Q) : (Reading.setting >>= f).Leads s r Q := later

theorem newLine {f : Bool → Reading α} (later : (f r.token.newLine).Leads s r Q) :
    (Reading.newLine >>= f).Leads s r Q := later

theorem lexeme {f : Lexeme → Reading α} (later : (f r.token.lexeme).Leads s r Q) :
    (Reading.lexeme >>= f).Leads s r Q := later

/-- Whether types may be written is known of the setting. -/
theorem typed {f : Bool → Reading α} (later : (f s.types).Leads s r Q) : (Reading.typed >>= f).Leads s r Q := later

end Known

end Reading.Leads

/-- What may be read gives what it would, or leaves the reader where it is. -/
theorem attempt_leads {m : Reading α} {P : α → Prop} (gives : m.Gives s P) : (attempt m).Leads s r fun found next =>
    (∀ a, found = some a → P a) ∧ (found = none → next = r) := by
  intro found next read
  unfold attempt at read
  split at read
  · rename_i a between reads
    obtain ⟨rfl, rfl⟩ := Prod.mk.inj (Option.some.inj read)
    refine ⟨?_, nofun⟩
    rintro _ ⟨⟩
    exact gives r a _ reads
  · obtain ⟨rfl, rfl⟩ := Prod.mk.inj (Option.some.inj read)
    exact ⟨nofun, fun _ => rfl⟩

theorem Reading.GivesAt.bind {m : Reading α} {f : α → Reading β} {P : α → Prop} {Q : β → Prop} (first : m.GivesAt s r P)
    (later : ∀ a, P a → (f a).Gives s Q) : (m >>= f).GivesAt s r Q :=
  Leads.bind first fun a next holds => later a holds next

theorem place_gives : place.Gives s (· ≤ s.size) := by
  intro r start next read
  obtain ⟨rfl, rfl⟩ := Prod.mk.inj (Option.some.inj read)
  exact Nat.sub_le _ _

theorem need_gives (holds : Bool) : (need holds).Gives s fun _ => holds = true := by
  intro r a next read
  cases holds with
  | true => rfl
  | false => cases read

section Imports

variable {P : Stmt → Prop} {start : Nat}

/-- What has to be known of the parts of an import that starts at a place for it to have a property. -/
structure ImportForms (p : Inner) (s : Setting) (P : Stmt → Prop) (start : Nat) : Prop where
  bare : ∀ specifier, P (.importFrom ⟨start, specifier, false, none, none, none⟩)
  imported : ∀ typeOnly defaultName, (typeOnly = true → s.types = true) →
    (importTail.imported p start typeOnly defaultName).Gives s P
  renamed : s.types = true → ∀ (typeOnly : Bool) name,
    P (.declared (if typeOnly then .type (some name) else .aliasOf name))

theorem ImportForms.importTail_gives (forms : ImportForms p s P start) : (importTail p start).Gives s P := by
  unfold importTail
  refine .after fun lexeme => ?_
  split
  · exact .after fun specifier => .pure (forms.bare specifier)
  · refine .after fun word r => .typed ?_
    extract_lets rest
    have tail (typeOnly : Bool) (types : typeOnly = true → s.types = true) : (rest typeOnly).Gives s P := by
      refine .branch fun isSource => .branch fun isDeferred => .branch fun defaultName => ?_
      beta_reduce
      split
      · refine .after fun comma => .after fun isFrom => ?_
        split
        · exact forms.imported typeOnly _ types
        · refine fun r => .typed ?_
          exact Gives.bind (need_gives _) (fun _ types => .after fun _ => .pure (forms.renamed types typeOnly _)) r
      · exact forms.imported typeOnly none types
    split
    · rename_i types
      exact Gives.after (fun typeOnly => tail typeOnly fun _ => (Bool.and_eq_true_iff.mp types).1) r
    · exact tail false nofun r

end Imports

section Exports

variable {P : Stmt → Prop} {start : Nat}

theorem exportNames_always (each : ∀ found, P (.exportNames found)) (typeOnly : Bool) :
    (exportNames p start typeOnly).Gives s P := by
  refine .after fun _ => .after fun found => .after fun _ => .after fun isFrom => ?_
  split
  · exact .after fun _ => .pure (each _)
  · exact .after fun _ => .after fun _ => .pure (each _)

theorem exportAll_always (typeOnly : Bool)
    (each : ∀ exported specifier, P (.exportAll ⟨start, typeOnly, exported, specifier⟩)) :
    (exportAll p start typeOnly).Gives s P := by
  unfold exportAll
  repeat' with_reducible first | refine .after fun _ => ?_ | exact .pure (each _ _) | split

theorem exportDefault_always (declared : ∀ runs name, P (.exportDefault start runs name))
    (value : ∀ e, P (.exportValue start e)) : (exportDefault p start).Gives s P := by
  unfold exportDefault
  repeat' with_reducible first
    | refine .after fun _ => ?_
    | exact .pure (declared _ _)
    | exact .pure (value _)
    | split

theorem exportDeclared_always (each : ∀ ambient value, P (.exportDeclared start ambient value)) :
    (exportDeclared p start).Gives s P := .after fun _ => .after fun _ => .pure (each _ _)

/-- What has to be known of the parts of an export that starts at a place for it to have a property. -/
structure ExportForms (p : Inner) (s : Setting) (P : Stmt → Prop) (start : Nat) : Prop where
  other : P .other
  names : ∀ typeOnly, (exportNames p start typeOnly).Gives s P
  all : ∀ typeOnly, (exportAll p start typeOnly).Gives s P
  default : (exportDefault p start).Gives s P
  declared : (exportDeclared p start).Gives s P
  renamed : s.types = true → (importTail p start).Gives s fun stmt =>
    ∀ found, stmt = .declared found → P (.exportDeclared start false found)

theorem ExportForms.exportTyped_gives (forms : ExportForms p s P start) :
    (exportTyped p start).Gives s fun found => ∀ stmt, found = some stmt → P stmt := by
  have none : (pure none : Reading (Option Stmt)).Gives s fun found => ∀ stmt, found = some stmt → P stmt := .pure nofun
  have one {stmt : Stmt} (holds : P stmt) :
      (pure (some stmt) : Reading (Option Stmt)).Gives s fun found => ∀ stmt, found = some stmt → P stmt :=
    .pure fun found same => Option.some.inj same ▸ holds
  unfold exportTyped
  intro r
  refine .typed ?_
  cases types : s.types with
  | false => exact none r
  | true =>
      refine Gives.after (fun isAlias => ?_) r
      split
      · exact .after fun _ => .after fun _ => one forms.other
      · refine .after fun isNamespace => ?_
        split
        · exact .after fun _ => .after fun _ => .after fun _ => .after fun _ => one forms.other
        · refine .after fun isImport => ?_
          extract_lets others
          have rest : (others ()).Gives s fun found => ∀ stmt, found = some stmt → P stmt := by
            refine .after fun isNames => ?_
            split
            · exact .after fun _ => .bind (forms.names true) fun stmt => one
            · refine .after fun isAll => ?_
              split
              · exact .after fun _ => .bind (forms.all true) fun stmt => one
              · exact none
          split
          · refine .after fun _ => .bind (forms.renamed types) fun found holds => ?_
            split
            · exact one (holds _ rfl)
            · exact .after fun _ => rest
          · exact rest

theorem exportStatement_gives (forms : ∀ start ≤ s.size, ExportForms p s P start) (decorated : Bool) :
    (exportStatement p decorated).Gives s P := by
  unfold exportStatement
  refine .bind place_gives fun start within => .after fun _ => ?_
  refine .bind (forms start within).exportTyped_gives fun found typed => ?_
  split
  · exact .after fun _ => .pure (typed _ rfl)
  · refine .after fun isAll => ?_
    split
    · exact (forms start within).all false
    · refine .after fun isNames => ?_
      split
      · exact (forms start within).names false
      · refine .after fun isDefault => ?_
        split
        · exact .after fun _ => .after fun _ => (forms start within).default
        · exact .after fun _ => .after fun _ => .after fun _ => .after fun _ => (forms start within).declared

end Exports

section Forms

variable {P : Stmt → Prop} {alone isAwait : Bool} {word : String}

section Other

variable (other : P .other)

include other

theorem ifStatement_gives : (ifStatement p).Gives s P := by
  unfold ifStatement
  repeat' with_reducible first
    | refine .after fun _ => ?_
    | exact .pure other
    | split

theorem countingTail_gives : (countingTail p isAwait).Gives s P := by
  unfold countingTail
  repeat' with_reducible first
    | refine .after fun _ => ?_
    | exact .pure other
    | split

theorem iteratingTail_gives : (iteratingTail p isAwait).Gives s P := by
  unfold iteratingTail
  repeat' with_reducible first
    | refine .after fun _ => ?_
    | exact .pure other
    | split

theorem doStatement_gives : (doStatement p).Gives s P :=
  .after fun _ => .after fun _ => .after fun _ => .after fun _ => .after fun _ => .pure other

theorem guardedStatement_gives : (guardedStatement p word).Gives s P :=
  .after fun _ => .after fun _ => .after fun _ => .pure other

theorem switchStatement_gives : (switchStatement p).Gives s P :=
  .after fun _ => .after fun _ => .after fun _ => .after fun _ => .after fun _ => .pure other

theorem throwStatement_gives : (throwStatement p).Gives s P :=
  .after fun _ => .after fun _ => .after fun _ => .after fun _ => .after fun _ => .pure other

theorem loopTail_gives : (loopTail p isAwait).Gives s P := by
  unfold loopTail
  repeat' with_reducible first
    | refine .after fun _ => ?_
    | exact countingTail_gives other
    | exact iteratingTail_gives other
    | split

theorem expressionLoop_gives : (expressionLoop p isAwait).Gives s P := by
  unfold expressionLoop
  repeat' with_reducible first
    | refine .after fun _ => ?_
    | exact countingTail_gives other
    | exact iteratingTail_gives other
    | split

theorem forStatement_gives : (forStatement p).Gives s P := by
  unfold forStatement
  refine .after fun _ => .after fun isAwait => ?_
  extract_lets head
  have rest : (head ()).Gives s P := by
    refine .after fun _ => .after fun isBare => ?_
    split
    · exact countingTail_gives other
    · refine .after fun kind => ?_
      split
      · exact .after fun _ => .after fun _ => loopTail_gives other
      · exact expressionLoop_gives other
  split
  · exact .after fun _ => .after fun _ => .after fun _ => rest
  · exact rest

theorem jumpStatement_gives : (jumpStatement).Gives s P := by
  unfold jumpStatement
  repeat' with_reducible first
    | refine .after fun _ => ?_
    | exact .pure other
    | split

theorem tryStatement_gives : (tryStatement p).Gives s P := by
  unfold tryStatement
  repeat' with_reducible first
    | refine .after fun _ => ?_
    | exact .pure other
    | split

end Other

theorem returnStatement_gives (result : ∀ value, P (.result value)) : (returnStatement p).Gives s P := by
  unfold returnStatement
  repeat' with_reducible first
    | refine .after fun _ => ?_
    | exact .pure (result _)
    | split

theorem expressionStatement_gives (other : P .other) (expression : ∀ value, P (.expression value)) :
    (expressionStatement p).Gives s P := by
  unfold expressionStatement
  repeat' with_reducible first
    | refine .after fun _ => ?_
    | exact .pure other
    | exact .pure (expression _)
    | split

theorem typedStatement_gives (described : ∀ found, P (.described found)) (declared : ∀ found, P (.declared found)) :
    (typedStatement p).Gives s P := by
  refine .after fun found => .pure ?_
  split
  · exact described _
  · exact declared _

/-- What has to be known of the parts of a statement for it to have a property. -/
structure Forms (p : Inner) (s : Setting) (r : Reader) (P : Stmt → Prop) : Prop where
  other : P .other
  empty : P .empty
  result : ∀ value, P (.result value)
  bindings : ∀ kind, (variableItems p kind false).Gives s fun found => P (.declared found)
  classOf : ∀ name, P (.declared (.classOf name))
  function : (functionDeclaration p true).Gives s fun found => P (.declared (.function found))
  value : (expressionStatement p).GivesAt s r P
  typed : s.types = true → (typedStatement p).Gives s P
  imported : (importStatement p).Gives s P
  exported : ∀ decorated, (exportStatement p decorated).Gives s P

namespace Forms

variable (forms : Forms p s r P)

include forms

theorem variableStatement_gives (kind : VariableKind) : (variableStatement p kind alone).Gives s P :=
  .after fun _ => .bind (forms.bindings kind) fun _ holds => .after fun _ => .after fun _ => .pure holds

theorem classStatement_gives : (classStatement p alone).Gives s P :=
  .after fun _ => .after fun name => .pure (forms.classOf name)

theorem functionStatement_gives : (functionStatement p alone).Gives s P := by
  refine .bind forms.function fun found holds => ?_
  cases found with
  | mk => exact .after fun _ => .pure holds

theorem letStatement_gives : (letStatement p alone).GivesAt s r P := by
  unfold letStatement
  refine .behind (ahead_looks _) fun isName => ?_
  split
  · exact forms.value
  · exact forms.variableStatement_gives .letVar r

theorem decoratedStatement_gives : (decoratedStatement p alone).Gives s P := by
  unfold decoratedStatement
  refine .after fun _ => .after fun isExport => ?_
  split
  · exact forms.exported true
  · exact .after fun types => .branch fun words => .after fun _ => forms.classStatement_gives

theorem wordStatement_gives (name : String) (escaped : Bool) : (wordStatement p alone name escaped).GivesAt s r P := by
  unfold wordStatement
  split
  · exact ifStatement_gives forms.other r
  · exact doStatement_gives forms.other r
  · exact guardedStatement_gives forms.other r
  · exact guardedStatement_gives forms.other r
  · exact forStatement_gives forms.other r
  · exact jumpStatement_gives forms.other r
  · exact jumpStatement_gives forms.other r
  · exact returnStatement_gives forms.result r
  · exact switchStatement_gives forms.other r
  · exact throwStatement_gives forms.other r
  · exact tryStatement_gives forms.other r
  · exact Gives.after (fun _ => .after fun _ => .pure forms.other) r
  · exact forms.classStatement_gives r
  · exact forms.functionStatement_gives r
  · exact forms.exported false r
  · refine .behind (ahead_looks _) fun isValue => ?_
    split
    · exact forms.value
    · exact forms.imported r
  · exact forms.variableStatement_gives .var r
  · refine .typed (.behind (ahead_looks _) fun isEnum => ?_)
    split
    · rename_i types
      exact forms.typed (Bool.and_eq_true_iff.mp types).1 r
    · exact forms.variableStatement_gives .const r
  · split
    · exact forms.value
    · exact forms.letStatement_gives
  · -- a word that leads no statement of its own may still lead a declaration
    refine .behind (ahead_looks _) fun isAsync => ?_
    split
    · exact forms.functionStatement_gives r
    · refine .behind (holdsAhead_looks _) fun isUsing => ?_
      split
      · exact forms.variableStatement_gives .managed r
      · refine .behind setting_looks fun setting => .behind (holdsAhead_looks _) fun isManaged => ?_
        split
        · exact Gives.after (fun _ => forms.variableStatement_gives .managed) r
        · refine .typed (.behind (holdsAhead_looks _) fun isDeclaration => ?_)
          split
          · rename_i types
            exact forms.typed (Bool.and_eq_true_iff.mp types).1 r
          · exact forms.value

theorem statement_gives (alone : Bool) : (statement p alone).GivesAt s r P := by
  unfold statement
  refine .behind lexeme_looks fun lexeme => ?_
  split
  · exact Gives.after (fun _ => .pure forms.other) r
  · exact Gives.after (fun _ => .pure forms.empty) r
  · exact forms.decoratedStatement_gives r
  · exact forms.wordStatement_gives _ _
  · exact forms.value

end Forms

/-- What every statement has that can be read, all statements of a script have. -/
theorem Passes.all {n : Nat} {last : Reader} {stmts : List Stmt} (forms : ∀ n r, Forms ⟨n, readAt n⟩ s r P)
    (passes : Passes n s r stmts last) : ∀ stmt ∈ stmts, P stmt := by
  induction passes with
  | none => exact List.forall_mem_nil _
  | @next r _ _ _ _ _ first _ ih =>
      cases n with
      | zero => cases first
      | succ n => exact List.forall_mem_cons.mpr ⟨(forms n r).statement_gives false _ _ first, ih⟩

end Forms

end Realms.Script
