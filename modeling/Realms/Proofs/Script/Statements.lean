import Realms.Proofs.Script.Functions

/-!
The statements of a module, one after another. What stands behind a source can change how the last of them is read, as a
name at its end may be the first word of a declaration; where it does not, the source stands apart, and the statements
behind it are read after its own.
-/
namespace Realms.Script

open Reading

/-- The statements that a reader passes, one after another, until it stands in front of something else. -/
inductive Passes (n : Nat) (s : Setting) : Reader → List Stmt → Reader → Prop
  | none (r : Reader) : Passes n s r [] r
  | next {r between last : Reader} {stmt : Stmt} {more : List Stmt} (goesOn : r.token.lexeme ≠ .ending)
      (first : readAt n (.statement false) s r = some (stmt, between)) (later : Passes n s between more last) :
      Passes n s r (stmt :: more) last

variable {n rounds : Nat} {s : Setting} {r between last : Reader} {stmts more : List Stmt}

namespace Passes

theorem append (front : Passes n s r stmts between) (behind : Passes n s between more last) :
    Passes n s r (stmts ++ more) last := by
  induction front with
  | none r => exact behind
  | next goesOn first _ ih => exact .next goesOn first (ih behind)

theorem repeatWhile (passes : Passes n s r stmts last) (ends : last.token.lexeme = .ending)
    (enough : stmts.length < rounds) :
    repeatWhile (do return !(← isEnding)) (readAt n (.statement false)) rounds s r = some (stmts, last) := by
  induction passes generalizing rounds with
  | none r =>
      obtain ⟨rounds, rfl⟩ := Nat.exists_eq_add_of_le' enough
      apply repeatWhile_nil
      simp [ends]
  | next goesOn first _ ih =>
      obtain ⟨rounds, rfl⟩ := Nat.exists_eq_add_of_le' (Nat.le_trans (Nat.le_add_left 1 _) enough)
      refine repeatWhile_cons ?_ first (ih ends (Nat.lt_of_succ_lt_succ enough))
      simp [goesOn]

/-- Reading statement by statement passes them, up to the end of the text. -/
theorem of_repeatWhile (read : Reading.repeatWhile (do return !(← isEnding)) (readAt n (.statement false)) rounds s r =
    some (stmts, last)) : Passes n s r stmts last ∧ last.token.lexeme = .ending ∧ stmts.length < rounds := by
  induction rounds generalizing r stmts with
  | zero => cases read
  | succ rounds ih =>
      by_cases ends : r.token.lexeme = .ending
      · have stops : Reading.repeatWhile (do return !(← isEnding)) (readAt n (.statement false)) (rounds + 1) s r =
            some ([], r) := repeatWhile_nil rounds (by simp [ends])
        obtain ⟨rfl, rfl⟩ := Prod.mk.inj (Option.some.inj (stops.symm.trans read))
        exact ⟨.none r, ends, Nat.succ_pos rounds⟩
      · have goes : (r.token.lexeme == .ending) = false := beq_eq_false_iff_ne.mpr ends
        have goesOn : (do return !(← isEnding) : Reading Bool) s r = some (true, r) := by simp [goes]
        rw [Reading.repeatWhile, bind_run, goesOn] at read
        obtain ⟨stmt, between, first, read⟩ := bind_eq_some.mp read
        obtain ⟨more, last', later, read⟩ := bind_eq_some.mp read
        obtain ⟨rfl, rfl⟩ := Prod.mk.inj (Option.some.inj read)
        obtain ⟨passes, ended, enough⟩ := ih later
        exact ⟨.next ends first passes, ended, Nat.succ_lt_succ enough⟩

/-- There is one way to pass the statements of a text to its end. -/
theorem unique {stmts' : List Stmt} {last' : Reader} (passes : Passes n s r stmts last)
    (ends : last.token.lexeme = .ending) (passes' : Passes n s r stmts' last') (ends' : last'.token.lexeme = .ending) :
    stmts = stmts' ∧ last = last' := by
  induction passes generalizing stmts' with
  | none r =>
      cases passes' with
      | none => exact ⟨rfl, rfl⟩
      | next goesOn => exact absurd ends goesOn
  | next goesOn first _ ih =>
      cases passes' with
      | none => exact absurd ends' goesOn
      | next _ first' later =>
          obtain ⟨rfl, rfl⟩ := Prod.mk.inj (Option.some.inj (first.symm.trans first'))
          obtain ⟨rfl, same⟩ := ih ends later
          exact ⟨rfl, same⟩

end Passes

/-- The statements of a text, read as those of a module. -/
def PassesText (types : Bool) (text : List Char) : List Stmt → Reader → Prop :=
  Passes (depthFor text.length) (moduleSetting types (byteCount text)) (Reader.start (skipInterpreter text))

/-- What is known of a module when its statements have been read. -/
def SourceRead.ofStatements (stmts : List Stmt) (last : Reader) : SourceRead where
  script := ⟨leadingTexts stmts, stmts.drop (leadingTexts stmts).length, last.calls.reverse⟩
  flawed := last.flawed || !last.defaults.isEmpty

section Text

variable {types : Bool} {text source behind : List Char}

theorem readText_passes (passes : PassesText types text stmts last) (ends : last.token.lexeme = .ending)
    (enough : stmts.length < depthFor text.length) : readText types text = some (.ofStatements stmts last) := by
  have body : sourceStatements ⟨depthFor text.length, readAt (depthFor text.length)⟩
      (moduleSetting types (byteCount text)) (Reader.start (skipInterpreter text)) = some (stmts, last) :=
    passes.repeatWhile ends enough
  simp [readText, body, SourceRead.ofStatements]

theorem readText_eq_some {found : SourceRead} (read : readText types text = some found) :
    ∃ stmts last, PassesText types text stmts last ∧ last.token.lexeme = .ending ∧
      stmts.length < depthFor text.length ∧ found = .ofStatements stmts last := by
  rw [readText, Option.bind_eq_bind, Option.bind_eq_some_iff] at read
  obtain ⟨⟨stmts, last⟩, body, whole⟩ := read
  obtain ⟨passes, ends, enough⟩ := Passes.of_repeatWhile body
  exact ⟨stmts, last, passes, ends, enough, (Option.some.inj whole).symm⟩

/-- A source stands apart from what is put behind it if its statements are read there as they are when it stands alone,
up to some space in front of what is behind. -/
def StandsApart (types : Bool) (source behind : List Char) : Prop :=
  ∀ stmts last, PassesText types source stmts last → last.token.lexeme = .ending →
    ∃ space, Space space ∧ PassesText types (source ++ behind) stmts (last.goTo (space ++ behind))

/-- The directives of a module end with the first statement that is none. -/
theorem leadingTexts_append (code : leadingTexts more = []) : leadingTexts (stmts ++ more) = leadingTexts stmts := by
  induction stmts with
  | nil => exact code
  | cons stmt stmts ih =>
      rw [List.cons_append]
      unfold leadingTexts
      split
      · rename_i same
        obtain ⟨rfl, rfl⟩ := List.cons.inj same
        rw [ih]
      · rename_i other
        split
        · rename_i value more' same
          obtain ⟨rfl, rfl⟩ := List.cons.inj same
          exact absurd rfl (other value _)
        · rfl

theorem leadingTexts_length (stmts : List Stmt) : (leadingTexts stmts).length ≤ stmts.length := by
  induction stmts with
  | nil => exact Nat.le_refl _
  | cons stmt stmts ih =>
      unfold leadingTexts
      split
      · rename_i same
        obtain ⟨rfl, rfl⟩ := List.cons.inj same
        exact Nat.succ_le_succ ih
      · exact Nat.zero_le _

end Text

end Realms.Script
