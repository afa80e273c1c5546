import Realms.Proofs.Script.Lines
import Realms.Proofs.Script.Lockstep.Quiet
import Realms.Proofs.Script.Lockstep.Tokens

/-!
A text in step with itself. What follows in a text has the characters that the text has, so that a reader which stands
in
front of a text without some characters stays in front of such a text.
-/
namespace Realms.Script

open Grammar Reading
open Realms.Text

/-- A token of a text without certain characters. -/
structure Token.Without (absent : List Char) (token : Token) : Prop where
  formed : token.Formed
  absent : ∀ c ∈ absent, c ∉ token.start

theorem childText_suffix (text : List Char) : childText text <:+ text := List.dropWhile_suffix _

/-- What opens an element or what stands between braces goes on. -/
theorem nextToken_goesOn {c : Char} (opens : c = '\x7b' ∨ c = '<') (text : List Char) :
    (nextToken (c :: text)).lexeme.goesOn = true := by
  rcases opens with rfl | rfl
  · rfl
  · have scanned : (nextToken ('<' :: text)).lexeme = (scanMark ('<' :: text)).lexeme := rfl
    rw [scanned, scanMark]
    split
    · rename_i mark rest found
      have spelled := readMark_spelled found
      have goes : ∀ mark ∈ marks, mark.toList.head? = some '<' → Lexeme.goesOn (.mark mark) = true := by decide
      have filled : ∀ mark ∈ marks, mark.toList ≠ [] := by decide
      have known := readMark_member found
      refine goes mark known ?_
      cases front : mark.toList with
      | nil => exact absurd front (filled mark known)
      | cons c more =>
          rw [front] at spelled
          exact congrArg some (List.cons.inj spelled).1.symm
    · rename_i none
      have front : dropFront "<".toList ('<' :: text) = some text := rfl
      have known : "<" ∈ marks := by decide
      have found := readMark_isSome known front
      rw [none] at found
      cases found

namespace Token.Without

variable {absent : List Char} {token : Token} {text : List Char}

theorem ofText (none : ∀ c ∈ absent, c ∉ text) : (nextToken text).Without absent where
  formed := (nextToken_formed text).1
  absent := fun c member within => none c member ((nextToken_formed text).2.subset within)

/-- The token in front of an end of the text of another token. -/
theorem ofSuffix (without : token.Without absent) (suffix : text <:+ token.start) : (nextToken text).Without absent :=
  ofText fun c member within => without.absent c member (suffix.subset within)

theorem next (without : token.Without absent) : (nextToken token.rest).Without absent :=
  without.ofSuffix without.formed.suffix

theorem retaken {changed : Token} (without : token.Without absent) (formed : changed.Formed)
    (same : changed.start = token.start) : changed.Without absent :=
  ⟨formed, fun c member => same ▸ without.absent c member⟩

end Token.Without

theorem nextToken_length (text : List Char) : (nextToken text).start.length ≤ text.length :=
  (nextToken_formed text).2.length_le

/-- A text in step with itself. -/
def Lockstep.without (absent : List Char) : Lockstep where
  more := 0
  near := fun t t' => t' = t ∧ t.Without absent
  seam := fun _ _ => False
  lost := fun _ => False
  adrift := fun _ => False
  lexeme := by
    rintro _ t ⟨rfl, -⟩
    rfl
  newLine := by
    rintro _ t ⟨rfl, -⟩
    rfl
  flawed := by
    rintro _ t ⟨rfl, -⟩
    rfl
  place := by
    rintro _ t ⟨rfl, -⟩ -
    rfl
  next := by
    rintro _ t ⟨rfl, without⟩ -
    exact .inl ⟨rfl, without.next⟩
  stops := by
    rintro _ t ⟨rfl, without⟩ unread
    exact ⟨without.formed.stops unread, without.formed.stops unread⟩
  goesOn := by
    rintro _ t ⟨rfl, without⟩ -
    exact ⟨rfl, without.next⟩
  shorter := by
    rintro _ t ⟨rfl, without⟩ isRead
    exact Nat.lt_of_le_of_lt (nextToken_length _) (without.formed.shorter isRead)
  joinAngle := by
    rintro _ t ⟨rfl, without⟩
    exact ⟨rfl, without.retaken without.formed.joinAngle t.joinAngle_start⟩
  splitAngle := by
    rintro _ t ⟨rfl, without⟩
    exact ⟨rfl, without.retaken without.formed.splitAngle t.splitAngle_start⟩
  asPattern := by
    rintro _ t ⟨rfl, without⟩ front
    refine ⟨rfl, without.retaken (.asPattern (without.formed.filled ?_)) t.asPattern_start⟩
    rcases front with front | front
    all_goals exact front ▸ rfl
  asTemplate := by
    rintro _ t ⟨rfl, without⟩ front
    exact ⟨rfl, without.retaken (.asTemplate (without.formed.filled (front ▸ rfl))) t.asTemplate_start⟩
  name := by
    rintro _ t name ⟨rfl, without⟩ front
    refine ⟨⟨rfl, without.ofSuffix (List.dropWhile_suffix _)⟩, rfl, Nat.lt_of_le_of_lt (nextToken_length _) ?_⟩
    obtain ⟨c, more, spelled, part⟩ := without.formed.word name front
    have markup : isMarkupPart c = true := by simp [isMarkupPart, part]
    rw [spelled, List.dropWhile_cons_of_pos markup]
    exact Nat.lt_succ_of_le (List.dropWhile_suffix _).length_le
  value := by
    rintro _ t ⟨rfl, without⟩ front
    have shorter := without.formed.shorter (front ▸ rfl)
    have suffix := skipSpace_suffix .plain false t.rest
    have length := suffix.length_le
    have within := suffix.trans without.formed.suffix
    generalize (skipSpace .plain false t.rest).rest = text at suffix length within
    cases text with
    | nil => exact .other nofun nofun
    | cons c text =>
        have behind : text <:+ t.start := (List.suffix_cons c text).trans within
        rw [List.length_cons] at length
        by_cases isQuote : c = '"' ∨ c = '\x27'
        · cases closed : text.dropWhile (· != c) with
          | nil => exact .unclosed isQuote closed fun d rest same => nomatch closed.symm.trans same
          | cons d rest =>
              have ends : d :: rest <:+ text := closed ▸ List.dropWhile_suffix _
              have left : rest <:+ text := (List.suffix_cons d rest).trans ends
              refine .closed isQuote closed closed (.inl ⟨rfl, without.ofSuffix (left.trans behind)⟩) ?_
              have below := left.length_le
              have lower := nextToken_length rest
              omega
        · by_cases opens : c = '\x7b' ∨ c = '<'
          · refine .opens opens ⟨rfl, without.ofSuffix within⟩ ?_
            have lower := nextToken_length (c :: text)
            rw [List.length_cons] at lower
            omega
          · have other : ∀ d rest, c :: text = d :: rest → d ∉ ['"', '\x27', '\x7b', '<'] := by
              rintro d rest same member
              obtain ⟨rfl, -⟩ := List.cons.inj same
              simp only [List.mem_cons, List.not_mem_nil, or_false] at member
              rcases member with quote | quote | brace | angle
              · exact isQuote (.inl quote)
              · exact isQuote (.inr quote)
              · exact opens (.inl brace)
              · exact opens (.inr angle)
            exact .other other other
  child := by
    rintro _ t ⟨rfl, without⟩ isRead
    have shorter := without.formed.shorter isRead
    have suffix := childText_suffix t.rest
    have length := suffix.length_le
    have within := suffix.trans without.formed.suffix
    cases left : childText t.rest with
    | nil => exact .unended nofun
    | cons c text =>
        rw [left] at suffix length within
        by_cases opens : c = '\x7b' ∨ c = '<'
        · exact .opens opens ⟨rfl, without.ofSuffix within⟩ (nextToken_goesOn opens text)
            (Nat.lt_of_le_of_lt (Nat.le_trans (nextToken_length _) length) shorter)
        · exact .other (not_or.mp opens)
  ending := nofun
  opensImport := nofun
  lost_open := nofun
  seam_adrift := nofun
  adrift_open := nofun
  adrift_next := nofun
  adrift_child := nofun

end Realms.Script

/-!
A source and the same source with more behind it, in step.
-/
namespace Realms.Script

open Grammar Reading
open Realms.Text

/-- What a source ends with, and what is put behind it: space and an import, and then `after`. -/
structure Seam where
  mark : Char
  space : List Char
  behind : List Char
  after : List Char
  closes : mark = ';' ∨ mark = '\x7d'
  gaps : ∀ c ∈ space, isGap c = true
  lined : '\n' ∈ space ∨ ∃ rest, behind = '\n' :: rest
  quiet : Quiet (mark :: space)
  quietBehind : Quiet (mark :: (space ++ behind))
  flat : ∀ c ∈ ['<', '>'], c ∉ behind
  opens : (nextToken (space ++ behind)).OpensImport
  starts : (nextToken (space ++ behind)).start <:+ behind
  suffix : after <:+ behind
  plain : '\x7d' ∉ after
  imports : ∀ {n : Nat} {s : Setting} {r : Reader}, 2 ≤ n → r.token = nextToken (space ++ behind) →
    ∃ stmt, readAt n (.statement false) s r = some (stmt, r.goTo after)

namespace Seam

variable (seam : Seam)

/-- The end of the source. -/
def here : List Char := seam.mark :: seam.space

/-- The end of the source, with more behind it. -/
def there : List Char := seam.mark :: (seam.space ++ seam.behind)

/-- What is in front of the end of the source in the one text, and of the import in the other one. -/
def AtSeam (t t' : Token) : Prop := t = nextToken seam.space ∧ t' = nextToken (seam.space ++ seam.behind)

theorem quietHere : Quiet seam.here := seam.quiet

theorem quietThere : Quiet seam.there := seam.quietBehind

/-- Tokens that stand beside each other in front of the seam. -/
inductive Near : Token → Token → Prop
  | inside {token : Token} (formed : token.Formed) (guarded : Guarded token.start)
      (isRead : token.lexeme.isRead = true) :
      Near (token.before seam.here) (token.before seam.there)
  | last (newLine : Bool) :
      Near ⟨.mark (String.singleton seam.mark), newLine, seam.here, seam.space, false⟩
        ⟨.mark (String.singleton seam.mark), newLine, seam.there, seam.space ++ seam.behind, false⟩
  | broken {t t' : Token} (isBroken : t.lexeme = .malformed) (isBroken' : t'.lexeme = .malformed) (stops : t.rest = [])
      (stops' : t'.rest = []) (newLine : t'.newLine = t.newLine) (flawed : t'.flawed = t.flawed) : Near t t'

variable {seam} {text : List Char} {t t' : Token}

theorem scanned_last (newLine : Bool) :
    seam.Near (.scanned newLine seam.here) (.scanned newLine seam.there) := by
  have last : seam.Near _ _ := .last newLine
  have here := scan_stop seam.closes seam.space
  have there := scan_stop seam.closes (seam.space ++ seam.behind)
  rw [Token.scanned, Token.scanned, show seam.here = seam.mark :: seam.space from rfl,
    show seam.there = seam.mark :: (seam.space ++ seam.behind) from rfl, here, there]
  exact last

theorem scanned_inside {c : Char} (guarded : Guarded (c :: text)) (newLine : Bool) :
    seam.Near (.scanned newLine (c :: text ++ seam.here)) (.scanned newLine (c :: text ++ seam.there)) := by
  have here : scan (c :: text ++ seam.here) = (scan (c :: text)).before seam.here := scan_before seam.quiet guarded
  have there : scan (c :: text ++ seam.there) = (scan (c :: text)).before seam.there :=
    scan_before seam.quietBehind guarded
  have formed := Scanned.Formed.ofScan c text
  rw [Token.scanned, Token.scanned, here, there]
  by_cases isBroken : (scan (c :: text)).lexeme = .malformed
  · have stops := formed.stops isBroken
    simp only [Scanned.before, isBroken, if_true]
    exact .broken rfl rfl stops stops rfl rfl
  · have isRead : (scan (c :: text)).lexeme.isRead = true := by
      simp [Lexeme.isRead, formed.read, isBroken]
    simp only [Scanned.before, isBroken, if_false]
    have whole := Token.Formed.scanned newLine (c :: text)
    exact .inside whole guarded isRead

theorem nextToken_near (guarded : Guarded text) :
    seam.Near (nextToken (text ++ seam.here)) (nextToken (text ++ seam.there)) := by
  have suffix := skipSpace_suffix .plain false text
  have here := nextToken_before seam.quiet guarded
  have there := nextToken_before seam.quietBehind guarded
  rw [Seam.here, Seam.there, here, there]
  split
  · exact .broken rfl rfl rfl rfl rfl rfl
  · cases left : (skipSpace .plain false text).rest with
    | nil => exact scanned_last _
    | cons c more => exact scanned_inside (guarded.of_suffix (left ▸ suffix)) _

namespace Near

theorem lexeme (near : seam.Near t t') : t'.lexeme = t.lexeme := by
  cases near with
  | inside => rfl
  | last => rfl
  | broken isBroken isBroken' => rw [isBroken, isBroken']

theorem newLine (near : seam.Near t t') : t'.newLine = t.newLine := by
  cases near with
  | inside => rfl
  | last => rfl
  | broken _ _ _ _ newLine => exact newLine

theorem flawed (near : seam.Near t t') : t'.flawed = t.flawed := by
  cases near with
  | inside => rfl
  | last => rfl
  | broken _ _ _ _ _ flawed => exact flawed

theorem mark_ne {other : String} (apart : other ≠ ";" ∧ other ≠ "\x7d") :
    String.singleton seam.mark ≠ other := by
  rcases seam.closes with same | same
  all_goals rw [same]
  · exact apart.1.symm
  · exact apart.2.symm

/-- A token that can be read on stands in front of the seam in full, if it is not the mark of the seam. -/
theorem cases_read (near : seam.Near t t') (isRead : t.lexeme.isRead = true)
    (other : ∀ mark, t.lexeme = .mark mark → mark ≠ ";" ∧ mark ≠ "\x7d") :
    ∃ token : Token, token.Formed ∧ Guarded token.start ∧ token.lexeme = t.lexeme ∧ t = token.before seam.here ∧
      t' = token.before seam.there := by
  cases near with
  | @inside token formed guarded => exact ⟨token, formed, guarded, rfl, rfl, rfl⟩
  | last => exact absurd rfl (mark_ne (other _ rfl))
  | broken isBroken =>
      rw [isBroken] at isRead
      cases isRead

/-- No mark that ends a statement stands in front of the seam. -/
theorem inside_of_goesOn (near : seam.Near t t') (goes : t.lexeme.goesOn = true) :
    ∃ token : Token, token.Formed ∧ Guarded token.start ∧ token.lexeme = t.lexeme ∧ t = token.before seam.here ∧
      t' = token.before seam.there := by
  refine near.cases_read (Lexeme.isRead_of_goesOn goes) fun mark front => ?_
  rw [front] at goes
  constructor
  all_goals
    rintro rfl
    cases goes

theorem place (near : seam.Near t t') (isRead : t.lexeme.isRead = true) :
    byteCount t'.start = byteCount t.start + byteCount seam.behind := by
  have whole : seam.there = seam.here ++ seam.behind := rfl
  cases near with
  | inside =>
      simp only [Token.before, whole, byteCount_append]
      omega
  | last => simp only [whole, byteCount_append]
  | broken isBroken =>
      rw [isBroken] at isRead
      cases isRead

theorem next (near : seam.Near t t') (isRead : t.lexeme.isRead = true) :
    seam.Near (nextToken t.rest) (nextToken t'.rest) ∨ seam.AtSeam (nextToken t.rest) (nextToken t'.rest) := by
  cases near with
  | inside formed guarded => exact .inl (nextToken_near (guarded.of_suffix formed.suffix))
  | last => exact .inr ⟨rfl, rfl⟩
  | broken isBroken =>
      rw [isBroken] at isRead
      cases isRead

theorem stops (near : seam.Near t t') (unread : t.lexeme.isRead = false) : t.rest = [] ∧ t'.rest = [] := by
  cases near with
  | inside _ _ isRead => cases isRead.symm.trans unread
  | last => cases unread
  | broken _ _ stops stops' => exact ⟨stops, stops'⟩

theorem goesOn (near : seam.Near t t') (goes : t.lexeme.goesOn = true) :
    seam.Near (nextToken t.rest) (nextToken t'.rest) := by
  obtain ⟨token, formed, guarded, -, rfl, rfl⟩ := near.inside_of_goesOn goes
  exact nextToken_near (guarded.of_suffix formed.suffix)

theorem shorter (near : seam.Near t t') (isRead : t.lexeme.isRead = true) :
    (nextToken t.rest).start.length < t.start.length := by
  refine Nat.lt_of_le_of_lt (nextToken_length _) ?_
  cases near with
  | inside formed _ isRead =>
      have shorter := formed.shorter isRead
      simp only [Token.before, List.length_append]
      omega
  | last => exact Nat.lt_succ_self _
  | broken isBroken =>
      rw [isBroken] at isRead
      cases isRead

theorem joinAngle (near : seam.Near t t') : seam.Near t.joinAngle t'.joinAngle := by
  by_cases angle : t.lexeme = .mark ">"
  · obtain ⟨token, formed, guarded, same, rfl, rfl⟩ := near.inside_of_goesOn (angle ▸ rfl)
    have angle := same.trans angle
    rw [formed.joinAngle_before seam.quietHere.stops angle, formed.joinAngle_before seam.quietThere.stops angle]
    exact .inside formed.joinAngle (token.joinAngle_start.symm ▸ guarded) (token.joinAngle_isRead angle)
  · rw [t.joinAngle_other angle, t'.joinAngle_other (near.lexeme ▸ angle)]
    exact near

theorem splitAngle (near : seam.Near t t') : seam.Near t.splitAngle t'.splitAngle := by
  cases isAngle : t.lexeme.splits with
  | true =>
      obtain ⟨token, formed, guarded, same, rfl, rfl⟩ := near.inside_of_goesOn (Lexeme.goesOn_of_splits isAngle)
      have isAngle : token.lexeme.splits = true := same ▸ isAngle
      rw [formed.splitAngle_before isAngle, formed.splitAngle_before isAngle]
      exact .inside formed.splitAngle (token.splitAngle_start.symm ▸ guarded) (formed.splitAngle_isRead isAngle)
  | false =>
      rw [t.splitAngle_other isAngle, t'.splitAngle_other (near.lexeme ▸ isAngle)]
      exact near

/-- A token that is taken again as another one, in front of the seam. -/
theorem retaken {token changed : Token} (change : Token → Token) (formed : changed.Formed)
    (guarded : Guarded changed.start)
    (read : changed.lexeme ≠ .ending)
    (retakes : ∀ behind, Quiet behind → change (token.before behind) = changed.retakenBefore behind) :
    seam.Near (change (token.before seam.here)) (change (token.before seam.there)) := by
  rw [retakes _ seam.quietHere, retakes _ seam.quietThere]
  unfold Token.retakenBefore
  split
  · rename_i isBroken
    have stops := formed.stops (isBroken ▸ rfl)
    exact .broken isBroken isBroken stops stops rfl rfl
  · rename_i whole
    exact .inside formed guarded (by simp [Lexeme.isRead, read, whole])

theorem asPattern (near : seam.Near t t') (front : t.lexeme = .mark "/" ∨ t.lexeme = .mark "/=") :
    seam.Near t.asPattern t'.asPattern := by
  have goes : t.lexeme.goesOn = true := by
    rcases front with front | front
    all_goals exact front ▸ rfl
  obtain ⟨token, formed, guarded, same, rfl, rfl⟩ := near.inside_of_goesOn goes
  have filled := formed.filled (same ▸ Lexeme.isRead_of_goesOn goes)
  refine retaken Token.asPattern (.asPattern filled) (token.asPattern_start.symm ▸ guarded) ?_
    fun _ quiet => Token.asPattern_before quiet guarded filled
  unfold Token.asPattern
  split
  all_goals nofun

theorem asTemplate (near : seam.Near t t') (front : t.lexeme = .mark "\x7d") :
    seam.Near t.asTemplate t'.asTemplate := by
  cases near with
  | @inside token formed guarded isRead =>
      have filled := formed.filled isRead
      refine retaken Token.asTemplate (.asTemplate filled) (token.asTemplate_start.symm ▸ guarded) ?_
        fun _ quiet => Token.asTemplate_before quiet filled
      unfold Token.asTemplate
      split
      all_goals nofun
  | last newLine =>
      have tail {text : List Char} (quiet : Quiet (seam.mark :: text)) : readTemplate .plain true text = none := by
        have none := quiet.template .plain true
        rcases seam.closes with same | same
        all_goals
          rw [same] at none
          exact none
      have here := tail seam.quiet
      have there := tail seam.quietBehind
      have taken {text : List Char} (none : readTemplate .plain true text = none) (lexeme : Lexeme) (rest : List Char) :
          Token.asTemplate ⟨lexeme, newLine, seam.mark :: text, rest, false⟩ =
            ⟨.malformed, newLine, seam.mark :: text, [], false⟩ := by
        unfold Token.asTemplate
        rw [List.tail_cons, none]
      rw [Seam.here, Seam.there, taken here, taken there]
      exact .broken rfl rfl rfl rfl rfl rfl
  | broken isBroken =>
      rw [isBroken] at front
      cases front

theorem name {name : String} (near : seam.Near t t') (front : t.lexeme = .word name false) :
    seam.Near (nextToken (t.start.dropWhile isMarkupPart)) (nextToken (t'.start.dropWhile isMarkupPart)) ∧
      t'.start.takeWhile isMarkupPart = t.start.takeWhile isMarkupPart ∧
        (nextToken (t.start.dropWhile isMarkupPart)).start.length < t.start.length := by
  obtain ⟨token, formed, guarded, same, rfl, rfl⟩ := near.inside_of_goesOn (front ▸ rfl)
  obtain ⟨taken, left⟩ := seam.quietHere.stops.spans isMarkupPart token.start (by decide)
  obtain ⟨taken', left'⟩ := seam.quietThere.stops.spans isMarkupPart token.start (by decide)
  have suffix := List.dropWhile_suffix (l := token.start) isMarkupPart
  refine ⟨?_, taken'.trans taken.symm, Nat.lt_of_le_of_lt (nextToken_length _) ?_⟩
  · have beside : seam.Near _ _ := nextToken_near (guarded.of_suffix suffix)
    rw [← left, ← left'] at beside
    exact beside
  · obtain ⟨c, more, spelled, part⟩ := formed.word name (same.trans front)
    have markup : isMarkupPart c = true := by simp [isMarkupPart, part]
    have whole : (token.before seam.here).start = c :: (more ++ seam.here) := by
      rw [Token.before, spelled, List.cons_append]
    rw [whole, List.dropWhile_cons_of_pos markup]
    exact Nat.lt_succ_of_le (List.dropWhile_suffix _).length_le

end Near

/-- A token in what is put behind the source, in front of a text without certain characters. -/
structure Strays (seam : Seam) (absent : List Char) (token : Token) : Prop where
  without : token.Without absent
  room : token.start.length ≤ seam.behind.length

namespace Strays

variable {absent : List Char}

theorem ofSuffix {token : Token} (strays : seam.Strays absent token) (suffix : text <:+ token.start) :
    seam.Strays absent (nextToken text) where
  without := strays.without.ofSuffix suffix
  room := Nat.le_trans (nextToken_length _) (Nat.le_trans suffix.length_le strays.room)

theorem ofEnd (none : ∀ c ∈ absent, c ∉ text) (suffix : text <:+ seam.behind) : seam.Strays absent (nextToken text)
    where
  without := .ofText none
  room := Nat.le_trans (nextToken_length _) suffix.length_le

theorem mark_ne {token : Token} {c : Char} (mark : String) (strays : seam.Strays absent token)
    (spelled : mark.toList = [c])
    (member : c ∈ absent) : token.lexeme ≠ .mark mark := by
  intro front
  have spelledHere := strays.without.formed.mark mark front
  refine strays.without.absent c member ?_
  rw [spelledHere, spelled]
  exact List.mem_cons_self

theorem ofFlat (suffix : text <:+ seam.behind) : seam.Strays ['<', '>'] (nextToken text) :=
  ofEnd (fun c member within => seam.flat c member (suffix.subset within)) suffix

end Strays

/-- A test that goes past the space at the end of the source goes on behind it. -/
theorem dropWhile_space (seam : Seam) (test : Char → Bool) (past : ∀ c, isGap c = true → test c = true) :
    seam.space.dropWhile test = [] ∧ (seam.space ++ seam.behind).dropWhile test = seam.behind.dropWhile test := by
  have all : seam.space.dropWhile test = [] :=
    List.dropWhile_eq_nil_iff.mpr fun c member => past c (seam.gaps c member)
  exact ⟨all, by rw [List.dropWhile_append, all, List.isEmpty_nil, if_pos rfl]⟩

theorem dropWhile_here (test : Char → Bool) (mark : test seam.mark = true) (past : ∀ c, isGap c = true → test c = true)
    :
    seam.here.dropWhile test = [] ∧ seam.there.dropWhile test = seam.behind.dropWhile test := by
  obtain ⟨here, there⟩ := seam.dropWhile_space test past
  rw [Seam.here, Seam.there, List.dropWhile_cons, List.dropWhile_cons, if_pos mark, if_pos mark]
  exact ⟨here, there⟩

theorem dropWhile_open {test : Char → Bool} {behind : List Char} (all : text.dropWhile test = []) :
    (text ++ behind).dropWhile test = behind.dropWhile test := by
  rw [List.dropWhile_append, all, List.isEmpty_nil, if_pos rfl]

theorem dropWhile_closed {test : Char → Bool} {behind rest : List Char} {c : Char}
    (front : text.dropWhile test = c :: rest) :
    (text ++ behind).dropWhile test = c :: (rest ++ behind) := by
  rw [List.dropWhile_append, front, List.isEmpty_cons, if_neg Bool.false_ne_true, List.cons_append]

theorem isGap_not_endsChild {c : Char} (gap : isGap c = true) : (!endsChild c) = true := by
  cases ends : endsChild c with
  | false => rfl
  | true =>
      have member : c ∈ ['\x7b', '\x7d', '<', '>'] := List.contains_iff_mem.mp ends
      simp only [List.mem_cons, List.not_mem_nil, or_false] at member
      rcases member with rfl | rfl | rfl | rfl
      all_goals cases gap

namespace Near

/-- What stands behind a value that is open at the end of the source. -/
theorem unclosed {quote : Char} {k : Nat} (isQuote : quote = '"' ∨ quote = '\x27')
    (all : text.dropWhile (· != quote) = []) :
    Valued seam.Near (fun t t' => seam.Near t t' ∨ seam.AtSeam t t') (seam.Strays ['<', '>']) k
      (quote :: (text ++ seam.here)) (quote :: (text ++ seam.there)) := by
  have mark : (seam.mark != quote) = true := by
    refine bne_iff_ne.mpr fun same => ?_
    rcases seam.closes with closes | closes
    all_goals
      rw [closes] at same
      rcases isQuote with rfl | rfl
      all_goals cases same
  obtain ⟨here, there⟩ := dropWhile_here (· != quote) mark fun _ => isGap_ne_quote isQuote
  refine .unclosed isQuote ?_ fun c rest found => ?_
  · rw [dropWhile_open all, here]
  · rw [dropWhile_open all, there] at found
    have suffix : c :: rest <:+ seam.behind := found ▸ List.dropWhile_suffix _
    exact .ofFlat ((List.suffix_cons c rest).trans suffix)

/-- What stands behind an equals sign, of which the source has something left. -/
theorem valued {n : Nat} {c : Char} (guarded : Guarded (c :: text)) (low : (c :: text ++ seam.here).length < n) :
    Valued seam.Near (fun t t' => seam.Near t t' ∨ seam.AtSeam t t') (seam.Strays ['<', '>']) n
      (c :: text ++ seam.here) (c :: text ++ seam.there) := by
  by_cases isQuote : c = '"' ∨ c = '\x27'
  · cases closed : text.dropWhile (· != c) with
    | nil => exact unclosed isQuote closed
    | cons d rest =>
        have ends : d :: rest <:+ text := closed ▸ List.dropWhile_suffix _
        have left : rest <:+ c :: text := ((List.suffix_cons d rest).trans ends).trans (List.suffix_cons c text)
        refine .closed isQuote (dropWhile_closed closed) (dropWhile_closed closed)
          (.inl (nextToken_near (guarded.of_suffix left))) ?_
        refine Nat.lt_of_le_of_lt ((nextToken_length _).trans ?_) low
        rw [List.length_append, List.length_append]
        exact Nat.add_le_add_right left.length_le _
  by_cases opens : c = '\x7b' ∨ c = '<'
  · exact .opens opens (nextToken_near guarded) (Nat.lt_of_le_of_lt (nextToken_length _) low)
  have other (behind : List Char) : ∀ d rest, c :: text ++ behind = d :: rest → d ∉ ['"', '\x27', '\x7b', '<'] := by
    rintro d rest same member
    obtain ⟨rfl, -⟩ := List.cons.inj same
    simp only [List.mem_cons, List.not_mem_nil, or_false] at member
    rcases member with quote | quote | brace | angle
    · exact isQuote (.inl quote)
    · exact isQuote (.inr quote)
    · exact opens (.inl brace)
    · exact opens (.inr angle)
  exact .other (other _) (other _)

theorem value (near : seam.Near t t') (front : t.lexeme = .mark "=") :
    Valued seam.Near (fun t t' => seam.Near t t' ∨ seam.AtSeam t t') (seam.Strays ['<', '>']) t.start.length
      (skipSpace .plain false t.rest).rest (skipSpace .plain false t'.rest).rest := by
  obtain ⟨token, formed, guarded, same, rfl, rfl⟩ := near.inside_of_goesOn (front ▸ rfl)
  have guarded := guarded.of_suffix formed.suffix
  have shorter := formed.shorter (same.trans front ▸ rfl)
  have suffix := skipSpace_suffix .plain false token.rest
  have here : skipSpace .plain false (token.before seam.here).rest = _ :=
    skipSpace_before seam.quietHere .plain false guarded trivial
  have there : skipSpace .plain false (token.before seam.there).rest = _ :=
    skipSpace_before seam.quietThere .plain false guarded trivial
  rw [here, there, AfterSpace.before, AfterSpace.before]
  have room : (token.before seam.here).start.length = token.start.length + seam.here.length := List.length_append
  cases isUnclosed : (skipSpace .plain false token.rest).unclosed with
  | true =>
      have none := skipSpace_unclosed isUnclosed
      simp only [if_true, none]
      exact .other nofun nofun
  | false =>
      simp only [Bool.false_eq_true, if_false]
      generalize (skipSpace .plain false token.rest).rest = text at suffix
      have length := suffix.length_le
      cases text with
      | nil =>
          have mark : seam.mark ∉ ['"', '\x27', '\x7b', '<'] := by
            rcases seam.closes with same | same
            all_goals
              rw [same]
              decide
          have other (text : List Char) : ∀ c rest, seam.mark :: text = c :: rest → c ∉ ['"', '\x27', '\x7b', '<'] :=
            fun c rest same => (List.cons.inj same).1 ▸ mark
          exact .other (other _) (other _)
      | cons c text =>
          refine valued (guarded.of_suffix suffix) ?_
          rw [room, List.length_append]
          omega

/-- The text of an element that is open where only space is left of the source. -/
theorem unended {k : Nat} : Child seam.Near (seam.Strays ['<', '>']) k (childText seam.space)
    (childText (seam.space ++ seam.behind)) := by
  obtain ⟨here, there⟩ := seam.dropWhile_space (fun c => !endsChild c) fun _ => isGap_not_endsChild
  rw [childText, childText, here, there]
  refine .unended fun c rest found => ?_
  have suffix : c :: rest <:+ seam.behind := found ▸ List.dropWhile_suffix _
  refine ⟨?_, .ofFlat suffix⟩
  rintro rfl
  exact seam.flat '<' List.mem_cons_self (suffix.subset List.mem_cons_self)

theorem child (near : seam.Near t t') (isRead : t.lexeme.isRead = true) :
    Child seam.Near (seam.Strays ['<', '>']) t.start.length (childText t.rest) (childText t'.rest) := by
  cases near with
  | @inside token formed guarded isRead =>
      have guarded := guarded.of_suffix formed.suffix
      have shorter := formed.shorter isRead
      have suffix := childText_suffix token.rest
      have length := suffix.length_le
      have room : (token.before seam.here).start.length = token.start.length + seam.here.length := List.length_append
      have rest (behind : List Char) : (token.before behind).rest = token.rest ++ behind := rfl
      rw [rest, rest]
      cases left : childText token.rest with
      | nil =>
          have here : childText (token.rest ++ seam.here) = childText (seam.mark :: seam.space) := dropWhile_open left
          have there : childText (token.rest ++ seam.there) = childText (seam.mark :: (seam.space ++ seam.behind)) :=
            dropWhile_open left
          rw [here, there]
          rcases seam.closes with same | same
          all_goals rw [same]
          · exact unended
          · exact .other (by decide)
      | cons c text =>
          have here : childText (token.rest ++ seam.here) = _ := dropWhile_closed left
          have there : childText (token.rest ++ seam.there) = _ := dropWhile_closed left
          rw [here, there]
          by_cases opens : c = '\x7b' ∨ c = '<'
          · refine .opens opens (nextToken_near (guarded.of_suffix (left ▸ suffix))) (nextToken_goesOn opens _) ?_
            refine Nat.lt_of_le_of_lt (nextToken_length _) ?_
            rw [left, List.length_cons] at length
            rw [List.length_cons, List.length_append]
            omega
          · exact .other (not_or.mp opens)
  | last => exact unended
  | broken isBroken =>
      rw [isBroken] at isRead
      cases isRead

end Near

/-- A source and what is put behind it, in step. -/
def step (seam : Seam) : Lockstep where
  more := byteCount seam.behind
  near := seam.Near
  seam := seam.AtSeam
  lost := seam.Strays ['\x7d']
  adrift := seam.Strays ['<', '>']
  lexeme := Near.lexeme
  newLine := Near.newLine
  flawed := Near.flawed
  place := Near.place
  next := Near.next
  stops := Near.stops
  goesOn := Near.goesOn
  shorter := Near.shorter
  joinAngle := Near.joinAngle
  splitAngle := Near.splitAngle
  asPattern := Near.asPattern
  asTemplate := Near.asTemplate
  name := Near.name
  value := Near.value
  child := Near.child
  ending := by
    rintro t t' ⟨rfl, rfl⟩
    exact ending_space (r := Reader.start []) (.gaps seam.gaps)
  opensImport := by
    rintro t t' ⟨rfl, rfl⟩
    exact seam.opens
  lost_open := fun strays front => strays.mark_ne "\x7d" (by decide) List.mem_cons_self front
  seam_adrift := by
    rintro t t' ⟨rfl, rfl⟩
    exact ⟨⟨(nextToken_formed _).1, fun c member within => seam.flat c member (seam.starts.subset within)⟩,
      seam.starts.length_le⟩
  adrift_open := fun strays front => strays.mark_ne ">" (c := '>') (by decide) (by decide) front
  adrift_next := fun strays => strays.ofSuffix strays.without.formed.suffix
  adrift_child := by
    intro t strays c more found
    have suffix : c :: more <:+ t.start :=
      (found ▸ childText_suffix t.rest : c :: more <:+ t.rest).trans strays.without.formed.suffix
    refine ⟨?_, strays.ofSuffix suffix⟩
    rintro rfl
    exact strays.without.absent '<' List.mem_cons_self (suffix.subset List.mem_cons_self)

end Seam

end Realms.Script
