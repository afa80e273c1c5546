import Mathlib.Data.List.Forall2
import Mathlib.Data.List.Lex
import Mathlib.Data.List.Nodup
import Mathlib.Data.List.Pairwise
import Realms.Proofs.Script.RunTime

/-!
The names that patterns bind, by the places where they stand. A pattern binds a name wherever a part of it is that name
and nothing else; the list of its names has one for each such place, in the order of the source. Keys and defaults are
parts as well, but what stands in them is no pattern.
-/
namespace Realms

namespace Script

/-- What the declaration of variables is made of: the variables, their patterns and the parts of those. -/
inductive Part where
  | bindings (items : List Variable)
  | item (item : Variable)
  | pattern (pattern : Pattern)
  | member (member : PatternMember)
  | key (key : Key)
  | value (value : Expr)

namespace Part

/-- The parts right within a part, in the order of the source. An expression has none: what is declared in it is its own
alone. -/
def parts : Part → List Part
  | .bindings items => items.map .item
  | .item (.mk target none) => [.pattern target]
  | .item (.mk target (some given)) => [.pattern target, .value given]
  | .pattern (.object members) => members.map .member
  | .pattern (.array items) => items.map .pattern
  | .pattern (.withDefault target given) => [.pattern target, .value given]
  | .pattern (.rest target) => [.pattern target]
  | .member (.entry named target) => [.key named, .pattern target]
  | .member (.rest target) => [.pattern target]
  | .pattern (.name _) | .pattern .hole | .key _ | .value _ => []

/-- The part at a place. A place is the way to it: a number among the parts of each part on the way. -/
def at? (part : Part) : List Nat → Option Part
  | [] => some part
  | n :: place => part.parts[n]?.bind fun inner => inner.at? place

/-- A name that is a pattern is bound. -/
def BindsAt (part : Part) (place : List Nat) (name : String) : Prop := part.at? place = some (.pattern (.name name))

/-- Names that are listed as a part binds them: one for each place that binds one, in the order of the places. -/
def Lists (part : Part) (names : List String) : Prop :=
  ∃ places : List (List Nat), places.Pairwise (· < ·) ∧ (∀ place, place ∈ places ↔ ∃ name, part.BindsAt place name) ∧
    List.Forall₂ part.BindsAt places names

/-- What is neither a pattern nor made of patterns. -/
def isAside : Part → Bool
  | .key _ | .value _ => true
  | .bindings _ | .item _ | .pattern _ | .member _ => false

/-- The names of a part, as the library gives them. -/
def names : Part → List String
  | .bindings items => items.flatMap Variable.names
  | .item given => given.names
  | .pattern given => given.names
  | .member given => given.names
  | .key _ | .value _ => []

section Places

variable {part inner : Part} {place front : List Nat} {name other : String} {n first : Nat}

theorem at?_append (part : Part) (front rest : List Nat) :
    part.at? (front ++ rest) = (part.at? front).bind fun inner => inner.at? rest := by
  induction front generalizing part with
  | nil => rfl
  | cons n front ih => simp only [List.cons_append, at?, ih, Option.bind_assoc]

/-- Nothing is bound in a key or a default. -/
theorem not_bindsAt_aside (found : part.at? front = some inner) (aside : inner.isAside = true) (rest : List Nat)
    (name : String) : ¬part.BindsAt (front ++ rest) name := by
  intro binds
  rw [BindsAt, at?_append, found, Option.bind_some] at binds
  cases rest with
  | nil =>
      obtain rfl := Option.some.inj binds
      cases aside
  | cons n rest =>
      cases inner with
      | key => cases binds
      | value => cases binds
      | _ => cases aside

theorem BindsAt.unique (binds : part.BindsAt place name) (again : part.BindsAt place other) : name = other := by
  have same := Option.some.inj (binds.symm.trans again)
  simpa using same

/-- What a part of others binds, they bind. -/
theorem bindsAt_iff (outer : ∀ name, part ≠ .pattern (.name name)) : part.BindsAt place name ↔
    ∃ n inner rest, part.parts[n]? = some inner ∧ place = n :: rest ∧ inner.BindsAt rest name := by
  constructor
  · intro binds
    cases place with
    | nil => exact absurd (Option.some.inj binds) (outer name)
    | cons n rest =>
        obtain ⟨inner, found, binds⟩ := Option.bind_eq_some_iff.mp binds
        exact ⟨n, inner, rest, found, rfl, binds⟩
  · rintro ⟨n, inner, rest, found, rfl, binds⟩
    exact Option.bind_eq_some_iff.mpr ⟨inner, found, binds⟩

/-- Where parts bind a name that are numbered from some number on. -/
def BindsAmong (first : Nat) (parts : List Part) (place : List Nat) (name : String) : Prop :=
  ∃ n inner rest, parts[n]? = some inner ∧ place = (first + n) :: rest ∧ inner.BindsAt rest name

theorem BindsAmong.head {parts : List Part} (binds : part.BindsAt place name) :
    BindsAmong first (part :: parts) (first :: place) name := ⟨0, part, place, rfl, rfl, binds⟩

theorem BindsAmong.tail {parts : List Part} (binds : BindsAmong (first + 1) parts place name) :
    BindsAmong first (part :: parts) place name := by
  obtain ⟨n, inner, rest, found, rfl, binds⟩ := binds
  refine ⟨n + 1, inner, rest, found, ?_, binds⟩
  rw [Nat.add_assoc, Nat.add_comm 1 n]

theorem bindsAmong_cons {parts : List Part} : BindsAmong first (part :: parts) place name ↔
    (∃ rest, place = first :: rest ∧ part.BindsAt rest name) ∨ BindsAmong (first + 1) parts place name := by
  constructor
  · rintro ⟨n, inner, rest, found, rfl, binds⟩
    cases n with
    | zero =>
        obtain rfl := Option.some.inj found
        exact .inl ⟨rest, rfl, binds⟩
    | succ n =>
        refine .inr ⟨n, inner, rest, found, ?_, binds⟩
        rw [Nat.add_assoc, Nat.add_comm 1 n]
  · rintro (⟨rest, rfl, binds⟩ | binds)
    · exact .head binds
    · exact binds.tail

/-- Parts that list their names one by one list them together. -/
theorem exists_places {parts : List Part} (each : ∀ inner ∈ parts, inner.Lists inner.names) (first : Nat) :
    ∃ places : List (List Nat), places.Pairwise (· < ·) ∧
      (∀ place, place ∈ places ↔ ∃ name, BindsAmong first parts place name) ∧
      List.Forall₂ (BindsAmong first parts) places (parts.flatMap names) := by
  induction parts generalizing first with
  | nil =>
      refine ⟨[], .nil, fun place => iff_of_false List.not_mem_nil ?_, .nil⟩
      rintro ⟨name, n, inner, rest, found, _⟩
      cases found
  | cons part parts ih =>
      obtain ⟨own, ownOrder, ownAll, ownNames⟩ := each part List.mem_cons_self
      obtain ⟨more, order, all, names⟩ := ih (List.forall_mem_of_forall_mem_cons each) (first + 1)
      refine ⟨own.map (first :: ·) ++ more, List.pairwise_append.mpr ⟨?_, order, ?_⟩, fun place => ?_, ?_⟩
      · exact ownOrder.map _ fun a b less => List.cons_lt_cons_iff.mpr (.inr ⟨rfl, less⟩)
      · intro a member b later
        obtain ⟨rest, -, rfl⟩ := List.mem_map.mp member
        obtain ⟨name, n, inner, behind, -, rfl, -⟩ := (all b).mp later
        exact List.cons_lt_cons_iff.mpr (.inl (by omega))
      · simp only [List.mem_append, List.mem_map, ownAll, all, bindsAmong_cons, exists_or]
        refine or_congr_left ?_
        constructor
        · rintro ⟨rest, ⟨name, binds⟩, rfl⟩
          exact ⟨name, rest, rfl, binds⟩
        · rintro ⟨name, rest, rfl, binds⟩
          exact ⟨rest, ⟨name, binds⟩, rfl⟩
      · rw [List.flatMap_cons]
        refine List.rel_append ?_ (names.imp fun place name => .tail)
        exact List.forall₂_map_left_iff.mpr (ownNames.imp fun place name => .head)

theorem lists_parts (outer : ∀ name, part ≠ .pattern (.name name))
    (each : ∀ inner ∈ part.parts, inner.Lists inner.names) : part.Lists (part.parts.flatMap names) := by
  obtain ⟨places, order, all, named⟩ := exists_places each 0
  have same (place : List Nat) (name : String) : BindsAmong 0 part.parts place name ↔ part.BindsAt place name := by
    simp only [BindsAmong, Nat.zero_add, bindsAt_iff outer]
  simp only [same] at all
  exact ⟨places, order, all, named.imp fun place name => (same place name).mp⟩

theorem lists_name (name : String) : Lists (.pattern (.name name)) [name] := by
  refine ⟨[[]], List.pairwise_singleton _ _, fun place => ?_, .cons rfl .nil⟩
  cases place with
  | nil => exact iff_of_true List.mem_cons_self ⟨name, rfl⟩
  | cons n place =>
      refine iff_of_false (by simp) ?_
      rintro ⟨other, binds⟩
      cases binds

/-- A part lists its names in one way only. -/
theorem Lists.unique {names others : List String} (lists : part.Lists names) (again : part.Lists others) :
    names = others := by
  obtain ⟨places, order, all, named⟩ := lists
  obtain ⟨places', order', all', named'⟩ := again
  have perm : places.Perm places' := (List.perm_ext_iff_of_nodup order.nodup order'.nodup).mpr fun place =>
    (all place).trans (all' place).symm
  have same : places = places' := perm.eq_of_pairwise (fun a b _ _ less more => absurd less more.asymm) order order'
  have one : Relator.RightUnique part.BindsAt := fun _ _ _ binds again => binds.unique again
  rw [← same] at named'
  exact List.right_unique_forall₂' one named named'

theorem memberPatternNames_eq (members : List PatternMember) :
    memberPatternNames members = members.flatMap PatternMember.names := by
  induction members with
  | nil => rfl
  | cons member members ih => rw [memberPatternNames, ih, List.flatMap_cons]

theorem itemPatternNames_eq (items : List Pattern) : itemPatternNames items = items.flatMap Pattern.names := by
  induction items with
  | nil => rfl
  | cons item items ih => rw [itemPatternNames, ih, List.flatMap_cons]

/-- The names of a part are those of its parts, unless it is a name itself. -/
theorem names_eq (outer : ∀ name, part ≠ .pattern (.name name)) : part.names = part.parts.flatMap names := by
  cases part with
  | bindings items => exact (List.flatMap_map .item names items).symm
  | item given =>
      cases given with
      | mk target value =>
          cases value with
          | none => simp [parts, names, Variable.names]
          | some value => simp [parts, names, Variable.names]
  | pattern given =>
      cases given with
      | name name => exact absurd rfl (outer name)
      | object members => simp [parts, names, Pattern.names, memberPatternNames_eq, List.flatMap_map]
      | array items => simp [parts, names, Pattern.names, itemPatternNames_eq, List.flatMap_map]
      | hole => rfl
      | withDefault target value => simp [parts, names, Pattern.names]
      | rest target => simp [parts, names, Pattern.names]
  | member given =>
      cases given with
      | entry named target => simp [parts, names, PatternMember.names]
      | rest target => simp [parts, names, PatternMember.names]
  | key => rfl
  | value => rfl

theorem lists_of_parts (outer : ∀ name, part ≠ .pattern (.name name))
    (each : ∀ inner ∈ part.parts, inner.Lists inner.names) : part.Lists part.names := by
  rw [names_eq outer]
  exact lists_parts outer each

theorem lists_aside (aside : part.isAside = true) : part.Lists part.names := by
  cases part with
  | key => exact lists_of_parts nofun (List.forall_mem_nil _)
  | value => exact lists_of_parts nofun (List.forall_mem_nil _)
  | _ => cases aside

theorem each_of_two (first : part.Lists part.names) (second : inner.Lists inner.names) :
    ∀ each ∈ [part, inner], each.Lists each.names :=
  List.forall_mem_cons.mpr ⟨first, List.forall_mem_singleton.mpr second⟩

mutual

theorem pattern_lists : (given : Pattern) → Lists (.pattern given) given.names
  | .name name => lists_name name
  | .object members => lists_of_parts nofun (each_member_lists members)
  | .array items => lists_of_parts nofun (each_item_lists items)
  | .hole => lists_of_parts nofun (List.forall_mem_nil _)
  | .withDefault target _ => lists_of_parts nofun (each_of_two (pattern_lists target) (lists_aside rfl))
  | .rest target => lists_of_parts nofun (List.forall_mem_singleton.mpr (pattern_lists target))

theorem member_lists : (given : PatternMember) → Lists (.member given) given.names
  | .entry _ target => lists_of_parts nofun (each_of_two (lists_aside rfl) (pattern_lists target))
  | .rest target => lists_of_parts nofun (List.forall_mem_singleton.mpr (pattern_lists target))

theorem each_item_lists : (items : List Pattern) → ∀ inner ∈ items.map .pattern, Lists inner inner.names
  | [] => List.forall_mem_nil _
  | given :: items => List.forall_mem_cons.mpr ⟨pattern_lists given, each_item_lists items⟩

theorem each_member_lists : (members : List PatternMember) → ∀ inner ∈ members.map .member, Lists inner inner.names
  | [] => List.forall_mem_nil _
  | given :: members => List.forall_mem_cons.mpr ⟨member_lists given, each_member_lists members⟩

end

theorem item_lists (given : Variable) : Lists (.item given) given.names := by
  cases given with
  | mk target value =>
      refine lists_of_parts nofun ?_
      cases value with
      | none => exact List.forall_mem_singleton.mpr (pattern_lists target)
      | some value => exact each_of_two (pattern_lists target) (lists_aside rfl)

theorem lists_names (part : Part) : part.Lists part.names := by
  cases part with
  | bindings items =>
      refine lists_of_parts nofun fun inner member => ?_
      obtain ⟨given, -, rfl⟩ := List.mem_map.mp member
      exact item_lists given
  | item given => exact item_lists given
  | pattern given => exact pattern_lists given
  | member given => exact member_lists given
  | key => exact lists_aside rfl
  | value => exact lists_aside rfl

theorem lists_iff {names : List String} : part.Lists names ↔ names = part.names := by
  constructor
  · exact fun lists => lists.unique part.lists_names
  · rintro rfl
    exact part.lists_names

end Places

end Part
end Script

namespace ModuleRecord

open Script

variable {shared : SharedSet} {path : ModulePath} {source : String} {record : ModuleRecord}

/-- The exports of a record, one statement after another. -/
theorem ofScript_exports (shared : SharedSet) (path : ModulePath) (source : String) (script : Script) :
    (ofScript shared path source script).exports =
      script.body.flatMap fun stmt => (Surface.ofStatement (Location.ofOffset source) stmt).exports :=
  (Surface.exports_foldl _ script.body .empty).trans (List.nil_append _)

/-- A pattern lists the names that stand in it as patterns, one for each of their places and in the order of these, and
no other list does so; nothing in a key or a default is such a name. The names of exported variables are listed in the
same way, and each of them is one export of the module. -/
theorem parsed_bindings :
    (∀ (given : Pattern) (names : List String), (Part.pattern given).Lists names ↔ names = given.names) ∧
    (∀ (whole inner : Part) (place rest : List Nat) (name : String), whole.at? place = some inner →
      inner.isAside = true → ¬whole.BindsAt (place ++ rest) name) ∧
    ∀ {shared : SharedSet} {path : ModulePath} {source : String} {record : ModuleRecord},
      parse? shared path source = some record → ∃ script, script? path source = some script ∧
        ∀ front start kind items rest,
          script.body = front ++ .exportDeclared start false (.bindings kind items) :: rest →
            ∃ names, (Part.bindings items).Lists names ∧ record.exports =
              (front.flatMap fun stmt => (Surface.ofStatement (Location.ofOffset source) stmt).exports) ++
                names.map (fun name => ⟨name, .binding, Location.ofOffset source start⟩) ++
                rest.flatMap fun stmt => (Surface.ofStatement (Location.ofOffset source) stmt).exports := by
  refine ⟨fun given names => Part.lists_iff, fun whole inner place rest name found aside =>
    Part.not_bindsAt_aside found aside rest name, fun parsed => ?_⟩
  obtain ⟨script, reads, rfl⟩ := Option.map_eq_some_iff.mp parsed
  refine ⟨script, reads, fun front start kind items rest body => ?_⟩
  refine ⟨_, Part.lists_names (.bindings items), ?_⟩
  rw [ofScript_exports, body, List.flatMap_append, List.flatMap_cons, List.append_assoc]
  rfl

/-- A pattern within a pattern, with a key, a default, a hole, a rest and a computed key, and one more variable. -/
def nestedBindings : String := "export const \x7ba: [b = c, , ...d], [e]: f\x7d = g, h = 1"

/-- The variables of a script that exports constants and does nothing else. -/
def onlyConstants? : List Stmt → Option (List Variable)
  | [.exportDeclared _ false (.bindings .const items)] => some items
  | _ => none

theorem onlyConstants?_eq_some {body : List Stmt} {items : List Variable} (only : onlyConstants? body = some items) :
    ∃ start, body = [.exportDeclared start false (.bindings .const items)] := by
  unfold onlyConstants? at only
  split at only
  · obtain rfl := Option.some.inj only
    exact ⟨_, rfl⟩
  · cases only

theorem nestedBindings_listed : ∃ record script start items, parse? [] ⟨"a.js"⟩ nestedBindings = some record ∧
    script? ⟨"a.js"⟩ nestedBindings = some script ∧
    script.body = [] ++ .exportDeclared start false (.bindings .const items) :: [] ∧
    (Part.bindings items).Lists ["b", "d", "f", "h"] ∧
    record.exports = ["b", "d", "f", "h"].map fun name => ⟨name, .binding, ⟨1, 1⟩⟩ := by
  have lists : (parse? [] ⟨"a.js"⟩ nestedBindings).map exports =
      some (["b", "d", "f", "h"].map fun name => ⟨name, .binding, ⟨1, 1⟩⟩) := by decide +kernel
  have reads : ((script? ⟨"a.js"⟩ nestedBindings).bind fun script =>
      (onlyConstants? script.body).map fun items => items.flatMap Variable.names) = some ["b", "d", "f", "h"] := by
    decide +kernel
  obtain ⟨record, parsed, exported⟩ := Option.map_eq_some_iff.mp lists
  obtain ⟨-, -, records⟩ := parsed_bindings
  obtain ⟨script, spelled, each⟩ := records parsed
  rw [spelled, Option.bind_some] at reads
  obtain ⟨items, only, named⟩ := Option.map_eq_some_iff.mp reads
  obtain ⟨start, body⟩ := onlyConstants?_eq_some only
  obtain ⟨names, listed, -⟩ := each [] start .const items [] body
  have same : names = ["b", "d", "f", "h"] := (Part.lists_iff.mp listed).trans named
  exact ⟨record, script, start, items, parsed, spelled, body, same ▸ listed, exported⟩

end ModuleRecord
end Realms
