import Realms.Page.Rows
import Realms.Proofs.Outcome

/-!
Pages as rows. The ids of a tree get their numbers in the order of first use, and a number stays with its id
while more ids come; so the rows of a tree, applied in order, give the tree back.
-/
namespace Realms

namespace Node

mutual

/-- The nodes of a tree from left to right, each before its children. -/
def nodes : Node → List Node
  | .element tag props children => .element tag props children :: nodesOf children
  | node => [node]

def nodesOf : List Node → List Node
  | [] => []
  | node :: rest => node.nodes ++ nodesOf rest

end

/-- The id of a component that is named by its reference. -/
def id? : Node → Option String
  | .clientReference id _ => some id
  | _ => none

/-- The ids that a tree uses, each once, in the order of first use. -/
def firstUses (root : Node) : List String := (root.nodes.filterMap id?).eraseDups

/-- Known ids, and behind them the new ones of a list of uses. -/
def idsAfter (ids uses : List String) : List String := ids ++ (uses.removeAll ids).eraseDups

theorem idsAfter_append (ids a b : List String) :
    idsAfter ids (a ++ b) = idsAfter (idsAfter ids a) b := by
  have later : b.removeAll (ids ++ (a.removeAll ids).eraseDups) =
      (b.removeAll ids).removeAll (a.removeAll ids) := by
    simp only [List.removeAll, List.filter_filter]
    apply List.filter_congr
    intro id _
    by_cases known : id ∈ ids
    · simp [known]
    · simp [known, List.mem_eraseDups]
  have parts : (a ++ b).removeAll ids = a.removeAll ids ++ b.removeAll ids := by
    rw [List.removeAll, List.filter_append]
    rfl
  rw [idsAfter, parts, List.eraseDups_append, idsAfter, idsAfter, later, List.append_assoc]

theorem idsAfter_nil (ids : List String) : idsAfter ids [] = ids := List.append_nil ids

theorem prefix_idsAfter (ids uses : List String) : ids <+: idsAfter ids uses := List.prefix_append _ _

theorem numberOf_ids (ids : List String) (id : String) : (numberOf ids id).2 = idsAfter ids [id] := by
  unfold numberOf
  cases found : ids.idxOf? id with
  | some index =>
      have known : id ∈ ids := by
        rw [← List.isSome_idxOf?, found]
        rfl
      simp [idsAfter, List.removeAll, known]
  | none =>
      have new : id ∉ ids := List.idxOf?_eq_none_iff.mp found
      simp [idsAfter, List.removeAll, new, List.eraseDups_cons]

/-- The number of an id is its place, from one, among the ids used after it. -/
theorem numberOf_number (ids : List String) (id : String) :
    ∃ index, (numberOf ids id).1 = index + 1 ∧ (numberOf ids id).2[index]? = some id := by
  unfold numberOf
  cases found : ids.idxOf? id with
  | some index =>
      obtain ⟨bound, same, _⟩ := List.idxOf?_eq_some_iff.mp found
      exact ⟨index, rfl, by rw [List.getElem?_eq_getElem bound, same]⟩
  | none => exact ⟨ids.length, rfl, by simp⟩

mutual

theorem lower_ids (ids : List String) (node : Node) :
    (node.lower ids).2 = idsAfter ids (node.nodes.filterMap id?) := by
  cases node with
  | text shown => exact (idsAfter_nil ids).symm
  | element tag props children => exact lowerAll_ids ids children
  | clientReference id props => exact numberOf_ids ids id
  | lazy row props => exact (idsAfter_nil ids).symm

theorem lowerAll_ids (ids : List String) (children : List Node) :
    (lowerAll ids children).2 = idsAfter ids ((nodesOf children).filterMap id?) := by
  cases children with
  | nil => exact (idsAfter_nil ids).symm
  | cons node rest =>
      rw [nodesOf, List.filterMap_append, idsAfter_append, ← lower_ids ids node]
      exact lowerAll_ids _ rest

end

/-- A row number stands for an id when it is the place of that id, counted from one. -/
def Numbers (ids : List String) (row : Nat) (id : String) : Prop :=
  ∃ index, row = index + 1 ∧ ids[index]? = some id

theorem Numbers.mono {ids more : List String} {row : Nat} {id : String} (numbers : Numbers ids row id)
    (longer : ids <+: more) : Numbers more row id := by
  obtain ⟨index, place, found⟩ := numbers
  obtain ⟨behind, rfl⟩ := longer
  have bound : index < ids.length := (List.getElem?_eq_some_iff.mp found).1
  exact ⟨index, place, by rw [List.getElem?_append_left bound, found]⟩

theorem numbers_numberOf (ids : List String) (id : String) :
    Numbers (numberOf ids id).2 (numberOf ids id).1 id := numberOf_number ids id

/-- A tree in which rows stand for all components of the client. -/
structure Lowered (ids : List String) (nodes : List Node) : Prop where
  noReference : ∀ id props, .clientReference id props ∉ nodes
  numbered : ∀ row props, .lazy row props ∈ nodes → ∃ id, Numbers ids row id

theorem Lowered.append {ids : List String} {a b : List Node} (first : Lowered ids a) (second : Lowered ids b) :
    Lowered ids (a ++ b) where
  noReference id props member := by
    rcases List.mem_append.mp member with here | there
    · exact first.noReference id props here
    · exact second.noReference id props there
  numbered row props member := by
    rcases List.mem_append.mp member with here | there
    · exact first.numbered row props here
    · exact second.numbered row props there

theorem Lowered.mono {ids more : List String} {nodes : List Node} (lowered : Lowered ids nodes)
    (longer : ids <+: more) : Lowered more nodes where
  noReference := lowered.noReference
  numbered row props member := (lowered.numbered row props member).imp fun _ numbers => numbers.mono longer

/-- A node that is no component of the client keeps a tree lowered. -/
theorem Lowered.cons {ids : List String} {node : Node} {nodes : List Node} (rest : Lowered ids nodes)
    (noReference : ∀ id props, .clientReference id props ≠ node) (noLazy : ∀ row props, .lazy row props ≠ node) :
    Lowered ids (node :: nodes) where
  noReference id props member := by
    rcases List.mem_cons.mp member with same | later
    · exact noReference id props same
    · exact rest.noReference id props later
  numbered row props member := by
    rcases List.mem_cons.mp member with same | later
    · exact absurd same (noLazy row props)
    · exact rest.numbered row props later

theorem Lowered.nil (ids : List String) : Lowered ids [] := ⟨nofun, nofun⟩

theorem prefix_lowerAll (ids : List String) (children : List Node) : ids <+: (lowerAll ids children).2 := by
  rw [lowerAll_ids]
  exact prefix_idsAfter _ _

mutual

theorem lower_lowered (ids : List String) (node : Node) (plain : ∀ row props, .lazy row props ∉ node.nodes) :
    Lowered (node.lower ids).2 (node.lower ids).1.nodes := by
  cases node with
  | text shown => exact (Lowered.nil _).cons nofun nofun
  | element tag props children =>
      have below : ∀ row props, .lazy row props ∉ nodesOf children := fun row props member =>
        plain row props (List.mem_cons_of_mem _ member)
      exact (lowerAll_lowered ids children below).cons nofun nofun
  | clientReference id props =>
      refine ⟨fun other props member => ?_, fun row props member => ⟨id, ?_⟩⟩
      · cases List.mem_singleton.mp member
      · obtain ⟨rfl, _⟩ := Node.lazy.inj (List.mem_singleton.mp member)
        exact numbers_numberOf ids id
  | lazy row props => exact absurd List.mem_cons_self (plain row props)

theorem lowerAll_lowered (ids : List String) (children : List Node)
    (plain : ∀ row props, .lazy row props ∉ nodesOf children) :
    Lowered (lowerAll ids children).2 (nodesOf (lowerAll ids children).1) := by
  cases children with
  | nil => exact Lowered.nil _
  | cons node rest =>
      have first := lower_lowered ids node fun row props member =>
        plain row props (List.mem_append_left _ member)
      have later := lowerAll_lowered (node.lower ids).2 rest fun row props member =>
        plain row props (List.mem_append_right _ member)
      exact (first.mono (prefix_lowerAll _ rest)).append later

end

end Node

namespace ReceivedPage

open Node (Numbers)

theorem reference?_putReference (page : ReceivedPage) (row other : Nat) (id : String) :
    (page.apply (.reference row id)).reference? other =
      if other = row then some id else page.reference? other := by
  rw [apply, reference?, reference?]
  dsimp only
  generalize page.references = known
  induction known with
  | nil => by_cases same : other = row <;> simp [putReference, same, Ne.symm]
  | cons first rest ih =>
      obtain ⟨r, i⟩ := first
      rw [putReference]
      split
      · by_cases same : other = row
        · simp [same]
        · simp [same, Ne.symm same]
      · split
        · rename_i equal
          obtain rfl := beq_iff_eq.mp equal
          by_cases same : other = row
          · simp [same]
          · simp [same, Ne.symm same]
        · rename_i notEqual
          have different : row ≠ r := by simpa using notEqual
          by_cases here : r = other
          · subst here
            simp [Ne.symm different]
          · rw [List.find?_cons_of_neg (by simpa using here), ih, List.find?_cons_of_neg (by simpa using here)]

theorem applyAll_append (page : ReceivedPage) (a b : List Row) :
    page.applyAll (a ++ b) = (page.applyAll a).applyAll b := List.foldl_append

/-- Rows that introduce ids from some number on leave the numbers below it as they are. -/
theorem reference?_referenceRows (page : ReceivedPage) (first : Nat) (ids : List String) (row : Nat) :
    (page.applyAll (Node.referenceRows first ids)).reference? row =
      if first ≤ row ∧ row < first + ids.length then ids[row - first]? else page.reference? row := by
  induction ids generalizing page first with
  | nil =>
      have outside : ¬(first ≤ row ∧ row < first + ([] : List String).length) := by simp
      rw [if_neg outside]
      rfl
  | cons id rest ih =>
      have step : (page.applyAll (Node.referenceRows first (id :: rest))).reference? row =
          ((page.apply (.reference first id)).applyAll
            (Node.referenceRows (first + 1) rest)).reference? row := rfl
      rw [step, ih, reference?_putReference, List.length_cons]
      by_cases here : row = first
      · subst here
        rw [if_neg (by omega), if_pos rfl, if_pos (by omega), Nat.sub_self, List.getElem?_cons_zero]
      · by_cases within : first + 1 ≤ row ∧ row < first + 1 + rest.length
        · obtain ⟨below, rfl⟩ := Nat.exists_eq_add_of_le within.1
          have place : first + 1 + below - first = below + 1 := by omega
          rw [if_pos within, if_pos (by omega), place, List.getElem?_cons_succ, Nat.add_sub_cancel_left]
        · rw [if_neg within, if_neg here, if_neg (by omega)]

mutual

/-- A tree comes back from its lowered form on every page that knows the numbers. -/
theorem resolveNode_lower {page : ReceivedPage} (ids : List String) (node : Node)
    (plain : ∀ row props, .lazy row props ∉ node.nodes)
    (known : ∀ row id, Numbers (node.lower ids).2 row id → page.reference? row = some id) :
    page.resolveNode (node.lower ids).1 = .ok node := by
  cases node with
  | text shown => rfl
  | element tag props children =>
      have below := resolveNodes_lowerAll ids children
        (fun row props member => plain row props (List.mem_cons_of_mem _ member)) known
      rw [Node.lower, resolveNode, below]
      rfl
  | clientReference id props =>
      rw [Node.lower, resolveNode, known _ id (Node.numbers_numberOf ids id)]
  | lazy row props => exact absurd List.mem_cons_self (plain row props)

theorem resolveNodes_lowerAll {page : ReceivedPage} (ids : List String) (children : List Node)
    (plain : ∀ row props, .lazy row props ∉ Node.nodesOf children)
    (known : ∀ row id, Numbers (Node.lowerAll ids children).2 row id → page.reference? row = some id) :
    page.resolveNodes (Node.lowerAll ids children).1 = .ok children := by
  cases children with
  | nil => rfl
  | cons node rest =>
      have first := resolveNode_lower ids node
        (fun row props member => plain row props (List.mem_append_left _ member))
        (fun row id numbers => known row id (numbers.mono (Node.prefix_lowerAll _ rest)))
      have later := resolveNodes_lowerAll (node.lower ids).2 rest
        (fun row props member => plain row props (List.mem_append_right _ member)) known
      rw [Node.lowerAll, resolveNodes, first, later]
      rfl

end

end ReceivedPage

namespace Row

def number : Row → Nat
  | .reference row _ => row
  | .tree row _ => row

end Row

namespace Node

theorem referenceRows_eq (first : Nat) (ids : List String) :
    referenceRows first ids = (ids.zipIdx first).map fun (id, row) => .reference row id := by
  induction ids generalizing first with
  | nil => rfl
  | cons id rest ih => rw [referenceRows, ih, List.zipIdx_cons, List.map_cons]

theorem nodup_eraseDups (ids : List String) : ids.eraseDups.Nodup := by
  induction length : ids.length using Nat.strongRecOn generalizing ids with
  | ind size ih =>
      cases ids with
      | nil => exact List.nodup_nil
      | cons id rest =>
          have shorter : (rest.filter fun other => !other == id).length < size := by
            have bound := List.length_filter_le (fun other => !other == id) rest
            rw [← length, List.length_cons]
            omega
          rw [List.eraseDups_cons, List.nodup_cons]
          refine ⟨fun member => ?_, ih _ shorter _ rfl⟩
          simp [List.mem_eraseDups] at member

theorem lower_firstUses (root : Node) : (root.lower []).2 = root.firstUses := by
  have all : (root.nodes.filterMap id?).removeAll [] = root.nodes.filterMap id? :=
    List.filter_eq_self.mpr fun _ _ => rfl
  rw [lower_ids, idsAfter, List.nil_append, all, firstUses]

/-- The rows of a tree in which no row number stands yet. Each id that it uses gets one row, numbered from one
in the order of first use, and the tree comes last. Every number that stands in the tree is that of a row
before it; all numbers have 32 bits; and the rows, applied in order, give the tree back. -/
theorem rows_resolve {root : Node} (plain : ∀ row props, .lazy row props ∉ root.nodes)
    (few : root.firstUses.length < 0xFFFFFFFF) :
    ∃ references tree, root.rows = references ++ [.tree 0 tree] ∧
      references = (root.firstUses.zipIdx 1).map (fun (id, row) => .reference row id) ∧
      root.firstUses.Nodup ∧
      (∀ id props, .clientReference id props ∉ tree.nodes) ∧
      (∀ row props, .lazy row props ∈ tree.nodes → ∃ id, .reference row id ∈ references) ∧
      (∀ row ∈ root.rows, row.number < 0x100000000) ∧
      (ReceivedPage.empty.applyAll root.rows).resolve = .ok (some root) := by
  have lowered := lower_lowered [] root plain
  have rows_eq : root.rows = referenceRows 1 root.firstUses ++ [.tree 0 (root.lower []).1] := by
    rw [← lower_firstUses]
    rfl
  refine ⟨_, _, rows_eq, referenceRows_eq 1 _, nodup_eraseDups _, lowered.noReference, ?_, ?_, ?_⟩
  · intro row props member
    obtain ⟨id, index, rfl, found⟩ := lowered.numbered row props member
    rw [lower_firstUses] at found
    refine ⟨id, ?_⟩
    rw [referenceRows_eq]
    have listed : (id, index + 1) ∈ root.firstUses.zipIdx 1 :=
      List.mk_mem_zipIdx_iff_le_and_getElem?_sub.mpr ⟨Nat.le_add_left 1 index, found⟩
    exact List.mem_map.mpr ⟨_, listed, rfl⟩
  · intro row member
    rw [rows_eq, referenceRows_eq] at member
    rcases List.mem_append.mp member with reference | tree
    · obtain ⟨⟨id, number⟩, listed, rfl⟩ := List.mem_map.mp reference
      have bounds := List.mem_zipIdx listed
      dsimp only [Row.number]
      omega
    · rw [List.mem_singleton.mp tree]
      exact (by decide : 0 < 0x100000000)
  · have known : ∀ row id, Numbers (root.lower []).2 row id →
        (ReceivedPage.empty.applyAll root.rows).reference? row = some id := by
      rintro row id ⟨index, rfl, found⟩
      rw [lower_firstUses] at found
      have bound : index < root.firstUses.length := (List.getElem?_eq_some_iff.mp found).1
      have last : (ReceivedPage.empty.applyAll root.rows).reference? (index + 1) =
          (ReceivedPage.empty.applyAll (referenceRows 1 root.firstUses)).reference? (index + 1) := by
        rw [rows_eq, ReceivedPage.applyAll_append]
        rfl
      rw [last, ReceivedPage.reference?_referenceRows, if_pos (by omega), Nat.add_sub_cancel, found]
    have sent : (ReceivedPage.empty.applyAll root.rows).root = some (root.lower []).1 := by
      rw [rows_eq, ReceivedPage.applyAll_append]
      rfl
    rw [ReceivedPage.resolve, sent]
    dsimp only
    rw [ReceivedPage.resolveNode_lower [] root plain known]
    rfl

/-- A page that uses a component again after another one. -/
def votes : Node :=
  .element "ul" [] [
    .clientReference "like.js#Like" [("album", .text "a1")],
    .element "li" [] [.text "plain", .clientReference "vote.js#Vote" []],
    .clientReference "like.js#Like" [("album", .text "a2")]]

theorem votes_resolve : (∀ row props, .lazy row props ∉ votes.nodes) ∧ votes.firstUses.length < 0xFFFFFFFF ∧
    votes.firstUses = ["like.js#Like", "vote.js#Vote"] ∧
      (ReceivedPage.empty.applyAll votes.rows).resolve = .ok (some votes) := by
  have plain : ∀ row props, .lazy row props ∉ votes.nodes := by simp [votes, nodes, nodesOf]
  have uses : votes.firstUses = ["like.js#Like", "vote.js#Vote"] := by decide
  have few : votes.firstUses.length < 0xFFFFFFFF := by simp [uses]
  obtain ⟨_, _, _, _, _, _, _, _, resolves⟩ := rows_resolve plain few
  exact ⟨plain, few, uses, resolves⟩

end Node
end Realms
