import Realms.Proofs.Json.Value
import Realms.Proofs.Sorted

/-!
Rows as values. A row and its tree leave out what is empty, and what was left out counts as empty again, so
that the value of a row has the shape of that row.
-/
namespace Realms

open Realms.Json

namespace Json

/-- The keys of every object in a value ascend. This is the form in which free data is kept. -/
inductive Value.IsSorted : Value → Prop where
  | null : IsSorted .null
  | bool (b : Bool) : IsSorted (.bool b)
  | number (n : Number) : IsSorted (.number n)
  | text (s : String) : IsSorted (.text s)
  | list {items : List Value} : (∀ v ∈ items, IsSorted v) → IsSorted (.list items)
  | object {members : List (String × Value)} : Sorted.Ascending Prod.fst members →
    (∀ member ∈ members, IsSorted member.2) → IsSorted (.object members)

theorem insertMember_last {α : Type} {key : String} {members : List (String × α)} (value : α)
    (last : ∀ member ∈ members, member.1 < key) : insertMember key value members = members ++ [(key, value)] := by
  induction members with
  | nil => rfl
  | cons first rest ih =>
      have less : first.1 < key := last first List.mem_cons_self
      have notLess : ¬key < first.1 := lt_asymm less
      have notSame : key ≠ first.1 := less.ne'
      simp [insertMember, notLess, notSame, ih fun member isMember => last member (List.mem_cons_of_mem first isMember)]

theorem sortMembers_ascending {α : Type} {members : List (String × α)}
    (ascending : Sorted.Ascending Prod.fst members) : sortMembers members = members := by
  have each (front back : List (String × α)) (all : Sorted.Ascending Prod.fst (front ++ back)) :
      back.foldl (fun sorted member => insertMember member.1 member.2 sorted) front = front ++ back := by
    induction back generalizing front with
    | nil => simp
    | cons next back ih =>
        have last : ∀ member ∈ front, member.1 < next.1 := fun member isMember =>
          (List.pairwise_append.mp all).2.2 member isMember next List.mem_cons_self
        rw [List.foldl_cons, insertMember_last next.2 last, ih _ (by simpa using all), List.append_assoc]
        rfl
  exact each [] members ascending

theorem sortedItems_eq {items : List Value} (each : ∀ v ∈ items, v.sorted = v) : sortedItems items = items := by
  induction items with
  | nil => rfl
  | cons v rest ih =>
      rw [sortedItems, each v List.mem_cons_self, ih fun u member => each u (List.mem_cons_of_mem v member)]

theorem sortedMembers_eq {members : List (String × Value)}
    (each : ∀ member ∈ members, member.2.sorted = member.2) : sortedMembers members = members := by
  induction members with
  | nil => rfl
  | cons first rest ih =>
      obtain ⟨k, v⟩ := first
      have same : v.sorted = v := each (k, v) List.mem_cons_self
      rw [sortedMembers, same, ih fun member isMember => each member (List.mem_cons_of_mem _ isMember)]

theorem Value.IsSorted.sorted_eq {v : Value} (isSorted : v.IsSorted) : v.sorted = v := by
  induction isSorted with
  | null => rfl
  | bool b => rfl
  | number n => rfl
  | text s => rfl
  | list _ each => rw [Value.sorted, sortedItems_eq each]
  | object ascending _ each => rw [Value.sorted, sortedMembers_eq each, sortMembers_ascending ascending]

end Json

/-- Properties as a node holds them, with whole numbers only. -/
structure IsData (props : Props) : Prop where
  whole : (Value.object props).IsWhole
  sorted : (Value.object props).IsSorted

theorem isData_nil : IsData [] := ⟨.object (by simp), .object Sorted.ascending_nil (by simp)⟩

/-- A row number has 32 bits. -/
def IsRowNumber (row : Nat) : Prop := row < 0x100000000

/-- A node as it may be sent: its row numbers are ones, and the numbers in its properties are whole. -/
inductive Node.IsSendable : Node → Prop where
  | text (shown : String) : IsSendable (.text shown)
  | element (tag : String) {props : Props} {children : List Node} :
    IsData props → (∀ child ∈ children, IsSendable child) → IsSendable (.element tag props children)
  | clientReference (id : String) {props : Props} : IsData props → IsSendable (.clientReference id props)
  | lazy {row : Nat} {props : Props} : IsRowNumber row → IsData props → IsSendable (.lazy row props)

def Row.IsSendable : Row → Prop
  | .reference row _ => IsRowNumber row
  | .tree row root => IsRowNumber row ∧ root.IsSendable

/-! The values are whole. -/

theorem isWhole_ofNat {row : Nat} (isRow : IsRowNumber row) : (Value.ofNat row).IsWhole := by
  refine .number (decide_eq_true ?_)
  unfold IsRowNumber at isRow
  unfold largest
  omega

theorem Node.values_eq (children : List Node) : values children = children.map value := by
  induction children with
  | nil => rfl
  | cons child rest ih => rw [values, ih, List.map_cons]

theorem isWhole_propsMember {props : Props} (data : IsData props) :
    ∀ member ∈ propsMember props, member.2.IsWhole := by
  intro member isMember
  unfold propsMember at isMember
  split at isMember
  · cases isMember
  · rw [List.mem_singleton.mp isMember]
    exact data.whole

theorem Node.IsSendable.isWhole {node : Node} (sendable : node.IsSendable) : node.value.IsWhole := by
  induction sendable with
  | text shown =>
      rw [Node.value]
      exact .object (by simp [Value.IsWhole.text])
  | @element tag props children data _ each =>
      have inner : ∀ member ∈ (if children.isEmpty then [] else [("children", Value.list (values children))]),
          member.2.IsWhole := by
        intro member isMember
        split at isMember
        · cases isMember
        · rw [List.mem_singleton.mp isMember, values_eq]
          exact .list (by simpa using each)
      rw [Node.value]
      refine .object fun member isMember => ?_
      rcases List.mem_append.mp isMember with front | isChildren
      · rcases List.mem_append.mp front with isTag | isProps
        · rcases List.mem_pair.mp isTag with rfl | rfl <;> exact .text _
        · exact isWhole_propsMember data member isProps
      · exact inner member isChildren
  | clientReference id data =>
      rw [Node.value]
      refine .object fun member isMember => ?_
      rcases List.mem_append.mp isMember with isTag | isProps
      · rcases List.mem_pair.mp isTag with rfl | rfl <;> exact .text _
      · exact isWhole_propsMember data member isProps
  | lazy isRow data =>
      rw [Node.value]
      refine .object fun member isMember => ?_
      rcases List.mem_append.mp isMember with isTag | isProps
      · rcases List.mem_pair.mp isTag with rfl | rfl
        · exact .text _
        · exact isWhole_ofNat isRow
      · exact isWhole_propsMember data member isProps

theorem Row.IsSendable.isWhole {row : Row} (sendable : row.IsSendable) : row.value.IsWhole := by
  cases row with
  | reference row id =>
      have whole := isWhole_ofNat sendable
      exact .object (by simp [Value.IsWhole.text, whole])
  | tree row root =>
      have whole := isWhole_ofNat sendable.1
      exact .object (by simp [Value.IsWhole.text, whole, sendable.2.isWhole])

/-! The shapes take the values for what they are. -/

namespace Exchange.Shape

theorem size_ofNat {row : Nat} (isRow : IsRowNumber row) : size (.ofNat row) = some row := by
  unfold IsRowNumber at isRow
  simp [size, Value.ofNat, isRow]

theorem props_object {props : Props} (data : IsData props) : Shape.props (.object props) = some props := by
  have same := data.sorted.sorted_eq
  rw [Value.sorted] at same
  rw [Shape.props, Value.object.inj same]

/-- The tag in front, then members none of which is another tag. -/
theorem tagged_of?_cons {name : String} {tag : Value} {members : List (String × Value)}
    (other : ∀ member ∈ members, member.1 ≠ name) :
    Tagged.of? name (.object ((name, tag) :: members)) = some ⟨tag, .object members⟩ := by
  have noTag : members.filter (·.1 == name) = [] := by simpa [List.filter_eq_nil_iff] using other
  have all : members.filter (·.1 != name) = members := by simpa [List.filter_eq_self] using other
  simp [Tagged.of?, noTag, all]

/-- The fields of a record whose keys are different. -/
theorem fieldsLeaving_object {left : Nat} {names : List String} {members : List (String × Value)}
    (different : (members.map Prod.fst).Nodup) :
    fieldsLeaving left names (.object members) = some (names.map (Value.object members).get?) := by
  have once (name : String) : isRepeated members name = false := by
    have count : (members.filter (·.1 == name)).length = (members.map Prod.fst).count name := by
      rw [List.count, List.countP_map, List.countP_eq_length_filter]
      rfl
    have atMost := List.nodup_iff_count_le_one.mp different name
    simp only [isRepeated, count, decide_eq_false_iff_not]
    omega
  simp [fieldsLeaving, once]

theorem withDefault_props {props : Props} (data : IsData props) :
    withDefault [] Shape.props (if props.isEmpty then none else some (.object props)) = some props := by
  cases props with
  | nil => rfl
  | cons first rest => exact props_object data

theorem withDefault_children {item : Shape Node} {children : List Node}
    (each : ∀ child ∈ children, item child.value = some child) :
    withDefault [] (list item) (if children.isEmpty then none else some (.list (Node.values children))) =
      some children := by
  cases children with
  | nil => rfl
  | cons first rest =>
      rw [Node.values_eq]
      exact list_map each

/-- The fields of a component besides its tag: what names it, and its properties. -/
theorem fieldsLeaving_named (name : String) {v : Value} (props : Props) (notProps : name ≠ "props") :
    fieldsLeaving 1 [name, "props"] (.object ((name, v) :: propsMember props)) =
      some [some v, if props.isEmpty then none else some (.object props)] := by
  cases props with
  | nil =>
      rw [fieldsLeaving_object (by simp [propsMember])]
      simp [propsMember, Value.get?, notProps]
  | cons first rest =>
      rw [fieldsLeaving_object (by simp [propsMember, notProps])]
      simp [propsMember, Value.get?, notProps.symm]

theorem fieldsLeaving_element (tag : String) (props : Props) (children : List Node) :
    fieldsLeaving 2 ["tag", "props", "children"] (.object ([("tag", .text tag)] ++ propsMember props ++
        (if children.isEmpty then [] else [("children", .list (Node.values children))]))) =
      some [some (.text tag), if props.isEmpty then none else some (.object props),
        if children.isEmpty then none else some (.list (Node.values children))] := by
  cases props <;> cases children
  all_goals
    rw [fieldsLeaving_object (by simp [propsMember])]
    simp [propsMember, Value.get?]

end Exchange.Shape

/-! A child lies two levels below its element: one for the element, one for the list of its children. -/

theorem levelsOfMembers_append (front back : List (String × Value)) :
    levelsOfMembers (front ++ back) = max (levelsOfMembers front) (levelsOfMembers back) := by
  induction front with
  | nil => simp [levelsOfMembers]
  | cons first rest ih =>
      obtain ⟨k, v⟩ := first
      rw [List.cons_append, levelsOfMembers, levelsOfMembers, ih, Nat.max_assoc]

theorem levelsOf_le_items {v : Value} {items : List Value} (member : v ∈ items) :
    levelsOf v ≤ levelsOfItems items := by
  induction items with
  | nil => cases member
  | cons u rest ih =>
      rw [levelsOfItems]
      rcases List.mem_cons.mp member with rfl | later
      · exact Nat.le_max_left _ _
      · exact (ih later).trans (Nat.le_max_right _ _)

theorem Node.levelsOf_child (tag : String) (props : Props) {children : List Node} {child : Node}
    (member : child ∈ children) : levelsOf child.value + 2 ≤ levelsOf (Node.element tag props children).value := by
  have some : children.isEmpty = false := List.isEmpty_eq_false_iff.mpr (List.ne_nil_of_mem member)
  have inner : levelsOf child.value ≤ levelsOfItems (values children) := by
    rw [values_eq]
    exact levelsOf_le_items (List.mem_map_of_mem member)
  rw [Node.value, levelsOf, levelsOfMembers_append, some]
  simp only [Bool.false_eq_true, ↓reduceIte, levelsOfMembers, levelsOf]
  omega

theorem Node.levelsOf_pos (node : Node) : 0 < levelsOf node.value := by
  cases node <;> exact Nat.succ_pos _

theorem propsMember_key {props : Props} {member : String × Value} (isMember : member ∈ propsMember props) :
    member.1 = "props" := by
  unfold propsMember at isMember
  split at isMember
  · cases isMember
  · rw [List.mem_singleton.mp isMember]

theorem Node.place?_tag {byPlace : Bool} (tag : String) (place : Nat) (isTag : tags.idxOf? tag = some place) :
    Tagged.place? byPlace tags (.text tag) = some place := isTag

theorem propsMember_ne {name key : String} {v : Value} {props : Props} (notKey : key ≠ name)
    (notProps : "props" ≠ name) : ∀ member ∈ (key, v) :: propsMember props, member.1 ≠ name := by
  intro member isMember
  rcases List.mem_cons.mp isMember with rfl | isProps
  · exact notKey
  · rw [propsMember_key isProps]
    exact notProps

theorem Node.elementMembers_ne (tag : String) (props : Props) (children : List Node) :
    ∀ member ∈ ("tag", Value.text tag) :: (propsMember props ++
      if children.isEmpty then [] else [("children", .list (values children))]), member.1 ≠ "type" := by
  intro member isMember
  rw [← List.cons_append] at isMember
  rcases List.mem_append.mp isMember with front | isChildren
  · exact propsMember_ne (by decide) (by decide) member front
  · split at isChildren
    · cases isChildren
    · rw [List.mem_singleton.mp isChildren]
      simp

open Exchange.Shape in
/-- The value of a node has the shape of that node, at any number of levels that it fits in. -/
theorem Node.IsSendable.nodeWithin {node : Node} (sendable : node.IsSendable) {levels : Nat} (byPlace : Bool)
    (enough : levelsOf node.value ≤ levels) : Exchange.Shape.nodeWithin levels byPlace node.value = some node := by
  obtain ⟨levels, rfl⟩ := Nat.exists_eq_succ_of_ne_zero (Nat.ne_zero_of_lt ((levelsOf_pos node).trans_le enough))
  induction sendable generalizing levels byPlace with
  | text shown =>
      have field : fields ["text"] (.object [("text", .text shown)]) = some [some (.text shown)] := by
        rw [fields, fieldsLeaving_object (by simp)]
        simp [Value.get?]
      rw [Exchange.Shape.nodeWithin, Node.value, tagged_of?_cons (by simp)]
      simp only [place?_tag "text" 0 (by decide), field, bind, Option.bind, pure]
      rfl
  | @element tag props children data _ each =>
      have inner : ∀ child ∈ children, Exchange.Shape.nodeWithin levels true child.value = some child := by
        intro child member
        have deeper := levelsOf_child tag props member
        have pos := levelsOf_pos child
        obtain ⟨fewer, rfl⟩ := Nat.exists_eq_succ_of_ne_zero (n := levels) (by omega)
        exact each child member true fewer (by omega)
      have field := fieldsLeaving_element tag props children
      simp only [List.cons_append, List.nil_append] at field
      simp only [Exchange.Shape.nodeWithin, Node.value, List.cons_append, List.nil_append]
      rw [tagged_of?_cons (elementMembers_ne tag props children)]
      simp only [place?_tag "element" 1 (by decide), field, bind, Option.bind, pure]
      rw [withDefault_props data, withDefault_children inner]
      rfl
  | @clientReference id props data =>
      rw [Exchange.Shape.nodeWithin, Node.value, List.cons_append, List.cons_append, List.nil_append,
        tagged_of?_cons (propsMember_ne (by decide) (by decide))]
      simp only [place?_tag "clientReference" 2 (by decide),
        fieldsLeaving_named "id" props (by decide), bind, Option.bind, pure]
      rw [withDefault_props data]
      rfl
  | @lazy row props isRow data =>
      rw [Exchange.Shape.nodeWithin, Node.value, List.cons_append, List.cons_append, List.nil_append,
        tagged_of?_cons (propsMember_ne (by decide) (by decide))]
      simp only [place?_tag "lazy" 3 (by decide),
        fieldsLeaving_named "row" props (by decide), bind, Option.bind, pure]
      rw [withDefault_props data]
      simp [required, size_ofNat isRow]

end Realms
