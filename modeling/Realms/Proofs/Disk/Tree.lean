import Realms.Proofs.Disk.Leaves
import Realms.Proofs.Sorted

/-!
Disks that are trees. What stands on such a disk stands in a folder, so that nothing lies below a file or below a
free place, and the folders above a file lead to it. A path that leads to anything but a folder ends in its name.
Steps that clear, create and write keep a tree, since they put something only into a folder that is there.
-/
namespace Realms

namespace Disk

open FilePath (place through)

/-- Places that are named once, each in a folder. -/
structure IsTree (disk : Disk) : Prop where
  /-- The root is no place of its own. -/
  once : ([] :: disk.nodes.map Prod.fst).Nodup
  held : ∀ spot name node, disk.node? (spot ++ [name]) = some node → disk.node? spot = some .folder

variable {disk : Disk} {spot : Place} {node : FileNode}

theorem node?_of_ne (notRoot : spot ≠ []) : disk.node? spot = (disk.nodes.find? (·.1 == spot)).map Prod.snd := by
  rw [node?, if_neg (by simpa using notRoot)]

theorem mem_of_node? (notRoot : spot ≠ []) (stands : disk.node? spot = some node) : (spot, node) ∈ disk.nodes := by
  rw [node?_of_ne notRoot, Option.map_eq_some_iff] at stands
  obtain ⟨⟨found, _⟩, finds, rfl⟩ := stands
  have same : found = spot := by simpa using List.find?_some finds
  exact same ▸ List.mem_of_find?_eq_some finds

/-- It is enough that what holds each place is a folder. -/
theorem isTree_of_all (once : ([] :: disk.nodes.map Prod.fst).Nodup)
    (held : ∀ entry ∈ disk.nodes, disk.node? entry.1.dropLast = some .folder) : disk.IsTree where
  once
  held spot name node stands := by
    have folder := held _ (mem_of_node? (by simp) stands)
    rwa [List.dropLast_concat] at folder

/-- What is listed below a place: the files behind it. -/
theorem fileBelow_eq_some {found names : Place} {content : List UInt8} : (match node with
      | .file content => if spot.isPrefixOf found then some (found.drop spot.length, content) else none
      | .folder => none) = some (names, content) ↔ found = spot ++ names ∧ node = .file content := by
  constructor
  · intro same
    cases node with
    | folder => cases same
    | file bytes =>
        dsimp only at same
        split at same
        · rename_i within
          obtain ⟨rest, rfl⟩ := List.isPrefixOf_iff_prefix.mp within
          rw [List.drop_left] at same
          cases same
          exact ⟨rfl, rfl⟩
        · cases same
  · rintro ⟨rfl, rfl⟩
    dsimp only
    rw [if_pos (List.isPrefixOf_iff_prefix.mpr (List.prefix_append _ _)), List.drop_left]

theorem fileAt?_eq_some {content : List UInt8} :
    disk.fileAt? spot = some content ↔ disk.node? spot = some (.file content) := by
  rw [fileAt?]
  split <;> simp_all

namespace IsTree

variable (tree : disk.IsTree)

include tree

theorem mem_nodes : (spot, node) ∈ disk.nodes ↔ spot ≠ [] ∧ disk.node? spot = some node := by
  obtain ⟨apart, nodup⟩ := List.nodup_cons.mp tree.once
  refine ⟨fun member => ?_, fun ⟨notRoot, stands⟩ => mem_of_node? notRoot stands⟩
  have notRoot : spot ≠ [] := fun root => apart (List.mem_map.mpr ⟨_, member, root⟩)
  have found : disk.nodes.find? (·.1 == spot) = some (spot, node) :=
    (find?_key_eq_some nodup).mpr ⟨member, rfl⟩
  exact ⟨notRoot, by rw [node?_of_ne notRoot, found, Option.map_some]⟩

/-- Above whatever stands somewhere there are folders. -/
theorem folder_above {names : Place} (below : names ≠ []) (stands : disk.node? (spot ++ names) = some node) :
    disk.node? spot = some .folder := by
  induction names using List.reverseRecOn generalizing node with
  | nil => exact absurd rfl below
  | append_singleton front name ih =>
      rw [← List.append_assoc] at stands
      have holds := tree.held _ name node stands
      by_cases last : front = []
      · rwa [last, List.append_nil] at holds
      · exact ih last holds

/-- Nothing stands below a place that is free. -/
theorem free_below {names : Place} (free : disk.node? spot = none) : disk.node? (spot ++ names) = none := by
  cases names with
  | nil => rwa [List.append_nil]
  | cons name rest =>
      cases stands : disk.node? (spot ++ name :: rest) with
      | none => rfl
      | some node =>
          rw [tree.folder_above (List.cons_ne_nil name rest) stands] at free
          cases free

theorem mem_filesBelow {names : Place} {content : List UInt8} :
    (names, content) ∈ disk.filesBelow spot ↔ disk.fileAt? (spot ++ names) = some content := by
  rw [fileAt?_eq_some, filesBelow, List.mem_filterMap]
  constructor
  · rintro ⟨⟨found, node⟩, member, same⟩
    obtain ⟨rfl, rfl⟩ := fileBelow_eq_some.mp same
    exact (tree.mem_nodes.mp member).2
  · intro stands
    have notRoot : spot ++ names ≠ [] := by
      intro root
      rw [root] at stands
      cases stands
    exact ⟨_, tree.mem_nodes.mpr ⟨notRoot, stands⟩, fileBelow_eq_some.mpr ⟨rfl, rfl⟩⟩

theorem filesBelow_nodup (spot : Place) : (disk.filesBelow spot).Nodup := by
  refine List.Nodup.filterMap ?_ (List.nodup_cons.mp tree.once).2.of_map
  rintro ⟨a, node⟩ ⟨b, other⟩ ⟨names, content⟩ first second
  obtain ⟨rfl, rfl⟩ := fileBelow_eq_some.mp first
  obtain ⟨rfl, rfl⟩ := fileBelow_eq_some.mp second
  rfl

end IsTree

end Disk

namespace FilePath

theorem splitParts_noSlash {name : String} (noSlash : '/' ∉ name.toList) : splitParts name = [name] := by
  rw [splitParts, List.splitOn_eq_singleton noSlash]
  simp

/-- A written path taken apart in front of its last part, which is entered from a place on the way. -/
theorem exists_last (here : Place) (text : String) : ∃ front name, '/' ∉ name.toList ∧
    (front = "" ∨ front.toList.getLast? = some '/') ∧ text = front ++ name ∧
      ∃ holder ∈ through here text, place here text = enter holder name := by
  obtain ⟨front, name, parts, noSlash, ends, whole, written⟩ : ∃ front name parts, '/' ∉ name.toList ∧
      (front = "" ∨ front.toList.getLast? = some '/') ∧ text = front ++ name ∧
        splitParts text = parts ++ [name] := by
    by_cases slash : '/' ∈ text.toList.reverse
    · obtain ⟨back, folder, chars, noSlash⟩ := List.eq_append_cons_of_mem slash
      have whole : text = String.ofList folder.reverse ++ "/" ++ String.ofList back.reverse := by
        rw [← String.toList_inj, ← List.reverse_inj, chars]
        simp
      refine ⟨String.ofList folder.reverse ++ "/", String.ofList back.reverse,
        splitParts (String.ofList folder.reverse), by simpa using noSlash, .inr (by simp), whole, ?_⟩
      have last : splitParts (String.ofList back.reverse) = [String.ofList back.reverse] :=
        splitParts_noSlash (by simpa using noSlash)
      rw [whole, splitParts_slash, last]
    · refine ⟨"", text, [], by simpa using slash, .inl rfl, by simp, ?_⟩
      exact splitParts_noSlash (by simpa using slash)
  refine ⟨front, name, noSlash, ends, whole, parts.foldl enter (start here text), ?_, ?_⟩
  · rw [through, written, stops_append]
    exact List.mem_append_right _ List.mem_cons_self
  · rw [place, written, List.foldl_append]
    rfl

end FilePath

namespace Disk

open FilePath (place through)

variable {disk after : Disk} {spot : Place} {node : FileNode} {text : String}

/-- What is no folder has a name, which is the end of the path that leads there. -/
theorem IsTree.ends_in_name (tree : disk.IsTree) (locates : disk.locate text = .ok spot)
    (free : disk.node? spot ≠ some .folder) : ∃ front name, FilePath.IsFileName name ∧
      text = FilePath.join front name ∧ spot = place disk.here front ++ [name] ∧
        disk.node? (place disk.here front) = some .folder := by
  obtain ⟨front, name, noSlash, ends, whole, holder, onWay, leads⟩ := FilePath.exists_last disk.here text
  obtain ⟨_, way, _⟩ := locate_isOk.mp ⟨spot, locates⟩
  have holds := way holder onWay
  have spot_eq := locate_eq_ok locates
  rw [spot_eq, leads] at free
  have plain : FilePath.IsPlain name := by
    refine ⟨?_, ?_, ?_⟩ <;> rintro rfl
    · exact free holds
    · exact free holds
    · -- two dots lead to what holds the folder
      have up : FilePath.enter holder ".." = holder.dropLast := rfl
      rw [up] at free
      induction holder using List.reverseRecOn with
      | nil => exact free rfl
      | append_singleton above last _ =>
          rw [List.dropLast_concat] at free
          exact free (tree.held above last .folder holds)
  have isName : FilePath.IsFileName name := ⟨plain, noSlash⟩
  have joined : text = FilePath.join front name := by
    rw [whole, FilePath.join, if_neg (Bool.eq_false_iff.mp isName.relative), if_pos (by simpa using ends)]
  have above : place disk.here front ∈ through disk.here text := by
    rw [joined]
    exact (FilePath.mem_through_join isName).mpr (.inr rfl)
  refine ⟨front, name, isName, joined, ?_, way _ above⟩
  rw [spot_eq, joined, isName.place_join]

/-- A node that is put into a folder, where no folder is, leaves a tree. -/
theorem IsTree.put (tree : disk.IsTree) {name : String} (holds : disk.node? spot = some .folder)
    (free : disk.node? (spot ++ [name]) ≠ some .folder) : (disk.put (spot ++ [name]) node).IsTree where
  once := by
    obtain ⟨apart, nodup⟩ := List.nodup_cons.mp tree.once
    have others : ((disk.nodes.filter (·.1 != spot ++ [name])).map Prod.fst).Sublist (disk.nodes.map Prod.fst) :=
      List.filter_sublist.map _
    rw [Disk.put, List.map_append, List.map_singleton, List.nodup_cons, List.nodup_append]
    refine ⟨?_, nodup.sublist others, List.nodup_singleton _, ?_⟩
    · rw [List.mem_append, List.mem_singleton, not_or]
      exact ⟨fun member => apart (others.subset member), by simp⟩
    · rintro other member _ own rfl
      obtain rfl := List.mem_singleton.mp own
      obtain ⟨entry, kept, same⟩ := List.mem_map.mp member
      have different := (List.mem_filter.mp kept).2
      rw [same] at different
      simp at different
  held other last found stands := by
    have holder : other ≠ spot ++ [name] ∧ disk.node? other = some .folder := by
      by_cases same : other ++ [last] = spot ++ [name]
      · obtain ⟨rfl, _⟩ := List.append_inj' same rfl
        exact ⟨by simp, holds⟩
      · rw [node?_put_other same] at stands
        have above := tree.held other last found stands
        exact ⟨fun own => free (own ▸ above), above⟩
    rw [node?_put_other holder.1, holder.2]

theorem IsTree.createFolder (tree : disk.IsTree) (h : disk.createFolder text = .ok after) : after.IsTree := by
  obtain ⟨locates, free, rfl⟩ := createFolder_eq_ok h
  obtain ⟨front, name, _, _, spot, holds⟩ := tree.ends_in_name locates (by rw [free]; nofun)
  rw [spot] at free ⊢
  exact tree.put holds (by rw [free]; nofun)

theorem IsTree.createFoldersWithin {levels : Nat} (tree : disk.IsTree)
    (h : Disk.createFoldersWithin levels disk text = .ok after) : after.IsTree :=
  (@createFoldersWithin_relates disk after text (fun before after => before.IsTree → after.IsTree) (fun _ => id)
    (fun first second => second ∘ first) levels (fun _ _ _ _ _ creates tree => tree.createFolder creates) h).2 tree

theorem IsTree.write (tree : disk.IsTree) {content : List UInt8} (h : disk.write text content = .ok after) :
    after.IsTree := by
  obtain ⟨locates, free, rfl⟩ := write_eq_ok h
  obtain ⟨front, name, _, _, spot, holds⟩ := tree.ends_in_name locates free
  rw [spot] at free ⊢
  exact tree.put holds free

theorem IsTree.removeFolder (tree : disk.IsTree) (h : disk.removeFolder text = .ok after) : after.IsTree := by
  have leaves := removeFolder_leaves h
  have gone {other : Place} (within : place disk.here text <+: other) (notRoot : other ≠ []) :=
    removeFolder_node? h within notRoot
  refine ⟨?_, fun spot name node stands => ?_⟩
  · obtain ⟨_, rfl⟩ := removeFolder_eq_ok h
    exact tree.once.sublist ((List.filter_sublist.map _).cons_cons _)
  · have outside : ¬place disk.here text <+: spot ++ [name] := by
      intro within
      rw [gone within (by simp)] at stands
      cases stands
    rw [leaves.nodes _ outside] at stands
    rw [leaves.nodes spot fun within => outside (within.trans (List.prefix_append _ _))]
    exact tree.held spot name node stands

end Disk

/-- Every step but a move leaves a tree. -/
theorem DiskStep.make_isTree {step : DiskStep} {disk after : Disk} (tree : disk.IsTree)
    (stays : ∀ source target, step ≠ .rename source target) (h : step.make disk = .ok after) : after.IsTree := by
  cases step with
  | clear folder =>
      rw [make] at h
      split at h
      · exact tree.removeFolder h
      · exact Except.ok.inj h ▸ tree
  | createFolders folder => exact tree.createFoldersWithin h
  | write file text => exact tree.write h
  | rename source target => exact absurd rfl (stays source target)

theorem DiskStep.makeAll_isTree {steps : List DiskStep} {disk : Disk} (tree : disk.IsTree)
    (stay : ∀ source target, .rename source target ∉ steps) : (makeAll steps disk).disk.IsTree := by
  refine @makeAll_relates (fun before after => before.IsTree → after.IsTree) (fun _ => id)
    (fun first second => second ∘ first) steps disk ?_ tree
  intro step listed before after _ makes tree
  exact make_isTree tree (fun source target own => stay source target (own ▸ listed)) makes

end Realms
