import Realms.Proofs.Disk.Tree

/-!
Disks whose names are those of files, and moves on a tree. A step puts something on a disk only under a name that it
can have there, and what is moved to a place next to it leaves a tree.
-/
namespace Realms

namespace Disk

open FilePath (place through)

variable {disk after : Disk} {spot : Place} {node : FileNode} {source target text : String}

/-! ### Moves -/

/-- What was moved stands at its new place, and nothing at its old one. -/
theorem rename_node? (tree : disk.IsTree) (h : disk.rename source target = .ok after)
    (apart : ∀ names, ¬place disk.here target <+: place disk.here source ++ names) (names : Place) :
    after.node? (place disk.here target ++ names) = disk.node? (place disk.here source ++ names) ∧
      after.node? (place disk.here source ++ names) = none := by
  obtain ⟨_, free, rfl⟩ := rename_eq_ok h
  generalize place disk.here source = start at apart
  generalize place disk.here target = goal at apart free
  have startName : start ≠ [] := by
    rintro rfl
    exact apart goal (List.prefix_refl goal)
  have goalName : goal ≠ [] := by
    rintro rfl
    exact apart [] List.nil_prefix
  constructor
  · apply node?_map (by simp [startName, goalName])
    intro entry listed
    unfold moved
    split
    · rename_i within
      obtain ⟨rest, same⟩ := List.isPrefixOf_iff_prefix.mp within
      rw [← same, List.drop_left, List.append_cancel_left_eq, List.append_cancel_left_eq]
    · rename_i outside
      constructor
      · intro own
        have stands := (tree.mem_nodes.mp listed).2
        rw [own, tree.free_below free] at stands
        cases stands
      · intro own
        exact absurd (List.isPrefixOf_iff_prefix.mpr (own ▸ List.prefix_append start names)) outside
  · rw [node?_of_ne (by simp [startName]), Option.map_eq_none_iff, List.find?_eq_none]
    intro entry listed same
    obtain ⟨⟨found, node⟩, _, rfl⟩ := List.mem_map.mp listed
    have spot : moved start goal found = start ++ names := beq_iff_eq.mp same
    unfold moved at spot
    split at spot
    · exact apart names (spot ▸ List.prefix_append goal _)
    · rename_i outside
      exact outside (List.isPrefixOf_iff_prefix.mpr (spot ▸ List.prefix_append start names))

/-- A move to a place where nothing is keeps places apart. -/
theorem IsTree.moved_injOn (tree : disk.IsTree) {start goal : Place} (free : disk.node? goal = none) :
    ∀ a ∈ disk.nodes.map Prod.fst, ∀ b ∈ disk.nodes.map Prod.fst, moved start goal a = moved start goal b → a = b := by
  have unused {rest : Place} : goal ++ rest ∉ disk.nodes.map Prod.fst := by
    intro member
    obtain ⟨⟨_, node⟩, listed, rfl⟩ := List.mem_map.mp member
    have stands := (tree.mem_nodes.mp listed).2
    rw [tree.free_below free] at stands
    cases stands
  intro a first b second same
  unfold moved at same
  split at same
  · rename_i within
    split at same
    · rename_i within'
      obtain ⟨rest, rfl⟩ := List.isPrefixOf_iff_prefix.mp within
      obtain ⟨rest', rfl⟩ := List.isPrefixOf_iff_prefix.mp within'
      rw [List.drop_left, List.drop_left] at same
      rw [List.append_cancel_left same]
    · exact absurd (same ▸ second) unused
  · split at same
    · exact absurd (same ▸ first) unused
    · exact same

/-- Each place is listed once behind such a move, and the root is not listed. -/
theorem IsTree.moved_once (tree : disk.IsTree) {start goal : Place} (free : disk.node? goal = none)
    (goalName : goal ≠ []) :
    ([] :: (disk.nodes.map fun (names, node) => (moved start goal names, node)).map Prod.fst).Nodup := by
  obtain ⟨noRoot, nodup⟩ := List.nodup_cons.mp tree.once
  have noRootAfter : [] ∉ (disk.nodes.map Prod.fst).map (moved start goal) := by
    intro member
    obtain ⟨key, listed, root⟩ := List.mem_map.mp member
    unfold moved at root
    split at root
    · exact goalName (List.append_eq_nil_iff.mp root).1
    · exact noRoot (root ▸ listed)
  have once := List.nodup_cons.mpr ⟨noRootAfter, List.Nodup.map_on (tree.moved_injOn free) nodup⟩
  rw [List.map_map] at once
  rw [List.map_map]
  exact once

/-- A folder that moves to a free place, not into itself, leaves a tree. -/
theorem IsTree.rename (tree : disk.IsTree) (h : disk.rename source target = .ok after)
    (apart : ∀ names, ¬place disk.here target <+: place disk.here source ++ names)
    (outside : ¬place disk.here source <+: place disk.here target) : after.IsTree := by
  have moves := rename_node? tree h apart
  have leaves := rename_leaves h
  have leads := rename_leads h
  obtain ⟨folder, free, rfl⟩ := rename_eq_ok h
  obtain ⟨front, name, _, _, spot, holds⟩ := tree.ends_in_name leads (by rw [free]; nofun)
  have goalName : place disk.here target ≠ [] := by
    rw [spot]
    exact List.append_ne_nil_of_right_ne_nil _ (List.cons_ne_nil name [])
  refine ⟨tree.moved_once free goalName, fun other last found stands => ?_⟩
  by_cases within : place disk.here target <+: other ++ [last]
  · -- what was moved: its folder moved with it, or it is what was moved, and the new place is in a folder
    rcases List.prefix_concat_iff.mp within with own | ⟨names, rfl⟩
    · rw [spot] at own outside
      obtain ⟨rfl, _⟩ := List.append_inj' own rfl
      rw [leaves.nodes _ ?_, holds]
      rintro (below | above)
      · exact outside (below.trans (List.prefix_append _ _))
      · rw [spot] at above
        exact absurd above.length_le (by simp)
    · rw [(moves names).1]
      rw [List.append_assoc, (moves _).1, ← List.append_assoc] at stands
      exact tree.held _ last found stands
  · by_cases below : place disk.here source <+: other ++ [last]
    · obtain ⟨rest, same⟩ := below
      rw [← same, (moves rest).2] at stands
      cases stands
    · rw [leaves.nodes _ (not_or.mpr ⟨below, within⟩)] at stands
      rw [leaves.nodes other ?_, tree.held other last found stands]
      rintro (above | above)
      · exact below (above.trans (List.prefix_append _ _))
      · exact within (above.trans (List.prefix_append _ _))

/-! ### Names -/

/-- Every name on a disk is the name of a file. -/
def IsNamed (disk : Disk) : Prop :=
  ∀ entry ∈ disk.nodes, ∀ name ∈ entry.1, FilePath.IsFileName name ∧ '\x00' ∉ name.toList

/-- It is enough that each of them could name a module. -/
theorem isNamed_of_all (all : ∀ entry ∈ disk.nodes, ∀ name ∈ entry.1,
    ModulePath.IsName name.toList ∧ '\x00' ∉ name.toList) : disk.IsNamed := by
  intro entry listed name member
  obtain ⟨isName, clean⟩ := all entry listed name member
  exact ⟨FilePath.isFileName_of_name isName, clean⟩

namespace IsNamed

variable (named : disk.IsNamed)

include named

theorem of_node? (stands : disk.node? spot = some node) :
    ∀ name ∈ spot, FilePath.IsFileName name ∧ '\x00' ∉ name.toList := by
  by_cases isRoot : spot = []
  · simp [isRoot]
  · exact named _ (mem_of_node? isRoot stands)

theorem of_below {names : Place} (stands : disk.node? (spot ++ names) = some node) :
    ∀ name ∈ names, FilePath.IsFileName name ∧ '\x00' ∉ name.toList :=
  fun name member => named.of_node? stands name (List.mem_append_right spot member)

theorem put (areNames : ∀ name ∈ spot, FilePath.IsFileName name ∧ '\x00' ∉ name.toList) :
    (disk.put spot node).IsNamed := by
  intro entry listed
  rcases List.mem_append.mp listed with kept | added
  · exact named entry (List.mem_filter.mp kept).1
  · rw [List.mem_singleton.mp added]
    exact areNames

/-- A path that leads to no folder leads to a place with such names. -/
theorem of_locate (tree : disk.IsTree) (locates : disk.locate text = .ok spot)
    (free : disk.node? spot ≠ some .folder) : ∀ name ∈ spot, FilePath.IsFileName name ∧ '\x00' ∉ name.toList := by
  obtain ⟨front, name, isName, joined, rfl, holds⟩ := tree.ends_in_name locates free
  obtain ⟨_, _, clean⟩ := locate_isOk.mp ⟨_, locates⟩
  intro other member
  rcases List.mem_append.mp member with above | last
  · exact named.of_node? holds other above
  · obtain rfl := List.mem_singleton.mp last
    exact ⟨isName, clean other (joined ▸ (FilePath.mem_splitParts_join isName isName.plain.1).mpr (.inr rfl))⟩

theorem createFolder (tree : disk.IsTree) (h : disk.createFolder text = .ok after) : after.IsNamed := by
  obtain ⟨locates, free, rfl⟩ := createFolder_eq_ok h
  exact named.put (named.of_locate tree locates (by rw [free]; nofun))

theorem createFoldersWithin {levels : Nat} (tree : disk.IsTree)
    (h : Disk.createFoldersWithin levels disk text = .ok after) : after.IsNamed := by
  refine ((@createFoldersWithin_relates disk after text
    (fun before after => before.IsTree ∧ before.IsNamed → after.IsTree ∧ after.IsNamed) (fun _ => id)
    (fun first second => second ∘ first) levels ?_ h).2 ⟨tree, named⟩).2
  intro folder before after _ _ creates ⟨tree, named⟩
  exact ⟨tree.createFolder creates, named.createFolder tree creates⟩

theorem write (tree : disk.IsTree) {content : List UInt8} (h : disk.write text content = .ok after) :
    after.IsNamed := by
  obtain ⟨locates, free, rfl⟩ := write_eq_ok h
  exact named.put (named.of_locate tree locates free)

theorem removeFolder (h : disk.removeFolder text = .ok after) : after.IsNamed := by
  obtain ⟨_, rfl⟩ := removeFolder_eq_ok h
  exact fun entry kept => named entry (List.mem_filter.mp kept).1

theorem rename (tree : disk.IsTree) (h : disk.rename source target = .ok after) : after.IsNamed := by
  have leads := rename_leads h
  obtain ⟨_, free, rfl⟩ := rename_eq_ok h
  have goalNames := named.of_locate tree leads (by rw [free]; nofun)
  intro entry listed name member
  obtain ⟨⟨found, node⟩, kept, rfl⟩ := List.mem_map.mp listed
  dsimp only [moved] at member
  split at member
  · exact (List.mem_append.mp member).elim (goalNames name) fun rest => named _ kept name (List.mem_of_mem_drop rest)
  · exact named _ kept name member

end IsNamed

end Disk

/-- Every step gives names that files can have. -/
theorem DiskStep.make_isNamed {step : DiskStep} {disk after : Disk} (tree : disk.IsTree) (named : disk.IsNamed)
    (h : step.make disk = .ok after) : after.IsNamed := by
  cases step with
  | clear folder =>
      rw [make] at h
      split at h
      · exact named.removeFolder h
      · exact Except.ok.inj h ▸ named
  | createFolders folder => exact named.createFoldersWithin tree h
  | write file text => exact named.write tree h
  | rename source target => exact named.rename tree h

theorem DiskStep.makeAll_isNamed {steps : List DiskStep} {disk : Disk} (tree : disk.IsTree) (named : disk.IsNamed)
    (stay : ∀ source target, .rename source target ∉ steps) : (makeAll steps disk).disk.IsNamed := by
  refine (@makeAll_relates (fun before after => before.IsTree ∧ before.IsNamed → after.IsTree ∧ after.IsNamed)
    (fun _ => id) (fun first second => second ∘ first) steps disk ?_ ⟨tree, named⟩).2
  intro step listed before after _ makes ⟨tree, named⟩
  exact ⟨make_isTree tree (fun source target own => stay source target (own ▸ listed)) makes,
    make_isNamed tree named makes⟩

end Realms
