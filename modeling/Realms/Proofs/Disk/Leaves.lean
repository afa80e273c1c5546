import Realms.Proofs.Disk.Keeps

/-!
What changes of a disk leave standing, folders included. A step reaches the place that its path means, what is
below it where something is removed or moved, and the way to it where folders are created.
-/
namespace Realms

namespace Disk

open FilePath (place through start stops enter)

/-- A disk is another one at most where something was reached. -/
structure Leaves (reached : Place → Prop) (before after : Disk) : Prop where
  here : after.here = before.here
  nodes : ∀ other, ¬reached other → after.node? other = before.node? other

namespace Leaves

variable {reached : Place → Prop} {a b c : Disk}

theorem refl (disk : Disk) : Leaves reached disk disk := ⟨rfl, fun _ _ => rfl⟩

theorem trans (first : Leaves reached a b) (second : Leaves reached b c) : Leaves reached a c where
  here := second.here.trans first.here
  nodes other outside := (second.nodes other outside).trans (first.nodes other outside)

theorem mono {wider : Place → Prop} (leaves : Leaves reached a b)
    (wide : ∀ other, reached other → wider other) : Leaves wider a b where
  here := leaves.here
  nodes other outside := leaves.nodes other fun within => outside (wide other within)

end Leaves

variable {disk after : Disk} {text : String}

theorem removeFolder_leaves (h : disk.removeFolder text = .ok after) :
    Leaves (place disk.here text <+: ·) disk after := by
  obtain ⟨_, rfl⟩ := removeFolder_eq_ok h
  refine ⟨rfl, fun other outside => node?_filter fun node => ?_⟩
  rw [Bool.not_eq_true', Bool.eq_false_iff, Ne, List.isPrefixOf_iff_prefix]
  exact outside

/-- Where a folder was removed, nothing stands. -/
theorem removeFolder_node? {other : Place} (h : disk.removeFolder text = .ok after)
    (within : place disk.here text <+: other) (notRoot : other ≠ []) : after.node? other = none := by
  obtain ⟨_, rfl⟩ := removeFolder_eq_ok h
  rw [node?, if_neg (by simpa using notRoot), Option.map_eq_none_iff, List.find?_eq_none]
  intro entry member same
  have kept : (!(place disk.here text).isPrefixOf entry.1) = true := (List.mem_filter.mp member).2
  rw [beq_iff_eq.mp same, List.isPrefixOf_iff_prefix.mpr within] at kept
  cases kept

theorem write_leaves {content : List UInt8} (h : disk.write text content = .ok after) :
    Leaves (· = place disk.here text) disk after := by
  obtain ⟨_, _, rfl⟩ := write_eq_ok h
  exact ⟨rfl, fun other different => node?_put_other different⟩

theorem createFolder_leaves (h : disk.createFolder text = .ok after) :
    Leaves (· = place disk.here text) disk after := by
  obtain ⟨_, _, rfl⟩ := createFolder_eq_ok h
  exact ⟨rfl, fun other different => node?_put_other different⟩

/-- Folders are created at a place and on the way to it. -/
theorem createFoldersWithin_leaves {levels : Nat} (h : createFoldersWithin levels disk text = .ok after) :
    Leaves (fun other => other ∈ through disk.here text ∨ other = place disk.here text) disk after := by
  refine (createFoldersWithin_relates .refl .trans ?_ h).2
  intro folder before after here reached creates
  refine (createFolder_leaves creates).mono ?_
  rw [here]
  exact fun other same => same ▸ reached

theorem rename_leaves {source target : String} (h : disk.rename source target = .ok after) :
    Leaves (fun other => place disk.here source <+: other ∨ place disk.here target <+: other) disk after := by
  obtain ⟨_, _, rfl⟩ := rename_eq_ok h
  refine ⟨rfl, fun other outside => node?_map Iff.rfl fun entry _ => ?_⟩
  rw [not_or] at outside
  exact moved_eq_iff outside.1 outside.2

/-- One part is followed from a folder, and only a bad name stops it. -/
theorem follow_cons (spot : Place) (part : String) (rest : List String) :
    disk.follow spot (part :: rest) = (do
      disk.needFolder spot
      if part.toList.contains '\x00' then .error .badName else disk.follow (enter spot part) rest) := by
  rw [follow, enter]
  by_cases stays : (part == "" || part == ".") = true
  · have clean : part.toList.contains '\x00' = false := by
      rcases (by simpa using stays : part = "" ∨ part = ".") with rfl | rfl <;> decide
    simp only [stays, clean, if_true, Bool.false_eq_true, if_false]
  · by_cases up : (part == "..") = true
    · have clean : part.toList.contains '\x00' = false := by
        obtain rfl := beq_iff_eq.mp up
        decide
      simp only [stays, up, clean, if_true, Bool.false_eq_true, if_false]
    · simp only [stays, up, Bool.false_eq_true, if_false]

/-- A path can be followed where its way is made of folders and no part of it is a bad name. -/
theorem follow_isOk {spot : Place} {parts : List String} :
    (∃ last, disk.follow spot parts = .ok last) ↔
      (∀ stop ∈ stops spot parts, disk.node? stop = some .folder) ∧
        ∀ part ∈ parts, '\x00' ∉ part.toList := by
  induction parts generalizing spot with
  | nil => simp [follow, stops]
  | cons part rest ih =>
      rw [stops, List.forall_mem_cons, List.forall_mem_cons, follow_cons]
      simp only [bind_eq_ok]
      constructor
      · rintro ⟨last, _, folder, follows⟩
        split at follows
        · cases follows
        · rename_i clean
          obtain ⟨way, parts⟩ := ih.mp ⟨last, follows⟩
          exact ⟨⟨needFolder_eq_ok.mp folder, way⟩, by simpa using clean, parts⟩
      · rintro ⟨⟨folder, way⟩, clean, parts⟩
        obtain ⟨last, follows⟩ := ih.mpr ⟨way, parts⟩
        refine ⟨last, (), needFolder_eq_ok.mpr folder, ?_⟩
        rw [if_neg (by simpa using clean), follows]

/-- Whether a path leads anywhere is decided by its way and its parts. -/
theorem locate_isOk : (∃ last, disk.locate text = .ok last) ↔ text ≠ "" ∧
    (∀ stop ∈ through disk.here text, disk.node? stop = some .folder) ∧
      ∀ part ∈ FilePath.splitParts text, '\x00' ∉ part.toList := by
  unfold locate
  by_cases empty : text = ""
  · simp [empty]
  · rw [if_neg (by simpa using empty)]
    exact follow_isOk.trans (and_iff_right empty).symm

theorem locate_eq_place (h : ∃ last, disk.locate text = .ok last) : disk.locate text = .ok (place disk.here text) := by
  obtain ⟨last, locates⟩ := h
  exact locates.trans (congrArg Except.ok (locate_eq_ok locates))

/-- A path is not found where its way is made of folders up to a place that is free. -/
theorem follow_notFound {spot : Place} {parts : List String}
    (way : ∀ stop ∈ stops spot parts, disk.node? stop = some .folder ∨ disk.node? stop = none)
    (free : ∃ stop ∈ stops spot parts, disk.node? stop = none) (clean : ∀ part ∈ parts, '\x00' ∉ part.toList) :
    disk.follow spot parts = .error .notFound := by
  induction parts generalizing spot with
  | nil =>
      obtain ⟨_, nowhere, _⟩ := free
      cases nowhere
  | cons part rest ih =>
      obtain ⟨own, later⟩ := List.forall_mem_cons.mp way
      obtain ⟨isClean, others⟩ := List.forall_mem_cons.mp clean
      rw [follow_cons]
      rcases own with folder | missing
      · rw [needFolder_eq_ok.mpr folder]
        have next : ∃ stop ∈ stops (FilePath.enter spot part) rest, disk.node? stop = none := by
          obtain ⟨stop, onWay, isFree⟩ := free
          rcases List.mem_cons.mp onWay with rfl | onWay
          · cases folder.symm.trans isFree
          · exact ⟨stop, onWay, isFree⟩
        simp [isClean, ih later next others, bind, Except.bind]
      · simp [needFolder, missing, bind, Except.bind]

theorem locate_notFound (nonempty : text ≠ "")
    (way : ∀ stop ∈ through disk.here text, disk.node? stop = some .folder ∨ disk.node? stop = none)
    (free : ∃ stop ∈ through disk.here text, disk.node? stop = none)
    (clean : ∀ part ∈ FilePath.splitParts text, '\x00' ∉ part.toList) : disk.locate text = .error .notFound := by
  rw [locate, if_neg (by simpa using nonempty)]
  exact follow_notFound way free clean

/-- Slashes at the end of a path do not help to follow it. -/
theorem locate_withoutSlashes (h : ∃ last, disk.locate text = .ok last) :
    ∃ last, disk.locate (FilePath.withoutSlashes text) = .ok last := by
  induction text using FilePath.withoutSlashes_induct with
  | bare text same => rwa [same]
  | slash base nonempty shorter ih =>
      obtain ⟨_, way, clean⟩ := locate_isOk.mp h
      rw [FilePath.through_endingSlash nonempty] at way
      rw [FilePath.splitParts_endingSlash] at clean
      rw [shorter]
      exact ih (locate_isOk.mpr ⟨nonempty, fun stop member => way stop (List.mem_append_left _ member),
        fun part member => clean part (List.mem_append_left _ member)⟩)

/-- They do not keep a path to a folder from being followed either. -/
theorem locate_of_folder (nonempty : text ≠ "") (clean : ∀ part ∈ FilePath.splitParts text, '\x00' ∉ part.toList)
    (way : ∀ stop ∈ through disk.here (FilePath.withoutSlashes text), disk.node? stop = some .folder)
    (folder : disk.node? (place disk.here text) = some .folder) : ∃ last, disk.locate text = .ok last := by
  refine locate_isOk.mpr ⟨nonempty, fun stop member => ?_, clean⟩
  rcases (FilePath.withoutSlashes_way disk.here nonempty).2.2.1 stop member with onWay | rfl
  · exact way stop onWay
  · exact folder

/-- What holds a name can be found where the name can. -/
theorem locate_of_join {base name : String} (isName : FilePath.IsFileName name) (nonempty : base ≠ "")
    (h : ∃ last, disk.locate (FilePath.join base name) = .ok last) :
    (∃ last, disk.locate base = .ok last) ∧ disk.node? (place disk.here base) = some .folder := by
  obtain ⟨_, way, clean⟩ := locate_isOk.mp h
  refine ⟨locate_isOk.mpr ⟨nonempty, fun stop member => ?_, fun part member => ?_⟩, ?_⟩
  · exact way stop ((FilePath.mem_through_join isName).mpr (.inl member))
  · by_cases empty : part = ""
    · simp [empty]
    · exact clean part ((FilePath.mem_splitParts_join isName empty).mpr (.inl member))
  · exact way _ ((FilePath.mem_through_join isName).mpr (.inr rfl))

/-- A folder moves to a free place that its path leads to. -/
theorem rename_isOk {source target : String} (start : ∃ last, disk.locate source = .ok last)
    (goal : ∃ last, disk.locate (FilePath.withoutSlashes target) = .ok last)
    (folder : disk.node? (place disk.here source) = some .folder)
    (free : disk.node? (place disk.here target) = none) : ∃ after, disk.rename source target = .ok after := by
  obtain ⟨first, starts⟩ := start
  obtain ⟨last, leads⟩ := goal
  have first_eq := locate_eq_ok starts
  have last_eq := (locate_eq_ok leads).trans (FilePath.place_withoutSlashes target)
  subst first_eq last_eq
  simp only [rename, starts, leads, bind_eq_ok]
  exact ⟨_, _, rfl, (), needFolder_eq_ok.mpr folder, _, rfl, by rw [free]⟩

end Disk

namespace DiskStep

open FilePath (place through)

/-- Where a step may change what stands. -/
def reaches (here : Place) : DiskStep → Place → Prop
  | .clear folder, other => place here folder <+: other
  | .createFolders folder, other => other ∈ through here folder ∨ other = place here folder
  | .write file _, other => other = place here file
  | .rename source target, other => place here source <+: other ∨ place here target <+: other

theorem make_leaves {step : DiskStep} {disk after : Disk} (h : step.make disk = .ok after) :
    disk.Leaves (step.reaches disk.here) after := by
  cases step with
  | clear folder =>
      rw [make] at h
      split at h
      · exact Disk.removeFolder_leaves h
      · exact Except.ok.inj h ▸ .refl disk
  | createFolders folder => exact Disk.createFoldersWithin_leaves h
  | write file text => exact Disk.write_leaves h
  | rename source target => exact Disk.rename_leaves h

theorem makeAll_leaves {reached : Place → Prop} {steps : List DiskStep} {disk : Disk}
    (confined : ∀ step ∈ steps, ∀ other, step.reaches disk.here other → reached other) :
    disk.Leaves reached (makeAll steps disk).disk :=
  makeAll_relates .refl .trans fun step listed _ _ here makes =>
    (make_leaves makes).mono fun other reaches => confined step listed other (here ▸ reaches)

/-- Steps go on with others where they have come to their end. -/
theorem makeAll_append {a : List DiskStep} {disk : Disk} (done : (makeAll a disk).failed = none)
    (b : List DiskStep) : (makeAll (a ++ b) disk).disk = (makeAll b (makeAll a disk).disk).disk ∧
      (makeAll (a ++ b) disk).failed = (makeAll b (makeAll a disk).disk).failed := by
  induction a generalizing disk with
  | nil => exact ⟨rfl, rfl⟩
  | cons step rest ih =>
      rw [makeAll] at done
      rw [List.cons_append, makeAll, makeAll]
      cases makes : step.make disk with
      | error fault =>
          rw [makes] at done
          cases done
      | ok next =>
          rw [makes] at done
          exact ih done

/-- Steps that come to their end have come to the end of those in front. -/
theorem makeAll_cons_done {step : DiskStep} {rest : List DiskStep} {disk : Disk}
    (done : (makeAll (step :: rest) disk).failed = none) : ∃ next, step.make disk = .ok next ∧
      (makeAll rest next).failed = none ∧ (makeAll (step :: rest) disk).disk = (makeAll rest next).disk := by
  rw [makeAll] at done ⊢
  cases makes : step.make disk with
  | error fault =>
      rw [makes] at done
      cases done
  | ok next =>
      rw [makes] at done
      exact ⟨next, rfl, done, rfl⟩

/-- Steps that fail leave the disk to no others. -/
theorem makeAll_append_failed {a : List DiskStep} {disk : Disk} (fails : (makeAll a disk).failed ≠ none)
    (b : List DiskStep) : makeAll (a ++ b) disk = makeAll a disk := by
  induction a generalizing disk with
  | nil => exact absurd rfl fails
  | cons step rest ih =>
      rw [makeAll] at fails
      rw [List.cons_append, makeAll, makeAll]
      cases makes : step.make disk with
      | error fault => rfl
      | ok next =>
          rw [makes] at fails
          dsimp only
          rw [ih fails]

theorem makeAll_append_done {a b : List DiskStep} {disk : Disk} (done : (makeAll (a ++ b) disk).failed = none) :
    (makeAll a disk).failed = none ∧ (makeAll b (makeAll a disk).disk).failed = none ∧
      (makeAll (a ++ b) disk).disk = (makeAll b (makeAll a disk).disk).disk := by
  have front : (makeAll a disk).failed = none := by
    by_contra fails
    rw [makeAll_append_failed fails] at done
    exact fails done
  obtain ⟨disk_eq, failed_eq⟩ := makeAll_append front b
  exact ⟨front, failed_eq ▸ done, disk_eq⟩

end DiskStep
end Realms
