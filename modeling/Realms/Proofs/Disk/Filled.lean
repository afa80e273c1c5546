import Realms.Proofs.Disk.Leaves

/-!
Steps that only add to a disk: they write files and create folders. Once they are all made, the files stand where
they were written, everything else is as it was, and folders are new only where nothing was.
-/
namespace Realms

namespace Disk

open FilePath (place through)

/-- Files were written, and folders were created in reach where nothing was. -/
structure Filled (reached : Place → Prop) (written : List (Place × List UInt8)) (before after : Disk) : Prop where
  here : after.here = before.here
  files : ∀ spot content, (spot, content) ∈ written → after.node? spot = some (.file content)
  others : ∀ spot, spot ∉ written.map Prod.fst → after.node? spot = before.node? spot ∨
    before.node? spot = none ∧ after.node? spot = some .folder ∧ reached spot

namespace Filled

variable {reached : Place → Prop} {written more : List (Place × List UInt8)} {a b c : Disk}

theorem refl (disk : Disk) : Filled reached [] disk disk :=
  ⟨rfl, fun _ _ member => absurd member List.not_mem_nil, fun _ _ => .inl rfl⟩

theorem mono {wider : Place → Prop} (filled : Filled reached written a b) (wide : ∀ spot, reached spot → wider spot) :
    Filled wider written a b where
  here := filled.here
  files := filled.files
  others spot outside := (filled.others spot outside).imp_right fun ⟨free, folder, within⟩ =>
    ⟨free, folder, wide spot within⟩

/-- What is not written over stays. -/
theorem keeps (filled : Filled reached written a b) {spot : Place} {node : FileNode}
    (unwritten : spot ∉ written.map Prod.fst) (stands : a.node? spot = some node) : b.node? spot = some node := by
  rcases filled.others spot unwritten with same | ⟨free, _⟩
  · rw [same, stands]
  · rw [stands] at free
    cases free

/-- Files that are written to other places leave those that are there. -/
theorem trans (first : Filled reached written a b) (second : Filled reached more b c)
    (apart : ∀ spot ∈ written.map Prod.fst, spot ∉ more.map Prod.fst) : Filled reached (written ++ more) a c where
  here := second.here.trans first.here
  files spot content member := by
    rcases List.mem_append.mp member with early | late
    · have stands := first.files spot content early
      exact second.keeps (apart spot (List.mem_map_of_mem early)) stands
    · exact second.files spot content late
  others spot outside := by
    rw [List.map_append, List.mem_append, not_or] at outside
    rcases first.others spot outside.1 with same | ⟨free, folder, within⟩
    · rw [← same]
      exact second.others spot outside.2
    · rcases second.others spot outside.2 with same | ⟨taken, _⟩
      · exact .inr ⟨free, same.trans folder, within⟩
      · rw [folder] at taken
        cases taken

end Filled

variable {disk after : Disk} {text : String}

theorem createFolder_filled (h : disk.createFolder text = .ok after) :
    Filled (· = place disk.here text) [] disk after where
  here := (createFolder_leaves h).here
  files _ _ member := absurd member List.not_mem_nil
  others other _ := by
    obtain ⟨_, free, rfl⟩ := createFolder_eq_ok h
    by_cases same : other = place disk.here text
    · have notRoot : place disk.here text ≠ [] := by
        intro root
        rw [root] at free
        cases free
      rw [same]
      exact .inr ⟨free, node?_put_self notRoot, rfl⟩
    · exact .inl (node?_put_other same)

theorem createFoldersWithin_filled {levels : Nat} (h : createFoldersWithin levels disk text = .ok after) :
    Filled (fun spot => spot ∈ through disk.here text ∨ spot = place disk.here text) [] disk after := by
  refine (createFoldersWithin_relates .refl ?_ ?_ h).2
  · exact fun first second => first.trans second fun _ _ => List.not_mem_nil
  · intro folder before after here reached creates
    refine (createFolder_filled creates).mono ?_
    rw [here]
    exact fun spot same => same ▸ reached

theorem write_filled {content : List UInt8} (h : disk.write text content = .ok after) :
    Filled (fun _ => False) [(place disk.here text, content)] disk after where
  here := (write_leaves h).here
  files spot bytes member := by
    obtain ⟨rfl, rfl⟩ := Prod.mk.inj (List.mem_singleton.mp member)
    have stands := write_fileAt? h
    rw [fileAt?] at stands
    split at stands
    · rename_i found
      rw [found, Option.some.inj stands]
    · cases stands
  others spot outside := .inl ((write_leaves h).nodes spot fun same => outside (by simp [same]))

end Disk

namespace DiskStep

open FilePath (place through)

/-- A step that adds to a disk. -/
def Adds : DiskStep → Prop
  | .createFolders _ | .write _ _ => True
  | .clear _ | .rename _ _ => False

/-- The file that a step writes. -/
def writes (here : Place) : DiskStep → List (Place × List UInt8)
  | .write file text => [(place here file, Text.bytesOf text)]
  | _ => []

/-- The folders that a step may create. -/
def creates (here : Place) : DiskStep → Place → Prop
  | .createFolders folder, spot => spot ∈ through here folder ∨ spot = place here folder
  | _, _ => False

/-- A step that adds reaches where it creates a folder or writes a file. -/
theorem reaches_adds {step : DiskStep} {here spot : Place} (adds : step.Adds) (reaches : step.reaches here spot) :
    step.creates here spot ∨ ∃ content, (spot, content) ∈ step.writes here := by
  cases step with
  | clear folder => exact adds.elim
  | createFolders folder => exact .inl reaches
  | write file text =>
      obtain rfl : spot = place here file := reaches
      exact .inr ⟨_, List.mem_cons_self⟩
  | rename source target => exact adds.elim

theorem make_filled {step : DiskStep} {disk after : Disk} (adds : step.Adds) (h : step.make disk = .ok after) :
    disk.Filled (step.creates disk.here) (step.writes disk.here) after := by
  cases step with
  | clear folder => exact adds.elim
  | createFolders folder => exact Disk.createFoldersWithin_filled h
  | write file text => exact Disk.write_filled h
  | rename source target => exact adds.elim

/-- Steps that all add and write no place twice have filled a disk when they come to their end. -/
theorem makeAll_filled {reached : Place → Prop} {steps : List DiskStep} {disk : Disk}
    (adds : ∀ step ∈ steps, step.Adds) (confined : ∀ step ∈ steps, ∀ spot, step.creates disk.here spot → reached spot)
    (once : ((steps.flatMap (writes disk.here)).map Prod.fst).Nodup) (done : (makeAll steps disk).failed = none) :
    disk.Filled reached (steps.flatMap (writes disk.here)) (makeAll steps disk).disk := by
  induction steps generalizing disk with
  | nil => exact .refl disk
  | cons step rest ih =>
      rw [makeAll] at done ⊢
      cases makes : step.make disk with
      | error fault =>
          rw [makes] at done
          cases done
      | ok next =>
          rw [makes] at done
          have first := (make_filled (adds step List.mem_cons_self) makes).mono (confined step List.mem_cons_self)
          rw [List.flatMap_cons, List.map_append, List.nodup_append] at once
          obtain ⟨_, later, apart⟩ := once
          have here := first.here
          have second := ih (fun step member => adds step (List.mem_cons_of_mem _ member))
            (fun step member spot creates => confined step (List.mem_cons_of_mem _ member) spot (here ▸ creates))
            (here ▸ later) done
          rw [here] at second
          exact first.trans second fun spot early late => apart spot early spot late rfl

end DiskStep
end Realms
