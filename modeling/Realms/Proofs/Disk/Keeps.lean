import Realms.Disk.Step
import Realms.Proofs.Disk.Through

/-!
What changes of a disk leave as it was. Where an operation succeeds, it is said once what it has done. Each step
touches files at or below the places that its paths mean; files everywhere else have the content they had, whether a
list of steps is made to its end or not.
-/
namespace Realms

namespace Disk

open FilePath (place through)

/-- The content of the file at a place, if there is one. -/
def fileAt? (disk : Disk) (spot : Place) : Option (List UInt8) :=
  match disk.node? spot with
  | some (.file content) => some content
  | _ => none

/-- Files are others at most where something was touched. -/
structure Keeps (touched : Place → Prop) (before after : Disk) : Prop where
  here : after.here = before.here
  files : ∀ other, ¬touched other → after.fileAt? other = before.fileAt? other

namespace Keeps

variable {touched : Place → Prop} {a b c : Disk}

theorem refl (disk : Disk) : Keeps touched disk disk := ⟨rfl, fun _ _ => rfl⟩

theorem trans (first : Keeps touched a b) (second : Keeps touched b c) : Keeps touched a c where
  here := second.here.trans first.here
  files other outside := (second.files other outside).trans (first.files other outside)

theorem mono {wider : Place → Prop} (keeps : Keeps touched a b) (wide : ∀ other, touched other → wider other) :
    Keeps wider a b where
  here := keeps.here
  files other outside := keeps.files other fun within => outside (wide other within)

/-- What stands at a place decides which file is there. -/
theorem of_node? (here : b.here = a.here)
    (nodes : ∀ other, ¬touched other → b.node? other = a.node? other) : Keeps touched a b where
  here := here
  files other outside := by rw [fileAt?, fileAt?, nodes other outside]

end Keeps

variable {disk after : Disk} {text : String} {spot other : Place}

theorem node?_filter {keeps : Place × FileNode → Bool} (kept : ∀ node, keeps (other, node) = true) :
    ({ disk with nodes := disk.nodes.filter keeps } : Disk).node? other = disk.node? other := by
  have same : (fun entry : Place × FileNode => keeps entry && entry.1 == other) = (·.1 == other) := by
    funext ⟨found, node⟩
    by_cases named : found = other
    · subst named
      simp [kept node]
    · simp [named]
  rw [node?, node?, List.find?_filter]
  simp only [Bool.decide_and, Bool.decide_eq_true, same]

/-- Where places move, what stands at one of them is found at the place that it alone moves to. -/
theorem node?_map {move : Place → Place} {spot : Place} (root : other = [] ↔ spot = [])
    (moves : ∀ entry ∈ disk.nodes, move entry.1 = spot ↔ entry.1 = other) :
    ({ disk with nodes := disk.nodes.map fun (found, node) => (move found, node) } : Disk).node? spot =
      disk.node? other := by
  have same : ((disk.nodes.map fun (found, node) => (move found, node)).find? (·.1 == spot)).map Prod.snd =
      (disk.nodes.find? (·.1 == other)).map Prod.snd := by
    generalize disk.nodes = nodes at moves
    induction nodes with
    | nil => rfl
    | cons entry rest ih =>
        have first := moves entry List.mem_cons_self
        have later := ih fun next member => moves next (List.mem_cons_of_mem entry member)
        by_cases named : entry.1 = other
        · rw [List.map_cons, List.find?_cons_of_pos (by simpa using first.mpr named),
            List.find?_cons_of_pos (by simpa using named)]
          rfl
        · rw [List.map_cons, List.find?_cons_of_neg (by simpa using fun moved => named (first.mp moved)),
            List.find?_cons_of_neg (by simpa using named), later]
  rw [node?, node?, same]
  simp only [List.isEmpty_iff, root]

theorem node?_put_other {node : FileNode} (different : other ≠ spot) :
    (disk.put spot node).node? other = disk.node? other := by
  have rest : (disk.put spot node).node? other =
      ({ disk with nodes := disk.nodes.filter (·.1 != spot) } : Disk).node? other := by
    simp [node?, put, List.find?_append, Ne.symm different]
  rw [rest]
  exact node?_filter fun node => by simpa using different

theorem node?_put_self {node : FileNode} (notRoot : spot ≠ []) :
    (disk.put spot node).node? spot = some node := by
  have gone : (disk.nodes.filter (·.1 != spot)).find? (·.1 == spot) = none := by
    simp
  simp [node?, put, List.find?_append, gone, notRoot]

theorem fileAt?_absent (absent : ∀ entry ∈ disk.nodes, entry.1 ≠ other) : disk.fileAt? other = none := by
  have none : disk.nodes.find? (·.1 == other) = none :=
    List.find?_eq_none.mpr fun entry member same => absent entry member (beq_iff_eq.mp same)
  rw [fileAt?, node?, none]
  cases other <;> rfl

theorem needFolder_eq_ok {spot : Place} : disk.needFolder spot = .ok () ↔ disk.node? spot = some .folder := by
  unfold needFolder
  split <;> simp [*]

theorem removeFolder_eq_ok (h : disk.removeFolder text = .ok after) :
    disk.node? (place disk.here text) = some .folder ∧
      after = { disk with nodes := disk.nodes.filter fun (found, _) => !(place disk.here text).isPrefixOf found } := by
  obtain ⟨found, locates, h⟩ := bind_eq_ok.mp h
  obtain ⟨_, folder, h⟩ := bind_eq_ok.mp h
  obtain rfl := locate_eq_ok locates
  exact ⟨needFolder_eq_ok.mp folder, (Except.ok.inj h).symm⟩

theorem write_eq_ok {content : List UInt8} (h : disk.write text content = .ok after) :
    disk.locate text = .ok (place disk.here text) ∧ disk.node? (place disk.here text) ≠ some .folder ∧
      after = disk.put (place disk.here text) (.file content) := by
  obtain ⟨found, locates, h⟩ := bind_eq_ok.mp h
  obtain rfl := locate_eq_ok locates
  split at h
  · cases h
  · rename_i free
    exact ⟨locates, free, (Except.ok.inj h).symm⟩

theorem createFolder_eq_ok (h : disk.createFolder text = .ok after) :
    disk.locate (FilePath.withoutSlashes text) = .ok (place disk.here text) ∧
      disk.node? (place disk.here text) = none ∧ after = disk.put (place disk.here text) .folder := by
  obtain ⟨found, locates, h⟩ := bind_eq_ok.mp h
  obtain rfl := (locate_eq_ok locates).trans (FilePath.place_withoutSlashes text)
  split at h
  · cases h
  · rename_i free
    rw [Option.isSome_iff_ne_none, not_not] at free
    exact ⟨locates, free, (Except.ok.inj h).symm⟩

theorem ensureFolder_eq_ok (h : disk.ensureFolder text = .ok after) :
    disk.createFolder text = .ok after ∨ after = disk := by
  unfold ensureFolder at h
  split at h
  · rename_i next creates
    exact .inl (creates.trans h)
  · split at h
    · exact .inr (Except.ok.inj h).symm
    · cases h

/-- What the creation of one folder does to a disk with the same working folder, the creation of a folder and of what
must hold it does. They are at its place and on the way to it. -/
theorem createFoldersWithin_relates {relates : Disk → Disk → Prop} (refl : ∀ disk, relates disk disk)
    (trans : ∀ {a b c}, relates a b → relates b c → relates a c) {levels : Nat}
    (each : ∀ folder before after, before.here = disk.here →
      place disk.here folder ∈ through disk.here text ∨ place disk.here folder = place disk.here text →
        before.createFolder folder = .ok after → relates before after)
    (h : createFoldersWithin levels disk text = .ok after) : after.here = disk.here ∧ relates disk after := by
  induction levels generalizing text after with
  | zero => cases h
  | succ levels ih =>
      have creation {folder : String} {before after : Disk} (creates : before.createFolder folder = .ok after) :
          after.here = before.here := by
        rw [(createFolder_eq_ok creates).2.2]
        rfl
      unfold createFoldersWithin at h
      split at h
      · exact Except.ok.inj h ▸ ⟨rfl, refl disk⟩
      · split at h
        · rename_i next creates
          obtain rfl := Except.ok.inj h
          exact ⟨creation creates, each text disk next rfl (.inr rfl) creates⟩
        · split at h
          · cases h
          · rename_i parent holds
            obtain ⟨next, creates, h⟩ := bind_eq_ok.mp h
            obtain ⟨spot, way⟩ := FilePath.parent?_on_way disk.here holds
            obtain ⟨here, first⟩ := ih (fun folder before after same reached => each folder before after same
              (.inl (reached.elim (way ·) (· ▸ spot)))) creates
            rcases ensureFolder_eq_ok h with creates | rfl
            · exact ⟨(creation creates).trans here, trans first (each text next after here (.inr rfl) creates)⟩
            · exact ⟨here, first⟩
        · split at h
          · exact Except.ok.inj h ▸ ⟨rfl, refl disk⟩
          · cases h

theorem removeFolder_keeps (h : disk.removeFolder text = .ok after) :
    Keeps (place disk.here text <+: ·) disk after := by
  obtain ⟨_, rfl⟩ := removeFolder_eq_ok h
  refine .of_node? rfl ?_
  intro other outside
  apply node?_filter
  intro node
  rw [Bool.not_eq_true', Bool.eq_false_iff, Ne, List.isPrefixOf_iff_prefix]
  exact outside

theorem removeFolder_clears (h : disk.removeFolder text = .ok after)
    (within : place disk.here text <+: other) : after.fileAt? other = none := by
  obtain ⟨_, rfl⟩ := removeFolder_eq_ok h
  apply fileAt?_absent
  intro entry member same
  have kept : (!(place disk.here text).isPrefixOf entry.1) = true := (List.mem_filter.mp member).2
  rw [same, List.isPrefixOf_iff_prefix.mpr within] at kept
  cases kept

theorem write_fileAt? {content : List UInt8} (h : disk.write text content = .ok after) :
    after.fileAt? (place disk.here text) = some content := by
  obtain ⟨_, free, rfl⟩ := write_eq_ok h
  rw [fileAt?, node?_put_self fun root => free (by rw [root]; rfl)]

theorem write_keeps {content : List UInt8} (h : disk.write text content = .ok after) :
    Keeps (· = place disk.here text) disk after := by
  obtain ⟨_, _, rfl⟩ := write_eq_ok h
  exact .of_node? rfl fun other different => node?_put_other different

/-- A folder is created only where nothing is, so no file is touched. -/
theorem createFolder_keeps (h : disk.createFolder text = .ok after) :
    Keeps (fun _ => False) disk after := by
  obtain ⟨_, free, rfl⟩ := createFolder_eq_ok h
  refine ⟨rfl, fun other _ => ?_⟩
  by_cases same : other = place disk.here text
  · have notRoot : place disk.here text ≠ [] := by
      intro root
      rw [root] at free
      cases free
    rw [same, fileAt?, fileAt?, node?_put_self notRoot, free]
  · rw [fileAt?, fileAt?, node?_put_other same]

theorem createFoldersWithin_keeps {levels : Nat} (h : createFoldersWithin levels disk text = .ok after) :
    Keeps (fun _ => False) disk after :=
  (createFoldersWithin_relates .refl .trans (fun _ _ _ _ _ => createFolder_keeps) h).2

theorem rename_eq_ok {source target : String} (h : disk.rename source target = .ok after) :
    disk.node? (place disk.here source) = some .folder ∧ disk.node? (place disk.here target) = none ∧
      after = { disk with nodes := disk.nodes.map fun (found, node) =>
        (moved (place disk.here source) (place disk.here target) found, node) } := by
  obtain ⟨start, locates, h⟩ := bind_eq_ok.mp h
  obtain rfl := locate_eq_ok locates
  obtain ⟨_, folder, h⟩ := bind_eq_ok.mp h
  obtain ⟨goal, leads, h⟩ := bind_eq_ok.mp h
  obtain rfl := (locate_eq_ok leads).trans (FilePath.place_withoutSlashes target)
  split at h
  · cases h
  · cases h
  · rename_i free
    exact ⟨needFolder_eq_ok.mp folder, free, (Except.ok.inj h).symm⟩

/-- Slashes do not count where a folder is moved to. -/
theorem rename_leads {source target : String} (h : disk.rename source target = .ok after) :
    disk.locate (FilePath.withoutSlashes target) = .ok (place disk.here target) := by
  obtain ⟨_, _, h⟩ := bind_eq_ok.mp h
  obtain ⟨_, _, h⟩ := bind_eq_ok.mp h
  obtain ⟨goal, leads, _⟩ := bind_eq_ok.mp h
  rw [leads, locate_eq_ok leads, FilePath.place_withoutSlashes]

theorem moved_eq_iff {start goal found : Place} (notStart : ¬start <+: other) (notGoal : ¬goal <+: other) :
    moved start goal found = other ↔ found = other := by
  unfold moved
  split
  · rename_i within
    constructor
    · rintro rfl
      exact absurd (List.prefix_append goal _) notGoal
    · rintro rfl
      exact absurd (List.isPrefixOf_iff_prefix.mp within) notStart
  · exact Iff.rfl

theorem rename_keeps {source target : String} (h : disk.rename source target = .ok after) :
    Keeps (fun other => place disk.here source <+: other ∨ place disk.here target <+: other) disk after := by
  obtain ⟨_, _, rfl⟩ := rename_eq_ok h
  refine .of_node? rfl ?_
  intro other outside
  apply node?_map Iff.rfl
  intro entry _
  rw [not_or] at outside
  exact moved_eq_iff outside.1 outside.2

/-- Nothing stays where a folder was moved away. -/
theorem rename_clears {source target : String} (h : disk.rename source target = .ok after)
    (within : place disk.here source <+: other) (outside : ¬place disk.here target <+: other) :
    after.fileAt? other = none := by
  obtain ⟨_, _, rfl⟩ := rename_eq_ok h
  apply fileAt?_absent
  intro shifted member same
  obtain ⟨entry, _, rfl⟩ := List.mem_map.mp member
  dsimp only [moved] at same
  split at same
  · exact outside (same ▸ List.prefix_append _ _)
  · rename_i apart
    exact apart (List.isPrefixOf_iff_prefix.mpr (same ▸ within))

end Disk

namespace DiskStep

open FilePath (place)

/-- Where a step may touch files. -/
def touches (here : Place) : DiskStep → Place → Prop
  | .clear folder, other => place here folder <+: other
  | .createFolders _, _ => False
  | .write file _, other => other = place here file
  | .rename source target, other => place here source <+: other ∨ place here target <+: other

theorem make_keeps {step : DiskStep} {disk after : Disk} (h : step.make disk = .ok after) :
    disk.Keeps (step.touches disk.here) after := by
  cases step with
  | clear folder =>
      rw [make] at h
      split at h
      · exact Disk.removeFolder_keeps h
      · exact Except.ok.inj h ▸ .refl disk
  | createFolders folder => exact Disk.createFoldersWithin_keeps h
  | write file text => exact Disk.write_keeps h
  | rename source target => exact Disk.rename_keeps h

/-- What each step does to a disk with the same working folder, all of them do, also if they fail half way. -/
theorem makeAll_relates {relates : Disk → Disk → Prop} (refl : ∀ disk, relates disk disk)
    (trans : ∀ {a b c}, relates a b → relates b c → relates a c) {steps : List DiskStep} {disk : Disk}
    (each : ∀ step ∈ steps, ∀ before after, before.here = disk.here → step.make before = .ok after →
      relates before after) : relates disk (makeAll steps disk).disk := by
  induction steps generalizing disk with
  | nil => exact refl disk
  | cons step rest ih =>
      rw [makeAll]
      split
      · exact refl disk
      · rename_i next makes
        have first := each step List.mem_cons_self disk next rfl makes
        apply trans first
        apply ih
        intro later member before after here
        exact each later (List.mem_cons_of_mem step member) before after (here.trans (make_keeps makes).here)

/-- Steps that fail half way keep what all of them would keep. -/
theorem makeAll_keeps {touched : Place → Prop} {steps : List DiskStep} {disk : Disk}
    (confined : ∀ step ∈ steps, ∀ other, step.touches disk.here other → touched other) :
    disk.Keeps touched (makeAll steps disk).disk :=
  makeAll_relates .refl .trans fun step listed _ _ here makes =>
    (make_keeps makes).mono fun other touches => confined step listed other (here ▸ touches)

/-- Where the file comes from that is at a place after a step. -/
theorem make_fileAt? {step : DiskStep} {disk after : Disk} {other : Place} {content : List UInt8}
    (h : step.make disk = .ok after) (apart : ∀ source target, step = .rename source target →
      ¬place disk.here target <+: other) (file : after.fileAt? other = some content) :
    disk.fileAt? other = some content ∨ ∃ written text, step = .write written text ∧
      other = place disk.here written ∧ content = Text.bytesOf text := by
  cases step with
  | clear folder =>
      rw [make] at h
      split at h
      · by_cases within : place disk.here folder <+: other
        · rw [Disk.removeFolder_clears h within] at file
          cases file
        · exact .inl ((Disk.removeFolder_keeps h).files other within ▸ file)
      · exact .inl (Except.ok.inj h ▸ file)
  | createFolders folder => exact .inl ((Disk.createFoldersWithin_keeps h).files other id ▸ file)
  | write written text =>
      by_cases same : other = place disk.here written
      · subst same
        rw [Disk.write_fileAt? h] at file
        exact .inr ⟨written, text, rfl, rfl, (Option.some.inj file).symm⟩
      · exact .inl ((Disk.write_keeps h).files other same ▸ file)
  | rename source target =>
      have outside := apart source target rfl
      by_cases within : place disk.here source <+: other
      · rw [Disk.rename_clears h within outside] at file
        cases file
      · exact .inl ((Disk.rename_keeps h).files other (not_or.mpr ⟨within, outside⟩) ▸ file)

/-- A file that steps leave at a place was there before, or one of them wrote it. -/
theorem makeAll_fileAt? {steps : List DiskStep} {disk : Disk} {other : Place} {content : List UInt8}
    (apart : ∀ source target, .rename source target ∈ steps → ¬place disk.here target <+: other)
    (file : (makeAll steps disk).disk.fileAt? other = some content) :
    disk.fileAt? other = some content ∨ ∃ written text, .write written text ∈ (makeAll steps disk).made ∧
      other = place disk.here written ∧ content = Text.bytesOf text := by
  induction steps generalizing disk with
  | nil => exact .inl file
  | cons step rest ih =>
      rw [makeAll] at file ⊢
      cases makes : step.make disk with
      | error fault =>
          rw [makes] at file
          exact .inl file
      | ok next =>
          rw [makes] at file
          have here := (make_keeps makes).here
          rcases ih (fun source target later => here ▸ apart source target (List.mem_cons_of_mem step later))
            file with before | ⟨written, text, later, spot, same⟩
          · rcases make_fileAt? makes (fun source target own => apart source target (own ▸ List.mem_cons_self))
              before with before | ⟨written, text, rfl, spot, same⟩
            · exact .inl before
            · exact .inr ⟨written, text, List.mem_cons_self, spot, same⟩
          · exact .inr ⟨written, text, List.mem_cons_of_mem step later, here ▸ spot, same⟩

/-- Steps of which none was made leave the disk as it is. -/
theorem makeAll_unmade {steps : List DiskStep} {disk : Disk} (h : (makeAll steps disk).made = []) :
    (makeAll steps disk).disk = disk := by
  cases steps with
  | nil => rfl
  | cons step rest =>
      rw [makeAll] at h ⊢
      cases makes : step.make disk with
      | error fault => rfl
      | ok next =>
          rw [makes] at h
          cases h

/-- The last step is made on a disk with the same working folder. -/
theorem makeAll_last {steps : List DiskStep} {step : DiskStep} {disk : Disk}
    (h : (makeAll (steps ++ [step]) disk).failed = none) : ∃ last : Disk, last.here = disk.here ∧
      step.make last = .ok (makeAll (steps ++ [step]) disk).disk := by
  induction steps generalizing disk with
  | nil =>
      rw [List.nil_append, makeAll] at h ⊢
      cases makes : step.make disk with
      | error fault =>
          rw [makes] at h
          cases h
      | ok after => exact ⟨disk, rfl, makes⟩
  | cons first rest ih =>
      rw [List.cons_append, makeAll] at h ⊢
      cases makes : first.make disk with
      | error fault =>
          rw [makes] at h
          cases h
      | ok next =>
          rw [makes] at h
          obtain ⟨last, here, ends⟩ := ih h
          exact ⟨last, here.trans (make_keeps makes).here, ends⟩

end DiskStep
end Realms
