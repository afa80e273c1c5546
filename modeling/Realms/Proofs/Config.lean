import Realms.Config
import Realms.Proofs.FilePath

/-!
The output folder of a configuration. A configuration is refused exactly if a build would replace its own project:
if the output folder is the root of the project or holds it, wherever the two paths lead from the folder of the
configuration.
-/
namespace Realms

namespace FilePath

variable {here : Place} {base text path root : String}

theorem isAbsolute_join_absolute (absolute : isAbsolute base = true) (text : String) :
    isAbsolute (join base text) = true := by
  have nonempty : base ≠ "" := by
    rintro rfl
    cases absolute
  rw [join]
  split
  · assumption
  · split
    · rw [isAbsolute_append text nonempty, absolute]
    · rw [String.append_assoc, isAbsolute_append _ nonempty, absolute]

theorem place_absolute (absolute : isAbsolute text = true) : place here text = place [] text := by
  rw [place, place, absolute]
  rfl

/-- A path next to another one leads where it leads from there. -/
theorem place_join_eq (here : Place) (base text : String) :
    place here (join base text) = place (place here base) text := by
  cases absolute : isAbsolute text with
  | true =>
      rw [join, if_pos absolute, place_absolute absolute]
      exact (place_absolute absolute).symm
  | false => rw [place_join absolute, place.eq_def _ text, if_neg (Bool.eq_false_iff.mp absolute)]

/-- A cleaned path starts with another one if its place is there or below. -/
theorem startsWith_clean (absolute : isAbsolute path = true) (rootAbsolute : isAbsolute root = true) :
    (clean path).startsWith (clean root) = true ↔ place [] root <+: place [] path := by
  rw [startsWith, Option.isSome_iff_exists, clean_absolute [] absolute, clean_absolute [] rootAbsolute]
  constructor
  · rintro ⟨below, found⟩
    obtain ⟨names, whole, _⟩ := below?_absolute.mp found
    exact ⟨names, whole.symm⟩
  · rintro ⟨names, whole⟩
    exact ⟨_, below?_absolute.mpr ⟨names, whole.symm, rfl⟩⟩

end FilePath

namespace Config

open FilePath (place join isAbsolute)

variable {base source : String} {config : Config}

theorem ofSource_eq (shaped : (Toml.read? source).bind ofMembers = some config) :
    ofSource base source = (config.under base).check >>= fun _ => .ok (config.under base) := by
  rw [ofSource, ofText, shaped]
  rfl

/-- From the folder of a configuration, its output folder is where its root is, or above that. -/
def HoldsRoot (base : String) (config : Config) : Prop :=
  place (place [] base) config.outDir <+: place (place [] base) config.root

/-- With entries and an endpoint, only the output folder is left to check. -/
theorem check_under (absolute : isAbsolute base = true) (entries : config.entries ≠ [])
    (endpoint : isAbsolute config.endpoint = true) :
    (HoldsRoot base config ∧ (config.under base).check =
      .error (.outputHoldsRoot (join base config.outDir) (join base config.root))) ∨
    (¬HoldsRoot base config ∧ (config.under base).check = .ok ()) := by
  have rootAbsolute := FilePath.isAbsolute_join_absolute absolute config.root
  have outAbsolute := FilePath.isAbsolute_join_absolute absolute config.outDir
  have held : (FilePath.clean (join base config.root)).startsWith (FilePath.clean (join base config.outDir)) = true ↔
      HoldsRoot base config := by
    rw [FilePath.startsWith_clean rootAbsolute outAbsolute, FilePath.place_join_eq, FilePath.place_join_eq]
    rfl
  have checks : (config.under base).check =
      if (FilePath.clean (join base config.root)).startsWith (FilePath.clean (join base config.outDir)) then
        .error (.outputHoldsRoot (join base config.outDir) (join base config.root)) else .ok () := by
    have some : config.entries.isEmpty = false := by simpa using entries
    rw [check, under, some, endpoint]
    rfl
  by_cases holds : HoldsRoot base config
  · exact .inl ⟨holds, by rw [checks, if_pos (held.mpr holds)]⟩
  · exact .inr ⟨holds, by rw [checks, if_neg fun starts => holds (held.mp starts)]⟩

/-- What is promised of the configuration in a text, next to an absolute folder. -/
structure GuardsProject (base source : String) (config : Config) : Prop where
  fails : (∃ e, ofSource base source = .error e) ↔ HoldsRoot base config
  refused : ∀ e, ofSource base source = .error e →
    e = .outputHoldsRoot (join base config.outDir) (join base config.root)
  accepted : ∀ found, ofSource base source = .ok found → found = config.under base
  /-- On a disk on which both paths can be followed, they are followed there. -/
  onDisk : ∀ disk : Disk, ∀ outDir root, disk.locate (join base config.outDir) = .ok outDir →
    disk.locate (join base config.root) = .ok root → ((∃ e, ofSource base source = .error e) ↔ outDir <+: root)

theorem ofSource_guardsProject (absolute : isAbsolute base = true)
    (shaped : (Toml.read? source).bind ofMembers = some config) (entries : config.entries ≠ [])
    (endpoint : isAbsolute config.endpoint = true) : GuardsProject base source config := by
  have fails : (∃ e, ofSource base source = .error e) ↔ HoldsRoot base config := by
    rcases check_under absolute entries endpoint with ⟨holds, checks⟩ | ⟨free, checks⟩
    · rw [ofSource_eq shaped, checks]
      exact ⟨fun _ => holds, fun _ => ⟨_, rfl⟩⟩
    · rw [ofSource_eq shaped, checks]
      refine ⟨?_, fun holds => absurd holds free⟩
      rintro ⟨_, refused⟩
      cases refused
  refine ⟨fails, ?_, ?_, ?_⟩
  · intro e refused
    rw [ofSource_eq shaped] at refused
    rcases check_under absolute entries endpoint with ⟨_, checks⟩ | ⟨_, checks⟩
    · rw [checks] at refused
      exact (Except.error.inj refused).symm
    · rw [checks] at refused
      cases refused
  · intro found accepts
    rw [ofSource_eq shaped] at accepts
    obtain ⟨_, _, same⟩ := bind_eq_ok.mp accepts
    exact (Except.ok.inj same).symm
  · intro disk outDir root outLeads rootLeads
    have leads {text : String} {spot : Place} (locates : disk.locate (join base text) = .ok spot) :
        spot = place (place [] base) text := by
      rw [Disk.locate_eq_ok locates, FilePath.place_absolute (FilePath.isAbsolute_join_absolute absolute text),
        FilePath.place_join_eq]
    rw [fails, HoldsRoot, leads outLeads, leads rootLeads]

/-- An output folder that is the root, though it is spelled by way of what is above the disk. -/
def crookedSource : String := "entries = ['a']\nroot = '../q'\nout_dir = '/../q/.'"

def crookedConfig : Config := ⟨"../q", ["a"], [], "/../q/.", "/__realm", none, none, .error⟩

theorem crookedSource_refused : isAbsolute "/p" = true ∧
    (Toml.read? crookedSource).bind ofMembers = some crookedConfig ∧ crookedConfig.entries ≠ [] ∧
      isAbsolute crookedConfig.endpoint = true ∧ GuardsProject "/p" crookedSource crookedConfig ∧
        ofSource "/p" crookedSource = .error (.outputHoldsRoot "/../q/." "/p/../q") := by
  have shaped : (Toml.read? crookedSource).bind ofMembers = some crookedConfig := by decide +kernel
  have guards : GuardsProject "/p" crookedSource crookedConfig :=
    ofSource_guardsProject (by decide) shaped (by decide) (by decide)
  have holds : HoldsRoot "/p" crookedConfig := by
    unfold HoldsRoot
    decide +kernel
  obtain ⟨e, refused⟩ := guards.fails.mpr holds
  have same : join "/p" crookedConfig.outDir = "/../q/." ∧ join "/p" crookedConfig.root = "/p/../q" := by
    decide +kernel
  rw [guards.refused e refused, same.1, same.2] at refused
  exact ⟨by decide, shaped, by decide, by decide, guards, refused⟩

end Config
end Realms
