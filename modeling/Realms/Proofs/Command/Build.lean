import Realms.Command.Run
import Realms.Proofs.Output.Writable

/-!
What `build` does to the files of a project. It writes into its output folder and into the folder next to
that, whose name comes from the output folder alone. Both are emptied, but only the first one is checked to
lie apart from the project.
-/
namespace Realms

open FilePath (place)

/-- A file of the project that is not output. -/
structure Config.Owns (config : Config) (here other : Place) : Prop where
  within : place here config.root <+: other
  outside : ¬place here config.outDir <+: other

/-- A place in the folder where the output is written first. -/
def Config.Stages (config : Config) (here other : Place) : Prop :=
  place here (Build.stagingOf config.outDir) <+: other

namespace Command

variable {disk : Disk} {file : String} {config : Config} {made : Build}

/-- A build that a configuration starts ends before it writes, or with what its steps left. -/
theorem buildProject_cases (loads : Config.load disk file = .ok config) :
    (buildProject disk file).1 = disk ∧ (buildProject disk file).2.steps = [] ∧
        (buildProject disk file).2.exitCode ≠ 0 ∨
      ∃ made, compileProject disk config = .ok made ∧
        (buildProject disk file).1 = (made.write config.outDir disk).disk ∧
          (buildProject disk file).2.steps = (made.write config.outDir disk).made ∧
            ((buildProject disk file).2.exitCode = 0 → (made.write config.outDir disk).failed = none) := by
  unfold buildProject
  rw [loads]
  dsimp only
  cases compiles : compileProject disk config with
  | error e => exact .inl ⟨rfl, rfl, Nat.one_ne_zero⟩
  | ok made =>
      refine .inr ⟨made, rfl, ?_⟩
      dsimp only
      cases fails : (made.write config.outDir disk).failed with
      | none =>
          simp only [Build.written, fails, implies_true, and_self]
      | some failure =>
          simp only [Build.written, fails, failed, Nat.one_ne_zero, false_imp_iff, and_self]

/-- A build that succeeds has compiled the project and made all its steps. -/
theorem buildProject_succeeds (succeeds : (buildProject disk file).2.exitCode = 0) : ∃ config made manifest,
    Config.load disk file = .ok config ∧ compileProject disk config = .ok made ∧
      Build.written config.outDir (made.write config.outDir disk) = .ok manifest ∧
        buildProject disk file = ((made.write config.outDir disk).disk,
          ⟨0, [buildSummary made.manifest manifest], warningLines disk config made,
            (made.write config.outDir disk).made⟩) := by
  unfold buildProject at succeeds ⊢
  cases loads : Config.load disk file with
  | error e => simp [loads, failed] at succeeds
  | ok config =>
      cases compiles : compileProject disk config with
      | error e => simp [loads, compiles, failed] at succeeds
      | ok made =>
          cases writes : Build.written config.outDir (made.write config.outDir disk) with
          | error e => simp [loads, compiles, writes, failed] at succeeds
          | ok manifest => exact ⟨config, made, manifest, rfl, compiles, writes, by simp only [compiles, writes]⟩

/-- What a build that can be written gives. -/
theorem buildProject_eq (loads : Config.load disk file = .ok config) (compiles : compileProject disk config = .ok made)
    (done : (made.write config.outDir disk).failed = none) : buildProject disk file =
      ((made.write config.outDir disk).disk,
        ⟨0, [buildSummary made.manifest (FilePath.join config.outDir Manifest.fileName)],
          warningLines disk config made, made.steps config.outDir⟩) := by
  have steps : (made.write config.outDir disk).made = made.steps config.outDir := DiskStep.makeAll_made done
  have writes : Build.written config.outDir (made.write config.outDir disk) =
      .ok (FilePath.join config.outDir Manifest.fileName) := by
    rw [Build.written, done]
  simp only [buildProject, loads, compiles, writes, steps]

theorem run_build : run disk (.build file) = buildProject disk file := rfl

/-- A build that compiles succeeds where there is room for its output. -/
theorem run_build_isOk (tree : disk.IsTree) (loads : Config.load disk file = .ok config)
    (compiles : compileProject disk config = .ok made) (writable : made.Writable)
    (receives : Build.Receives disk config.outDir) : (run disk (.build file)).2.exitCode = 0 := by
  have done := writable.write_isOk receives tree fun artifact member => Build.artifact_normal compiles member
  rw [run_build, buildProject_eq loads compiles done]

/-- What `build` leaves of a file of the project, whether it succeeds or fails. The file stays as it is
unless it lies in the folder where the output is written first. There a build that succeeds leaves nothing of
it, and one that fails on the way leaves at most a file of its own. -/
theorem run_build_files {other : Place} {content : List UInt8} (loads : Config.load disk file = .ok config)
    (present : disk.fileAt? other = some content) (owns : config.Owns disk.here other) :
    (¬config.Stages disk.here other ∨ (run disk (.build file)).2.steps = [] →
        (run disk (.build file)).1.fileAt? other = some content) ∧
      (config.Stages disk.here other → (run disk (.build file)).2.exitCode = 0 →
        (run disk (.build file)).1.fileAt? other = none) ∧
      (config.Stages disk.here other → (run disk (.build file)).2.steps ≠ [] →
        disk.exists? (Build.stagingOf config.outDir) = true →
          ∀ left, (run disk (.build file)).1.fileAt? other = some left →
            ∃ written text, .write written text ∈ (run disk (.build file)).2.steps ∧
              other = place disk.here written ∧ left = Text.bytesOf text) := by
  rw [run_build]
  rcases buildProject_cases loads with ⟨same, unmade, fails⟩ | ⟨made, compiles, after, steps, ends⟩
  · rw [same, unmade]
    exact ⟨fun _ => present, fun _ succeeds => absurd succeeds fails, fun _ started => absurd rfl started⟩
  · have normal : ∀ artifact ∈ made.emission.artifacts, artifact.path.Normal := fun artifact member =>
      Build.artifact_normal compiles member
    rw [after, steps]
    refine ⟨?_, ?_, ?_⟩
    · rintro (apart | unmade)
      · have untouched : ¬Build.Touches disk.here config.outDir other := fun touches =>
          touches.elim apart owns.outside
        rw [(Build.write_keeps normal disk).files other untouched, present]
      · rw [Build.write, DiskStep.makeAll_unmade unmade, present]
    · intro stages succeeds
      exact Build.write_moves (ends succeeds) stages owns.outside
    · intro stages started there left found
      exact Build.write_fileAt? there started stages owns.outside found

/-- A project with a folder that has the name of the one where its output is written first. -/
def stagedProject : Disk where
  nodes := [
    (["work"], .folder),
    (["work", "realm.toml"], .file (Text.bytesOf "entries = ['page.js']")),
    (["work", "page.js"], .file []),
    (["work", "dist.staging"], .folder),
    (["work", "dist.staging", "keep.js"], .file [])]
  here := ["work"]

def stagedConfig : Config := ⟨".", ["page.js"], [], "dist", "/__realm", none, none, .error⟩

/-- The build succeeds and keeps the page, but the other file of the project is gone. -/
theorem stagedProject_files : ∃ config, Config.load stagedProject "realm.toml" = .ok config ∧
    (run stagedProject (.build "realm.toml")).2.exitCode = 0 ∧
      (config.Owns ["work"] ["work", "page.js"] ∧
        stagedProject.fileAt? ["work", "page.js"] = some [] ∧
          (run stagedProject (.build "realm.toml")).1.fileAt? ["work", "page.js"] = some []) ∧
        config.Owns ["work"] ["work", "dist.staging", "keep.js"] ∧
          stagedProject.fileAt? ["work", "dist.staging", "keep.js"] = some [] ∧
            (run stagedProject (.build "realm.toml")).1.fileAt? ["work", "dist.staging", "keep.js"] = none := by
  have tree : stagedProject.IsTree := Disk.isTree_of_all (by decide) (by decide +kernel)
  have loads : Config.load stagedProject "realm.toml" = .ok stagedConfig := toOption_eq_some.mp (by decide +kernel)
  have page : stagedProject.fileAt? ["work", "page.js"] = some [] := by decide +kernel
  have kept : stagedProject.fileAt? ["work", "dist.staging", "keep.js"] = some [] := by decide +kernel
  have looks : (compileProject stagedProject stagedConfig).toOption.map (fun made => made.files.map Prod.fst) =
      some [["server", "page.js"], ["manifest.json"]] := by decide +kernel
  obtain ⟨made, compiles, places⟩ := exists_of_toOption looks
  have receives : Build.Receives stagedProject "dist" :=
    Build.receives_of_lookup (by decide)
      (show FilePath.withoutSlashes "dist" = FilePath.join "" "dist" by decide)
      (by decide +kernel) (by decide +kernel) (by decide +kernel)
  have succeeds := run_build_isOk tree loads compiles (Build.writable_of_places places (by decide) (by decide)) receives
  have ownsPage : stagedConfig.Owns ["work"] ["work", "page.js"] := ⟨by decide +kernel, by decide +kernel⟩
  have ownsKept : stagedConfig.Owns ["work"] ["work", "dist.staging", "keep.js"] :=
    ⟨by decide +kernel, by decide +kernel⟩
  refine ⟨_, loads, succeeds, ⟨ownsPage, page, ?_⟩, ownsKept, kept, ?_⟩
  · exact (run_build_files loads page ownsPage).1 (.inl (by unfold Config.Stages; decide +kernel))
  · exact (run_build_files loads kept ownsKept).2.1 (by unfold Config.Stages; decide +kernel) succeeds

/-- A project that lies where its output is written first. -/
def stagedRoot : Disk where
  nodes := [
    (["work"], .folder),
    (["work", "realm.toml"],
      .file (Text.bytesOf "root = \"app.staging\"\nentries = [\"page.js\"]\nout_dir = \"app\"\n")),
    (["work", "app.staging"], .folder),
    (["work", "app.staging", "page.js"], .file (Text.bytesOf "export const page = 1;\n"))]
  here := ["work"]

def stagedRootConfig : Config := ⟨"app.staging", ["page.js"], [], "app", "/__realm", none, none, .error⟩

/-- The configuration is accepted, the build succeeds, and the only source of the project is gone. -/
theorem stagedRoot_lost : ∃ config, Config.load stagedRoot "realm.toml" = .ok config ∧
    config.Owns ["work"] ["work", "app.staging", "page.js"] ∧
      stagedRoot.fileAt? ["work", "app.staging", "page.js"] =
          some (Text.bytesOf "export const page = 1;\n") ∧
        (run stagedRoot (.build "realm.toml")).2.exitCode = 0 ∧
          (run stagedRoot (.build "realm.toml")).1.fileAt? ["work", "app.staging", "page.js"] = none := by
  have tree : stagedRoot.IsTree := Disk.isTree_of_all (by decide) (by decide +kernel)
  have loads : Config.load stagedRoot "realm.toml" = .ok stagedRootConfig := toOption_eq_some.mp (by decide +kernel)
  have before : stagedRoot.fileAt? ["work", "app.staging", "page.js"] =
      some (Text.bytesOf "export const page = 1;\n") := rfl
  have looks : (compileProject stagedRoot stagedRootConfig).toOption.map (fun made => made.files.map Prod.fst) =
      some [["server", "page.js"], ["manifest.json"]] := by decide +kernel
  obtain ⟨made, compiles, places⟩ := exists_of_toOption looks
  have receives : Build.Receives stagedRoot "app" :=
    Build.receives_of_lookup (by decide)
      (show FilePath.withoutSlashes "app" = FilePath.join "" "app" by decide)
      (by decide +kernel) (by decide +kernel) (by decide +kernel)
  have writable : made.Writable := Build.writable_of_places places (by decide) (by decide)
  have done := writable.write_isOk receives tree fun artifact member => Build.artifact_normal compiles member
  have owns : stagedRootConfig.Owns ["work"] ["work", "app.staging", "page.js"] :=
    ⟨by decide +kernel, by decide +kernel⟩
  refine ⟨_, loads, owns, before, run_build_isOk tree loads compiles writable receives, ?_⟩
  rw [run_build, buildProject_eq loads compiles done]
  exact Build.write_moves done (by decide +kernel) owns.outside

end Command
end Realms
