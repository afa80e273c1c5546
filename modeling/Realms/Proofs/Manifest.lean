import Realms.Proofs.Emission.Ids
import Realms.Proofs.Emission.Slots
import Realms.Proofs.Text.Utf8

/-!
The id of a build. It is the digest of one text, in which every artifact stands with its side, its path and the
digest of its code. Nothing in that text says how long its parts are, but a path without a NUL ends at the first
one and all digests have one length; so the text tells the artifacts, and their order does not show in it.
-/
namespace Realms

namespace Digest

theorem bigEndian_length (count n : Nat) : (bigEndian count n).length = count := by
  simp [bigEndian]

theorem hexChars_length (bytes : List UInt8) : (hexChars bytes).length = 2 * bytes.length := by
  induction bytes with
  | nil => rfl
  | cons byte rest ih =>
      have digits : hexChars (byte :: rest) =
          hexChar (byte.toNat / 16) :: hexChar (byte.toNat % 16) :: hexChars rest := rfl
      rw [digits, List.length_cons, List.length_cons, ih, List.length_cons]
      omega

/-- All digests have one length. -/
theorem hexOf_length (bytes : List UInt8) : (hexOf bytes).toList.length = 64 := by
  rw [hexOf, String.toList_ofList, hexChars_length]
  simp [State.words, bigEndian_length]

/-- No two of some inputs have one digest. -/
def Apart (inputs : List (List UInt8)) : Prop :=
  ∀ a ∈ inputs, ∀ b ∈ inputs, hexOf a = hexOf b → a = b

/-- It is enough that the digests begin in different ways. -/
theorem apart_of_nodup {inputs : List (List UInt8)} (count : Nat)
    (nodup : (inputs.map fun input => (hexOf input).toList.take count).Nodup) : Apart inputs := by
  intro a first b second same
  exact List.inj_on_of_nodup_map nodup first second (by rw [same])

end Digest

theorem Text.bytesOf_injective : Function.Injective Text.bytesOf := by
  intro a b same
  have read := congrArg Text.decode? same
  rw [Text.bytesOf, Text.bytesOf, Text.decode?_encode, Text.decode?_encode] at read
  simpa using read

namespace Artifact

/-- What an artifact puts into the output. Its role does not show there. -/
structure Payload where
  target : Target
  path : ModulePath
  code : String
deriving DecidableEq, Repr

def payload (artifact : Artifact) : Payload := ⟨artifact.target, artifact.path, artifact.code⟩

namespace Payload

/-- The side and the path, as they stand in the digested text. -/
def fileChars (payload : Payload) : List Char :=
  payload.target.name.toList ++ '/' :: payload.path.text.toList

/-- What an artifact adds to the digested text. -/
def markChars (payload : Payload) : List Char :=
  payload.fileChars ++ '\x00' :: (Digest.hexOf (Text.bytesOf payload.code)).toList

/-- The order of the entries of a manifest. -/
def le (a b : Payload) : Bool :=
  match a.target, b.target with
  | .server, .client => true
  | .client, .server => false
  | _, _ => a.path.le b.path

variable {a b c : Payload} {payloads others : List Payload}

theorem fileChars_inj (same : a.fileChars = b.fileChars) : a.target = b.target ∧ a.path = b.path := by
  obtain ⟨target, path, code⟩ := a
  obtain ⟨target', path', code'⟩ := b
  have paths (texts : path.text.toList = path'.text.toList) : path = path' :=
    ModulePath.text_injective (String.toList_injective texts)
  cases target <;> cases target' <;> simp [fileChars, Target.name] at same
  · exact ⟨rfl, paths (by rw [same])⟩
  · exact ⟨rfl, paths (by rw [same])⟩

theorem noNul_fileChars (plain : '\x00' ∉ a.path.text.toList) : '\x00' ∉ a.fileChars := by
  have name : '\x00' ∉ a.target.name.toList := by
    cases a.target <;> decide
  simp [fileChars, name, plain]

/-- Marks that stand one behind the other tell what they are made of: the file in front of a mark ends at the first NUL,
and what is behind that is as long as every digest. -/
theorem eq_of_marks (plain : ∀ payload ∈ payloads ++ others, '\x00' ∉ payload.path.text.toList)
    (apart : ∀ a ∈ payloads, ∀ b ∈ others,
      Digest.hexOf (Text.bytesOf a.code) = Digest.hexOf (Text.bytesOf b.code) → a.code = b.code)
    (same : payloads.flatMap markChars = others.flatMap markChars) : payloads = others := by
  induction payloads generalizing others with
  | nil =>
      cases others with
      | nil => rfl
      | cons b others => simp [markChars] at same
  | cons a payloads ih =>
      cases others with
      | nil => simp [markChars] at same
      | cons b others =>
          simp only [List.flatMap_cons, markChars, List.append_assoc, List.cons_append] at same
          have inFront : b ∈ a :: payloads ++ b :: others := List.mem_append_right _ List.mem_cons_self
          obtain ⟨files, behind⟩ := append_sign_inj same (.inl (noNul_fileChars (plain b inFront)))
            (.inl (noNul_fileChars (plain a List.mem_cons_self)))
          obtain ⟨digests, rest⟩ := List.append_inj behind
            ((Digest.hexOf_length _).trans (Digest.hexOf_length _).symm)
          obtain ⟨target, path⟩ := fileChars_inj files
          have code := apart a List.mem_cons_self b List.mem_cons_self (String.toList_injective digests)
          have later : payloads = others := by
            apply ih _ _ rest
            · intro payload member
              apply plain
              rcases List.mem_append.mp member with first | second
              · exact List.mem_append_left _ (List.mem_cons_of_mem a first)
              · exact List.mem_append_right _ (List.mem_cons_of_mem b second)
            · intro c first d second
              exact apart c (List.mem_cons_of_mem a first) d (List.mem_cons_of_mem b second)
          have own : a = b := by
            obtain ⟨_, _, _⟩ := a
            obtain ⟨_, _, _⟩ := b
            exact (mk.injEq ..).mpr ⟨target, path, code⟩
          rw [own, later]

theorem le_iff : a.le b = true ↔
    (a.target = .server ∧ b.target = .client) ∨ (a.target = b.target ∧ a.path.text ≤ b.path.text) := by
  unfold le
  cases a.target <;> cases b.target <;> simp [ModulePath.le]

theorem le_trans (a b c : Payload) (first : a.le b = true) (second : b.le c = true) : a.le c = true := by
  rw [le_iff] at *
  rcases first with ⟨server, client⟩ | ⟨same, less⟩
  · rcases second with ⟨server', _⟩ | ⟨same', _⟩
    · cases client.symm.trans server'
    · exact .inl ⟨server, same'.symm.trans client⟩
  · rcases second with ⟨server', client'⟩ | ⟨same', less'⟩
    · exact .inl ⟨same.trans server', client'⟩
    · exact .inr ⟨same.trans same', String.le_trans less less'⟩

theorem le_total (a b : Payload) : (a.le b || b.le a) = true := by
  rw [Bool.or_eq_true, le_iff, le_iff]
  have paths := String.le_total a.path.text b.path.text
  cases a.target <;> cases b.target <;> simp [paths]

theorem le_antisymm (less : a.le b = true) (more : b.le a = true) : a.target = b.target ∧ a.path = b.path := by
  rw [le_iff] at *
  rcases less with ⟨server, client⟩ | ⟨same, less⟩
  · rcases more with ⟨server', _⟩ | ⟨same', _⟩
    · cases client.symm.trans server'
    · cases client.symm.trans (same'.trans server)
  · rcases more with ⟨server', client'⟩ | ⟨_, more⟩
    · cases server'.symm.trans (same.symm.trans client')
    · exact ⟨same, ModulePath.text_injective (String.le_antisymm less more)⟩

theorem mem_sorted : a ∈ payloads.mergeSort le ↔ a ∈ payloads := (List.mergeSort_perm payloads le).mem_iff

/-- Where no side has two artifacts of one path, a set of them has one order. -/
theorem sorted_eq (places : (payloads.map fun payload => (payload.target, payload.path)).Nodup)
    (places' : (others.map fun payload => (payload.target, payload.path)).Nodup)
    (same : ∀ payload, payload ∈ payloads ↔ payload ∈ others) : payloads.mergeSort le = others.mergeSort le := by
  have perm : payloads.Perm others := (List.perm_ext_iff_of_nodup places.of_map places'.of_map).mpr same
  have sorted (payloads : List Payload) : (payloads.mergeSort le).Pairwise (le · · = true) :=
    List.pairwise_mergeSort le_trans le_total payloads
  refine List.Perm.eq_of_pairwise ?_ (sorted payloads) (sorted others)
    ((List.mergeSort_perm _ _).trans (perm.trans (List.mergeSort_perm _ _).symm))
  intro a b first second less more
  obtain ⟨target, path⟩ := le_antisymm less more
  exact List.inj_on_of_nodup_map places (mem_sorted.mp first) ((same b).mpr (mem_sorted.mp second))
    (Prod.ext target path)

end Payload
end Artifact

namespace Manifest

open Artifact (Payload)

variable {artifacts others : List Artifact}

/-- The text that the id of a build is the digest of. -/
def digestedText (artifacts : List Artifact) : String := String.join ((entriesOf artifacts).map markOf)

/-- All that is digested for artifacts: the code of each of them, and the text that their id comes from. -/
def digested (artifacts : List Artifact) : List (List UInt8) :=
  Text.bytesOf (digestedText artifacts) :: artifacts.map fun artifact => Text.bytesOf artifact.code

theorem idOf_entriesOf (artifacts : List Artifact) :
    idOf (entriesOf artifacts) = Digest.hexOf (Text.bytesOf (digestedText artifacts)) := rfl

theorem markOf_entryOf (artifact : Artifact) : (markOf (entryOf artifact)).toList = artifact.payload.markChars := by
  simp [markOf, entryOf, Payload.markChars, Payload.fileChars, Artifact.payload]

theorem digestedText_toList (artifacts : List Artifact) : (digestedText artifacts).toList =
    ((artifacts.map Artifact.payload).mergeSort Payload.le).flatMap Payload.markChars := by
  have sorted : (artifacts.mergeSort artifactLe).map Artifact.payload =
      (artifacts.map Artifact.payload).mergeSort Payload.le := List.map_mergeSort fun _ _ _ _ => rfl
  rw [digestedText, entriesOf, ← sorted]
  induction artifacts.mergeSort artifactLe with
  | nil => rfl
  | cons artifact rest ih =>
      simp only [List.map_cons, String.join_cons, String.toList_append, ih, List.flatMap_cons, markOf_entryOf]

section

variable (places : (artifacts.map fun artifact => (artifact.target, artifact.path)).Nodup)
  (places' : (others.map fun artifact => (artifact.target, artifact.path)).Nodup)

include places places'

/-- Artifacts that put the same into the output have one id, in whatever order they stand. -/
theorem idOf_congr (same : ∀ payload, payload ∈ artifacts.map Artifact.payload ↔
    payload ∈ others.map Artifact.payload) : idOf (entriesOf artifacts) = idOf (entriesOf others) := by
  have sorted := Payload.sorted_eq (by rwa [List.map_map]) (by rwa [List.map_map]) same
  have texts : digestedText artifacts = digestedText others := by
    rw [← String.toList_inj, digestedText_toList, digestedText_toList, sorted]
  rw [idOf_entriesOf, idOf_entriesOf, texts]

/-- The id of artifacts tells what they put into the output. -/
theorem idOf_eq_iff (plain : ∀ artifact ∈ artifacts ++ others, '\x00' ∉ artifact.path.text.toList)
    (apart : Digest.Apart (digested artifacts ++ digested others)) :
    idOf (entriesOf artifacts) = idOf (entriesOf others) ↔
      ∀ payload, payload ∈ artifacts.map Artifact.payload ↔ payload ∈ others.map Artifact.payload := by
  refine ⟨fun same => ?_, idOf_congr places places'⟩
  rw [idOf_entriesOf, idOf_entriesOf] at same
  have texts := Text.bytesOf_injective (apart _ (by simp [digested]) _ (by simp [digested]) same)
  rw [← String.toList_inj, digestedText_toList, digestedText_toList] at texts
  have payloads := Payload.eq_of_marks ?_ ?_ texts
  · intro payload
    rw [← Payload.mem_sorted, payloads, Payload.mem_sorted]
  · intro payload member
    rw [List.mem_append, Payload.mem_sorted, Payload.mem_sorted, ← List.mem_append, ← List.map_append] at member
    obtain ⟨artifact, listed, rfl⟩ := List.mem_map.mp member
    exact plain artifact listed
  · intro a first b second digests
    obtain ⟨artifact, listed, rfl⟩ := List.mem_map.mp (Payload.mem_sorted.mp first)
    obtain ⟨other, listed', rfl⟩ := List.mem_map.mp (Payload.mem_sorted.mp second)
    apply Text.bytesOf_injective
    apply apart _ _ _ _ digests
    · exact List.mem_append_left _ (List.mem_cons_of_mem _ (List.mem_map.mpr ⟨artifact, listed, rfl⟩))
    · exact List.mem_append_right _ (List.mem_cons_of_mem _ (List.mem_map.mpr ⟨other, listed', rfl⟩))

end

end Manifest

namespace Build

variable {options options' : BuildOptions} {sources sources' : Sources} {build build' : Build}

/-- No side of a build has two artifacts of one path. -/
theorem artifact_places (compiles : compile options sources = .ok build) :
    (build.emission.artifacts.map fun artifact => (artifact.target, artifact.path)).Nodup := by
  obtain ⟨project, listed, round, settled, _, whole, emits, _⟩ := compile_eq_ok compiles
  rw [whole] at emits
  have nodup := Emission.slots_nodup settled.emittable settled.keepsBoundary
    (settled.finished .client).ascending.nodup
  rwa [← Emission.generate_slots emits, List.map_map] at nodup

theorem compile_manifest (compiles : compile options sources = .ok build) :
    build.manifest = Manifest.ofEmission build.partition.shared build.emission := by
  obtain ⟨_, _, _, _, _, _, _, manifest⟩ := compile_eq_ok compiles
  exact manifest

/-- The id of a build tells its output: builds have one id if and only if their artifacts are the same up to order
and roles, as far as no two of the contents digested for them share a digest. -/
theorem compile_identified (compiles : compile options sources = .ok build)
    (compiles' : compile options' sources' = .ok build')
    (plain : ∀ artifact ∈ build.emission.artifacts ++ build'.emission.artifacts, '\x00' ∉ artifact.path.text.toList)
    (apart : Digest.Apart (Manifest.digested build.emission.artifacts ++
      Manifest.digested build'.emission.artifacts)) :
    (build.manifest.buildId = build'.manifest.buildId ↔
        ∀ payload, payload ∈ build.emission.artifacts.map Artifact.payload ↔
          payload ∈ build'.emission.artifacts.map Artifact.payload) ∧
      ∀ artifacts, artifacts.Perm build.emission.artifacts →
        (Manifest.ofEmission build.partition.shared { build.emission with artifacts }).buildId =
          build.manifest.buildId := by
  have places := artifact_places compiles
  rw [compile_manifest compiles, compile_manifest compiles']
  refine ⟨Manifest.idOf_eq_iff places (artifact_places compiles') plain apart, ?_⟩
  intro artifacts perm
  apply Manifest.idOf_congr _ places
  · intro payload
    exact (perm.map Artifact.payload).mem_iff
  · exact (perm.map _).nodup_iff.mpr places

/-- Two versions of one module. -/
def versionSources (text : String) : Sources := .ofTexts [(⟨"a.js"⟩, text)]

def versionOptions : BuildOptions := ⟨".", ["a.js"], [], .standard⟩

/-- The versions have builds of different ids. -/
theorem versionSources_identified : ∃ build build',
    compile versionOptions (versionSources "1") = .ok build ∧
      compile versionOptions (versionSources "2") = .ok build' ∧
        (∀ artifact ∈ build.emission.artifacts ++ build'.emission.artifacts, '\x00' ∉ artifact.path.text.toList) ∧
          Digest.Apart (Manifest.digested build.emission.artifacts ++
            Manifest.digested build'.emission.artifacts) ∧
          build.manifest.buildId ≠ build'.manifest.buildId := by
  have first : (compile versionOptions (versionSources "1")).toOption.map (·.emission.artifacts) =
      some [⟨⟨"a.js"⟩, .server, .module, "1"⟩] := by decide +kernel
  have second : (compile versionOptions (versionSources "2")).toOption.map (·.emission.artifacts) =
      some [⟨⟨"a.js"⟩, .server, .module, "2"⟩] := by decide +kernel
  obtain ⟨build, compiles, artifacts⟩ := exists_of_toOption first
  obtain ⟨build', compiles', artifacts'⟩ := exists_of_toOption second
  have starts : ((Manifest.digested [⟨⟨"a.js"⟩, .server, .module, "1"⟩] ++
      Manifest.digested [⟨⟨"a.js"⟩, .server, .module, "2"⟩]).map fun input =>
        (Digest.hexOf input).toList.take 2) = [['1', '2'], ['6', 'b'], ['1', '3'], ['d', '4']] := by decide +kernel
  have apart : Digest.Apart (Manifest.digested build.emission.artifacts ++
      Manifest.digested build'.emission.artifacts) := by
    rw [artifacts, artifacts']
    exact Digest.apart_of_nodup 2 (by rw [starts]; decide)
  have plain : ∀ artifact ∈ build.emission.artifacts ++ build'.emission.artifacts,
      '\x00' ∉ artifact.path.text.toList := by
    rw [artifacts, artifacts']
    decide +kernel
  refine ⟨build, build', compiles, compiles', plain, apart, ?_⟩
  intro same
  have payloads := (compile_identified compiles compiles' plain apart).1.mp same
  rw [artifacts, artifacts'] at payloads
  have written := (payloads ⟨.server, ⟨"a.js"⟩, "1"⟩).mp (List.mem_singleton_self _)
  revert written
  decide

end Build
end Realms
