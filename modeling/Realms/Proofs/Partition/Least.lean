import Realms.Proofs.Partition.Records

/-!
The graphs of a partition as the least solution of the rules. However many rounds it takes, nothing that
the rules give is missing and nothing else is there.
-/
namespace Realms.Project

theorem Settled.membership_eq {project : Project} {listed : List ModulePath} {round : Round}
    (settled : project.Settled listed round) : (project.partitionOf round).membership =
      (fun kind => {path | project.Stands listed .entry kind path},
        fun kind => {path | project.Stands listed .member kind path}) := by
  apply Prod.ext
  · funext kind
    ext path
    change path ∈ ((project.partitionOf round).graph kind).entries ↔ _
    rw [graph_partitionOf]
    exact settled.mem_entries kind path
  · funext kind
    ext path
    change path ∈ ((project.partitionOf round).graph kind).modules ↔ _
    rw [graph_partitionOf]
    exact settled.mem_modules kind path

/-- The entries and the modules of a partition obey the rules, and whatever obeys them has at least these. -/
theorem partition_isLeast {project : Project} {listed : List ModulePath} {partition : Partition}
    (h : project.partition listed = .ok partition) :
    IsLeast {graphs | project.Obeys listed graphs} partition.membership := by
  obtain ⟨round, settled, rfl, _⟩ := partition_eq_ok h
  rw [settled.membership_eq]
  exact stands_isLeast project listed

/-- A function of the server that asks for a component, which asks for the next function. -/
def lateEntries : Project where
  shared := []
  sources := .ofTexts [
    (⟨"first.js"⟩, "'use server'; import './list.js'; export async function first() {}"),
    (⟨"list.js"⟩, "'use client'; import './format.js'; import './second.js'"),
    (⟨"format.js"⟩, "import './list.js'"),
    (⟨"second.js"⟩, "'use server'; export async function second() {}")]

/-- The second function comes in two rounds after the first one. -/
theorem lateEntries_isLeast : ∃ partition, lateEntries.partition [⟨"first.js"⟩] = .ok partition ∧
    partition.serverFunctions.entries = [⟨"first.js"⟩, ⟨"second.js"⟩] ∧
    partition.client.modules = [⟨"format.js"⟩, ⟨"list.js"⟩] ∧
    IsLeast {graphs | lateEntries.Obeys [⟨"first.js"⟩] graphs} partition.membership := by
  have splits : ((lateEntries.partition [⟨"first.js"⟩]).toOption.map fun partition =>
      (partition.serverFunctions.entries, partition.client.modules)) =
        some ([⟨"first.js"⟩, ⟨"second.js"⟩], [⟨"format.js"⟩, ⟨"list.js"⟩]) := by decide +kernel
  obtain ⟨partition, h, found⟩ := exists_of_toOption splits
  obtain ⟨entries, modules⟩ := Prod.mk.inj found
  exact ⟨partition, h, entries, modules, partition_isLeast h⟩

end Realms.Project
