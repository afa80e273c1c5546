import Realms.Proofs.Partition.Walk

/-!
Walks without a bound. A walk goes on until nothing is queued or a visit fails. It takes no module from its
queue twice, so every walk ends, and the rounds that it is given are always enough for that.
-/
namespace Realms

namespace Project

variable {project : Project}

theorem load_isFile {path : ModulePath} {record : ModuleRecord} (loads : project.load path = .ok record) :
    path ∈ project.sources.files.map Prod.fst := by
  have found : (project.sources.files.find? (·.1 == path)).isSome := by
    by_contra absent
    rw [Option.not_isSome_iff_eq_none] at absent
    simp [load, Sources.read, Sources.find?, absent] at loads
  obtain ⟨file, listed, same⟩ := List.find?_isSome.mp found
  exact List.mem_map.mpr ⟨file, listed, beq_iff_eq.mp same⟩

theorem length_le_files {paths : List ModulePath} (nodup : paths.Nodup)
    (loads : ∀ path ∈ paths, ∃ record, project.load path = .ok record) :
    paths.length ≤ project.sources.files.length := by
  have files : paths ⊆ project.sources.files.map Prod.fst := fun path member =>
    (loads path member).elim fun _ found => load_isFile found
  simpa using (List.subperm_of_subset nodup files).length_le

end Project

namespace Walk

variable {project : Project} {kind : GraphKind} {entries loaded : PathSet} {visited taken : List ModulePath}
  {first walk : Walk} {outcome : Except BuildError Walk}

/-- A walk to its end, however far that is: the modules it takes from its queue, in their order, and what
comes out. -/
inductive Ends (project : Project) : Walk → List ModulePath → Except BuildError Walk → Prop
  | empty {walk : Walk} : walk.queue = [] → Ends project walk [] (.ok walk)
  | failed {walk path rest e} : walk.queue = path :: rest →
      Walk.visit project { walk with queue := rest } path = .error e → Ends project walk [path] (.error e)
  | visit {walk path rest next taken outcome} : walk.queue = path :: rest →
      Walk.visit project { walk with queue := rest } path = .ok next → Ends project next taken outcome →
        Ends project walk (path :: taken) outcome

/-- A walk ends behind its last visit, or at a module that cannot be visited. -/
theorem Ends.cases (ends : Ends project walk taken outcome) (visits : Visits project first visited walk) :
    (∃ last, outcome = .ok last ∧ Visits project first (visited ++ taken) last ∧ last.queue = []) ∨
      ∃ front path last rest e, outcome = .error e ∧ taken = front ++ [path] ∧
        Visits project first (visited ++ front) last ∧ last.queue = path :: rest ∧
          Walk.visit project { last with queue := rest } path = .error e := by
  induction ends generalizing visited with
  | @empty walk queue => exact .inl ⟨walk, rfl, (List.append_nil visited).symm ▸ visits, queue⟩
  | @failed walk path rest e queue fails =>
      exact .inr ⟨[], path, walk, rest, e, rfl, rfl, (List.append_nil visited).symm ▸ visits, queue, fails⟩
  | @visit walk path rest next taken outcome queue visit _ ih =>
      rcases ih (visits.visit queue visit) with
        ⟨last, same, all, empty⟩ | ⟨front, failing, last, behind, e, same, rfl, all, queued, fails⟩
      · exact .inl ⟨last, same, List.append_cons visited path taken ▸ all, empty⟩
      · exact .inr ⟨path :: front, failing, last, behind, e, same, rfl, List.append_cons visited path front ▸ all,
          queued, fails⟩

theorem Visits.nodup (ascending : entries.Ascending)
    (visits : Visits project (Walk.start kind entries loaded) visited walk) : (visited ++ walk.queue).Nodup :=
  have holds := visits.holds ascending
  holds.queued.nodup_iff.mp holds.ascending.nodup

/-- No module is taken from the queue twice, the one at which a walk fails included. -/
theorem Ends.nodup (ascending : entries.Ascending)
    (ends : Ends project (start kind entries loaded) taken outcome) : taken.Nodup := by
  rcases ends.cases .start with ⟨last, _, visits, _⟩ | ⟨front, path, last, rest, e, _, rfl, visits, queue, _⟩
  · exact (List.nodup_append.mp (visits.nodup ascending)).1
  · have nodup := visits.nodup ascending
    rw [List.nil_append, queue, List.append_cons] at nodup
    exact (List.nodup_append.mp nodup).1

/-- What has been visited are files. -/
theorem Visits.length_le (ascending : entries.Ascending)
    (visits : Visits project (Walk.start kind entries loaded) visited walk) :
    visited.length ≤ project.sources.files.length :=
  Project.length_le_files (List.nodup_append.mp (visits.nodup ascending)).1 fun path member =>
    (visits.visitable path member).imp fun _ found => found.1

/-- With a round for each file that is left and one more, a run is the walk to its end. -/
theorem run_ends {rounds : Nat} (ascending : entries.Ascending)
    (visits : Visits project (Walk.start kind entries loaded) visited walk)
    (enough : project.sources.files.length < rounds + visited.length) :
    ∃ taken, Ends project walk taken (run project rounds walk) := by
  induction rounds generalizing visited walk with
  | zero => exact absurd (visits.length_le ascending) (by omega)
  | succ rounds ih =>
      rw [run]
      split
      · rename_i empty
        exact ⟨[], .empty empty⟩
      · rename_i path rest queue
        cases visit : Walk.visit project { walk with queue := rest } path with
        | error e => exact ⟨[path], .failed queue visit⟩
        | ok next =>
            have longer : (visited ++ [path]).length = visited.length + 1 := List.length_append
            obtain ⟨taken, ends⟩ := ih (visits.visit queue visit) (by omega)
            exact ⟨path :: taken, .visit queue visit ends⟩

theorem walk_ends (project : Project) (kind : GraphKind) (loaded : PathSet) (ascending : entries.Ascending) :
    ∃ taken, Ends project (start kind entries loaded) taken (project.walk kind entries loaded) :=
  run_ends ascending .start (Nat.lt_succ_self _)

/-- A walk that succeeds has taken the modules of its graph from its queue. -/
theorem walk_taken (ascending : entries.Ascending) (h : project.walk kind entries loaded = .ok walk) :
    ∃ taken, Ends project (start kind entries loaded) taken (.ok walk) ∧
      Visits project (start kind entries loaded) taken walk ∧ walk.graph.modules.Perm taken := by
  obtain ⟨taken, ends⟩ := walk_ends project kind loaded ascending
  rw [h] at ends
  rcases ends.cases .start with ⟨last, same, visits, empty⟩ | ⟨_, _, _, _, _, same, _⟩
  · obtain rfl := Except.ok.inj same
    have queued := (visits.holds ascending).queued
    rw [empty, List.append_nil] at queued
    exact ⟨taken, ends, visits, queued⟩
  · cases same

/-- A walk that succeeds has visited its graph. -/
theorem walk_visits (ascending : entries.Ascending) (h : project.walk kind entries loaded = .ok walk) :
    ∃ visited, Visits project (start kind entries loaded) visited walk ∧ walk.graph.modules.Perm visited := by
  obtain ⟨taken, _, visits, perm⟩ := walk_taken ascending h
  exact ⟨taken, visits, perm⟩

/-- A walk can only fail at a module that its entries reach. -/
theorem walk_isOk (ascending : entries.Ascending)
    (visitable : ∀ entry ∈ entries, ∀ path, Relation.ReflTransGen (project.Inlines kind) entry path →
      project.Visitable path) : ∃ walk, project.walk kind entries loaded = .ok walk := by
  obtain ⟨taken, ends⟩ := walk_ends project kind loaded ascending
  rcases ends.cases .start with ⟨last, same, _⟩ | ⟨front, path, last, rest, e, _, _, visits, queue, fails⟩
  · exact ⟨last, same⟩
  · have queued : path ∈ last.graph.modules :=
      (visits.holds ascending).queued.mem_iff.mpr (by simp [queue])
    obtain ⟨entry, listed, chain⟩ := visits.reached ascending path queued
    obtain ⟨next, visit⟩ := visit_isOk (visitable entry listed path chain)
    cases fails.symm.trans visit

end Walk
end Realms
