import CapabilityHub.Data.Checks
import CapabilityHub.Data.Dict

/-! # Loops over the items of a dictionary -/

namespace CapabilityHub.Dict

variable {κ ν μ ε : Type} [DecidableEq κ] {f : κ → ν → Except ε μ} {d : Dict κ ν}
  {entries : List (κ × ν)} {result : Dict κ μ} {key : κ} {value : ν} {found : μ}

/-- `{key: f(key, value) for key, value in d.items()}` with an `f` that may raise. -/
def traverseItems (f : κ → ν → Except ε μ) (d : Dict κ ν) : Except ε (Dict κ μ) :=
  (d.entries.mapM fun entry => (f entry.1 entry.2).map (entry.1, ·)).map ofEntries

theorem mem_of_get?_foldl_set :
    (entries.foldl (fun written entry => written.set entry.1 entry.2) d).get? key = some value →
      (key, value) ∈ entries ∨ d.get? key = some value := by
  induction entries generalizing d with
  | nil => exact .inr
  | cons entry rest ih =>
      intro found
      rcases ih found with later | here
      · exact .inl (List.mem_cons_of_mem _ later)
      · rw [get?_set] at here
        split at here
        next same =>
          cases here
          exact .inl (same ▸ List.mem_cons_self)
        next => exact .inr here

theorem mem_of_get?_ofEntries (found : (ofEntries entries).get? key = some value) :
    (key, value) ∈ entries :=
  (mem_of_get?_foldl_set found).resolve_right fun nothing => by cases nothing

omit [DecidableEq κ] in
theorem keys_of_mapM_items {results : List (κ × μ)}
    (done : (entries.mapM fun entry => (f entry.1 entry.2).map (entry.1, ·)) = .ok results) :
    results.map Prod.fst = entries.map Prod.fst := by
  induction entries generalizing results with
  | nil =>
      obtain rfl := pure_eq_ok.mp done
      rfl
  | cons entry rest ih =>
      obtain ⟨first, others, here, below, rfl⟩ := mapM_cons_eq_ok.mp done
      obtain ⟨value, _, rfl⟩ := map_eq_ok.mp here
      rw [List.map_cons, List.map_cons, ih below]

theorem exists_traverseItems : (∃ result, d.traverseItems f = .ok result) ↔
    ∀ key value, d.get? key = some value → ∃ found, f key value = .ok found := by
  have rounds : (∃ result, d.traverseItems f = .ok result) ↔
      ∀ entry ∈ d.entries, ∃ found, (f entry.1 entry.2).map (entry.1, ·) = .ok found := by
    rw [← exists_mapM_eq_ok]
    simp only [traverseItems, map_eq_ok]
    exact ⟨fun ⟨_, entries, done, _⟩ => ⟨entries, done⟩, fun ⟨entries, done⟩ => ⟨_, entries, done, rfl⟩⟩
  rw [rounds]
  refine ⟨fun each key value member => ?_, fun each entry member => ?_⟩
  · obtain ⟨_, done⟩ := each (key, value) (mem_entries_iff.mpr member)
    obtain ⟨found, done, _⟩ := map_eq_ok.mp done
    exact ⟨found, done⟩
  · obtain ⟨found, done⟩ := each entry.1 entry.2 (mem_entries_iff.mp member)
    exact ⟨(entry.1, found), map_eq_ok.mpr ⟨found, done, rfl⟩⟩

theorem get?_traverseItems (done : d.traverseItems f = .ok result) :
    result.get? key = some found ↔ ∃ value, d.get? key = some value ∧ f key value = .ok found := by
  obtain ⟨entries, collected, rfl⟩ := map_eq_ok.mp done
  have nodup : (entries.map Prod.fst).Nodup := keys_of_mapM_items collected ▸ d.nodup
  rw [get?_ofEntries entries nodup, ← mem_entries_iff, mem_of_mapM collected]
  refine ⟨fun found => ?_, fun found => ?_⟩
  · obtain ⟨entry, member, here⟩ := found
    obtain ⟨result, here, last⟩ := map_eq_ok.mp here
    cases last
    exact ⟨entry.2, mem_entries_iff.mp member, here⟩
  · obtain ⟨value, member, here⟩ := found
    exact ⟨(key, value), mem_entries_iff.mpr member, map_eq_ok.mpr ⟨found, here, rfl⟩⟩

end CapabilityHub.Dict
