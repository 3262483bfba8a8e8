import Appraisal.Store
import Mathlib.Data.List.Nodup
import Mathlib.Data.List.Perm.Subperm
/-!
# The store as a map

A store is seen through `get?`, which determines it. Recording and retracting change it at one index, and its
size tells whether every index is taken. A summary of rows counts each of them once.
-/

namespace Appraisal

namespace Store

theorem find?_insert (r : Record) (rs : List Record) (i : Nat) :
    (insert r rs).find? (·.index = i) = if i = r.index then some r else rs.find? (·.index = i) := by
  induction rs with
  | nil =>
    by_cases h : i = r.index
    · simp [insert, h]
    · simp [insert, h, Ne.symm h]
  | cons s rest ih =>
    -- `insert` has three cases: before `s`, in place of `s`, and further on.
    simp only [insert]
    by_cases hi : i = r.index
    · subst hi
      by_cases hlt : r.index < s.index
      · simp [hlt]
      by_cases heq : r.index = s.index
      · simp [heq]
      · simp [hlt, heq, ih, Ne.symm heq]
    · by_cases hlt : r.index < s.index
      · simp [hlt, hi, Ne.symm hi]
      by_cases heq : r.index = s.index
      · have hs : s.index ≠ i := by rw [← heq]; exact Ne.symm hi
        simp [heq, hs, Ne.symm hs]
      · rw [if_neg hi] at ih
        simp [hlt, heq, hi, List.find?_cons, ih]

theorem get?_record (s : Store) (r : Record) (i : Nat) :
    (s.record r).store.get? i = if i = r.index then some r else s.get? i :=
  find?_insert r s.records i

theorem get?_retract (s : Store) (j i : Nat) :
    (s.retract j).store.get? i = if i = j then none else s.get? i := by
  simp only [get?, retract, List.find?_filter]
  by_cases h : i = j
  · subst h
    simp
  · rw [if_neg h]
    congr 1
    funext r
    by_cases hr : r.index = i
    · simp [hr, h]
    · simp [hr]

theorem contains_iff {s : Store} {i : Nat} : s.contains i = true ↔ ∃ r, s.get? i = some r := by
  rw [← Option.isSome_iff_exists, get?, List.find?_isSome]
  simp [contains]

/-! ## Records -/

theorem mem_indices {s : Store} {i : Nat} : i ∈ s.records.map (·.index) ↔ s.contains i = true := by
  simp [contains]

theorem nodup_indices (s : Store) : (s.records.map (·.index)).Nodup :=
  List.pairwise_map.2 (s.ascending.imp Nat.ne_of_lt)

theorem get?_eq_some {s : Store} {i : Nat} {r : Record} : s.get? i = some r ↔ r ∈ s.records ∧ r.index = i := by
  constructor
  · intro h
    exact ⟨List.mem_of_find?_eq_some h, by simpa using List.find?_some h⟩
  · rintro ⟨hr, rfl⟩
    obtain ⟨t, ht⟩ : ∃ t, s.get? r.index = some t := contains_iff.1 (mem_indices.1 (List.mem_map_of_mem hr))
    have hi : t.index = r.index := by simpa using List.find?_some ht
    rw [ht, List.inj_on_of_nodup_map s.nodup_indices (List.mem_of_find?_eq_some ht) hr hi]

/-- A store is what it has at every index. -/
theorem ext_get? {s t : Store} (h : ∀ i, s.get? i = t.get? i) : s = t := by
  have hmem : ∀ r, r ∈ s.records ↔ r ∈ t.records := by
    intro r
    simpa [get?_eq_some] using congrArg (· = some r) (h r.index)
  have hp : s.records.Perm t.records :=
    (List.perm_ext_iff_of_nodup (.of_map _ s.nodup_indices) (.of_map _ t.nodup_indices)).2 hmem
  have hr : s.records = t.records :=
    hp.eq_of_pairwise (fun a b _ _ hab hba => absurd hab (Nat.lt_asymm hba)) s.ascending t.ascending
  cases s
  cases t
  cases hr
  rfl

/-! ## Size -/

/-- A store of indices below `n` is full when each of them is taken. -/
theorem size_eq_iff {s : Store} {n : Nat} (h : ∀ i, s.contains i = true → i < n) :
    s.size = n ↔ ∀ i < n, s.contains i = true := by
  have hsub : s.records.map (·.index) ⊆ List.range n := fun i hi => List.mem_range.2 (h i (mem_indices.1 hi))
  have hlen : (s.records.map (·.index)).length = s.size := by simp [size]
  constructor
  · intro hn i hi
    have hp := (List.subperm_of_subset s.nodup_indices hsub).perm_of_length_le (by simp [hlen, hn])
    exact mem_indices.1 (hp.mem_iff.2 (List.mem_range.2 hi))
  · intro hall
    have hp : (s.records.map (·.index)).Perm (List.range n) :=
      (List.perm_ext_iff_of_nodup s.nodup_indices List.nodup_range).2 fun i =>
        ⟨fun hi => hsub hi, fun hi => mem_indices.2 (hall i (List.mem_range.1 hi))⟩
    rw [← hlen, hp.length_eq, List.length_range]

end Store

/-! ## Summaries -/

namespace Summary

theorem of_cons (r : Row) (rows : List Row) :
    of (r :: rows) =
      { total := (of rows).total + 1
        passed := (of rows).passed + if r.standing = .decided .pass then 1 else 0
        failed := (of rows).failed + if r.standing = .decided .fail then 1 else 0
        pending := (of rows).pending + if r.standing.verdict? = none then 1 else 0 } := by
  simp [of, List.countP_cons]

/-- Every row has passed or failed or is pending. -/
theorem counts_total (rows : List Row) :
    (of rows).passed + (of rows).failed + (of rows).pending = (of rows).total := by
  induction rows with
  | nil => rfl
  | cons r rows ih =>
    -- The standing of the first row decides which one of the three counts it adds to.
    rw [of_cons]
    obtain ⟨_, _, _, standing, _, _⟩ := r
    rcases standing with v | _ | _
    · cases v <;> simp [Standing.verdict?] <;> omega
    · simp [Standing.verdict?]
      omega
    · simp [Standing.verdict?]
      omega

theorem pending_eq_zero {rows : List Row} :
    (of rows).pending = 0 ↔ ∀ r ∈ rows, ∃ v, r.standing.verdict? = some v := by
  simp [of, List.countP_eq_zero, ← Option.ne_none_iff_exists']

theorem passed_eq_total {rows : List Row} :
    (of rows).passed = (of rows).total ↔ ∀ r ∈ rows, r.standing.verdict? = some .pass := by
  have hpass : ∀ s : Standing, s = .decided .pass ↔ s.verdict? = some .pass := by
    intro s
    cases s <;> simp [Standing.verdict?]
  simp [of, List.countP_eq_length, hpass]

end Summary

end Appraisal
