import Appraisal.Selection
import Mathlib.Data.List.Nodup
/-!
# Picking candidates

What a selection offers never changes; `cleared` is the selection with nothing picked. `setAll` revises many
candidates at once, and with it every selection can be rebuilt from the one it started as (`picked_again`) and
every selection with a candidate can be decided (`pick_one`).
-/

namespace Appraisal.Selection

/-- The indices that are offered, in order. -/
def indices (s : Selection) : List Nat :=
  s.candidates.map (·.subIndex)

/-- The same candidates, none of them picked. -/
def cleared (s : Selection) : Selection :=
  ⟨s.candidates.map fun c => { c with picked := false }⟩

/-- Picks or drops the candidates `is`, one after the other, as `p` says. -/
def setAll (s : Selection) (is : List Nat) (p : Nat → Bool) : Selection :=
  is.foldl (fun s i => s.set i (p i)) s

/-! ## What is offered -/

@[simp] theorem indices_cleared (s : Selection) : s.cleared.indices = s.indices := by
  simp [indices, cleared]

@[simp] theorem indices_set (s : Selection) (i : Nat) (b : Bool) : (s.set i b).indices = s.indices := by
  simp only [indices, set, List.map_map]
  refine List.map_congr_left fun c _ => ?_
  by_cases h : c.subIndex = i <;> simp [h]

@[simp] theorem cleared_set (s : Selection) (i : Nat) (b : Bool) : (s.set i b).cleared = s.cleared := by
  simp only [cleared, set, List.map_map]
  congr 1
  refine List.map_congr_left fun c _ => ?_
  by_cases h : c.subIndex = i <;> simp [h]

/-- Only the last pick of a candidate counts. -/
@[simp] theorem set_set (s : Selection) (i : Nat) (b b' : Bool) : (s.set i b).set i b' = s.set i b' := by
  simp only [set, List.map_map]
  congr 1
  refine List.map_congr_left fun c _ => ?_
  by_cases h : c.subIndex = i <;> simp [h]

@[simp] theorem cleared_cleared (s : Selection) : s.cleared.cleared = s.cleared := by
  simp [cleared]

theorem offered_iff (s : Selection) (i : Nat) : s.offered i = true ↔ i ∈ s.indices := by
  simp [offered, indices]

theorem toggle_ok {s r : Selection} {i : Nat} {b : Bool} :
    s.toggle i b = .ok r ↔ i ∈ s.indices ∧ r = s.set i b := by
  unfold toggle
  by_cases h : s.offered i = true
  · simp [h, (s.offered_iff i).1 h, eq_comm]
  · simp [h, mt (s.offered_iff i).2 h]

theorem picked_sub (s : Selection) : ∀ i ∈ s.picked, i ∈ s.indices := by
  intro i hi
  obtain ⟨c, hc, rfl⟩ := List.mem_map.1 hi
  exact List.mem_map_of_mem (List.mem_filter.1 hc).1

theorem standing_cleared (s : Selection) : s.cleared.standing = .pending := by
  have hc : ∀ v, s.cleared.count v = 0 := by
    intro v
    simp [count, cleared, List.countP_map, List.countP_eq_zero]
  simp [standing, hc, selectionStanding]

/-! ## A selection as it starts -/

theorem zip_fst_sublist {α β : Type} (l : List α) (m : List β) : ((l.zip m).map (·.1)).Sublist l := by
  induction l generalizing m with
  | nil => simp
  | cons x xs ih =>
    cases m with
    | nil => simp
    | cons y ys => simpa using ih ys

theorem offers_indices (questions : List SubQuestion) :
    (offers questions).map (·.subIndex) = List.range questions.length := by
  simp only [offers, List.map_map, Function.comp_def, List.range_eq_range']
  exact List.zipIdx_map_snd 0 questions

theorem start_sublist (questions : List SubQuestion) (answers : List Answer) :
    (start questions answers).candidates.Sublist (offers questions) := by
  simp only [start]
  split
  · exact List.Sublist.refl _
  · exact (List.Sublist.map _ List.filter_sublist).trans (zip_fst_sublist _ _)

/-- Each candidate is there for one of the questions, and not picked. -/
theorem mem_start {questions : List SubQuestion} {answers : List Answer} {c : Candidate}
    (h : c ∈ (start questions answers).candidates) :
    c.picked = false ∧ ∃ question, questions[c.subIndex]? = some question ∧ c.favours = question.favours := by
  obtain ⟨⟨question, i⟩, hq, rfl⟩ := List.mem_map.1 ((start_sublist questions answers).subset h)
  exact ⟨rfl, question, List.mem_zipIdx_iff_getElem?.1 hq, rfl⟩

/-- Candidates stand in the order of their questions. -/
theorem start_ascending (questions : List SubQuestion) (answers : List Answer) :
    (start questions answers).indices.Pairwise (· < ·) := by
  have h := (start_sublist questions answers).map (·.subIndex)
  rw [offers_indices] at h
  exact List.pairwise_lt_range.sublist h

theorem cleared_start (questions : List SubQuestion) (answers : List Answer) :
    (start questions answers).cleared = start questions answers := by
  have h : ∀ c ∈ (start questions answers).candidates, ({ c with picked := false } : Candidate) = c :=
    fun c hc => by rw [← (mem_start hc).1]
  simp only [cleared]
  rw [List.map_congr_left h, List.map_id']

/-- Whatever has been picked, the candidates stand in the order of their questions. -/
theorem ascending {s : Selection} {questions : List SubQuestion} {answers : List Answer}
    (h : s.cleared = start questions answers) : s.indices.Pairwise (· < ·) := by
  rw [← s.indices_cleared, h]
  exact start_ascending questions answers

/-- A layer with questions always has something to offer. -/
theorem start_ne_nil {questions : List SubQuestion} (h : questions ≠ []) (answers : List Answer) :
    (start questions answers).candidates ≠ [] := by
  simp only [start]
  split
  · intro he
    have hl := congrArg List.length (offers_indices questions)
    simp only [List.length_map, he, List.length_nil, List.length_range] at hl
    exact h (List.eq_nil_of_length_eq_zero hl.symm)
  · next hy => simpa using hy

/-- Whatever has been picked, each candidate is one of the questions. -/
theorem index_lt {s : Selection} {questions : List SubQuestion} {answers : List Answer}
    (h : s.cleared = start questions answers) {i : Nat} (hi : i ∈ s.indices) : i < questions.length := by
  rw [← s.indices_cleared, h] at hi
  have hsub := ((start_sublist questions answers).map (·.subIndex)).subset hi
  rwa [offers_indices, List.mem_range] at hsub

/-- Whatever has been picked, a layer with questions has something to offer. -/
theorem candidates_ne_nil {s : Selection} {questions : List SubQuestion} {answers : List Answer}
    (h : s.cleared = start questions answers) (hq : questions ≠ []) : s.candidates ≠ [] := by
  intro hs
  have hne := start_ne_nil hq answers
  rw [← h, cleared, hs] at hne
  exact hne rfl

/-! ## Many picks at once -/

theorem setAll_eq (s : Selection) (is : List Nat) (p : Nat → Bool) :
    s.setAll is p =
      ⟨s.candidates.map fun c => if c.subIndex ∈ is then { c with picked := p c.subIndex } else c⟩ := by
  induction is generalizing s with
  | nil => simp [setAll]
  | cons i is ih =>
    have hs : s.setAll (i :: is) p = (s.set i (p i)).setAll is p := rfl
    rw [hs, ih]
    simp only [set, List.map_map]
    congr 1
    refine List.map_congr_left fun c _ => ?_
    by_cases hi : c.subIndex = i <;> by_cases hm : c.subIndex ∈ is <;> simp [hi] at hm ⊢

/-- A candidate's own index tells whether it is picked. -/
theorem mem_picked {s : Selection} (hn : s.indices.Nodup) {c : Candidate} (hc : c ∈ s.candidates) :
    c.subIndex ∈ s.picked ↔ c.picked = true := by
  constructor
  · intro h
    obtain ⟨d, hd, he⟩ := List.mem_map.1 h
    obtain ⟨hd, hp⟩ := List.mem_filter.1 hd
    rwa [← List.inj_on_of_nodup_map hn hd hc he]
  · intro h
    exact List.mem_map_of_mem (List.mem_filter.2 ⟨hc, h⟩)

/-- Picking again what is picked rebuilds a selection from its candidates. -/
theorem picked_again {s : Selection} (hn : s.indices.Nodup) :
    s.cleared.setAll s.picked (fun _ => true) = s := by
  rw [setAll_eq]
  simp only [cleared, List.map_map]
  have h : ∀ c ∈ s.candidates, ((fun c : Candidate => if c.subIndex ∈ s.picked then { c with picked := true }
      else c) ∘ fun c => { c with picked := false }) c = c := by
    intro c hc
    simp only [Function.comp_apply, mem_picked hn hc]
    by_cases hp : c.picked = true
    · rw [if_pos hp, ← hp]
    · rw [if_neg hp, ← Bool.eq_false_iff.2 hp]
  rw [List.map_congr_left h, List.map_id']

/-! ## A single pick -/

/-- When one candidate is picked and no other, it decides the selection. -/
theorem standing_one {s : Selection} (hn : s.indices.Nodup) {c : Candidate} (hc : c ∈ s.candidates)
    (hp : ∀ d ∈ s.candidates, d.picked = true ↔ d.subIndex = c.subIndex) : s.standing = .decided c.favours := by
  have hone : s.candidates.count c = 1 := List.count_eq_one_of_mem (List.Nodup.of_map _ hn) hc
  have hcount : ∀ v, s.count v = if c.favours = v then 1 else 0 := by
    intro v
    -- A picked candidate has the index of `c`, and no two candidates share an index.
    have hiff : ∀ d ∈ s.candidates, (d.picked && d.favours = v) = true ↔ (d == c && c.favours = v) = true := by
      intro d hd
      have heq : d.subIndex = c.subIndex ↔ d = c :=
        ⟨List.inj_on_of_nodup_map hn hd hc, congrArg Candidate.subIndex⟩
      simp only [Bool.and_eq_true, hp d hd, heq, decide_eq_true_eq, beq_iff_eq]
      exact and_congr_right fun h => by rw [h]
    rw [count, List.countP_congr hiff]
    by_cases hv : c.favours = v
    · simpa [hv, List.count] using hone
    · simp [hv]
  simp only [standing, hcount]
  cases c.favours <;> simp [selectionStanding]

/-- Picking one candidate when nothing is picked decides a selection by that one. -/
theorem set_one {s : Selection} (hn : s.indices.Nodup) (hs : ∀ d ∈ s.candidates, d.picked = false) {c : Candidate}
    (hc : c ∈ s.candidates) : (s.set c.subIndex true).standing = .decided c.favours := by
  have hmem : ({ c with picked := true } : Candidate) ∈ (s.set c.subIndex true).candidates :=
    List.mem_map.2 ⟨c, hc, by rw [if_pos rfl]⟩
  refine standing_one (c := { c with picked := true }) (by rwa [indices_set]) hmem fun d hd => ?_
  obtain ⟨e, he, rfl⟩ := List.mem_map.1 hd
  by_cases h : e.subIndex = c.subIndex <;> simp [h, hs e he]

/-- Dropping all candidates but one decides a selection by that one. -/
theorem pick_one {s : Selection} {c : Candidate} (hc : c ∈ s.candidates) (hn : s.indices.Nodup) :
    (s.setAll s.indices (fun i => i = c.subIndex)).standing = .decided c.favours := by
  have hall : s.setAll s.indices (fun i => i = c.subIndex) =
      ⟨s.candidates.map fun d => { d with picked := d.subIndex = c.subIndex }⟩ := by
    rw [setAll_eq]
    congr 1
    exact List.map_congr_left fun d hd => if_pos (List.mem_map_of_mem hd)
  have hmem : ({ c with picked := true } : Candidate) ∈
      s.candidates.map fun d => { d with picked := d.subIndex = c.subIndex } :=
    List.mem_map.2 ⟨c, hc, by simp⟩
  rw [hall]
  have hindices : (s.candidates.map fun d => ({ d with picked := d.subIndex = c.subIndex } : Candidate).subIndex).Nodup :=
    hn
  refine standing_one (c := { c with picked := true }) (by rwa [indices, List.map_map]) hmem fun d hd => ?_
  obtain ⟨e, -, rfl⟩ := List.mem_map.1 hd
  exact decide_eq_true_iff

end Appraisal.Selection
