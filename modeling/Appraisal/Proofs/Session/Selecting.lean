import Appraisal.Proofs.Session.Agreement
import Appraisal.Proofs.Toggles
/-!
# What a selection depends on

Whatever toggles have come, a selection is its candidates, which never change, and the set of those that are picked.
`Reflects` says so and reads the standing off the tags of the picked questions; `picks_determine` adds that sessions
stand as their selections do.
-/

namespace Appraisal

namespace Selection

/-! ## The tags of the picked questions -/

/-- How many of the questions at `is` speak for `v`. -/
def tagged (questions : List SubQuestion) (is : List Nat) (v : Verdict) : Nat :=
  is.countP fun i => (questions[i]?).map SubQuestion.favours = some v

section Started
variable {questions : List SubQuestion} {answers : List Answer} {s : Selection}
  (h : s.cleared = start questions answers)
include h

/-- Whatever has been picked, a candidate speaks for what its question speaks for. -/
theorem favours_eq {c : Candidate} (hc : c ∈ s.candidates) :
    (questions[c.subIndex]?).map SubQuestion.favours = some c.favours := by
  have hmem : ({ c with picked := false } : Candidate) ∈ s.cleared.candidates :=
    List.mem_map.2 ⟨c, hc, rfl⟩
  rw [h, mem_start_iff, mem_offers] at hmem
  exact hmem.1.2

theorem count_eq_tagged (v : Verdict) : s.count v = tagged questions s.picked v := by
  rw [tagged, picked, List.countP_map, List.countP_filter]
  refine List.countP_congr fun c hc => ?_
  simp only [Function.comp_apply, favours_eq h hc, Option.some.injEq, Bool.and_eq_true, decide_eq_true_eq]
  exact and_comm

theorem standing_eq_tagged :
    s.standing = selectionStanding (tagged questions s.picked .pass) (tagged questions s.picked .fail) := by
  rw [standing, count_eq_tagged h, count_eq_tagged h]

end Started

/-! ## The standing, from the counts -/

/-- Each standing, by the counts that lead to it. -/
theorem selectionStanding_iff (p f : Nat) :
    (selectionStanding p f = .pending ↔ p = 0 ∧ f = 0) ∧
    (selectionStanding p f = .decided .pass ↔ 0 < p ∧ f = 0) ∧
    (selectionStanding p f = .decided .fail ↔ p < f) ∧
    (selectionStanding p f = .ambiguous ↔ 0 < f ∧ f ≤ p) := by
  unfold selectionStanding
  by_cases hf : f = 0
  · subst hf
    by_cases hp : p = 0
    · simp [hp]
    · simp [hp, Nat.pos_of_ne_zero hp]
  · have hpos : 0 < f := Nat.pos_of_ne_zero hf
    by_cases hlt : p < f
    · simp [hf, hlt]
    · simp [hf, hlt, hpos, Nat.le_of_not_lt hlt]

/-! ## Runs of toggles -/

/-- What `toggles` make of the selection among `questions` that `answers` leave open. -/
structure Reflects (questions : List SubQuestion) (answers : List Answer) (toggles : List (Nat × Bool))
    (s : Selection) : Prop where
  /-- But for the picks, the candidates are what they were. -/
  unchanged : s.cleared = start questions answers
  ascending : s.indices.Pairwise (· < ·)
  /-- The questions answered yes are offered, or all of them when there is none. -/
  offered : ∀ i, i ∈ s.indices ↔
    i < questions.length ∧ (SaysYes questions answers i ∨ ∀ j, ¬ SaysYes questions answers j)
  tags : ∀ c ∈ s.candidates, (questions[c.subIndex]?).map SubQuestion.favours = some c.favours
  picked_offered : ∀ i ∈ s.picked, i ∈ s.indices
  /-- The last accepted toggle of a candidate counts. -/
  picked_last : ∀ i, i ∈ s.picked ↔ last? ((start questions answers).accepted toggles) i = some true
  pending : s.standing = .pending ↔
    tagged questions s.picked .pass = 0 ∧ tagged questions s.picked .fail = 0
  pass : s.standing = .decided .pass ↔
    0 < tagged questions s.picked .pass ∧ tagged questions s.picked .fail = 0
  fail : s.standing = .decided .fail ↔
    tagged questions s.picked .pass < tagged questions s.picked .fail
  ambiguous : s.standing = .ambiguous ↔
    0 < tagged questions s.picked .fail ∧ tagged questions s.picked .fail ≤ tagged questions s.picked .pass

section Runs
variable (questions : List SubQuestion) (answers : List Answer) (toggles : List (Nat × Bool))

theorem cleared_run_start : ((start questions answers).run toggles).cleared = start questions answers := by
  rw [cleared_run, cleared_start]

theorem picked_start : (start questions answers).picked = [] := by
  rw [picked, List.map_eq_nil_iff, List.filter_eq_nil_iff]
  intro c hc
  simp [(mem_start hc).1]

theorem nodup_run : ((start questions answers).run toggles).indices.Nodup :=
  (ascending (cleared_run_start questions answers toggles)).imp Nat.ne_of_lt

theorem run_reflects : Reflects questions answers toggles ((start questions answers).run toggles) := by
  have hstart := cleared_run_start questions answers toggles
  have hoffered : ∀ i, i ∈ ((start questions answers).run toggles).indices ↔
      i < questions.length ∧ (SaysYes questions answers i ∨ ∀ j, ¬ SaysYes questions answers j) := by
    intro i
    rw [indices_run]
    exact mem_indices_start
  obtain ⟨hpending, hpass, hfail, hambiguous⟩ := selectionStanding_iff
    (tagged questions ((start questions answers).run toggles).picked .pass)
    (tagged questions ((start questions answers).run toggles).picked .fail)
  rw [← standing_eq_tagged hstart] at hpending hpass hfail hambiguous
  exact ⟨hstart, ascending hstart, hoffered, fun c hc => favours_eq hstart hc,
    picked_sub _, mem_picked_run (picked_start questions answers) toggles, hpending, hpass, hfail, hambiguous⟩

/-- Runs that end with the same picks end with the same selection. -/
theorem run_eq_of_picked {toggles' : List (Nat × Bool)}
    (h : ∀ i, i ∈ ((start questions answers).run toggles').picked ↔
      i ∈ ((start questions answers).run toggles).picked) :
    (start questions answers).run toggles' = (start questions answers).run toggles :=
  ext_picked (nodup_run questions answers toggles') (by rw [cleared_run, cleared_run]) h

end Runs

theorem run_swap (s : Selection) (toggles : List (Nat × Bool)) {t u : Nat × Bool} (h : t.1 ≠ u.1) :
    s.run (toggles ++ [t, u]) = s.run (toggles ++ [u, t]) := by
  rw [List.append_cons, List.append_cons toggles u, run_snoc, run_snoc, run_snoc, run_snoc, set_comm _ h]

/-- Picking what is not picked and dropping it again leads back. -/
theorem run_picked_dropped {s : Selection} {toggles : List (Nat × Bool)} (hn : (s.run toggles).indices.Nodup) {i : Nat}
    (h : i ∉ (s.run toggles).picked) : s.run (toggles ++ [(i, true), (i, false)]) = s.run toggles := by
  rw [List.append_cons, run_snoc, run_snoc, set_set, set_unpicked hn h]

end Selection

/-! ## Sessions that carry a selection -/

theorem State.ofSelection_resolved (s : Selection) (v : Verdict) :
    State.ofSelection s = .resolved v (some s) ↔ s.standing = .decided v := by
  unfold State.ofSelection
  cases s.standing <;> simp

theorem State.ofSelection_selecting (s : Selection) :
    State.ofSelection s = .selecting s ↔ ∀ v, s.standing ≠ .decided v := by
  unfold State.ofSelection
  cases s.standing <;> simp

namespace Session

/-- The session stands as its selection does, and the selection is one that toggles make of the complete answers of
the active layer. -/
structure StandsBy (item : Item) (s : Session) (selection : Selection) : Prop where
  reached : ∃ l toggles, s.activeLayer item = .ok l ∧ s.trail.current.length = l.questions.length ∧
    selection = (Selection.start l.questions s.trail.current).run toggles
  resolved : ∀ v, s.state = .resolved v (some selection) ↔ selection.standing = .decided v
  selecting : s.state = .selecting selection ↔ ∀ v, selection.standing ≠ .decided v

theorem Agrees.standsBy {item : Item} {index : Nat} {s : Session} (h : s.Agrees item index) {selection : Selection}
    (hs : s.state.selection? = some selection) : StandsBy item s selection := by
  cases h with
  | unstarted => cases hs
  | @started a done answers l state hl hf =>
    obtain ⟨hc, hstate⟩ := hf.of_selection hs
    have hamb : l.Says answers (.found .ambiguous) := by
      rw [← hf.selection_iff, hstate]
      exact ⟨selection, State.ofSelection_eq selection⟩
    refine ⟨⟨l, selection.picked.map (·, true), activeLayer_on hl.descend state, hamb.1, ?_⟩, ?_, ?_⟩
    · have hn := (Selection.ascending hc).imp Nat.ne_of_lt
      rw [Trail.on_current, ← hc, Selection.run_picked hn]
    · rw [hstate]
      exact State.ofSelection_resolved selection
    · rw [hstate]
      exact State.ofSelection_selecting selection

end Session

/-- A selection depends on what is picked alone. Toggles, accepted or refused, leave the candidates as they are, the
last accepted one of each candidate counts, and the tags of the picked questions decide; so toggles of different
candidates can change places and a pick can be taken back. A session that carries a selection stands as it does. -/
theorem Selection.picks_determine (questions : List SubQuestion) (answers : List Answer) (toggles : List (Nat × Bool)) :
    Reflects questions answers toggles ((start questions answers).run toggles) ∧
    (∀ toggles', (∀ i, i ∈ ((start questions answers).run toggles').picked ↔
        i ∈ ((start questions answers).run toggles).picked) →
      (start questions answers).run toggles' = (start questions answers).run toggles) ∧
    (∀ t u : Nat × Bool, t.1 ≠ u.1 →
      (start questions answers).run (toggles ++ [t, u]) = (start questions answers).run (toggles ++ [u, t])) ∧
    (∀ i, i ∉ ((start questions answers).run toggles).picked →
      (start questions answers).run (toggles ++ [(i, true), (i, false)]) = (start questions answers).run toggles) ∧
    ∀ (item : Item) (index : Nat) (es : List SessionEvent) (selection : Selection),
      ((Session.new index).run item es).state.selection? = some selection →
      ((Session.new index).run item es).StandsBy item selection :=
  ⟨run_reflects questions answers toggles, fun _ h => run_eq_of_picked questions answers toggles h,
    fun _ _ h => run_swap _ toggles h, fun _ h => run_picked_dropped (nodup_run questions answers toggles) h,
    fun item index es _ h => (Session.run_agrees item index es).standsBy h⟩

end Appraisal
