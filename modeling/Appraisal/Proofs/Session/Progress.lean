import Appraisal.Proofs.Definition
import Appraisal.Proofs.Session.History
/-!
# Every session can be decided

When the branches of an item can be judged, no session of it is stuck: the questions that wait can be answered,
layer after layer, and a selection that the answers call for can be cut down to one pick.
-/

namespace Appraisal.Session
variable {item : Item} {index : Nat} {a : Answer}

/-- The session can take events that bring it to a verdict. -/
def CanDecide (item : Item) (s : Session) : Prop :=
  ∃ es t v, s.play item es = .ok t ∧ t.verdict? = some v

theorem CanDecide.of_play {s t : Session} {es : List SessionEvent} (h : s.play item es = .ok t)
    (ht : t.CanDecide item) : s.CanDecide item := by
  obtain ⟨fs, u, v, hu, hv⟩ := ht
  exact ⟨es ++ fs, u, v, by rw [play_append h, hu], hv⟩

theorem CanDecide.of_verdict {s : Session} {v : Verdict} (h : s.verdict? = some v) : s.CanDecide item :=
  ⟨[], s, v, rfl, h⟩

/-! ## Selections -/

/-- Dropping all candidates but the first one decides a selection. -/
theorem canDecide_ofSelection {s : Session} {selection : Selection} {questions : List SubQuestion}
    {answers : List Answer} (hs : s.state = .ofSelection selection)
    (hc : selection.cleared = .start questions answers) (hq : questions ≠ []) : s.CanDecide item := by
  have hn : selection.indices.Nodup := (Selection.ascending hc).imp Nat.ne_of_lt
  cases hsel : selection.candidates with
  | nil => exact absurd hsel (Selection.candidates_ne_nil hc hq)
  | cons c rest =>
    have hplay : s.play item _ = .ok _ :=
      play_toggles (fun i => i = c.subIndex) selection.indices s selection hs (fun _ hi => hi)
    refine .of_play hplay (.of_verdict (v := c.favours) ?_)
    simp only [verdict?, standing, State.ofSelection, Selection.pick_one (hsel ▸ List.mem_cons_self) hn]
    rfl

/-! ## Layers -/

/-- The evaluator has a say on the complete answers of every layer. -/
theorem says_total {root l : Layer} {depth : Nat} (hj : root.Judgeable) (hl : root.descend depth = some l)
    {answers : List Answer} (hlen : answers.length = l.questions.length) : ∃ o, l.Says answers o := by
  obtain ⟨o, ho⟩ := evaluate_total l.fallback? hlen (hj depth l hl)
  exact ⟨o, hlen, ho⟩

/-- A session can always land on a layer that has no answers. -/
theorem lands_fresh (index : Nat) (hj : (item.branch a).Judgeable) {done : List (List Answer)} {l : Layer}
    (hl : (item.branch a).Leads done l) : ∃ t, Lands item index (.on a done []) t := by
  by_cases hq : l.questions = []
  · have hlen : ([] : List Answer).length = l.questions.length := by simp [hq]
    obtain ⟨o, ho⟩ := says_total hj hl.descend hlen
    obtain ⟨-, v, rfl⟩ := ho.of_nil
    exact ⟨_, lands_decided hl.descend ho⟩
  · exact ⟨_, lands_awaiting hl.descend (List.length_pos_of_ne_nil hq)⟩

/-- A session can land with any answers to all questions of a layer. -/
theorem lands_complete (index : Nat) (hj : (item.branch a).Judgeable) {done : List (List Answer)} {l : Layer}
    {answers : List Answer} (hl : (item.branch a).Leads done l) (hlen : answers.length = l.questions.length) :
    ∃ t, Lands item index (.on a done answers) t := by
  obtain ⟨o, ho⟩ := says_total hj hl.descend hlen
  cases o with
  | found f =>
    cases f with
    | decided v => exact ⟨_, lands_decided hl.descend ho⟩
    | ambiguous => exact ⟨_, lands_ambiguous hl.descend ho⟩
  | advance =>
    obtain ⟨-, next, hn⟩ := ho.leads_on
    obtain ⟨t, ht⟩ := lands_fresh index hj (hl.snoc ho hn)
    exact ⟨t, (lands_advance hl ho hn).2 ht⟩

/-- Answering what is left of a layer decides a session if it can be decided from the next layer on. -/
theorem canDecide_of_next (hj : (item.branch a).Judgeable) {l : Layer}
    (hnext : ∀ next, l.next? = some next → ∀ (done : List (List Answer)) (s : Session),
      (item.branch a).Leads done next → Lands item index (.on a done []) s → s.CanDecide item)
    {done : List (List Answer)} {answers : List Answer} {s : Session} (hl : (item.branch a).Leads done l)
    (hlen : answers.length ≤ l.questions.length) (hs : Lands item index (.on a done answers) s) :
    s.CanDecide item := by
  obtain ⟨rest, hrest⟩ : ∃ rest : List Answer, (answers ++ rest).length = l.questions.length :=
    ⟨List.replicate (l.questions.length - answers.length) .yes, by simp; omega⟩
  obtain ⟨t, ht⟩ := lands_complete index hj hl hrest
  refine .of_play (play_layer hl rest answers s (Nat.le_of_eq hrest) hs ht) ?_
  rcases lands_cases hl ht with ⟨hlt, -⟩ | ⟨v, -, rfl⟩ | ⟨hamb, rfl⟩ | ⟨next, hsay, hn, ht'⟩
  · omega
  · exact .of_verdict rfl
  · have hst : State.selecting (.start l.questions (answers ++ rest)) =
        .ofSelection (.start l.questions (answers ++ rest)) := by
      rw [← Selection.cleared_start, State.ofSelection_cleared]
    exact canDecide_ofSelection hst (Selection.cleared_start _ _) (hamb.asks fun v hv => by cases hv)
  · exact hnext next hn _ t (hl.snoc hsay hn) ht'

/-- Answering layer after layer, as far as the chain leads on. -/
theorem canDecide_of_lands (hj : (item.branch a).Judgeable) (l : Layer) :
    ∀ (done : List (List Answer)) (answers : List Answer) (s : Session), (item.branch a).Leads done l →
      answers.length ≤ l.questions.length → Lands item index (.on a done answers) s → s.CanDecide item := by
  induction l with
  | last questions condition =>
    intro done answers s
    exact canDecide_of_next hj fun next hn => by cases hn
  | chained questions condition fallback next ih =>
    intro done answers s
    refine canDecide_of_next hj fun m hm done s hl hs => ?_
    cases hm
    exact ih done [] s hl (Nat.zero_le _) hs

/-! ## Sessions -/

/-- Whatever a session has come to, some events decide it. -/
theorem Agrees.canDecide {s : Session} (hj : ∀ a, (item.branch a).Judgeable) (h : s.Agrees item index) :
    s.CanDecide item := by
  cases h with
  | unstarted =>
    obtain ⟨t, ht⟩ := lands_fresh index (hj .yes) (.here _)
    obtain ⟨step, hstep, rfl⟩ := (lands_iff (s := ⟨index, .on .yes [] [], .unstarted⟩)).1 ht
    have hmain : (new index).take item (.main .yes) = .ok step := hstep
    have hplay : (new index).play item [.main .yes] = .ok step.session := play_cons hmain []
    exact .of_play hplay (canDecide_of_lands (hj .yes) _ [] [] _ (.here _) (Nat.zero_le _) ht)
  | @started a done answers l state hl hf =>
    cases hf with
    | waiting hlt =>
      exact canDecide_of_lands (hj a) l done answers _ hl (Nat.le_of_lt hlt) (lands_awaiting hl.descend hlt)
    | decided _ => exact .of_verdict rfl
    | selection hamb hc => exact canDecide_ofSelection rfl hc (hamb.asks fun v hv => by cases hv)

end Appraisal.Session
