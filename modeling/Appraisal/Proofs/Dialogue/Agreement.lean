import Appraisal.Proofs.Dialogue.Menus
import Appraisal.Proofs.Dialogue.Rounds
import Appraisal.Proofs.Questionnaire.Replaying
/-!
# The loop agrees with the play

A play goes from pick to pick, the loop from round to round. Wherever the loop stands between two rounds, the play from
there is the same (`round_agrees`), and when the loop ends, the play has ended like it (`loop_agrees`). Both halves are
`Agrees`, which is shown of each menu first, then of what a round can do with its pick.
-/

namespace Appraisal

namespace Sitting

/-- A dialogue that stands where the loop stands. -/
def dialogue (s : Sitting) (told : List String) (progress : Progress) : Dialogue :=
  ⟨s.questionnaire, s.issued, told, progress⟩

/-- What the sitting comes to when `d` is played with the picks that are left. -/
def playFrom (s : Sitting) (d : Dialogue) : Play :=
  { d.play s.picks with told := s.told ++ (d.play s.picks).told, shown := s.shown ++ (d.play s.picks).shown }

/-- What the sitting comes to when the next round is opened. -/
def play (s : Sitting) : Play :=
  s.playFrom (s.dialogue [] .left).openRound

/-- The sitting is over, with all that the play says. -/
structure Ended (s : Sitting) (e : Ending) (p : Play) : Prop where
  ending : p.ending = e
  questionnaire : p.dialogue.questionnaire = s.questionnaire
  issued : p.dialogue.issued = s.issued
  told : p.told = s.told
  shown : p.shown = s.shown

end Sitting

/-! ### Plays, menu by menu -/

section Play
variable {d : Dialogue}

/-- A dialogue without a menu is over. -/
theorem Dialogue.play_over (h : d.menu? = none) (picks : List Pick) : d.play picks = ⟨d, d.ending, d.told, []⟩ := by
  cases picks <;> simp only [Dialogue.play, h]

theorem Dialogue.play_nil {m : Menu} (h : d.menu? = some m) :
    d.play [] = ⟨d, .noMorePicks, d.told, [⟨m, none⟩]⟩ := by
  simp only [Dialogue.play, h]

theorem Dialogue.play_cons {m : Menu} {pick : Pick} (h : d.menu? = some m) (ha : m.accepts pick = true)
    (picks : List Pick) : d.play (pick :: picks) = ((d.step pick).play picks).after d.told ⟨m, some pick⟩ := by
  simp only [Dialogue.play, h, ha, if_true]

theorem Dialogue.play_refused {m : Menu} {pick : Pick} (h : d.menu? = some m) (ha : m.accepts pick = false)
    (picks : List Pick) : d.play (pick :: picks) = ⟨d, .badPick, d.told, [⟨m, some pick⟩]⟩ := by
  simp only [Dialogue.play, h, ha, Bool.false_eq_true, if_false]

end Play

namespace Rounds

/-- The play goes on where the work leaves off, or it is over with it. -/
def Agrees (r : Except Ending Unit × Sitting) (p : Play) : Prop :=
  match r with
  | (.ok (), s) => s.play = p
  | (.error e, s) => s.Ended e p

/-- A round does not look at how far the one before it has come. -/
theorem agrees_done (s : Sitting) (progress : Progress) :
    Agrees (run (pure ()) s) (s.playFrom (s.dialogue [] progress).openRound) :=
  rfl

/-- Lines are told before a menu is shown, and what follows a pick is up to the menu's screen. -/
theorem ask_agrees {s : Sitting} (lines : List String) {screen : Screen} {f : Pick → Rounds Unit}
    (hf : ∀ told shown picks pick, (s.questionnaire.menu screen).accepts pick = true →
      Agrees (run (f pick) (s.later told shown picks))
        ((s.later told shown picks).playFrom ((s.dialogue [] (.asking screen)).stepAt screen pick))) :
    Agrees (run (ask (s.questionnaire.menu screen) >>= f) (s.tell lines))
      (s.playFrom (s.dialogue lines (.asking screen))) := by
  have hmenu : (s.dialogue lines (.asking screen)).menu? = some (s.questionnaire.menu screen) := rfl
  cases hp : s.picks with
  | nil =>
    rw [run_bind, run_ask_nil (s := s.tell lines) hp, Sitting.playFrom, hp, Dialogue.play_nil hmenu]
    exact ⟨rfl, rfl, rfl, rfl, rfl⟩
  | cons pick picks =>
    rw [run_bind, run_ask_cons (s := s.tell lines) hp, Sitting.playFrom, hp]
    cases ha : (s.questionnaire.menu screen).accepts pick with
    | false =>
      rw [Dialogue.play_refused hmenu ha]
      exact ⟨rfl, rfl, rfl, rfl, rfl⟩
    | true =>
      rw [Dialogue.play_cons hmenu ha]
      -- The play puts what is told and shown before the rest, the loop adds it at the end.
      have hagrees := hf (s.told ++ lines) (s.shown ++ [⟨s.questionnaire.menu screen, some pick⟩]) picks pick ha
      simp only [Sitting.playFrom, Sitting.later, List.append_assoc] at hagrees
      exact hagrees

/-- A menu without lines before it. -/
theorem ask_next_agrees {s : Sitting} {screen : Screen} {f : Pick → Rounds Unit} (progress : Progress)
    (hf : ∀ told shown picks pick, (s.questionnaire.menu screen).accepts pick = true →
      Agrees (run (f pick) (s.later told shown picks))
        ((s.later told shown picks).playFrom ((s.dialogue [] (.asking screen)).stepAt screen pick))) :
    Agrees (run (ask (s.questionnaire.menu screen) >>= f) s)
      (s.playFrom ((s.dialogue [] progress).ask screen)) := by
  have h := ask_agrees [] hf
  rwa [Sitting.tell_nil] at h

/-! ### Events -/

/-- Events that are accepted are all sent. -/
theorem run_sends {events : List Event} :
    ∀ {s : Sitting}, s.questionnaire.Accepts events → run (forM events send) s = (.ok (), s.sent events) := by
  induction events with
  | nil => exact fun {s} _ => by simp
  | cons e events ih =>
    rintro s ⟨⟨t, ht⟩, he⟩
    rw [List.forM_cons, run_bind, run_send]
    simp only [ht]
    rw [ih (s := s.sent [e]) he]
    simp [Sitting.sent, Questionnaire.run]

/-- The loop ends at an event that is refused. -/
theorem run_sends_refused {before : List Event} {e : Event} {cause : SessionError} (after : List Event) {s : Sitting}
    (h : s.questionnaire.Refuses before e cause) :
    run (forM (before ++ e :: after) send) s =
      (.error (.failed cause), { s.sent before with questionnaire := (s.questionnaire.run before).after e }) := by
  have hr : ((s.sent before).questionnaire.apply e).result = .error cause := h.refused
  rw [List.forM_append, run_bind, run_sends h.accepted, List.forM_cons]
  simp only [run_bind, run_send, hr]
  rfl

/-- Sending events is issuing them, and what is done after them goes on from there. -/
theorem issue_agrees {s : Sitting} {events : List Event} {goOn : Dialogue → Dialogue} {w : Rounds Unit}
    (progress : Progress)
    (hgo : Agrees (run w (s.sent events)) ((s.sent events).playFrom (goOn ((s.sent events).dialogue [] progress)))) :
    Agrees (run (forM events send >>= fun _ => w) s) (s.playFrom ((s.dialogue [] progress).issue events goOn)) := by
  rw [run_bind]
  rcases s.questionnaire.accepts_or_refused events with h | ⟨before, e, after, cause, rfl, h⟩
  · obtain ⟨⟨t, ht⟩, hq⟩ := Questionnaire.replay_accepted h
    rw [run_sends h]
    simp only [Dialogue.issue, Sitting.dialogue, ht, hq]
    exact hgo
  · -- Both stop behind the event that is refused, and count the ones before it as issued.
    obtain ⟨ht, hq⟩ := Questionnaire.replay_refused h after
    rw [run_sends_refused after h]
    simp only [Dialogue.issue, Sitting.dialogue, ht, hq, Nat.add_sub_cancel]
    rw [Sitting.playFrom, Dialogue.play_over rfl]
    exact ⟨rfl, rfl, by simp [Sitting.sent], List.append_nil _, List.append_nil _⟩

theorem sends_agree (s : Sitting) (events : List Event) (progress : Progress) :
    Agrees (run (forM events send) s) (s.playFrom ((s.dialogue [] progress).issue events Dialogue.openRound)) := by
  have h := issue_agrees (w := pure ()) progress (agrees_done (s.sent events) progress)
  rwa [bind_pure_unit] at h

theorem send_agrees (s : Sitting) (e : Event) (progress : Progress) :
    Agrees (run (send e) s) (s.playFrom ((s.dialogue [] progress).issue [e] Dialogue.openRound)) := by
  have h := sends_agree s [e] progress
  rwa [List.forM_cons, List.forM_nil, bind_pure_unit] at h

/-! ### Screens -/

theorem choose_agrees {s : Sitting} (lines : List String) {screen : Screen} (h : Questionnaire.Listed screen)
    {f : Option Action → Rounds Unit}
    (hf : ∀ told shown picks, ∀ e ∈ s.questionnaire.entries screen,
      Agrees (run (f (some e.action)) (s.later told shown picks)) ((s.later told shown picks).playFrom
        ((s.dialogue [] (.asking screen)).act e.action (Dialogue.screenEvent s.questionnaire screen)))) :
    Agrees (run (choose screen >>= f) (s.tell lines)) (s.playFrom (s.dialogue lines (.asking screen))) := by
  simp only [choose, bind_assoc, pure_bind]
  rw [run_bind, run_get]
  refine ask_agrees lines fun told shown picks pick ha => ?_
  obtain ⟨e, hmem, he, hstep⟩ := h.step (d := s.dialogue [] (.asking screen)) ha
  have hentry : ((s.tell lines).questionnaire.entries screen)[pick.first]? = some e := he
  rw [hstep, hentry]
  exact hf told shown picks e hmem

theorem choose_next_agrees {s : Sitting} {screen : Screen} (h : Questionnaire.Listed screen) (progress : Progress)
    {f : Option Action → Rounds Unit}
    (hf : ∀ told shown picks, ∀ e ∈ s.questionnaire.entries screen,
      Agrees (run (f (some e.action)) (s.later told shown picks)) ((s.later told shown picks).playFrom
        ((s.dialogue [] (.asking screen)).act e.action (Dialogue.screenEvent s.questionnaire screen)))) :
    Agrees (run (choose screen >>= f) s) (s.playFrom ((s.dialogue [] progress).ask screen)) := by
  have hagrees := choose_agrees [] h hf
  rwa [Sitting.tell_nil] at hagrees

/-- What is selected is sent, from whichever screen it is asked for. -/
theorem selectChoices_agrees {s : Sitting} (lines : List String) (screen : Screen) {choices : List Choice}
    {goOn : Dialogue → Dialogue} {w : Rounds Unit}
    (hmenu : s.questionnaire.menu screen = Questionnaire.choiceMenu choices)
    (hstep : ∀ (d : Dialogue) pick, d.stepAt screen pick =
      ({ d with told := [] } : Dialogue).issue (d.questionnaire.selectionEvents choices pick) goOn)
    (hgo : ∀ told shown picks pick, Agrees
      (run w ((s.later told shown picks).sent (s.questionnaire.selectionEvents choices pick)))
      (((s.later told shown picks).sent (s.questionnaire.selectionEvents choices pick)).playFrom
        (goOn ((s.sent (s.questionnaire.selectionEvents choices pick)).dialogue [] (.asking screen))))) :
    Agrees (run (selectChoices choices >>= fun _ => w) (s.tell lines))
      (s.playFrom (s.dialogue lines (.asking screen))) := by
  simp only [selectChoices, bind_assoc]
  rw [run_bind, run_get, ← hmenu]
  refine ask_agrees lines fun told shown picks pick _ => ?_
  rw [hstep]
  exact issue_agrees (s := s.later told shown picks) (.asking screen) (hgo told shown picks pick)

theorem jump_agrees (s : Sitting) (progress : Progress) :
    Agrees (run jump s) (s.playFrom (s.dialogue [] progress).offerTargets) := by
  unfold jump Dialogue.offerTargets
  rw [run_bind, run_get]
  dsimp only [Sitting.dialogue]
  split
  · exact agrees_done s progress
  · exact ask_next_agrees progress fun told shown picks pick _ => sends_agree (s.later told shown picks) _ _

theorem revise_agrees (s : Sitting) (progress : Progress) :
    Agrees (run revise s) (s.playFrom ((s.dialogue [] progress).ask .whichAnswer)) := by
  unfold revise
  rw [run_bind, run_get]
  refine ask_next_agrees progress fun told shown picks pick ha => ?_
  -- The loop asks whether the pick is the entry behind the answers, the play only whether it is past them.
  by_cases hle : s.questionnaire.answerLabels.length ≤ pick.first
  · have h := selectChoices_agrees (s := s.later told shown picks) (w := pure ()) []
      (.reselect s.questionnaire.currentChoices) rfl (fun _ _ => rfl) fun told shown picks pick => agrees_done _ _
    rw [Sitting.tell_nil, bind_pure_unit] at h
    simp only [Questionnaire.accepts_whichAnswer ha, Dialogue.stepAt, Sitting.dialogue, hle, decide_true, if_true]
    exact h
  · simp only [Questionnaire.accepts_whichAnswer ha, Dialogue.stepAt, Sitting.dialogue, hle, decide_false,
      Bool.false_eq_true, if_false]
    exact ask_next_agrees (s := s.later told shown picks) (.asking .whichAnswer) fun _ _ _ _ _ => send_agrees _ _ _

/-! ### Rounds -/

/-- Answers do not lead to another item. -/
theorem current_run {q : Questionnaire} {events : List Event} (h : ∀ e ∈ events, ∃ i f, e = .ofSession i f) :
    (q.run events).current = q.current := by
  induction events generalizing q with
  | nil => rfl
  | cons e events ih =>
    obtain ⟨i, f, rfl⟩ := h e List.mem_cons_self
    have hafter : (q.after (.ofSession i f)).current = q.current := by
      rw [Questionnaire.after, Questionnaire.apply_ofSession, Questionnaire.answered]
      cases q.onCurrent i (fun s item => s.take item f) with
      | error error => rfl
      | ok step => exact q.putSession_current i step.session
    exact (ih fun g hg => h g (List.mem_cons_of_mem _ hg)).trans hafter

theorem current_selection (q : Questionnaire) (choices : List Choice) (pick : Pick) :
    (q.run (q.selectionEvents choices pick)).current = q.current := by
  refine current_run fun e he => ?_
  obtain ⟨c, -, b, rfl⟩ := Questionnaire.mem_selectionEvents he
  exact ⟨q.current, .toggle c.subIndex b, rfl⟩

/-- To leave the loop, or to fail, is the end of both. -/
theorem over_agrees (s : Sitting) (lines : List String) (progress : Progress) {e : Ending}
    (hmenu : (s.dialogue lines progress).menu? = none) (he : (s.dialogue lines progress).ending = e) :
    Agrees (run (throw e) (s.tell lines)) (s.playFrom (s.dialogue lines progress)) := by
  rw [run_throw, Sitting.playFrom, Dialogue.play_over hmenu]
  exact ⟨he, rfl, rfl, rfl, List.append_nil _⟩

theorem finish_agrees (s : Sitting) : Agrees (run (throw .left) s) (s.playFrom (s.dialogue [] .left)) := by
  have h := over_agrees s [] .left rfl rfl
  rwa [Sitting.tell_nil] at h

/-- One round of the loop is what a play does from one round to the next. -/
theorem round_agrees (s : Sitting) : Agrees (run round s) s.play := by
  unfold round Sitting.play Dialogue.openRound
  rw [run_bind, run_get]
  dsimp only [Sitting.dialogue]
  cases s.questionnaire.prompt with
  | error e =>
    have h := over_agrees s [] (.failed e) rfl rfl
    rwa [Sitting.tell_nil] at h
  | ok p =>
    cases p with
    | mainQuestion title description yesHint noHint =>
      dsimp only
      rw [run_bind, run_tell]
      refine choose_agrees _ (.main yesHint noHint) fun told shown picks e he => ?_
      rcases Questionnaire.answer_action he with ⟨a, ha⟩ | ha | ha
      · rw [ha]
        exact send_agrees _ _ _
      · rw [ha]
        exact jump_agrees _ _
      · rw [ha]
        exact finish_agrees _
    | subQuestion depth k count title =>
      refine choose_next_agrees (.sub depth k count title) .left fun told shown picks e he => ?_
      rcases Questionnaire.answer_action he with ⟨a, ha⟩ | ha | ha
      · rw [ha]
        exact send_agrees _ _ _
      · rw [ha]
        exact jump_agrees _ _
      · rw [ha]
        exact finish_agrees _
    | selection choices running =>
      dsimp only
      rw [run_bind, run_tell]
      refine selectChoices_agrees _ (.choose choices) rfl (fun _ _ => rfl) fun told shown picks pick => ?_
      rw [run_bind, run_get]
      unfold Dialogue.afterSelection
      -- The loop asks about the item that the round began with.
      have hcurrent := current_selection s.questionnaire choices pick
      dsimp only [Sitting.dialogue, Sitting.sent, Sitting.later]
      rw [hcurrent]
      split
      · refine choose_next_agrees (s := (s.later told shown picks).sent _) .undecided _ fun told shown picks e he => ?_
        rcases Questionnaire.undecided_action he with ha | ha | ha
        · rw [ha]
          exact agrees_done _ _
        · rw [ha]
          exact jump_agrees _ _
        · rw [ha]
          exact finish_agrees _
      · exact agrees_done _ _
    | done v =>
      dsimp only
      rw [run_bind, run_tell]
      dsimp only
      split
      · exact over_agrees s _ _ rfl rfl
      · refine choose_agrees _ .decided fun told shown picks e he => ?_
        rcases Questionnaire.decided_action he with ⟨ha, -⟩ | ha | ha | ha
        · rw [ha]
          exact send_agrees _ _ _
        · rw [ha]
          exact revise_agrees _ _
        · rw [ha]
          exact jump_agrees _ _
        · rw [ha]
          exact finish_agrees _

/-- However many rounds are made, the play goes on from there, or it has ended like the loop. -/
theorem loop_agrees (n : Nat) (s : Sitting) : Agrees (run (loop n) s) s.play := by
  induction n generalizing s with
  | zero => exact rfl
  | succ n ih =>
    have hround := round_agrees s
    rw [loop, run_bind]
    generalize run round s = r at hround ⊢
    obtain ⟨⟨⟩ | e, t⟩ := r
    · exact hround
    · exact hround ▸ ih t

end Rounds

end Appraisal
