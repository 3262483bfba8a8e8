import Appraisal.Proofs.Dialogue.Menus
import Appraisal.Proofs.Questionnaire.Prompts
import Appraisal.Proofs.Questionnaire.Replaying
/-!
# What a dialogue offers

Over a catalog that compiles a dialogue issues nothing that is refused: whatever is picked from a screen, the events
that follow from it are accepted (`Offers`). The first section says so of everything that a menu can be made of. A step
then goes from one such screen to another or leaves (`Smooth.step`), so a play ends because the user leaves or because
the picks do (`Smooth.play`).
-/

namespace Appraisal

namespace Questionnaire

/-! ## Events that are accepted -/

section Current
variable {q : Questionnaire} {item : Item} {s : Session} (h : q.Sound)
  (hi : q.catalog.items[q.current]? = some item) (hs : q.session? q.current = some s)
include h hi hs

/-- Any number of candidates can be picked and dropped, one after the other; the candidates stay while the state comes
and goes. -/
theorem accepts_toggles {sel : Selection} (hsel : s.state.selection? = some sel) {events : List Event}
    (he : ∀ e ∈ events, ∃ k ∈ sel.indices, ∃ b, e = .toggle q.current k b) : q.Accepts events := by
  induction events generalizing q s sel with
  | nil => trivial
  | cons e events ih =>
    obtain ⟨k, hk, b, rfl⟩ := he e List.mem_cons_self
    have htoggle := Session.toggle_offered hsel hk b
    have heff := Effect.answer (e := .toggle k b) hi hs htoggle
    obtain ⟨hok, hafter⟩ := heff.after h.length_eq
    refine ⟨hok, ?_⟩
    rw [show Event.toggle q.current k b = .ofSession q.current (.toggle k b) from rfl, hafter]
    have hstanding : (State.ofSelection (sel.set k b)).selection? = some (sel.set k b) := State.selection?_ofSelection _
    refine ih (heff.sound h) (by simpa using hi) (by rw [putSession_current, session?_putSession hs]) hstanding
      fun f hf => ?_
    rw [Selection.indices_set, putSession_current]
    exact he f (List.mem_cons_of_mem _ hf)

theorem accepts_selection {sel : Selection} (hsel : s.state.selection? = some sel) (questions : List SubQuestion)
    (pick : Pick) : q.Accepts (q.selectionEvents (Session.choices questions sel) pick) := by
  refine accepts_toggles h hi hs hsel fun e he => ?_
  obtain ⟨c, hc, b, rfl⟩ := mem_selectionEvents he
  obtain ⟨candidate, hcand, rfl⟩ := List.mem_map.1 hc
  exact ⟨candidate.subIndex, List.mem_map_of_mem hcand, b, rfl⟩

/-- What is picked of the current item can be picked anew, if anything. -/
theorem accepts_reselection (pick : Pick) : q.Accepts (q.selectionEvents q.currentChoices pick) := by
  have hcurrent : q.currentSelection = s.state.selection? := by rw [currentSelection, hs, Option.bind_some]
  rw [currentChoices, hcurrent]
  cases hsel : s.state.selection? with
  | none => trivial
  | some sel => exact accepts_selection h hi hs hsel _ pick

omit hi in
/-- A decided item can be left for the next one. -/
theorem accepts_advance {v : Verdict} (hv : s.verdict? = some v) (hlast : q.isLast = false) :
    q.Accepts [.advance] := by
  have hlt := (List.getElem?_eq_some_iff.1 hs).1
  have hne : q.current + 1 ≠ q.sessions.length := by simpa [isLast] using hlast
  exact ⟨((Effect.next hs hv (by omega)).after h.length_eq).1, trivial⟩

omit hi hs in
theorem accepts_visit {target : Nat} (ht : target ∈ q.otherTargets) : q.Accepts [.navigate target] := by
  obtain ⟨hlt, hn⟩ := List.mem_filter.1 ht
  simp only [canNavigate, Bool.and_eq_true, Bool.or_eq_true, decide_eq_true_eq] at hn
  exact ⟨((Effect.visit hn.2.1 hn.2.2).after h.length_eq).1, trivial⟩

/-- Each answer that is listed can be changed. -/
theorem accepts_change (hc : ∀ a, (item.branch a).Judgeable) {place : Nat} (hplace : place < q.answerLabels.length)
    (x : Answer) : q.Accepts [q.changeEvent place x] := by
  have htrail : q.currentTrail = s.trail := by rw [currentTrail, hs, Option.map_some, Option.getD_some]
  cases place with
  | zero => exact accepts_taken h hi hs (e := .main x) (Session.answerMain_accepted hc s x)
  | succ k =>
    have hk : k < s.trail.current.length := by
      simp only [answerLabels, htrail, List.length_cons, List.length_map, List.length_zip] at hplace
      omega
    have hevent : q.changeEvent (k + 1) x = .sub q.current s.trail.depth k x := by rw [changeEvent, htrail]
    rw [hevent]
    cases h.agrees hi hs with
    | unstarted => cases hk
    | @started a done answers l state hl hf =>
      exact accepts_taken h hi hs (e := .sub done.length k x)
        (Session.answerSub_accepted (hc a) hl hf.length_le (Nat.lt_of_lt_of_le hk hf.length_le) (Nat.le_of_lt hk) _ x)

end Current

/-! ## Screens -/

/-- The events that an entry of a screen issues at once. -/
def actionEvents (q : Questionnaire) (screen : Screen) : Action → List Event
  | .answer a => [Dialogue.screenEvent q screen a]
  | .next => [.advance]
  | _ => []

/-- Whatever is picked from the screen, the events that follow from it are accepted. -/
def Offers (q : Questionnaire) : Screen → Prop
  | .choose choices | .reselect choices => ∀ pick, q.Accepts (q.selectionEvents choices pick)
  | .newAnswer place => ∀ a, q.Accepts [q.changeEvent place a]
  | .goTo targets => ∀ target ∈ targets, q.Accepts [.navigate target]
  | screen => ∀ e ∈ q.entries screen, q.Accepts (q.actionEvents screen e.action)

/-- A menu with both answers to a question. -/
theorem answers_accepted {q : Questionnaire} {screen : Screen} {yesHint noHint : Option String}
    (h : ∀ a, q.Accepts [Dialogue.screenEvent q screen a]) :
    ∀ e ∈ answerEntries yesHint noHint ++ q.travelEntries, q.Accepts (q.actionEvents screen e.action) := by
  intro e he
  rcases answer_action he with ⟨a, ha⟩ | ha | ha
  · rw [ha]
    exact h a
  · rw [ha]
    trivial
  · rw [ha]
    trivial

theorem offers_undecided (q : Questionnaire) : q.Offers .undecided := by
  intro e he
  rcases undecided_action he with ha | ha | ha <;>
  · rw [ha]
    trivial

theorem offers_whichAnswer (q : Questionnaire) : q.Offers .whichAnswer :=
  fun _ he => by cases he

theorem offers_decided {q : Questionnaire} (h : q.isLast = false → q.Accepts [.advance]) : q.Offers .decided := by
  intro e he
  rcases decided_action he with ⟨ha, hlast⟩ | ha | ha | ha
  · rw [ha]
    exact h hlast
  all_goals
    rw [ha]
    trivial

/-- There always is a current item. -/
theorem Sound.current {q : Questionnaire} (h : q.Sound) (hne : q.catalog.items ≠ []) :
    ∃ item s, q.catalog.items[q.current]? = some item ∧ q.session? q.current = some s := by
  obtain ⟨item, hi⟩ := item_of_lt (h.current_lt_items hne)
  obtain ⟨s, hs, -, -⟩ := h.session hi
  exact ⟨item, s, hi, hs⟩

end Questionnaire

/-! ## Dialogues -/

namespace Dialogue

/-- All that was issued has been accepted, and has led to where the questionnaire stands. -/
structure Follows (c : Catalog) (d : Dialogue) : Prop where
  accepted : (Questionnaire.new c).Accepts d.issued
  questionnaire : (Questionnaire.new c).run d.issued = d.questionnaire

/-- Nothing has been refused, and nothing that is offered will be. -/
structure Smooth (c : Catalog) (d : Dialogue) : Prop extends Follows c d where
  progress : d.progress = .left ∨ ∃ screen, d.progress = .asking screen ∧ d.questionnaire.Offers screen

/-- Events that are accepted are issued, and the dialogue goes on from there. -/
theorem issue_accepted {d : Dialogue} {events : List Event} (h : d.questionnaire.Accepts events)
    (goOn : Dialogue → Dialogue) :
    d.issue events goOn = goOn { d with
      questionnaire := d.questionnaire.run events
      issued := d.issued ++ events } := by
  obtain ⟨⟨t, ht⟩, hq⟩ := Questionnaire.replay_accepted h
  simp only [Dialogue.issue, ht, hq]

section Compiled
variable {definition : CatalogDefinition} {c : Catalog} {d : Dialogue} (hc : definition.compile = .ok c)

theorem Follows.sound (h : d.Follows c) : d.questionnaire.Sound ∧ d.questionnaire.catalog = c := by
  rw [← h.questionnaire]
  exact ⟨(Questionnaire.sound_new c).run _, (Questionnaire.sound_new c).run_catalog _⟩

theorem Follows.ask (h : d.Follows c) {screen : Screen} (ho : d.questionnaire.Offers screen) :
    (d.ask screen).Smooth c :=
  ⟨⟨h.accepted, h.questionnaire⟩, .inr ⟨screen, rfl, ho⟩⟩

/-- A dialogue that issues what is accepted stays on the way. -/
theorem Follows.issue (h : d.Follows c) {events : List Event} (he : d.questionnaire.Accepts events)
    {goOn : Dialogue → Dialogue} (hgo : ∀ d' : Dialogue, d'.Follows c → (goOn d').Smooth c) :
    (d.issue events goOn).Smooth c := by
  rw [issue_accepted he]
  refine hgo _ ⟨?_, ?_⟩
  · exact Questionnaire.accepts_append h.accepted (h.questionnaire ▸ he)
  · rw [Questionnaire.run_append, h.questionnaire]

include hc

/-- The current item, and what is checked about it. -/
theorem Follows.current (h : d.Follows c) :
    ∃ item s, d.questionnaire.catalog.items[d.questionnaire.current]? = some item ∧
      d.questionnaire.session? d.questionnaire.current = some s ∧ ∀ a, (item.branch a).Checked := by
  obtain ⟨hsound, hcat⟩ := h.sound
  obtain ⟨hne, hchecked⟩ := CatalogDefinition.compile_checked hc
  obtain ⟨item, s, hi, hs⟩ := hsound.current (hcat ▸ hne)
  exact ⟨item, s, hi, hs, hchecked item (hcat ▸ List.mem_of_getElem? hi)⟩

/-- A round starts with a screen that fits the prompt, or ends the dialogue. -/
theorem Follows.openRound (h : d.Follows c) : d.openRound.Smooth c := by
  obtain ⟨hsound, -⟩ := h.sound
  obtain ⟨item, s, hi, hs, hchecked⟩ := h.current hc
  have hprompt := Questionnaire.prompt_ok hi hs
  have hguides := Questionnaire.guides hsound hi hs hchecked
  have hasks := (hsound.agrees hi hs).asks
  unfold Dialogue.openRound
  generalize s.prompt item = p at hprompt hguides hasks
  cases p with
  | mainQuestion title description yesHint noHint =>
    simp only [hprompt]
    refine ⟨⟨h.accepted, h.questionnaire⟩, .inr ⟨_, rfl, Questionnaire.answers_accepted fun a => ?_⟩⟩
    exact hguides.main (hguides.main_iff.1 ⟨_, _, _, _, rfl⟩) a
  | subQuestion depth k count title =>
    simp only [hprompt]
    refine ⟨⟨h.accepted, h.questionnaire⟩, .inr ⟨_, rfl, Questionnaire.answers_accepted fun a => ?_⟩⟩
    exact (hguides.question depth k count title rfl).accepted a
  | selection choices running =>
    simp only [hprompt]
    refine ⟨⟨h.accepted, h.questionnaire⟩, .inr ⟨_, rfl, fun pick => ?_⟩⟩
    -- A selection is asked for only while one is open, so there is no other case.
    cases hasks with
    | selection => exact Questionnaire.accepts_selection hsound hi hs rfl _ pick
  | done v =>
    simp only [hprompt]
    refine ⟨⟨h.accepted, h.questionnaire⟩, ?_⟩
    dsimp only
    split
    · exact .inl rfl
    · exact .inr ⟨_, rfl, Questionnaire.offers_decided
        (Questionnaire.accepts_advance hsound hs ((hasks.done_iff v).1 rfl))⟩

theorem Follows.offerTargets (h : d.Follows c) : d.offerTargets.Smooth c := by
  unfold Dialogue.offerTargets
  dsimp only
  split
  · exact h.openRound hc
  · exact h.ask fun target ht => Questionnaire.accepts_visit h.sound.1 ht

theorem Follows.afterSelection (h : d.Follows c) : d.afterSelection.Smooth c := by
  unfold Dialogue.afterSelection
  dsimp only
  split
  · exact h.ask d.questionnaire.offers_undecided
  · exact h.openRound hc

/-- What an entry stands for can be done, if its events are accepted. -/
theorem Follows.act (h : d.Follows c) {screen : Screen} {action : Action}
    (ha : d.questionnaire.Accepts (d.questionnaire.actionEvents screen action)) :
    (d.act action (screenEvent d.questionnaire screen)).Smooth c := by
  cases action with
  | answer a => exact h.issue ha fun d' h' => h'.openRound hc
  | next => exact h.issue ha fun d' h' => h'.openRound hc
  | revise => exact h.ask d.questionnaire.offers_whichAnswer
  | again => exact h.openRound hc
  | jump => exact h.offerTargets hc
  | finish => exact ⟨⟨h.accepted, h.questionnaire⟩, .inl rfl⟩

/-- From a screen that asks what to do one of its entries is done, or nothing. -/
theorem Smooth.stepAt_listed (h : d.Smooth c) {screen : Screen} (hlisted : Questionnaire.Listed screen)
    (hoffers : d.questionnaire.Offers screen) (pick : Pick) : (d.stepAt screen pick).Smooth c := by
  have haccepts : ∀ e ∈ d.questionnaire.entries screen,
      d.questionnaire.Accepts (d.questionnaire.actionEvents screen e.action) := by
    cases hlisted <;> exact hoffers
  have hd : ({ d with told := [] } : Dialogue).Follows c := ⟨h.accepted, h.questionnaire⟩
  have hstay : ({ d with told := [] } : Dialogue).Smooth c := ⟨hd, h.progress⟩
  cases he : (d.questionnaire.entries screen)[pick.first]? with
  | none => cases hlisted <;> simpa only [Dialogue.stepAt, he] using hstay
  | some e =>
    have hact := hd.act hc (haccepts e (List.mem_of_getElem? he))
    cases hlisted <;> simpa only [Dialogue.stepAt, he] using hact

/-- Whatever is picked, it leads to a screen that fits, or out of the dialogue. -/
theorem Smooth.step (h : d.Smooth c) (pick : Pick) : (d.step pick).Smooth c := by
  unfold Dialogue.step
  rcases h.progress with hleft | ⟨screen, hasking, hoffers⟩
  · rw [hleft]
    exact h
  rw [hasking]
  have hd : ({ d with told := [] } : Dialogue).Follows c := ⟨h.accepted, h.questionnaire⟩
  cases screen with
  | main yesHint noHint => exact h.stepAt_listed hc (.main yesHint noHint) hoffers pick
  | sub depth k count title => exact h.stepAt_listed hc (.sub depth k count title) hoffers pick
  | undecided => exact h.stepAt_listed hc .undecided hoffers pick
  | decided => exact h.stepAt_listed hc .decided hoffers pick
  | choose choices => exact hd.issue (hoffers pick) fun d' h' => h'.afterSelection hc
  | reselect choices => exact hd.issue (hoffers pick) fun d' h' => h'.openRound hc
  | newAnswer place => exact hd.issue (hoffers _) fun d' h' => h'.openRound hc
  | goTo targets =>
    refine hd.issue ?_ fun d' h' => h'.openRound hc
    cases ht : targets[pick.first]? with
    | none => trivial
    | some target => exact hoffers target (List.mem_of_getElem? ht)
  | whichAnswer =>
    obtain ⟨hsound, -⟩ := h.sound
    obtain ⟨item, s, hi, hs, hchecked⟩ := h.current hc
    -- Behind the answers there is only what can be selected anew.
    simp only [Dialogue.stepAt]
    split
    · exact hd.ask fun pick => Questionnaire.accepts_reselection hsound hi hs pick
    · next hlt =>
      exact hd.ask fun a =>
        Questionnaire.accepts_change hsound hi hs (fun b => (hchecked b).judgeable) (Nat.lt_of_not_le hlt) a

/-- A play ends because the user leaves, because there are no more picks, or at a pick that its menu refuses. -/
theorem Smooth.play (h : d.Smooth c) (picks : List Pick) :
    (d.play picks).dialogue.Smooth c ∧ ((d.play picks).ending = .left ∨ (d.play picks).ending = .noMorePicks ∨
      ∃ m pick, ⟨m, some pick⟩ ∈ (d.play picks).shown ∧ m.accepts pick = false) := by
  induction picks generalizing d with
  | nil =>
    rcases h.progress with hleft | ⟨screen, hasking, -⟩
    · simp only [Dialogue.play, menu?, hleft]
      exact ⟨h, .inl (by rw [ending, hleft])⟩
    · simp only [Dialogue.play, menu?, hasking]
      exact ⟨h, .inr (.inl trivial)⟩
  | cons pick picks ih =>
    rcases h.progress with hleft | ⟨screen, hasking, -⟩
    · simp only [Dialogue.play, menu?, hleft]
      exact ⟨h, .inl (by rw [ending, hleft])⟩
    · simp only [Dialogue.play, menu?, hasking]
      split
      · obtain ⟨hsmooth, hend⟩ := ih (h.step hc pick)
        refine ⟨hsmooth, hend.imp id (Or.imp id ?_)⟩
        rintro ⟨m, bad, hmem, hbad⟩
        exact ⟨m, bad, List.mem_cons_of_mem _ hmem, hbad⟩
      · next hbad => exact ⟨h, .inr (.inr ⟨_, pick, List.mem_singleton_self _, Bool.eq_false_iff.2 hbad⟩)⟩

end Compiled

end Dialogue

end Appraisal
