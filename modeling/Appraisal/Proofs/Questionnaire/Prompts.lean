import Appraisal.Proofs.Questionnaire.Refusals
import Appraisal.Proofs.Session.Prompts
/-!
# The prompt asks for the next event

Over a catalog that compiles the prompt of the current item always says where its session stands, and every event
that it asks for is accepted: `Guides`. A question that it asks is the only one that can get a first answer.
-/

namespace Appraisal.Questionnaire

/-- Question `k` of the layer at `depth` is a question of the active layer. Both answers to it are accepted, and an
answer to another question is refused or replaces an answer that was there. -/
structure AsksNext (q : Questionnaire) (item : Item) (s : Session) (depth k count : Nat) (title : String) : Prop where
  active : s.trail.layer?.map LayerRef.depth = some depth
  lt : k < count
  question : ∃ l question, s.activeLayer item = .ok l ∧ count = l.questions.length ∧
    l.questions[k]? = some question ∧ title = question.title
  not_blank : Text.isBlank title = false
  accepted : ∀ x, q.Accepts [.sub q.current depth k x]
  only : ∀ depth' k' x, ¬(depth' = depth ∧ k' = k) →
    ∃ t, (q.after (.sub q.current depth' k' x)).session? q.current = some t ∧
      t.trail.completed = s.trail.completed ∧ t.trail.current.length = s.trail.current.length

/-- There is something to choose from, in the order of the questions, every choice can be picked and dropped, and what
is picked so far decides nothing. -/
structure OffersChoices (q : Questionnaire) (item : Item) (s : Session) (choices : List Choice) (running : Standing) :
    Prop where
  ne_nil : choices ≠ []
  ascending : choices.Pairwise (·.subIndex < ·.subIndex)
  titles : ∀ c ∈ choices, Text.isBlank c.title = false ∧ ∃ l question, s.activeLayer item = .ok l ∧
    l.questions[c.subIndex]? = some question ∧ c.title = question.title
  accepted : ∀ c ∈ choices, ∀ b, q.Accepts [.toggle q.current c.subIndex b]
  running : running = .pending ∨ running = .ambiguous

/-- The prompt `p` says where the session `s` of the current item stands, and asks for events that are accepted. -/
structure Guides (q : Questionnaire) (item : Item) (s : Session) (p : Prompt) : Prop where
  main_iff : (∃ title description yesHint noHint, p = .mainQuestion title description yesHint noHint) ↔
    s.trail.main = none
  main : s.trail.main = none → ∀ a, q.Accepts [.main q.current a]
  question_iff : (∃ depth k count title, p = .subQuestion depth k count title) ↔
    (∃ a, s.trail.main = some a) ∧ s.standing = .pending
  question : ∀ depth k count title, p = .subQuestion depth k count title → AsksNext q item s depth k count title
  selection_iff : (∃ choices running, p = .selection choices running) ↔ s.standing = .ambiguous
  selection : ∀ choices running, p = .selection choices running → OffersChoices q item s choices running
  done_iff : ∀ v, p = .done v ↔ ∃ r, q.store.get? q.current = some r ∧ r.verdict = v

section Current
variable {q : Questionnaire} {item : Item} {s : Session} (h : q.Sound)
  (hi : q.catalog.items[q.current]? = some item) (hs : q.session? q.current = some s)
include h hi hs

/-- The questionnaire accepts what the session of the current item takes. -/
theorem accepts_taken {e : SessionEvent} (he : ∃ step, s.take item e = .ok step) :
    q.Accepts [.ofSession q.current e] := by
  obtain ⟨step, hstep⟩ := he
  exact ⟨((Effect.answer hi hs hstep).after h.length_eq).1, trivial⟩

/-- The session of the current item after an answer event: as before, or what it makes of the event. -/
theorem session?_after (e : SessionEvent) :
    (q.after (.ofSession q.current e)).session? q.current = some (s.after item e) := by
  unfold Session.after
  cases ht : s.take item e with
  | ok step => rw [((Effect.answer hi hs ht).after h.length_eq).2, session?_putSession hs]
  | error error =>
    have hr : (q.apply (.ofSession q.current e)).result = .error error := by
      rw [apply_ofSession, answered]
      simp only [onCurrent, hi, show q.sessions[q.current]? = some s from hs, if_true, ht]
      rfl
    rw [(h.refused hr).1, hs]

/-- The store has a verdict for the current item exactly when its session has. -/
theorem verdict_stored (v : Verdict) :
    s.verdict? = some v ↔ ∃ r, q.store.get? q.current = some r ∧ r.verdict = v := by
  obtain ⟨t, ht, hagrees, hrec⟩ := h.session hi
  cases hs.symm.trans ht
  rw [hrec]
  constructor
  · intro hv
    obtain ⟨a, ha⟩ := main_of_verdict hagrees hv
    exact ⟨⟨q.current, item.id, item.title, v, a, s.trail.full⟩, recordOf_some.2 ⟨hv, ha, rfl⟩, rfl⟩
  · rintro ⟨r, hr, rfl⟩
    exact (recordOf_some.1 hr).1

omit h in
theorem prompt_ok : q.prompt = .ok (s.prompt item) := by
  have hs' : q.sessions[q.current]? = some s := hs
  simp [Questionnaire.prompt, Questionnaire.item, session, hi, hs', bind, Except.bind, pure, Except.pure]

variable (hc : ∀ a, (item.branch a).Checked)
include hc

theorem asksNext {depth k count : Nat} {title : String}
    (hasks : s.Asks item q.current (.subQuestion depth k count title)) : AsksNext q item s depth k count title := by
  cases hasks with
  | @question a done answers l question hl hq =>
    have hlt : answers.length < l.questions.length := (List.getElem?_eq_some_iff.1 hq).1
    obtain ⟨tag, htag⟩ := hc a done.length l hl.descend
    constructor
    · rfl
    · exact hlt
    · exact ⟨l, question, Session.activeLayer_on hl.descend _, rfl, hq, rfl⟩
    · exact checkLayer_titles htag question (List.mem_of_getElem? hq)
    · intro x
      exact accepts_taken h hi hs (e := .sub done.length answers.length x)
        (Session.answerSub_accepted (hc a).judgeable hl (Nat.le_of_lt hlt) hlt (Nat.le_refl _) _ x)
    · intro depth k x hne
      refine ⟨_, session?_after h hi hs (.sub depth k x), ?_⟩
      exact Session.after_induction
        (P := fun t => t.trail.completed = done ∧ t.trail.current.length = answers.length) ⟨rfl, rfl⟩
        fun step hstep => Session.no_other_question hl hlt hne hstep

theorem offersChoices {choices : List Choice} {running : Standing}
    (hasks : s.Asks item q.current (.selection choices running)) : OffersChoices q item s choices running := by
  cases hasks with
  | @selection a done answers l sel hl hq hsel hrunning =>
    obtain ⟨tag, htag⟩ := hc a done.length l hl.descend
    constructor
    · simpa [Session.choices] using Selection.candidates_ne_nil hsel hq
    · exact Session.choices_ascending hsel
    · intro c hmem
      obtain ⟨-, question, hquestion, htitle⟩ := Session.choices_titles hsel hmem
      exact ⟨by rw [htitle]; exact checkLayer_titles htag question (List.mem_of_getElem? hquestion),
        l, question, Session.activeLayer_on hl.descend _, hquestion, htitle⟩
    · intro c hmem b
      obtain ⟨hk, -⟩ := Session.choices_titles hsel hmem
      have htoggle := Session.toggle_offered (s := ⟨q.current, .on a done answers, .selecting sel⟩) rfl hk b
      exact accepts_taken h hi hs (e := .toggle c.subIndex b) ⟨_, htoggle⟩
    · cases hst : sel.standing with
      | decided v => exact absurd hst (hrunning v)
      | pending => exact .inl rfl
      | ambiguous => exact .inr rfl

theorem guides : Guides q item s (s.prompt item) := by
  have hagrees : s.Agrees item q.current := h.agrees hi hs
  have hasks := hagrees.asks
  constructor
  · exact hasks.main_iff
  · intro _ a
    exact accepts_taken h hi hs (e := .main a) (Session.answerMain_accepted (fun a => (hc a).judgeable) s a)
  · exact hasks.question_iff
  · intro depth k count title hp
    exact asksNext h hi hs hc (hp ▸ hasks)
  · exact hasks.selection_iff
  · intro choices running hp
    exact offersChoices h hi hs hc (hp ▸ hasks)
  · intro v
    rw [hasks.done_iff, verdict_stored h hi hs]

end Current

/-- In every state of the questionnaire of a catalog that compiles there is a prompt for the current item, it says
where the item stands, and what it asks for is accepted. -/
theorem prompt_guides {d : CatalogDefinition} {c : Catalog} (hd : d.compile = .ok c) (es : List Event) :
    ∃ item s p, c.items[((new c).run es).current]? = some item ∧
      ((new c).run es).session? ((new c).run es).current = some s ∧ ((new c).run es).prompt = .ok p ∧
      Guides ((new c).run es) item s p := by
  have h := (sound_new c).run es
  have hcat : ((new c).run es).catalog = c := (sound_new c).run_catalog es
  obtain ⟨hne, hc⟩ := CatalogDefinition.compile_checked hd
  have hlt : ((new c).run es).current < ((new c).run es).catalog.items.length := by
    rw [← h.length_eq]
    refine h.current_lt (List.ne_nil_of_length_pos ?_)
    rw [h.length_eq, hcat]
    exact List.length_pos_of_ne_nil hne
  obtain ⟨item, hi⟩ := item_of_lt hlt
  obtain ⟨s, hs, -, -⟩ := h.session hi
  have hitem := hi
  rw [hcat] at hitem
  exact ⟨item, s, s.prompt item, hitem, hs, prompt_ok hi hs, guides h hi hs (hc item (List.mem_of_getElem? hitem))⟩

/-- Someone answers for the roof until its answers point both ways. -/
def roofAnswers : List Event :=
  [.main 0 .yes, .sub 0 0 0 .no, .sub 0 1 0 .yes, .sub 0 1 1 .yes]

/-- Then there are two choices, and each of them can be picked and dropped. -/
theorem roof_choices :
    house.compile = .ok houseCatalog ∧
      ((new houseCatalog).run roofAnswers).prompt =
        .ok (.selection [⟨0, "Is it patched?", .pass, false⟩, ⟨1, "Does it leak?", .fail, false⟩] .pending) ∧
      ∀ k ∈ [0, 1], ∀ b, ((new houseCatalog).run roofAnswers).Accepts [.toggle 0 k b] := by
  have hprompt : ((new houseCatalog).run roofAnswers).prompt =
      .ok (.selection [⟨0, "Is it patched?", .pass, false⟩, ⟨1, "Does it leak?", .fail, false⟩] .pending) := by
    decide
  have hcurrent : ((new houseCatalog).run roofAnswers).current = 0 := by
    decide
  obtain ⟨item, s, p, -, -, hp, hguides⟩ := prompt_guides house_compiles roofAnswers
  cases hprompt.symm.trans hp
  have hchoices := (hguides.selection _ _ rfl).accepted
  rw [hcurrent] at hchoices
  exact ⟨house_compiles, hprompt, by simpa using hchoices⟩

end Appraisal.Questionnaire
