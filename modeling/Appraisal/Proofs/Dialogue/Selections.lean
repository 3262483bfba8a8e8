import Appraisal.Proofs.Dialogue.Agreement
import Appraisal.Proofs.Dialogue.Offers
import Appraisal.Proofs.Questionnaire.Moving
import Appraisal.Proofs.Session.Selecting
/-!
# A multi-select sets the selection

The menu of a selection shows choices with what is picked so far, and sends a toggle for each choice of which the pick
says something else. Three numberings meet there: positions in the menu, which a pick is made of; candidates, in the
same order; and questions, which toggles name. `run_revisions` follows the toggles one by one: what lies behind is as
picked, what lies ahead still as it was shown. So the selection ends as `Selection.ofPick`, whatever it was before, and
the verdict and the record of the item follow it (`Carries`), at the end and on the way.
-/

namespace Appraisal

/-- What a choice offers, picked or not. -/
def Choice.candidate (c : Choice) (picked : Bool) : Candidate :=
  ⟨c.subIndex, c.favours, picked⟩

namespace Selection

/-- The choices, of which those at the positions in `pick` are picked. -/
def ofPick (choices : List Choice) (pick : Pick) : Selection :=
  ⟨choices.zipIdx.map fun x => x.1.candidate (pick.contains x.2)⟩

/-- The choices as they are shown. -/
def shown (choices : List Choice) : Selection :=
  ⟨choices.map fun c => c.candidate c.picked⟩

/-- The toggles for the choices of which the pick says something else than what is shown. Each choice comes with its
position. -/
def revisions (pick : Pick) (choices : List (Choice × Nat)) : List (Nat × Bool) :=
  choices.filterMap fun x => if pick.contains x.2 = x.1.picked then none else some (x.1.subIndex, pick.contains x.2)

/-- What is picked are the questions of the picked positions. -/
theorem mem_picked_ofPick {choices : List Choice} {pick : Pick} {k : Nat} :
    k ∈ (ofPick choices pick).picked ↔ ∃ i c, i ∈ pick ∧ choices[i]? = some c ∧ c.subIndex = k := by
  simp only [picked, ofPick, List.mem_map, List.mem_filter]
  constructor
  · rintro ⟨_, ⟨⟨⟨c, i⟩, hc, rfl⟩, hp⟩, rfl⟩
    exact ⟨i, c, List.contains_iff_mem.1 hp, List.mem_zipIdx_iff_getElem?.1 hc, rfl⟩
  · rintro ⟨i, c, hi, hc, rfl⟩
    exact ⟨c.candidate (pick.contains i), ⟨⟨(c, i), List.mem_zipIdx_iff_getElem?.2 hc, rfl⟩,
      List.contains_iff_mem.2 hi⟩, rfl⟩

theorem shown_choices (questions : List SubQuestion) (s : Selection) : shown (Session.choices questions s) = s := by
  simp [shown, Session.choices, Choice.candidate, Function.comp_def]

/-- To set one of several candidates leaves those around it as they are. -/
theorem set_one_of {before after : List Candidate} {c : Candidate}
    (hn : (indices ⟨before ++ c :: after⟩).Nodup) (b : Bool) :
    (Selection.mk (before ++ c :: after)).set c.subIndex b = ⟨before ++ { c with picked := b } :: after⟩ := by
  simp only [indices, List.map_append, List.map_cons, List.nodup_append, List.nodup_cons, List.mem_map,
    List.mem_cons] at hn
  obtain ⟨-, ⟨hafter, -⟩, hbefore⟩ := hn
  have hkeep : ∀ cs : List Candidate, (∀ d ∈ cs, d.subIndex ≠ c.subIndex) →
      cs.map (fun d => if d.subIndex = c.subIndex then { d with picked := b } else d) = cs := by
    intro cs hcs
    rw [List.map_congr_left fun d hd => if_neg (hcs d hd), List.map_id']
  simp only [set, List.map_append, List.map_cons, if_true]
  rw [hkeep before fun d hd => hbefore _ ⟨d, hd, rfl⟩ _ (.inl rfl), hkeep after fun d hd he => hafter ⟨d, hd, he⟩]

/-- The candidates behind are as picked, those ahead still as they were shown. -/
theorem run_revisions_from (pick : Pick) (rest : List (Choice × Nat)) :
    ∀ done : List Candidate, (indices ⟨done ++ rest.map fun x => x.1.candidate x.1.picked⟩).Nodup →
      (Selection.mk (done ++ rest.map fun x => x.1.candidate x.1.picked)).run (revisions pick rest) =
        ⟨done ++ rest.map fun x => x.1.candidate (pick.contains x.2)⟩ := by
  induction rest with
  | nil => exact fun done _ => rfl
  | cons x rest ih =>
    intro done hn
    -- The next choice goes over to those behind, toggled if need be.
    have hset : (Selection.mk (done ++ x.1.candidate x.1.picked :: _)).set x.1.subIndex (pick.contains x.2) =
        ⟨done ++ x.1.candidate (pick.contains x.2) :: rest.map fun x => x.1.candidate x.1.picked⟩ :=
      set_one_of hn (pick.contains x.2)
    have hn' : (indices ⟨done ++ x.1.candidate (pick.contains x.2) ::
        rest.map fun x => x.1.candidate x.1.picked⟩).Nodup := by
      rw [← hset, indices_set]
      exact hn
    have hrest := ih (done ++ [x.1.candidate (pick.contains x.2)]) (by simpa using hn')
    simp only [List.append_assoc, List.singleton_append] at hrest
    rw [List.map_cons, List.map_cons, ← hrest]
    by_cases hp : pick.contains x.2 = x.1.picked
    · rw [revisions, List.filterMap_cons, if_pos hp, ← revisions, hp]
    · rw [revisions, List.filterMap_cons, if_neg hp, ← revisions, run, List.foldl_cons, ← run, after_eq, hset]

/-- The toggles make the selection shown the one that is picked. -/
theorem run_revisions {choices : List Choice} (hn : (shown choices).indices.Nodup) (pick : Pick) :
    (shown choices).run (revisions pick choices.zipIdx) = ofPick choices pick := by
  have hshown : choices.zipIdx.map (fun x => x.1.candidate x.1.picked) = choices.map fun c => c.candidate c.picked := by
    conv_rhs => rw [← List.zipIdx_map_fst 0 choices, List.map_map]
    rfl
  have h := run_revisions_from pick choices.zipIdx []
  simp only [List.nil_append, hshown] at h
  exact h hn

theorem revisions_offered (choices : List Choice) (pick : Pick) :
    ∀ t ∈ revisions pick choices.zipIdx, t.1 ∈ (shown choices).indices := by
  intro t ht
  obtain ⟨⟨c, i⟩, hc, hx⟩ := List.mem_filterMap.1 ht
  dsimp only at hx
  split at hx
  · cases hx
  · cases hx
    exact List.mem_map.2 ⟨_, List.mem_map_of_mem (List.fst_mem_of_mem_zipIdx hc), rfl⟩

end Selection

/-- A session has the verdict of the selection that it stands by. -/
theorem Session.StandsBy.verdict?_eq {item : Item} {s : Session} {sel : Selection} (h : s.StandsBy item sel) :
    s.verdict? = sel.standing.verdict? := by
  cases hstanding : sel.standing with
  | decided v =>
    rw [verdict?, standing, (h.resolved v).2 hstanding]
    rfl
  | pending =>
    rw [verdict?, standing, h.selecting.2 (by simp [hstanding])]
    rfl
  | ambiguous =>
    rw [verdict?, standing, h.selecting.2 (by simp [hstanding])]
    rfl

namespace Questionnaire
variable {q : Questionnaire} {sel : Selection}

/-- The current item has the selection `sel`, and what it comes to is its verdict and that of its record. -/
structure Carries (q : Questionnaire) (sel : Selection) : Prop where
  selection : q.currentSelection = some sel
  verdict : (q.session? q.current).bind Session.verdict? = sel.standing.verdict?
  record : (q.store.get? q.current).map Record.verdict = sel.standing.verdict?

/-- The choices are those that the prompt shows, or those of the selection that the current item has. -/
inductive Offered (q : Questionnaire) (choices : List Choice) : Prop
  | prompted {running : Standing} : q.prompt = .ok (.selection choices running) → Offered q choices
  | kept {sel : Selection} : q.currentSelection = some sel → choices = q.currentChoices → Offered q choices

/-- Picking `pick` from `choices` only toggles choices of the current item, and every toggle is accepted. What is
picked in the end are the questions of the picked choices, and the item has the verdict that follows from them, after
each toggle the one that followed from what was picked so far. -/
structure Selects (q : Questionnaire) (choices : List Choice) (pick : Pick) : Prop where
  toggles : ∀ e ∈ q.selectionEvents choices pick, ∃ c ∈ choices, ∃ b, e = .toggle q.current c.subIndex b
  accepted : q.Accepts (q.selectionEvents choices pick)
  carries : (q.run (q.selectionEvents choices pick)).Carries (.ofPick choices pick)
  picked : ∀ k, k ∈ (Selection.ofPick choices pick).picked ↔
    ∃ i c, i ∈ pick ∧ choices[i]? = some c ∧ c.subIndex = k
  on_the_way : ∀ n, ∃ sel, (q.run ((q.selectionEvents choices pick).take n)).Carries sel ∧
    sel.cleared = (Selection.ofPick choices pick).cleared
  elsewhere : SameElsewhere q (q.run (q.selectionEvents choices pick))

/-! ## The item follows its selection -/

/-- A current item with a selection stands by it. -/
theorem Sound.current_selection (h : q.Sound) (hsel : q.currentSelection = some sel) :
    ∃ item s, q.catalog.items[q.current]? = some item ∧ q.session? q.current = some s ∧
      s.state.selection? = some sel ∧ s.StandsBy item sel := by
  obtain ⟨s, hs, hstate⟩ := Option.bind_eq_some_iff.1 hsel
  obtain ⟨item, hi⟩ := item_of_lt (h.length_eq ▸ (List.getElem?_eq_some_iff.1 hs).1)
  exact ⟨item, s, hi, hs, hstate, (h.agrees hi hs).standsBy hstate⟩

theorem Sound.selection_nodup (h : q.Sound) (hsel : q.currentSelection = some sel) : sel.indices.Nodup := by
  obtain ⟨item, s, -, -, -, hstands⟩ := h.current_selection hsel
  obtain ⟨l, toggles, -, -, rfl⟩ := hstands.reached
  exact Selection.nodup_run _ _ _

theorem Sound.carries (h : q.Sound) (hsel : q.currentSelection = some sel) : q.Carries sel := by
  obtain ⟨item, s, hi, hs, -, hstands⟩ := h.current_selection hsel
  have hverdict := hstands.verdict?_eq
  refine ⟨hsel, by rw [hs, Option.bind_some, hverdict], ?_⟩
  rw [← hverdict]
  exact Option.ext fun v => by rw [Option.map_eq_some_iff, verdict_stored h hi hs]

theorem Sound.after_toggle (h : q.Sound) (hsel : q.currentSelection = some sel) {k : Nat} (hk : k ∈ sel.indices)
    (b : Bool) : (q.after (.toggle q.current k b)).currentSelection = some (sel.set k b) ∧
      (q.after (.toggle q.current k b)).current = q.current := by
  obtain ⟨item, s, hi, hs, hstate, -⟩ := h.current_selection hsel
  have hcurrent : (q.after (.toggle q.current k b)).current = q.current :=
    (h.answers [.toggle q.current k b] (by simp [Event.isMove])).current
  have hsession : (q.after (.toggle q.current k b)).session? q.current = some (s.after item (.toggle k b)) :=
    session?_after h hi hs (.toggle k b)
  rw [Session.after, Session.take, Session.toggle_offered hstate hk b] at hsession
  refine ⟨?_, hcurrent⟩
  rw [currentSelection, hcurrent, hsession]
  exact State.selection?_ofSelection _

/-- The selection of the current item takes toggles as a selection does. -/
theorem Sound.run_toggles {ts : List (Nat × Bool)} (h : q.Sound) (hsel : q.currentSelection = some sel)
    (hts : ∀ t ∈ ts, t.1 ∈ sel.indices) :
    (q.run (ts.map fun t => .toggle q.current t.1 t.2)).currentSelection = some (sel.run ts) := by
  induction ts generalizing q sel with
  | nil => exact hsel
  | cons t ts ih =>
    obtain ⟨hstep, hcurrent⟩ := h.after_toggle hsel (hts t List.mem_cons_self) t.2
    have hrest := ih (h.after _) hstep fun u hu => by
      rw [Selection.indices_set]
      exact hts u (List.mem_cons_of_mem t hu)
    rw [hcurrent] at hrest
    rw [Selection.run, List.foldl_cons, Selection.after_eq]
    exact hrest

/-! ## What is offered is what is selected -/

theorem selectionEvents_eq (q : Questionnaire) (choices : List Choice) (pick : Pick) :
    q.selectionEvents choices pick =
      (Selection.revisions pick choices.zipIdx).map fun t => .toggle q.current t.1 t.2 := by
  rw [selectionEvents, Selection.revisions, List.map_filterMap]
  congr 1
  funext ⟨c, i⟩
  dsimp only
  split <;> rfl

theorem prompt_inv {p : Prompt} (hp : q.prompt = .ok p) :
    ∃ item s, q.catalog.items[q.current]? = some item ∧ q.session? q.current = some s ∧ p = s.prompt item := by
  simp only [Questionnaire.prompt, Questionnaire.item, session] at hp
  cases hi : q.catalog.items[q.current]? with
  | none => simp [hi, bind, Except.bind] at hp
  | some item =>
    cases hs : q.sessions[q.current]? with
    | none => simp [hi, hs, bind, Except.bind] at hp
    | some s =>
      simp only [hi, hs, bind, Except.bind, pure, Except.pure, Except.ok.injEq] at hp
      exact ⟨item, s, rfl, hs, hp.symm⟩

/-- The choices offered show the selection as it is. -/
theorem Offered.shows (h : q.Sound) {choices : List Choice} (ho : q.Offered choices) :
    q.currentSelection = some (.shown choices) := by
  cases ho with
  | prompted hp =>
    obtain ⟨item, s, hi, hs, heq⟩ := prompt_inv hp
    have hasks := (h.agrees hi hs).asks
    rw [← heq] at hasks
    cases hasks with
    | selection =>
      rw [currentSelection, hs, Selection.shown_choices]
      rfl
  | @kept sel hsel heq =>
    rw [heq, currentChoices, hsel, Option.map_some, Option.getD_some, Selection.shown_choices]

theorem Sound.selects (h : q.Sound) {choices : List Choice} (ho : q.Offered choices) (pick : Pick) :
    q.Selects choices pick := by
  have hshown := ho.shows h
  have hoffered := Selection.revisions_offered choices pick
  have hend := Selection.run_revisions (h.selection_nodup hshown) pick
  have hevents := q.selectionEvents_eq choices pick
  have hanswers : ∀ e ∈ q.selectionEvents choices pick, e.isMove = false := by
    intro e he
    obtain ⟨c, -, b, rfl⟩ := mem_selectionEvents he
    rfl
  constructor
  · exact fun e he => mem_selectionEvents he
  · obtain ⟨item, s, hi, hs, hstate, -⟩ := h.current_selection hshown
    refine accepts_toggles h hi hs hstate fun e he => ?_
    obtain ⟨t, ht, rfl⟩ := List.mem_map.1 (hevents ▸ he)
    exact ⟨t.1, hoffered t ht, t.2, rfl⟩
  · have hrun := h.run_toggles hshown hoffered
    rw [← hevents, hend] at hrun
    exact (h.run _).carries hrun
  · exact fun k => Selection.mem_picked_ofPick
  · intro n
    have hrun := h.run_toggles hshown fun t ht => hoffered t (List.mem_of_mem_take (i := n) ht)
    rw [List.map_take, ← hevents] at hrun
    exact ⟨_, (h.run _).carries hrun, by rw [← hend, Selection.cleared_run, Selection.cleared_run]⟩
  · exact h.answers _ hanswers

end Questionnaire

namespace Rounds

/-- A menu of choices takes its pick and sends what follows from it. -/
theorem run_selectChoices {s : Sitting} {choices : List Choice} {pick : Pick} {picks : List Pick}
    (hp : s.picks = pick :: picks) (ha : (Questionnaire.choiceMenu choices).accepts pick = true)
    (he : s.questionnaire.Accepts (s.questionnaire.selectionEvents choices pick)) :
    run (selectChoices choices) s = (.ok (), (s.taken (Questionnaire.choiceMenu choices) (some pick) picks).sent
      (s.questionnaire.selectionEvents choices pick)) := by
  rw [selectChoices, run_bind, run_get]
  dsimp only
  rw [run_bind, run_ask_cons hp, if_pos ha]
  exact run_sends he

end Rounds

namespace Questionnaire

/-- Whatever was selected before, the menu of a selection sets it to what is picked. In every state that a
questionnaire can be in, with the choices that are then on offer, the loop sends toggles that are all accepted, a
dialogue issues the same, and they leave the current item with the picked choices, and with the verdict and the record
that these call for. -/
theorem multi_select_sets {c : Catalog} {es : List Event} {s : Sitting} (hq : s.questionnaire = (new c).run es)
    {choices : List Choice} (ho : s.questionnaire.Offered choices) {pick : Pick} {picks : List Pick}
    (hp : s.picks = pick :: picks) (ha : (choiceMenu choices).accepts pick = true) :
    Rounds.run (Rounds.selectChoices choices) s = (.ok (), (s.taken (choiceMenu choices) (some pick) picks).sent
        (s.questionnaire.selectionEvents choices pick)) ∧
      (∀ told progress goOn, (s.dialogue told progress).issue (s.questionnaire.selectionEvents choices pick) goOn =
        goOn ((s.sent (s.questionnaire.selectionEvents choices pick)).dialogue told progress)) ∧
      s.questionnaire.Selects choices pick := by
  have hsound : s.questionnaire.Sound := hq ▸ (sound_new c).run es
  have hselects := hsound.selects ho pick
  exact ⟨Rounds.run_selectChoices hp ha hselects.accepted,
    fun _ _ goOn => Dialogue.issue_accepted hselects.accepted goOn, hselects⟩

/-- The roof has failed because it leaks. -/
def leakyRoof : Questionnaire :=
  (new houseCatalog).run (roofAnswers ++ [.toggle 0 1 true])

def leakChoices : List Choice :=
  [⟨0, "Is it patched?", .pass, false⟩, ⟨1, "Does it leak?", .fail, true⟩]

/-- It is selected anew that the roof is patched and does not leak. The fail is taken back on the way, and the item ends
with a pass. -/
theorem leak_reselected :
    Rounds.run (Rounds.selectChoices leakChoices) ⟨leakyRoof, [], [], [], [[0]]⟩ =
        (.ok (), ⟨leakyRoof.run [.toggle 0 0 true, .toggle 0 1 false], [.toggle 0 0 true, .toggle 0 1 false], [],
          [⟨choiceMenu leakChoices, some [0]⟩], []⟩) ∧
      leakyRoof.Selects leakChoices [0] ∧
      (leakyRoof.store.get? 0).map Record.verdict = some .fail ∧
      ((leakyRoof.run [.toggle 0 0 true]).store.get? 0).map Record.verdict = none ∧
      ((leakyRoof.run [.toggle 0 0 true, .toggle 0 1 false]).store.get? 0).map Record.verdict = some .pass := by
  have hsel : leakyRoof.currentSelection = some (.shown leakChoices) := by decide
  have hchoices : leakChoices = leakyRoof.currentChoices := by decide
  have hevents : leakyRoof.selectionEvents leakChoices [0] = [.toggle 0 0 true, .toggle 0 1 false] := by decide
  obtain ⟨hrun, -, hselects⟩ := multi_select_sets (s := ⟨leakyRoof, [], [], [], [[0]]⟩) rfl (.kept hsel hchoices) rfl
    (by decide)
  simp only [hevents] at hrun
  exact ⟨hrun, hselects, by decide, by decide, by decide⟩

end Questionnaire

end Appraisal
