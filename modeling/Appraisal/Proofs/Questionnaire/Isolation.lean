import Appraisal.Proofs.Questionnaire.Refusals
/-!
# Items do not interfere

`answersTo` is what an item gets to see of a run: the answers for it that were accepted, in order. A fresh session
that takes just these becomes the session of the item, so neither other items nor moving about leave a mark on it.
The store is determined by the sessions, and with it everything that is reported.
-/

namespace Appraisal

/-- The answer that an event carries to item `i`, if it carries one. -/
def Event.answerTo? (i : Nat) : Event → Option SessionEvent
  | .main j a => if j = i then some (.main a) else none
  | .sub j depth k a => if j = i then some (.sub depth k a) else none
  | .toggle j k b => if j = i then some (.toggle k b) else none
  | .navigate _ => none
  | .advance => none

theorem Event.answerTo?_ofSession (i j : Nat) (f : SessionEvent) :
    (Event.ofSession j f).answerTo? i = if j = i then some f else none := by
  cases f <;> rfl

namespace Questionnaire

/-- The answers to item `i` that are accepted in a run, in order. -/
def answersTo (q : Questionnaire) (i : Nat) : List Event → List SessionEvent
  | [] => []
  | e :: es =>
    match (q.apply e).result with
    | .ok _ => (e.answerTo? i).toList ++ (q.after e).answersTo i es
    | .error _ => (q.after e).answersTo i es

/-! ## The session of an item -/

/-- An item's session takes the answer that an accepted event carries to it, and no other event touches it. -/
theorem Effect.play_answer {q q' : Questionnaire} {e : Event} (he : Effect q e q') {i : Nat} {item : Item}
    {s : Session} (hi : q.catalog.items[i]? = some item) (hs : q.session? i = some s) :
    ∃ t, q'.session? i = some t ∧ s.play item (e.answerTo? i).toList = .ok t := by
  cases he with
  | @answer other r f step hother hr hf =>
    rw [Event.answerTo?_ofSession]
    by_cases hc : q.current = i
    · subst hc
      cases hi.symm.trans hother
      cases hs.symm.trans hr
      exact ⟨step.session, session?_putSession hs _, by rw [if_pos rfl, Option.toList_some, Session.play_cons hf]; rfl⟩
    · exact ⟨s, by rw [session?_putSession_ne q hc, hs], by rw [if_neg hc]; rfl⟩
  | visit _ _ => exact ⟨s, hs, rfl⟩
  | next _ _ _ => exact ⟨s, hs, rfl⟩

/-- The accepted answers to an item lead its session through the run. -/
theorem Sound.play_answers {i : Nat} {item : Item} (es : List Event) :
    ∀ {q : Questionnaire} {s : Session}, q.Sound → q.catalog.items[i]? = some item → q.session? i = some s →
      ∃ t, (q.run es).session? i = some t ∧ s.play item (q.answersTo i es) = .ok t := by
  induction es with
  | nil => exact fun _ _ hs => ⟨_, hs, rfl⟩
  | cons e es ih =>
    intro q s h hi hs
    have hrun : q.run (e :: es) = (q.after e).run es := rfl
    rcases apply_cases h.length_eq e with ⟨error, notices, ha, -⟩ | ⟨r, notices, q', ha, he⟩
    · have hafter : q.after e = q := by rw [Questionnaire.after, ha]
      simpa only [hrun, answersTo, ha, hafter] using ih h hi hs
    · have hafter : q.after e = q' := by rw [Questionnaire.after, ha]
      obtain ⟨t, ht, hplay⟩ := he.play_answer hi hs
      obtain ⟨u, hu, hrest⟩ := ih (he.sound h) (by rwa [he.catalog_eq]) ht
      refine ⟨u, by rw [hrun, hafter, hu], ?_⟩
      simp only [answersTo, ha, hafter]
      rw [Session.play_append hplay, hrest]

theorem session?_new {c : Catalog} {i : Nat} {item : Item} (hi : c.items[i]? = some item) :
    (new c).session? i = some (.new i) := by
  have hlt := (List.getElem?_eq_some_iff.1 hi).1
  simp [session?, new, hlt]

/-- A fresh session that takes the accepted answers to an item becomes the session of that item. -/
theorem session_of_answers {c : Catalog} {i : Nat} {item : Item} (hi : c.items[i]? = some item) (es : List Event) :
    ∃ s, ((new c).run es).session? i = some s ∧ (Session.new i).play item ((new c).answersTo i es) = .ok s :=
  (sound_new c).play_answers es hi (session?_new hi)

theorem session?_none {c : Catalog} {i : Nat} (hi : c.items[i]? = none) (es : List Event) :
    ((new c).run es).session? i = none := by
  have h := (sound_new c).run es
  rw [session?, List.getElem?_eq_none_iff, h.length_eq, (sound_new c).run_catalog es]
  exact List.getElem?_eq_none_iff.1 hi

/-- The answers to an item that were accepted determine its session, in whatever catalog the item stands. -/
theorem session_congr {c c' : Catalog} {es es' : List Event} {i : Nat} (hi : c'.items[i]? = c.items[i]?)
    (h : (new c').answersTo i es' = (new c).answersTo i es) :
    ((new c').run es').session? i = ((new c).run es).session? i := by
  cases hitem : c.items[i]? with
  | none => rw [session?_none hitem, session?_none (hi.trans hitem)]
  | some item =>
    obtain ⟨s, hs, hplay⟩ := session_of_answers hitem es
    obtain ⟨s', hs', hplay'⟩ := session_of_answers (hi.trans hitem) es'
    rw [h, hplay] at hplay'
    cases hplay'
    rw [hs, hs']

/-! ## What is reported -/

/-- Items do not interfere. The session of an item is what a fresh session makes of the accepted answers to that item
alone, in whatever catalog and among whatever other events; and runs over one catalog that give every item the same
accepted answers end with the same results, the same summary and the same completion. -/
theorem items_do_not_interfere (c : Catalog) (es : List Event) :
    (∀ i item, c.items[i]? = some item → ∃ s, ((new c).run es).session? i = some s ∧
      (Session.new i).play item ((new c).answersTo i es) = .ok s) ∧
    (∀ c' es' i, c'.items[i]? = c.items[i]? → (new c').answersTo i es' = (new c).answersTo i es →
      ((new c').run es').session? i = ((new c).run es).session? i) ∧
    ∀ es', (∀ i < c.items.length, (new c).answersTo i es' = (new c).answersTo i es) →
      ((new c).run es').results = ((new c).run es).results ∧
      Summary.of ((new c).run es').results = Summary.of ((new c).run es).results ∧
      ((new c).run es').isComplete = ((new c).run es).isComplete ∧
      ((new c).run es').completion = ((new c).run es).completion := by
  refine ⟨fun i item hi => session_of_answers hi es, fun c' es' i hi h => session_congr hi h, fun es' h => ?_⟩
  have hsessions : ((new c).run es').sessions = ((new c).run es).sessions := by
    refine List.ext_getElem? fun i => ?_
    by_cases hi : i < c.items.length
    · exact session_congr rfl (h i hi)
    · have hnone : c.items[i]? = none := List.getElem?_eq_none_iff.2 (Nat.le_of_not_lt hi)
      exact (session?_none hnone es').trans (session?_none hnone es).symm
  have hcatalog : ((new c).run es').catalog = ((new c).run es).catalog := by
    rw [(sound_new c).run_catalog, (sound_new c).run_catalog]
  rw [((sound_new c).run es).eq_of_sessions ((sound_new c).run es') hcatalog hsessions]
  exact ⟨rfl, rfl, rfl, rfl⟩

/-- Detours and refused events in between change nothing that is reported. -/
theorem detours_leave_no_mark :
    (∀ i < houseCatalog.items.length,
      (new houseCatalog).answersTo i
          [.main 1 .yes, .main 0 .no, .toggle 0 0 true, .advance, .navigate 0, .advance, .main 1 .yes, .navigate 0] =
        (new houseCatalog).answersTo i [.main 0 .no, .advance, .main 1 .yes]) ∧
      ((new houseCatalog).run
          [.main 1 .yes, .main 0 .no, .toggle 0 0 true, .advance, .navigate 0, .advance, .main 1 .yes,
            .navigate 0]).completion =
        ((new houseCatalog).run [.main 0 .no, .advance, .main 1 .yes]).completion := by
  have h : ∀ i < houseCatalog.items.length,
      (new houseCatalog).answersTo i
          [.main 1 .yes, .main 0 .no, .toggle 0 0 true, .advance, .navigate 0, .advance, .main 1 .yes, .navigate 0] =
        (new houseCatalog).answersTo i [.main 0 .no, .advance, .main 1 .yes] := by
    decide
  exact ⟨h, ((items_do_not_interfere houseCatalog _).2.2 _ h).2.2.2⟩

end Questionnaire

end Appraisal
