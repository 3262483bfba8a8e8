import Appraisal.Proofs.Toggles
import Appraisal.Proofs.Walk
/-!
# Questions in another order

A layer may list its questions in any order: with the answers in the same order it is judged alike, leads on to the
same layer and, where its answers point both ways, offers the same questions under their new numbers
(`order_irrelevant`). An order lists the old positions, so question `i` comes to stand at `order.idxOf i`.
-/

namespace Appraisal

/-! ## Lists in another order -/

/-- The entries of a list, in the order in which `order` names their positions. -/
def reordered {α : Type} (order : List Nat) (l : List α) : List α :=
  order.filterMap (l[·]?)

section Lists
variable {α β : Type} {order : List Nat} {l : List α} {m : List β}

theorem reordered_cons {i : Nat} (h : i < l.length) (order : List Nat) :
    reordered (i :: order) l = l[i] :: reordered order l := by
  rw [reordered, List.filterMap_cons_some (List.getElem?_eq_getElem h)]
  rfl

theorem reordered_range (l : List α) : reordered (List.range l.length) l = l := by
  induction l using List.reverseRecOn with
  | nil => rfl
  | append_singleton l x ih =>
    have hfront : (List.range l.length).filterMap ((l ++ [x])[·]?) = reordered (List.range l.length) l :=
      List.filterMap_congr fun i hi => List.getElem?_append_left (List.mem_range.1 hi)
    have hlast : (l ++ [x])[l.length]? = some x := by simp
    rw [List.length_append, List.length_singleton, List.range_succ, reordered, List.filterMap_append, hfront, ih,
      List.filterMap_cons_some hlast, List.filterMap_nil]

theorem reordered_perm (h : order.Perm (List.range l.length)) : (reordered order l).Perm l := by
  have hp := h.filterMap (l[·]?)
  rwa [← reordered, ← reordered, reordered_range] at hp

theorem lt_of_order {n i : Nat} (h : order.Perm (List.range n)) (hi : i ∈ order) : i < n :=
  List.mem_range.1 (h.subset hi)

/-- Every position is the new number of some position. -/
theorem exists_idxOf {n j : Nat} (h : order.Perm (List.range n)) (hj : j < n) : ∃ i, order.idxOf i = j := by
  have hlt : j < order.length := by rwa [h.length_eq, List.length_range]
  exact ⟨order[j], (h.nodup_iff.2 List.nodup_range).idxOf_getElem j hlt⟩

theorem zip_reordered (hlen : l.length = m.length) (h : ∀ i ∈ order, i < l.length) :
    (reordered order l).zip (reordered order m) = reordered order (l.zip m) := by
  induction order with
  | nil => rfl
  | cons i order ih =>
    have hi : i < l.length := h i List.mem_cons_self
    have hz : i < (l.zip m).length := by simpa [← hlen] using hi
    rw [reordered_cons hi, reordered_cons (hlen ▸ hi), reordered_cons hz, List.zip_cons_cons,
      ih fun j hj => h j (List.mem_cons_of_mem i hj), List.getElem_zip]

theorem getElem?_reordered (h : ∀ i ∈ order, i < l.length) (j : Nat) :
    (reordered order l)[j]? = (order[j]?).bind (l[·]?) := by
  induction order generalizing j with
  | nil => rfl
  | cons i order ih =>
    have hi : i < l.length := h i List.mem_cons_self
    rw [reordered_cons hi]
    cases j with
    | zero => simp [hi]
    | succ j => simpa using ih (fun k hk => h k (List.mem_cons_of_mem i hk)) j

/-- An entry is found at its new number. -/
theorem getElem?_idxOf_reordered (h : order.Perm (List.range l.length)) (i : Nat) :
    (reordered order l)[order.idxOf i]? = l[i]? := by
  rw [getElem?_reordered fun j hj => lt_of_order h hj]
  by_cases hi : i ∈ order
  · rw [List.getElem?_idxOf hi, Option.bind_some]
  · have hout : l.length ≤ i := by
      refine Nat.le_of_not_lt fun hlt => hi ?_
      exact h.symm.subset (List.mem_range.2 hlt)
    rw [List.idxOf_eq_length hi, List.getElem?_eq_none (Nat.le_refl _), List.getElem?_eq_none hout]
    rfl

end Lists

/-! ## Judging -/

theorem yesExamples_perm {questions questions' : List SubQuestion} {answers answers' : List Answer}
    (h : (questions'.zip answers').Perm (questions.zip answers)) :
    (yesExamples answers' questions').Perm (yesExamples answers questions) :=
  (h.filter _).map _

/-- What is judged is which answers stand with which questions. -/
theorem evaluate_perm {questions questions' : List SubQuestion} {answers answers' : List Answer}
    (hlen : answers.length = questions.length) (hlen' : answers'.length = questions'.length)
    (h : (questions'.zip answers').Perm (questions.zip answers)) (condition : Condition)
    (chain : Option ChainCondition) :
    evaluate condition chain answers' questions' = evaluate condition chain answers questions := by
  have ha : answers'.Perm answers := by
    have hp := h.map Prod.snd
    rwa [List.map_snd_zip (Nat.le_of_eq hlen'), List.map_snd_zip (Nat.le_of_eq hlen)] at hp
  have hempty : answers'.isEmpty = answers.isEmpty := ha.isEmpty_eq
  have htally : Tally.of answers' = Tally.of answers := by
    rw [Tally.of, Tally.of, ha.count_eq, ha.count_eq]
  have hfinding : findingByExample answers' questions' = findingByExample answers questions := by
    have hc : ∀ v, (yesExamples answers' questions').contains v = (yesExamples answers questions).contains v :=
      fun _ => (yesExamples_perm h).contains_eq
    simp only [findingByExample, if_pos hlen, if_pos hlen', hc]
  cases condition with
  | direct v => rfl
  | count test => simp only [evaluate, hempty, htally]
  | byExample => simp only [evaluate, hempty, hfinding]

namespace Layer

/-- The layer with its questions in another order. The layers below stay as they are. -/
def reordered (order : List Nat) : Layer → Layer
  | last qs c => last (Appraisal.reordered order qs) c
  | chained qs c f next => chained (Appraisal.reordered order qs) c f next

section Layers
variable {l : Layer} {order : List Nat}

@[simp] theorem questions_reordered :
    (l.reordered order).questions = Appraisal.reordered order l.questions := by
  cases l <;> rfl

@[simp] theorem condition_reordered : (l.reordered order).condition = l.condition := by
  cases l <;> rfl

@[simp] theorem fallback?_reordered : (l.reordered order).fallback? = l.fallback? := by
  cases l <;> rfl

@[simp] theorem next?_reordered : (l.reordered order).next? = l.next? := by
  cases l <;> rfl

variable {answers : List Answer} (hlen : answers.length = l.questions.length)
  (ho : order.Perm (List.range l.questions.length))
include hlen ho

theorem length_reordered : (Appraisal.reordered order answers).length = l.questions.length := by
  rw [← hlen] at ho ⊢
  exact (reordered_perm ho).length_eq

theorem evaluate_reordered :
    evaluate l.condition l.fallback? (Appraisal.reordered order answers) (Appraisal.reordered order l.questions) =
      evaluate l.condition l.fallback? answers l.questions := by
  have hzip : (l.questions.zip answers).length = l.questions.length := by simp [hlen]
  refine evaluate_perm hlen ?_ ?_ _ _
  · rw [length_reordered hlen ho, (reordered_perm ho).length_eq]
  · rw [zip_reordered hlen.symm fun i hi => lt_of_order ho hi]
    exact reordered_perm (hzip ▸ ho)

theorem resolve_reordered : (l.reordered order).resolve (Appraisal.reordered order answers) = l.resolve answers := by
  have hquestions : (Appraisal.reordered order l.questions).length = l.questions.length :=
    (reordered_perm ho).length_eq
  simp only [resolve, questions_reordered, condition_reordered, fallback?_reordered, next?_reordered,
    evaluate_reordered hlen ho, length_reordered hlen ho, hquestions, hlen]

theorem settle_reordered (depth : Nat) :
    (l.reordered order).settle depth (Appraisal.reordered order answers) = l.settle depth answers := by
  have hr := resolve_reordered hlen ho
  -- A walk that goes on leaves the reordered layer for the layers below, which are the same.
  cases l with
  | last qs c =>
    unfold settle
    rw [hr]
    rfl
  | chained qs c f next =>
    unfold settle
    rw [hr]
    rfl

end Layers

end Layer

/-! ## Selecting -/

/-- The candidate under the new number of its question. -/
def Candidate.moved (order : List Nat) (c : Candidate) : Candidate :=
  { c with subIndex := order.idxOf c.subIndex }

namespace Selection

/-- The candidates of `s'` are those of `s` under the new numbers of their questions. -/
structure Moved (order : List Nat) (s s' : Selection) : Prop where
  known : ∀ i ∈ s.indices, i ∈ order
  candidates : s'.candidates.Perm (s.candidates.map (·.moved order))

section Moves
variable {order : List Nat} {s s' : Selection} (h : Moved order s s')
include h

theorem Moved.indices : s'.indices.Perm (s.indices.map order.idxOf) := by
  have hp := h.candidates.map (·.subIndex)
  rw [List.map_map] at hp
  rwa [Selection.indices, Selection.indices, List.map_map]

theorem Moved.mem_indices (i : Nat) : order.idxOf i ∈ s'.indices ↔ i ∈ s.indices := by
  rw [h.indices.mem_iff, List.mem_map]
  constructor
  · rintro ⟨j, hj, hij⟩
    rwa [← (List.idxOf_inj (h.known j hj)).1 hij]
  · exact fun hi => ⟨i, hi, rfl⟩

theorem Moved.toggle (i : Nat) (b : Bool) :
    (∃ r, s'.toggle (order.idxOf i) b = .ok r) ↔ ∃ r, s.toggle i b = .ok r := by
  simp only [toggle_ok, exists_and_left, exists_eq, and_true, h.mem_indices]

theorem Moved.set (i : Nat) (b : Bool) : Moved order (s.set i b) (s'.set (order.idxOf i) b) := by
  refine ⟨fun j hj => h.known j (by rwa [indices_set] at hj), ?_⟩
  refine (h.candidates.map _).trans (List.Perm.of_eq ?_)
  simp only [Selection.set, List.map_map]
  refine List.map_congr_left fun c hc => ?_
  have hi : order.idxOf c.subIndex = order.idxOf i ↔ c.subIndex = i :=
    List.idxOf_inj (h.known _ (List.mem_map_of_mem hc))
  by_cases hci : c.subIndex = i
  · simp [Candidate.moved, hci]
  · simp [Candidate.moved, hi, hci]

theorem Moved.run (toggles : List (Nat × Bool)) :
    Moved order (s.run toggles) (s'.run (toggles.map fun t => (order.idxOf t.1, t.2))) := by
  induction toggles using List.reverseRecOn with
  | nil => exact h
  | append_singleton ts t ih =>
    rw [List.map_append, List.map_singleton, run_snoc, run_snoc]
    exact ih.set t.1 t.2

theorem Moved.count (v : Verdict) : s'.count v = s.count v := by
  rw [Selection.count, h.candidates.countP_eq, List.countP_map]
  rfl

theorem Moved.standing : s'.standing = s.standing := by
  rw [Selection.standing, Selection.standing, h.count, h.count]

end Moves

section Start
variable {order : List Nat} {questions : List SubQuestion} {answers : List Answer}
  (hlen : answers.length = questions.length) (ho : order.Perm (List.range questions.length))
include hlen ho

theorem saysYes_reordered (i : Nat) :
    SaysYes (reordered order questions) (reordered order answers) (order.idxOf i) ↔ SaysYes questions answers i := by
  have hq := getElem?_idxOf_reordered ho i
  have ha := getElem?_idxOf_reordered (l := answers) (hlen ▸ ho) i
  rw [SaysYes, SaysYes, ha]
  refine and_congr_left fun _ => ?_
  rw [← not_iff_not, Nat.not_lt, Nat.not_lt, ← List.getElem?_eq_none_iff, ← List.getElem?_eq_none_iff, hq]

theorem saysYes_none_reordered :
    (∀ j, ¬ SaysYes (reordered order questions) (reordered order answers) j) ↔ ∀ i, ¬ SaysYes questions answers i := by
  constructor
  · exact fun h i hi => h _ ((saysYes_reordered hlen ho i).2 hi)
  · intro h j hj
    have hlt : j < questions.length := by rw [← (reordered_perm ho).length_eq]; exact hj.1
    obtain ⟨i, rfl⟩ := exists_idxOf ho hlt
    exact h i ((saysYes_reordered hlen ho i).1 hj)

theorem mem_start_reordered (c : Candidate) :
    c.moved order ∈ (start (reordered order questions) (reordered order answers)).candidates ↔
      c ∈ (start questions answers).candidates := by
  simp only [mem_start_iff, mem_offers, Candidate.moved, getElem?_idxOf_reordered ho, saysYes_reordered hlen ho,
    saysYes_none_reordered hlen ho]

/-- The same questions are offered, under their new numbers. -/
theorem moved_start :
    Moved order (start questions answers) (start (reordered order questions) (reordered order answers)) := by
  have hknown : ∀ i ∈ (start questions answers).indices, i ∈ order := by
    intro i hi
    exact ho.symm.subset (List.mem_range.2 (mem_indices_start.1 hi).1)
  refine ⟨hknown, (List.perm_ext_iff_of_nodup ?_ ?_).2 fun d => ?_⟩
  · exact List.Nodup.of_map _ ((start_ascending _ _).imp Nat.ne_of_lt)
  · -- Different questions have different numbers in any order.
    have hindices : (((start questions answers).candidates.map (·.moved order)).map (·.subIndex)) =
        (start questions answers).indices.map order.idxOf := by
      rw [indices, List.map_map, List.map_map]
      rfl
    refine List.Nodup.of_map (·.subIndex) ?_
    rw [hindices]
    refine List.Nodup.map_on (fun i hi j _ hij => (List.idxOf_inj (hknown i hi)).1 hij) ?_
    exact (start_ascending _ _).imp Nat.ne_of_lt
  · rw [List.mem_map]
    constructor
    · intro hd
      have hlt : d.subIndex < questions.length := by
        rw [← (reordered_perm ho).length_eq]
        exact mem_offers_lt (mem_start_iff.1 hd).1
      obtain ⟨i, hi⟩ := exists_idxOf ho hlt
      have hmoved : ({ d with subIndex := i } : Candidate).moved order = d := by rw [Candidate.moved, hi]
      exact ⟨_, (mem_start_reordered hlen ho _).1 (hmoved ▸ hd), hmoved⟩
    · rintro ⟨c, hc, rfl⟩
      exact (mem_start_reordered hlen ho c).2 hc

end Start

end Selection

/-- What a layer offers to a selection does not depend on the order of its questions: the candidates of `s'` are those
of `s` under the new numbers, the same toggles are accepted, and the counts and the standing are the same. -/
structure SelectsAlike (order : List Nat) (s s' : Selection) : Prop where
  candidates : s'.candidates.Perm (s.candidates.map (·.moved order))
  accepted : ∀ i b, (∃ r, s'.toggle (order.idxOf i) b = .ok r) ↔ ∃ r, s.toggle i b = .ok r
  counts : ∀ v, s'.count v = s.count v
  standing : s'.standing = s.standing

/-- The order of its questions has no say in what becomes of a layer with complete answers: not in what it is judged,
not in where it leads, and not in a selection among its questions, toggle by toggle. -/
theorem order_irrelevant {l : Layer} {answers : List Answer} {order : List Nat}
    (hlen : answers.length = l.questions.length) (ho : order.Perm (List.range l.questions.length)) :
    (∀ i, (l.reordered order).questions[order.idxOf i]? = l.questions[i]? ∧
      (reordered order answers)[order.idxOf i]? = answers[i]?) ∧
    evaluate (l.reordered order).condition (l.reordered order).fallback? (reordered order answers)
      (l.reordered order).questions = evaluate l.condition l.fallback? answers l.questions ∧
    (l.reordered order).resolve (reordered order answers) = l.resolve answers ∧
    (∀ depth, (l.reordered order).settle depth (reordered order answers) = l.settle depth answers) ∧
    ∀ toggles : List (Nat × Bool),
      SelectsAlike order ((Selection.start l.questions answers).run toggles)
        ((Selection.start (l.reordered order).questions (reordered order answers)).run
          (toggles.map fun t => (order.idxOf t.1, t.2))) := by
  have hanswers : order.Perm (List.range answers.length) := hlen ▸ ho
  simp only [Layer.questions_reordered, Layer.condition_reordered, Layer.fallback?_reordered]
  refine ⟨fun i => ⟨getElem?_idxOf_reordered ho i, getElem?_idxOf_reordered hanswers i⟩,
    Layer.evaluate_reordered hlen ho, Layer.resolve_reordered hlen ho, Layer.settle_reordered hlen ho,
    fun toggles => ?_⟩
  have hmoved := (Selection.moved_start hlen ho).run toggles
  exact ⟨hmoved.candidates, hmoved.toggle, hmoved.count, hmoved.standing⟩

def dampSigns : Layer :=
  .last [⟨"Is the wall dry?", .pass⟩, ⟨"Does it smell of mould?", .fail⟩, ⟨"Is the paint whole?", .pass⟩] .byExample

/-- The last question comes first. The answers point both ways in either order, and the question about the smell is
picked under its new number. -/
theorem dampSigns_reordered :
    [Answer.yes, .yes, .no].length = dampSigns.questions.length ∧
      [2, 0, 1].Perm (List.range dampSigns.questions.length) ∧
      dampSigns.resolve [.yes, .yes, .no] = .ok (.found .ambiguous) ∧
      (dampSigns.reordered [2, 0, 1]).resolve [.no, .yes, .yes] = .ok (.found .ambiguous) ∧
      ((Selection.start dampSigns.questions [.yes, .yes, .no]).run [(1, true)]).standing = .decided .fail ∧
      ((Selection.start (dampSigns.reordered [2, 0, 1]).questions [.no, .yes, .yes]).run [(2, true)]).standing =
        .decided .fail := by
  have hlen : [Answer.yes, .yes, .no].length = dampSigns.questions.length := rfl
  have ho : [2, 0, 1].Perm (List.range dampSigns.questions.length) := by decide
  have hresolve : dampSigns.resolve [.yes, .yes, .no] = .ok (.found .ambiguous) := by decide
  have hpick : ((Selection.start dampSigns.questions [.yes, .yes, .no]).run [(1, true)]).standing = .decided .fail := by
    decide
  obtain ⟨-, -, hresolved, -, hselects⟩ := order_irrelevant (l := dampSigns) hlen ho
  exact ⟨hlen, ho, hresolve, hresolved.trans hresolve, hpick, (hselects [(1, true)]).standing.trans hpick⟩

end Appraisal
