import Appraisal.Proofs.Session.Agreement
/-!
# A session forgets how it came about

`script` lists the shortest events that can lead to a session: its main answer, the answers of its trail layer
by layer, and the picks of its selection. Whatever happened to a session, its script leads a fresh one to the
same place.
-/

namespace Appraisal.Session

/-- Answers the questions of the layer at `depth`, from question `k` on. -/
def layerEvents (depth k : Nat) : List Answer → List SessionEvent
  | [] => []
  | x :: xs => .sub depth k x :: layerEvents depth (k + 1) xs

/-- Answers one layer after the other, the first of them at `depth`. -/
def trailEvents (depth : Nat) : List (List Answer) → List SessionEvent
  | [] => []
  | answers :: rest => layerEvents depth 0 answers ++ trailEvents (depth + 1) rest

/-- Picks what is picked, in ascending order. -/
def pickEvents (s : Session) : List SessionEvent :=
  match s.state.selection? with
  | none => []
  | some selection => selection.picked.map fun k => .toggle k true

/-- The main answer, then every answer of the trail, then every pick. -/
def script (s : Session) : List SessionEvent :=
  match s.trail.main with
  | none => []
  | some a => .main a :: (trailEvents 0 (s.trail.completed ++ [s.trail.current]) ++ s.pickEvents)

/-- The same session with nothing picked. -/
def unpicked (s : Session) : Session :=
  match s.state.selection? with
  | none => s
  | some selection => { s with state := .selecting selection.cleared }

variable {item : Item} {index : Nat} {a : Answer}

/-! ## The answers of a trail -/

/-- The next answer of the active layer is taken if the session can land with it. -/
theorem take_next {done : List (List Answer)} {answers : List Answer} {l : Layer} {x : Answer} {t : Session}
    (hl : (item.branch a).Leads done l) (hlt : answers.length < l.questions.length)
    (ht : Lands item index (.on a done (answers ++ [x])) t) (state : State) :
    ∃ step, take ⟨index, .on a done answers, state⟩ item (.sub done.length answers.length x) = .ok step ∧
      step.session = t := by
  have hput : put answers answers.length x = answers ++ [x] := if_pos rfl
  obtain ⟨step, hstep, rfl⟩ := (lands_iff (s := ⟨index, .on a done (answers ++ [x]), state⟩)).1 ht
  refine ⟨step, ?_, rfl⟩
  rw [take, answerSub_on hl.descend, hput]
  simp [Nat.not_le_of_lt hlt, Nat.ne_of_gt (Nat.lt_of_le_of_lt (Nat.zero_le _) hlt), hstep]

/-- Answering the rest of a layer, question by question. -/
theorem play_layer {done : List (List Answer)} {l : Layer} (hl : (item.branch a).Leads done l)
    {t : Session} (rest : List Answer) :
    ∀ (answers : List Answer) (s : Session), (answers ++ rest).length ≤ l.questions.length →
      Lands item index (.on a done answers) s → Lands item index (.on a done (answers ++ rest)) t →
      s.play item (layerEvents done.length answers.length rest) = .ok t := by
  induction rest with
  | nil =>
    intro answers s _ hs ht
    rw [List.append_nil] at ht
    rw [hs.unique ht]
    rfl
  | cons x rest ih =>
    intro answers s hlen hs ht
    simp only [List.length_append, List.length_cons] at hlen
    have hlt : answers.length < l.questions.length := by omega
    have happ : answers ++ x :: rest = answers ++ [x] ++ rest := by simp
    -- The session lands after the next answer: the layer waits on, or this is the last answer.
    obtain ⟨m, hm⟩ : ∃ m, Lands item index (.on a done (answers ++ [x])) m := by
      cases rest with
      | nil => exact ⟨t, ht⟩
      | cons y ys => exact ⟨_, lands_awaiting hl.descend (by simp at hlen ⊢; omega)⟩
    rw [hs.unique (lands_awaiting hl.descend hlt)]
    obtain ⟨step, hstep, rfl⟩ := take_next hl hlt hm (.waiting done.length answers)
    have hrest := ih (answers ++ [x]) step.session (by simp; omega) hm (happ ▸ ht)
    rw [layerEvents, play_cons hstep]
    simpa using hrest

/-- A layer on the way of a trail can be entered: it asks something, or the trail ends there. -/
theorem lands_entering {done rest : List (List Answer)} {m l : Layer} {answers : List Answer} {t : Session}
    (hl : (item.branch a).Leads done m) (hr : m.Leads rest l) (hlen : answers.length ≤ l.questions.length)
    (ht : Lands item index (.on a (done ++ rest) answers) t) : ∃ n, Lands item index (.on a done []) n := by
  by_cases hq : m.questions = []
  · cases hr with
    | here =>
      have ha : answers = [] := List.eq_nil_of_length_eq_zero (by simpa [hq] using hlen)
      exact ⟨t, by simpa [ha] using ht⟩
    | on hs _ _ => exact absurd hq hs.leads_on.1
  · exact ⟨_, lands_awaiting hl.descend (List.length_pos_of_ne_nil hq)⟩

/-- Answering layer after layer, down to the last one. -/
theorem play_trail {m l : Layer} {rest : List (List Answer)} (hr : m.Leads rest l) {answers : List Answer}
    (hlen : answers.length ≤ l.questions.length) {t : Session} :
    ∀ (done : List (List Answer)) (s : Session), (item.branch a).Leads done m →
      Lands item index (.on a done []) s → Lands item index (.on a (done ++ rest) answers) t →
      s.play item (trailEvents done.length (rest ++ [answers])) = .ok t := by
  induction hr with
  | here l =>
    intro done s hl hs ht
    rw [List.append_nil] at ht
    simpa [trailEvents] using play_layer hl answers [] s hlen hs ht
  | @on m next l given rest hsay hn hrest ih =>
    intro done s hl hs ht
    rw [show done ++ given :: rest = done ++ [given] ++ rest by simp] at ht
    -- The answers of `m` lead to the next layer, and the rest of the trail starts there.
    have hl' := hl.snoc hsay hn
    obtain ⟨n, hnext⟩ := lands_entering hl' hrest hlen ht
    have hlayer : s.play item (layerEvents done.length 0 given) = .ok n :=
      play_layer hl given [] s (Nat.le_of_eq hsay.1) hs ((lands_advance hl hsay hn).2 hnext)
    have hafter := ih hlen (done ++ [given]) n hl' hnext ht
    rw [List.cons_append, trailEvents, play_append hlayer]
    simpa using hafter

/-! ## The picks of a selection -/

theorem play_toggles (p : Nat → Bool) (is : List Nat) :
    ∀ (s : Session) (selection : Selection), s.state = .ofSelection selection →
      (∀ i ∈ is, i ∈ selection.indices) →
      s.play item (is.map fun i => .toggle i (p i)) =
        .ok { s with state := .ofSelection (selection.setAll is p) } := by
  induction is with
  | nil =>
    intro s selection hs _
    rw [Selection.setAll, List.foldl_nil, ← hs]
    rfl
  | cons i is ih =>
    intro s selection hs hi
    have hsel : s.state.selection? = some selection := by rw [hs, State.selection?_ofSelection]
    have ht : s.take item (.toggle i (p i)) = .ok _ := toggle_offered hsel (hi i List.mem_cons_self) (p i)
    rw [List.map_cons, play_cons ht, ih _ (selection.set i (p i)) rfl]
    · rfl
    · intro j hj
      rw [Selection.indices_set]
      exact hi j (List.mem_cons_of_mem _ hj)

/-! ## A session and its script -/

/-- Up to its picks, a session is where landing with its trail leads. -/
theorem lands_unpicked {done : List (List Answer)} {answers : List Answer} {l : Layer} {state : State}
    (hl : (item.branch a).Leads done l) (hf : Fits l done.length answers state) :
    Lands item index (.on a done answers) (unpicked ⟨index, .on a done answers, state⟩) := by
  cases hf with
  | waiting hlt => simpa only [unpicked, State.selection?_waiting] using lands_awaiting hl.descend hlt
  | decided hs => exact lands_decided hl.descend hs
  | @selection sel hs hc =>
    simpa only [unpicked, State.selection?_ofSelection, hc] using lands_ambiguous hl.descend hs

/-- The picks of a session lead to it from where its trail leads. -/
theorem play_picks {done : List (List Answer)} {answers : List Answer} {l : Layer} {state : State}
    (hf : Fits l done.length answers state) :
    (unpicked ⟨index, .on a done answers, state⟩).play item (pickEvents ⟨index, .on a done answers, state⟩) =
      .ok ⟨index, .on a done answers, state⟩ := by
  unfold unpicked pickEvents
  cases hs : state.selection? with
  | none => rfl
  | some sel =>
    obtain ⟨hc, hst⟩ := hf.of_selection hs
    -- The candidates stand in ascending order, so an index names one of them.
    have hn : sel.indices.Nodup := (Selection.ascending hc).imp Nat.ne_of_lt
    simp only
    rw [play_toggles (fun _ => true) sel.picked _ sel.cleared State.ofSelection_cleared.symm
      (by simpa using sel.picked_sub), Selection.picked_again hn, hst]

theorem picked_ascending {l : Layer} {depth : Nat} {answers : List Answer} {state : State}
    (hf : Fits l depth answers state) {sel : Selection} (hs : state.selection? = some sel) :
    sel.picked.Pairwise (· < ·) :=
  (Selection.ascending (hf.of_selection hs).1).sublist (List.Sublist.map _ List.filter_sublist)

/-- A fresh session takes the script of an agreeing session and becomes that session. -/
theorem Agrees.play_script {s : Session} (h : s.Agrees item index) :
    (new index).play item s.script = .ok s := by
  cases h with
  | unstarted => rfl
  | @started a done answers l state hl hf =>
    have ht : Lands item index (.on a done answers) _ := lands_unpicked hl hf
    obtain ⟨m, hm⟩ := lands_entering (.here _) hl hf.length_le ht
    obtain ⟨step, hstep, rfl⟩ := (lands_iff (s := ⟨index, .on a [] [], .unstarted⟩)).1 hm
    have hmain : (new index).take item (.main a) = .ok step := hstep
    have htrail : step.session.play item (trailEvents 0 (done ++ [answers])) =
        .ok (unpicked ⟨index, .on a done answers, state⟩) :=
      play_trail hl hf.length_le [] step.session (.here _) hm ht
    simp only [script, Trail.on_main, Trail.on_completed, Trail.on_current]
    rw [play_cons hmain, play_append htrail]
    exact play_picks hf

/-- The history of a session leaves no residue: the script of whatever session was reached is accepted in full
by a fresh one, picks in ascending order, and leads to the same session. -/
theorem history_independent (item : Item) (index : Nat) (es : List SessionEvent) :
    (new index).play item ((new index).run item es).script = .ok ((new index).run item es) ∧
    ∀ selection, ((new index).run item es).state.selection? = some selection →
      selection.picked.Pairwise (· < ·) := by
  have h := run_agrees item index es
  refine ⟨h.play_script, fun selection hs => ?_⟩
  generalize (new index).run item es = s at h hs
  cases h with
  | unstarted => cases hs
  | started _ hf => exact picked_ascending hf hs

end Appraisal.Session
