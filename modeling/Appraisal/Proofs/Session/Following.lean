import Appraisal.Proofs.Definition.WellFormed
import Appraisal.Proofs.Session.Prompts
/-!
# Following the prompts

`Session.follow` answers what a session asks, one question after the other. Each answer leaves fewer questions ahead
(`Trail.ahead`): the layer has one less to ask, or it is left for the next one, which starts without answers but is not
counted any more. So the questions come to an end, with a verdict or with a selection, and a selection that has just
been opened is decided by any single pick.
-/

namespace Appraisal

/-! ## Questions ahead -/

/-- The number of questions in all layers after this one. -/
def Layer.questionsBelow : Layer → Nat
  | .last _ _ => 0
  | .chained _ _ _ next => next.questions.length + next.questionsBelow

theorem Layer.questionsBelow_eq {l next : Layer} (h : l.next? = some next) :
    l.questionsBelow = next.questions.length + next.questionsBelow := by
  cases l with
  | last qs c => cases h
  | chained qs c f m => cases h; rfl

/-- The questions of the active layer that have no answer yet, and all those of the layers after it. -/
def Trail.ahead (t : Trail) (item : Item) : Nat :=
  match t.activeLayer item with
  | some l => l.questions.length - t.cursor + l.questionsBelow
  | none => 0

namespace Session

/-- Answers the questions that a session asks, as long as it asks one. -/
def follow (s : Session) (item : Item) : List Answer → Except SessionError Session
  | [] => .ok s
  | x :: xs =>
    match s.prompt item with
    | .subQuestion depth k _ _ =>
      match s.take item (.sub depth k x) with
      | .ok step => step.session.follow item xs
      | .error error => .error error
    | _ => .ok s

/-- The session has no more questions: there is a verdict, or something to choose from. -/
def Settles (s : Session) (item : Item) : Prop :=
  (∃ v, s.prompt item = .done v) ∨ ∃ choices running, s.prompt item = .selection choices running

section On
variable {item : Item} {index : Nat} {a : Answer} {done : List (List Answer)} {answers : List Answer} {l : Layer}
  {s t : Session}

theorem ahead_on (hl : (item.branch a).Leads done l) :
    (Trail.on a done answers).ahead item = l.questions.length - answers.length + l.questionsBelow := by
  have hactive : (Trail.on a done answers).activeLayer item = some l := by
    simpa [Trail.activeLayer, LayerRef.layer, Trail.on] using hl.descend
  rw [Trail.ahead, hactive, Trail.on_cursor]

/-- Wherever a session lands, there are no more questions ahead than where it set out. -/
theorem lands_ahead (hl : (item.branch a).Leads done l) (h : Lands item index (.on a done answers) t) :
    t.trail.ahead item ≤ l.questions.length - answers.length + l.questionsBelow := by
  rcases lands_cases hl h with ⟨-, rfl⟩ | ⟨v, -, rfl⟩ | ⟨-, rfl⟩ | ⟨next, hs, hn, h'⟩
  · exact Nat.le_of_eq (ahead_on hl)
  · exact Nat.le_of_eq (ahead_on hl)
  · exact Nat.le_of_eq (ahead_on hl)
  · -- All answers of the layer are given, so what is ahead is what lies below it.
    have hbelow : t.trail.ahead item = l.questionsBelow := by
      have hnext : (Trail.on a (done ++ [answers]) []).ahead item = l.questionsBelow := by
        rw [ahead_on (hl.snoc hs hn), Layer.questionsBelow_eq hn]
        rfl
      rcases lands_entered (hl.snoc hs hn) h' with ⟨rfl, -⟩ | ⟨v, rfl, -⟩
      · exact hnext
      · exact hnext
    exact hbelow ▸ Nat.le_add_left _ _

/-! ## Answering -/

/-- A session with a main answer has settled, or it asks a question, accepts either answer, and has less ahead then. -/
theorem settles_or_asks (hj : (item.branch a).Judgeable) (h : s.Agrees item index) (hm : s.trail.main = some a) :
    s.Settles item ∨ ∃ depth k count title, s.prompt item = .subQuestion depth k count title ∧
      ∀ x, ∃ step, s.take item (.sub depth k x) = .ok step ∧ step.session.Agrees item index ∧
        step.session.trail.main = some a ∧ step.session.trail.ahead item < s.trail.ahead item := by
  have hasks := h.asks
  generalize hp : s.prompt item = p at hasks
  cases hasks with
  | main => cases hm
  | @question b done answers l question hl hq =>
    cases hm
    have hlt : answers.length < l.questions.length := (List.getElem?_eq_some_iff.1 hq).1
    refine .inr ⟨done.length, answers.length, l.questions.length, question.title, rfl, fun x => ?_⟩
    have hlen : (answers ++ [x]).length = answers.length + 1 := List.length_append
    have hle : (answers ++ [x]).length ≤ l.questions.length := hlen ▸ hlt
    obtain ⟨t, ht⟩ := lands_total index hj hl hle
    obtain ⟨step, hstep, rfl⟩ := take_next hl hlt ht (.waiting done.length answers)
    have hahead := lands_ahead hl ht
    exact ⟨step, hstep, lands_agrees hl ht, lands_main hl ht, by rw [ahead_on hl]; omega⟩
  | selection _ _ _ _ => exact .inl (.inr ⟨_, _, hp⟩)
  | done => exact .inl (.inl ⟨_, hp⟩)

theorem follow_settled (h : s.Settles item) (xs : List Answer) : s.follow item xs = .ok s := by
  cases xs with
  | nil => rfl
  | cons x xs => rcases h with ⟨v, hp⟩ | ⟨choices, running, hp⟩ <;> rw [follow, hp]

/-- With answers to all questions ahead a session settles. -/
theorem follow_settles (hj : (item.branch a).Judgeable) (xs : List Answer) :
    ∀ {s : Session}, s.Agrees item index → s.trail.main = some a → s.trail.ahead item ≤ xs.length →
      ∃ t, s.follow item xs = .ok t ∧ t.Settles item := by
  induction xs with
  | nil =>
    intro s h hm hlen
    rcases settles_or_asks hj h hm with hs | ⟨depth, k, _, _, -, hstep⟩
    · exact ⟨s, rfl, hs⟩
    · obtain ⟨_, -, -, -, hlt⟩ := hstep .yes
      exact absurd (Nat.lt_of_lt_of_le hlt hlen) (Nat.not_lt_zero _)
  | cons x xs ih =>
    intro s h hm hlen
    rcases settles_or_asks hj h hm with hs | ⟨depth, k, _, _, hp, hstep⟩
    · exact ⟨s, follow_settled hs _, hs⟩
    · obtain ⟨step, hstep, hagrees, hmain, hlt⟩ := hstep x
      simp only [follow, hp, hstep]
      exact ih hagrees hmain (Nat.le_of_lt_succ (Nat.lt_of_lt_of_le hlt hlen))

/-! ## Choosing -/

/-- The choices of a selection that has just been opened: none is picked, and picking any one of them is accepted and
decides the item as the question is tagged. -/
structure Opens (s : Session) (item : Item) (choices : List Choice) : Prop where
  ne_nil : choices ≠ []
  unpicked : ∀ c ∈ choices, c.picked = false
  tagged : ∀ c ∈ choices, ∃ l question, s.activeLayer item = .ok l ∧ l.questions[c.subIndex]? = some question ∧
    c.favours = question.favours
  decides : ∀ c ∈ choices, ∃ step, s.take item (.toggle c.subIndex true) = .ok step ∧
    step.session.prompt item = .done c.favours

theorem opens_start (hl : (item.branch a).Leads done l) (hq : l.questions ≠ []) :
    Opens ⟨index, .on a done answers, .selecting (.start l.questions answers)⟩ item
      (choices l.questions (.start l.questions answers)) := by
  constructor
  · simpa [choices] using Selection.start_ne_nil hq answers
  · intro c hmem
    obtain ⟨candidate, hcand, rfl⟩ := List.mem_map.1 hmem
    exact (Selection.mem_start hcand).1
  · intro c hmem
    obtain ⟨candidate, hcand, rfl⟩ := List.mem_map.1 hmem
    obtain ⟨-, question, hquestion, hfavours⟩ := Selection.mem_start hcand
    exact ⟨l, question, activeLayer_on hl.descend _, hquestion, hfavours⟩
  · intro c hmem
    obtain ⟨candidate, hcand, rfl⟩ := List.mem_map.1 hmem
    have hn : (Selection.start l.questions answers).indices.Nodup :=
      (Selection.start_ascending l.questions answers).imp Nat.ne_of_lt
    have hone := Selection.set_one hn (fun d hd => (Selection.mem_start hd).1) hcand
    have hoffered := toggle_offered
      (s := ⟨index, .on a done answers, .selecting (.start l.questions answers)⟩) rfl
      (List.mem_map_of_mem hcand) true
    refine ⟨_, hoffered, ?_⟩
    simp only [State.ofSelection, hone, prompt]

/-- A session that lands with a selection has just opened it. -/
theorem lands_opens (hl : (item.branch a).Leads done l) (h : Lands item index (.on a done answers) t)
    {cs : List Choice} {running : Standing} (hp : t.prompt item = .selection cs running) : Opens t item cs := by
  have hambiguous : t.standing = .ambiguous := (lands_agrees hl h).asks.selection_iff.1 ⟨_, _, hp⟩
  rcases lands_cases hl h with ⟨-, rfl⟩ | ⟨v, -, rfl⟩ | ⟨hs, rfl⟩ | ⟨next, hs, hn, h'⟩
  · simp [standing] at hambiguous
  · cases hambiguous
  · rw [prompt_selecting hl] at hp
    cases hp
    exact opens_start hl (hs.asks fun v hv => by cases hv)
  · rcases lands_entered (hl.snoc hs hn) h' with ⟨rfl, -⟩ | ⟨v, rfl, -⟩
    · simp [standing] at hambiguous
    · cases hambiguous

theorem take_opens (h : s.Agrees item index) {e : SessionEvent} {step : SessionStep} (ht : s.take item e = .ok step)
    (hne : step.session ≠ s) (he : ∀ k b, e ≠ .toggle k b) {cs : List Choice} {running : Standing}
    (hp : step.session.prompt item = .selection cs running) : Opens step.session item cs := by
  have hchange := take_change h ht
  generalize step.session = t at *
  cases hchange with
  | none => exact absurd rfl hne
  | restart _ hland => exact lands_opens (.here _) hland hp
  | entry _ hl _ _ _ hland => exact lands_opens hl hland hp
  | @revision _ k b _ _ => exact absurd rfl (he k b)

end On

/-- Following the prompts leads to a verdict, from wherever a session has come to. Whatever the answers, the questions
come to an end after those that are left of the active layer and those of all layers below it; and when an answer opens
a selection, there is something to choose, and any single choice decides the item as its question is tagged. -/
theorem following_prompts_settles {d : CatalogDefinition} {c : Catalog} {item : Item} (hd : d.compile = .ok c)
    (hi : item ∈ c.items) (index : Nat) (es : List SessionEvent) :
    (∀ a xs, ((new index).run item es).trail.main = some a →
      ((new index).run item es).trail.ahead item ≤ xs.length →
      ∃ t, ((new index).run item es).follow item xs = .ok t ∧ t.Settles item) ∧
    ∀ e step cs running, ((new index).run item es).take item e = .ok step →
      step.session ≠ (new index).run item es → (∀ k b, e ≠ .toggle k b) →
      step.session.prompt item = .selection cs running → Opens step.session item cs := by
  have h := run_agrees item index es
  have hj := (CatalogDefinition.compile_judgeable hd).2 item hi
  exact ⟨fun a xs hm hlen => follow_settles (hj a) xs h hm hlen,
    fun e step cs running ht hne he hp => take_opens h ht hne he hp⟩

/-- There is mould, and the wall is not sealed. -/
def unsealed : List SessionEvent :=
  [.main .yes, .sub 0 0 .yes, .sub 1 0 .no]

/-- When everything is denied about the wall, three questions after the main one, both questions can be chosen. -/
theorem all_denied_settles :
    cellar.compile = .ok cellarCatalog ∧ damp ∈ cellarCatalog.items ∧
      ((new 0).run damp [.main .yes]).trail.ahead damp = 3 ∧
      (∃ t, ((new 0).run damp [.main .yes]).follow damp [.yes, .no, .no] = .ok t ∧ t.Settles damp) ∧
      Opens ((new 0).run damp (unsealed ++ [.sub 1 1 .no])) damp
        [⟨0, "Is the wall sealed?", .pass, false⟩, ⟨1, "Does it drip?", .fail, false⟩] := by
  have hmem : damp ∈ cellarCatalog.items := List.mem_singleton_self damp
  have hahead : ((new 0).run damp [.main .yes]).trail.ahead damp = 3 := by decide
  have hfollow := (following_prompts_settles cellar_compiles hmem 0 [.main .yes]).1 .yes [.yes, .no, .no] rfl
    (Nat.le_of_eq hahead)
  have htake : ((new 0).run damp unsealed).take damp (.sub 1 1 .no) =
      .ok ⟨(new 0).run damp (unsealed ++ [.sub 1 1 .no]), _⟩ := rfl
  have hopens := (following_prompts_settles cellar_compiles hmem 0 unsealed).2 (.sub 1 1 .no) _
    [⟨0, "Is the wall sealed?", .pass, false⟩, ⟨1, "Does it drip?", .fail, false⟩] .pending htake (by decide)
    (fun _ _ h => by cases h) (by decide)
  exact ⟨cellar_compiles, hmem, hahead, hfollow, hopens⟩

end Session

end Appraisal
