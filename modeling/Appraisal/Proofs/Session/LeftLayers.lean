import Appraisal.Proofs.Definition.WellFormed
import Appraisal.Proofs.Session.Agreement
/-!
# Layers once left

While its main answer stays, a session only goes down its branch. An event leaves one layer at most (`Descends`), and
then the answers of that layer are put behind those of the layers left before it, where no event reaches them any
more. So along a run the answers of the layers left only grow at their end.
-/

namespace Appraisal

theorem le_put_length (answers : List Answer) (k : Nat) (x : Answer) :
    answers.length ≤ (put answers k x).length := by
  unfold put
  by_cases h : k = answers.length
  · rw [if_pos h, List.length_append]
    exact Nat.le_add_right _ _
  · exact Nat.le_of_eq (by rw [if_neg h, List.length_set])

namespace Session
variable {item : Item} {index : Nat} {a : Answer} {done : List (List Answer)} {answers : List Answer} {l : Layer}
  {s t : Session}

/-! ## One event -/

/-- From `s` to `t` at most one layer is left; then the next one has no answers, else none is lost. -/
structure Descends (s t : Session) : Prop where
  completed : s.trail.completed <+: t.trail.completed
  depth : t.trail.depth + s.trail.completed.length = s.trail.depth + t.trail.completed.length
  depth_le : t.trail.depth ≤ s.trail.depth + 1
  emptied : s.trail.depth < t.trail.depth → t.trail.current = []
  kept : t.trail.depth ≤ s.trail.depth → s.trail.current.length ≤ t.trail.current.length

theorem Descends.of_trail (h : t.trail = s.trail) : Descends s t := by
  obtain ⟨_, trail, _⟩ := t
  subst h
  exact ⟨List.prefix_rfl, rfl, Nat.le_succ _, fun hlt => absurd hlt (Nat.lt_irrefl _), fun _ => Nat.le_refl _⟩

theorem Change.descends {e : SessionEvent} (h : Change item s e t) (hm : t.trail.main = s.trail.main) :
    Descends s t := by
  cases h with
  | none => exact .of_trail rfl
  | @restart b _ hne ht =>
    -- Landing on the branch of another answer would have changed the main answer.
    exact absurd (hm.symm.trans (lands_main (.here _) ht)) hne
  | @entry b x done answers l k _ hs hl _ _ _ ht =>
    rcases lands_trail hl ht with htrail | htrail
    · constructor <;> simp only [hs, htrail, Trail.on_completed, Trail.on_depth, Trail.on_current]
      · exact List.prefix_rfl
      · exact Nat.le_succ _
      · exact fun hlt => absurd hlt (Nat.lt_irrefl _)
      · exact fun _ => le_put_length answers k x
    · constructor <;> simp only [hs, htrail, Trail.on_completed, Trail.on_depth, Trail.on_current,
        List.length_append, List.length_singleton]
      · exact List.prefix_append _ _
      · exact Nat.add_comm _ _
      · exact Nat.le_refl _
      · exact fun _ => trivial
      · exact fun hle => absurd hle (Nat.not_succ_le_self _)
  | revision _ _ => exact .of_trail rfl

theorem after_descends (h : s.Agrees item index) {e : SessionEvent}
    (hm : (s.after item e).trail.main = s.trail.main) : Descends s (s.after item e) := by
  unfold after at hm ⊢
  cases ht : s.take item e with
  | ok step =>
    rw [ht] at hm
    exact (take_change h ht).descends hm
  | error error => exact .of_trail rfl

/-- A layer that has been left takes an answer only if it is the one on record. -/
theorem left_layer_unchanged (h : s.Agrees item index) {depth k : Nat} {x : Answer} {step : SessionStep}
    (hd : depth < s.trail.depth) (ht : s.take item (.sub depth k x) = .ok step) : step.session = s := by
  have hchange := take_change h ht
  generalize step.session = t at hchange
  cases hchange with
  | none => rfl
  | @entry b _ done answers l _ _ hs _ _ _ _ _ =>
    rw [hs, Trail.on_depth] at hd
    exact absurd hd (Nat.lt_irrefl _)

/-! ## Runs -/

/-- None of the events changes the main answer. -/
def KeepsMain (s : Session) (item : Item) : List SessionEvent → Prop
  | [] => True
  | e :: es => (s.after item e).trail.main = s.trail.main ∧ (s.after item e).KeepsMain item es

instance KeepsMain.decidable (item : Item) :
    (es : List SessionEvent) → (s : Session) → Decidable (s.KeepsMain item es)
  | [], _ => .isTrue trivial
  | e :: es, s =>
    have := KeepsMain.decidable item es (s.after item e)
    inferInstanceAs (Decidable (_ ∧ _))

theorem run_descends (es : List SessionEvent) :
    ∀ {s : Session}, s.Agrees item index → s.KeepsMain item es →
      s.trail.completed <+: (s.run item es).trail.completed ∧
        (s.run item es).trail.depth + s.trail.completed.length =
          s.trail.depth + (s.run item es).trail.completed.length := by
  induction es with
  | nil => exact fun _ _ => ⟨List.prefix_rfl, rfl⟩
  | cons e es ih =>
    rintro s h ⟨hm, hes⟩
    have hstep := after_descends h hm
    obtain ⟨hcompleted, hdepth⟩ := ih (after_agrees h e) hes
    have hrun : s.run item (e :: es) = (s.after item e).run item es := rfl
    rw [hrun]
    have := hstep.depth
    exact ⟨hstep.completed.trans hcompleted, by omega⟩

/-- Whatever a session has come to, an event that keeps its main answer leaves one layer at most, repeating an answer of
a layer left before changes nothing, and no run that keeps the main answer drops or alters an answer of such a layer. -/
theorem left_layers_frozen (item : Item) (index : Nat) (es : List SessionEvent) :
    (∀ e, (((new index).run item es).after item e).trail.main = ((new index).run item es).trail.main →
      Descends ((new index).run item es) (((new index).run item es).after item e)) ∧
    (∀ depth k x step, depth < ((new index).run item es).trail.depth →
      ((new index).run item es).take item (.sub depth k x) = .ok step →
      step.session = (new index).run item es) ∧
    ∀ fs, ((new index).run item es).KeepsMain item fs →
      ((new index).run item es).trail.completed <+: (((new index).run item es).run item fs).trail.completed ∧
      (((new index).run item es).run item fs).trail.depth + ((new index).run item es).trail.completed.length =
        ((new index).run item es).trail.depth + (((new index).run item es).run item fs).trail.completed.length := by
  have h := run_agrees item index es
  exact ⟨fun e hm => after_descends h hm, fun depth k x step hd ht => left_layer_unchanged h hd ht,
    fun fs hfs => run_descends fs h hfs⟩

/-- There is mould, so the questions about the wall come next. -/
def mouldy : List SessionEvent :=
  [.main .yes, .sub 0 0 .yes]

/-- The answer about mould led to the next layer. Repeating it changes nothing, taking it back comes too late, and what
is said about the wall and then changed again leaves it on record. -/
theorem mould_stays_on_record :
    Descends ((new 0).run damp [.main .yes]) (((new 0).run damp [.main .yes]).after damp (.sub 0 0 .yes)) ∧
      ((new 0).run damp mouldy).take damp (.sub 0 0 .yes) = .ok ⟨(new 0).run damp mouldy, []⟩ ∧
      [[.yes]] <+: (((new 0).run damp mouldy).run damp
        [.sub 0 0 .yes, .sub 0 0 .no, .sub 1 0 .no, .sub 1 1 .no, .toggle 1 true]).trail.completed := by
  have hstep := (left_layers_frozen damp 0 [.main .yes]).1 (.sub 0 0 .yes) (by decide)
  obtain ⟨-, hrepeat, hrun⟩ := left_layers_frozen damp 0 mouldy
  have htake : ((new 0).run damp mouldy).take damp (.sub 0 0 .yes) = .ok ⟨_, []⟩ := rfl
  have hcompleted : ((new 0).run damp mouldy).trail.completed = [[.yes]] := by decide
  refine ⟨hstep, by rw [htake, ← hrepeat 0 0 .yes _ (by decide) htake], ?_⟩
  rw [← hcompleted]
  exact (hrun _ (by decide)).1

end Session

end Appraisal
