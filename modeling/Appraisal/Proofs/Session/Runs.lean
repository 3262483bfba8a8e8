import Appraisal.Session
/-!
# Runs of a session

A session takes main answers, sub-answers and toggles. `run` feeds it any of them and skips what it refuses;
`play` stops at the first refusal.
-/

namespace Appraisal

/-- An answer event, as the session of its item takes it. -/
inductive SessionEvent where
  | main (answer : Answer)
  | sub (depth index : Nat) (answer : Answer)
  | toggle (index : Nat) (included : Bool)
deriving DecidableEq, Repr

namespace Session

def take (s : Session) (item : Item) : SessionEvent → Except SessionError SessionStep
  | .main a => s.answerMain item a
  | .sub depth index a => s.answerSub item depth index a
  | .toggle index included => s.toggle index included

/-- The session behind an event. A refused event leaves it as it is. -/
def after (s : Session) (item : Item) (e : SessionEvent) : Session :=
  match s.take item e with
  | .ok step => step.session
  | .error _ => s

def run (s : Session) (item : Item) (es : List SessionEvent) : Session :=
  es.foldl (fun s e => s.after item e) s

/-- Takes events that all have to be accepted. -/
def play (s : Session) (item : Item) : List SessionEvent → Except SessionError Session
  | [] => .ok s
  | e :: es =>
    match s.take item e with
    | .ok step => step.session.play item es
    | .error error => .error error

/-- What one event keeps, a run keeps. -/
theorem run_induction {item : Item} {P : Session → Prop} (hP : ∀ s e, P s → P (s.after item e)) {s : Session}
    (hs : P s) (es : List SessionEvent) : P (s.run item es) := by
  induction es generalizing s with
  | nil => exact hs
  | cons e es ih => exact ih (hP s e hs)

/-- What an accepted event keeps, any event keeps. -/
theorem after_induction {item : Item} {P : Session → Prop} {s : Session} {e : SessionEvent} (hs : P s)
    (hP : ∀ step, s.take item e = .ok step → P step.session) : P (s.after item e) := by
  unfold after
  cases h : s.take item e with
  | ok step => exact hP step h
  | error error => exact hs

theorem play_cons {s : Session} {item : Item} {e : SessionEvent} {step : SessionStep}
    (h : s.take item e = .ok step) (es : List SessionEvent) :
    s.play item (e :: es) = step.session.play item es := by
  simp [play, h]

theorem play_append {s t : Session} {item : Item} {es : List SessionEvent} (h : s.play item es = .ok t)
    (fs : List SessionEvent) : s.play item (es ++ fs) = t.play item fs := by
  induction es generalizing s with
  | nil =>
    cases h
    rfl
  | cons e es ih =>
    cases ht : s.take item e with
    | error error => simp [play, ht] at h
    | ok step =>
      rw [play_cons ht] at h
      rw [List.cons_append, play_cons ht, ih h]

end Session

end Appraisal
