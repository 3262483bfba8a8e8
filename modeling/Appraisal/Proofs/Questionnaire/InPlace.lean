import Appraisal.Proofs.Questionnaire.Runs
import Appraisal.Proofs.Session.InPlace
/-!
# A questionnaire written in place

The session of the current item writes where it stands, then the store is brought in line, and only then is it known
whether there is a transition to reply with. `run_write` says that all this comes to the same as `apply`.
-/

namespace Appraisal.Questionnaire
open MonadExcept (ofExcept)

/-- Hands an answer to the session of item `i`. What the session writes stands, also when it refuses the answer. -/
def writeSession (i : Nat) (e : SessionEvent) : Writing Questionnaire Unit := do
  let q ← get
  match q.catalog.items[i]?, q.sessions[i]? with
  | some item, some s =>
    if i = q.current then
      let (result, t) := (Session.write item e).run s
      set { q with sessions := q.sessions.set i t }
      ofExcept result
    else throw (.notCurrent i q.current)
  | _, _ => throw (.unknownItem i q.sessions.length)

def writeAnswer (i : Nat) (e : SessionEvent) : Writing Questionnaire Transition := do
  writeSession i e
  let q ← get
  set (q.sync i).1
  let q ← get
  ofExcept (q.transition i)

/-- Makes item `i` the current one, and replies from there. -/
def writeMove (i : Nat) : Writing Questionnaire Transition := do
  let q ← get
  set { q with current := i }
  let q ← get
  ofExcept (q.transition i)

def writeVisit (target : Nat) : Writing Questionnaire Transition := do
  let q ← get
  let _ ← ofExcept (q.item target)
  if q.canNavigate target then writeMove target
  else throw (.unreachable target q.current)

def writeAdvance : Writing Questionnaire Transition := do
  let q ← get
  let s ← ofExcept (q.session q.current)
  if s.verdict?.isNone then throw (.notResolved q.current)
  else if q.sessions.length ≤ q.current + 1 then throw (.endOfCatalog q.current)
  else writeMove (q.current + 1)

/-- Applies an event in place. -/
def write : Event → Writing Questionnaire Transition
  | .main i a => writeAnswer i (.main a)
  | .sub i depth k a => writeAnswer i (.sub depth k a)
  | .toggle i k b => writeAnswer i (.toggle k b)
  | .navigate target => writeVisit target
  | .advance => writeAdvance

/-! ## Writing comes to the same as applying -/

/-- A session that refuses an answer writes nothing in the end, so nothing has to be put back. -/
theorem run_writeSession (i : Nat) (e : SessionEvent) (q : Questionnaire) :
    (writeSession i e).run q =
      match q.onCurrent i (fun s item => s.take item e) with
      | .ok step => (.ok (), { q with sessions := q.sessions.set i step.session })
      | .error error => (.error error, q) := by
  simp only [writeSession, onCurrent, Writing.run_bind, Writing.run_get]
  cases hi : q.catalog.items[i]? with
  | none => rfl
  | some item =>
    cases hs : q.sessions[i]? with
    | none => rfl
    | some s =>
      by_cases hc : i = q.current
      · simp only [if_pos hc, Session.run_write, Session.after, Writing.run_bind, Writing.run_set,
          Writing.run_ofExcept]
        cases s.take item e with
        | ok step => rfl
        | error error =>
          obtain ⟨hlt, rfl⟩ := List.getElem?_eq_some_iff.1 hs
          simp only [Except.map, List.set_getElem_self]
      · simp only [if_neg hc]
        rfl

theorem run_writeAnswer (i : Nat) (e : SessionEvent) (q : Questionnaire) :
    (writeAnswer i e).run q = ((q.apply (.ofSession i e)).result, q.after (.ofSession i e)) := by
  rw [after, apply_ofSession, answered]
  simp only [writeAnswer, Writing.run_bind, run_writeSession, Writing.run_get, Writing.run_set, Writing.run_ofExcept]
  cases q.onCurrent i (fun s item => s.take item e) with
  | error error => rfl
  | ok step => rfl

theorem run_writeMove (i : Nat) (q : Questionnaire) :
    (writeMove i).run q = (({ q with current := i }).transition i, { q with current := i }) := by
  simp only [writeMove, Writing.run_bind, Writing.run_get, Writing.run_set, Writing.run_ofExcept]

theorem run_writeVisit (target : Nat) (q : Questionnaire) :
    (writeVisit target).run q = ((q.apply (.navigate target)).result, q.after (.navigate target)) := by
  simp only [after, Questionnaire.apply, navigate, writeVisit, Writing.run_bind, Writing.run_get, Writing.run_ofExcept]
  cases q.item target with
  | error error => rfl
  | ok item =>
    by_cases hn : q.canNavigate target = true
    · simp only [hn, if_true, run_writeMove]
    · simp only [hn]
      rfl

theorem run_writeAdvance (q : Questionnaire) :
    writeAdvance.run q = ((q.apply .advance).result, q.after .advance) := by
  simp only [after, Questionnaire.apply, advance, writeAdvance, Writing.run_bind, Writing.run_get, Writing.run_ofExcept]
  cases q.session q.current with
  | error error => rfl
  | ok s =>
    simp only
    split_ifs with hv hlast
    · rfl
    · rfl
    · rw [run_writeMove]

/-- Written in place or not, an event has the same result and leaves the same questionnaire. -/
theorem run_write (e : Event) (q : Questionnaire) : (write e).run q = ((q.apply e).result, q.after e) := by
  cases e with
  | main i a => exact run_writeAnswer i (.main a) q
  | sub i depth k a => exact run_writeAnswer i (.sub depth k a) q
  | toggle i k b => exact run_writeAnswer i (.toggle k b) q
  | navigate target => exact run_writeVisit target q
  | advance => exact run_writeAdvance q

end Appraisal.Questionnaire
