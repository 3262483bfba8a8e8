import Appraisal.Proofs.Session.Runs
import Mathlib.Tactic.SplitIfs
/-!
# A session written in place

`Session.take` makes a new session, so nothing can be left half done. Here an answer is written into the session
step by step: the trail first, then the layer that the walk leads to, and at the end the state. A step that fails
leaves what was written before it, so all this is done on a copy (`transact`). `run_write` says that it comes to the
same as `take`.
-/

namespace Appraisal

/-- Work that writes a `σ` step by step. What has been written when a step fails stays written. -/
abbrev Writing (σ : Type) := ExceptT SessionError (StateM σ)

namespace Writing
variable {σ α β : Type}

/-- The work done from `s` on: its result, and what stands there in the end. -/
def run (w : Writing σ α) (s : σ) : Except SessionError α × σ :=
  (ExceptT.run w).run s

@[simp] theorem run_pure (a : α) (s : σ) : run (pure a : Writing σ α) s = (.ok a, s) := rfl

@[simp] theorem run_get (s : σ) : run (get : Writing σ σ) s = (.ok s, s) := rfl

@[simp] theorem run_set (t s : σ) : run (set t : Writing σ PUnit) s = (.ok ⟨⟩, t) := rfl

@[simp] theorem run_throw (e : SessionError) (s : σ) : run (throw e : Writing σ α) s = (.error e, s) := rfl

@[simp] theorem run_ofExcept (x : Except SessionError α) (s : σ) :
    run (MonadExcept.ofExcept x : Writing σ α) s = (x, s) := by
  cases x <;> rfl

@[simp] theorem run_bind (w : Writing σ α) (f : α → Writing σ β) (s : σ) :
    run (w >>= f) s =
      match run w s with
      | (.ok a, t) => run (f a) t
      | (.error e, t) => (.error e, t) := by
  unfold run ExceptT.run StateT.run
  simp only [bind, ExceptT.bind, ExceptT.mk, StateT.bind, ExceptT.bindCont]
  rcases w s with ⟨r, t⟩
  cases r <;> rfl

/-- Does the work on a copy, which takes the place of the original when the work is done. -/
def transact (w : Writing σ α) : Writing σ α := do
  let s ← get
  let (result, copy) := run w s
  match result with
  | .ok a =>
    set copy
    return a
  | .error e => throw e

theorem run_transact (w : Writing σ α) (s : σ) :
    run (transact w) s =
      match run w s with
      | (.ok a, t) => (.ok a, t)
      | (.error e, _) => (.error e, s) := by
  simp only [transact, run_bind, run_get]
  rcases run w s with ⟨r, t⟩
  cases r with
  | ok a => simp only [run_bind, run_set, run_pure]
  | error e => rfl

end Writing

namespace Session
open MonadExcept (ofExcept)

/-- Puts the answers given so far away when the walk leads to another layer. -/
def writeMove (place : LayerRef) (depth : Nat) : Writing Session Unit := do
  let s ← get
  if place.depth < depth then
    set { s with trail := s.trail.leaveFor place depth }

/-- Walks down the chain from the active layer. The trail is written before the state is known. -/
def writeLanding (item : Item) : Writing Session Unit := do
  let s ← get
  match s.trail.layer? with
  | none => throw (.noActiveLayer s.index)
  | some place =>
    let layer ← ofExcept (s.activeLayer item)
    let settled ← ofExcept ((layer.settle place.depth s.trail.current).mapError .evaluation)
    writeMove place settled.depth
    let moved ← get
    let state ← ofExcept (moved.stateOf item settled)
    set { moved with state := state }

def writeMain (item : Item) (a : Answer) : Writing Session Unit := do
  let s ← get
  if s.trail.main = some a then return
  else
    Writing.transact do
      set { s with trail := .start a, state := .unstarted }
      writeLanding item

def writeSub (item : Item) (depth subIndex : Nat) (a : Answer) : Writing Session Unit := do
  let s ← get
  let layer ← ofExcept (s.activeLayer item)
  let count := layer.questions.length
  if depth ≠ s.trail.depth then
    if s.repeatsLeft depth subIndex a then return
    else throw (.inactiveLayer s.index depth s.trail.depth)
  else if count = 0 then throw (.noActiveLayer s.index)
  else if count ≤ subIndex then throw (.subIndexOutOfRange s.index subIndex count)
  else if s.trail.cursor < subIndex then throw (.outOfSequence s.index subIndex s.trail.cursor)
  else if s.trail.current[subIndex]? = some a then return
  else
    Writing.transact do
      set { s with trail := s.trail.answer subIndex a }
      writeLanding item

/-- Only the selection is looked at before the state is written, so this needs no copy. -/
def writePick (subIndex : Nat) (picked : Bool) : Writing Session Unit := do
  let s ← get
  match s.state.selection? with
  | none => throw (.notSelecting s.index)
  | some selection =>
    let revised ← ofExcept ((selection.toggle subIndex picked).mapError fun e => .notACandidate s.index e.subIndex)
    set { s with state := State.ofSelection revised }

/-- Takes an answer event in place. -/
def write (item : Item) : SessionEvent → Writing Session Unit
  | .main a => writeMain item a
  | .sub depth k a => writeSub item depth k a
  | .toggle k b => writePick k b

/-! ## Writing comes to the same as taking -/

/-- What is left behind when a step has been made, or could not be made. -/
def outcome (s : Session) : Except SessionError SessionStep → Except SessionError Unit × Session
  | .ok step => (.ok (), step.session)
  | .error e => (.error e, s)

theorem run_writeMove (place : LayerRef) (depth : Nat) (s : Session) :
    (writeMove place depth).run s = (.ok (), (s.moveTo place depth).session) := by
  simp only [writeMove, moveTo, Writing.run_bind, Writing.run_get]
  by_cases hd : place.depth < depth
  · simp only [hd, if_true, Writing.run_set]
  · simp only [hd, if_false, Writing.run_pure, unchanged]

theorem run_writeLanding (item : Item) (s : Session) :
    (∃ step, s.land item = .ok step ∧ (writeLanding item).run s = (.ok (), step.session)) ∨
    ∃ e t, s.land item = .error e ∧ (writeLanding item).run s = (.error e, t) := by
  unfold land writeLanding
  cases hp : s.trail.layer? with
  | none => exact .inr ⟨_, s, rfl, by simp [hp]⟩
  | some place =>
    cases hl : s.activeLayer item with
    | error e => exact .inr ⟨_, s, rfl, by simp [hp, hl]⟩
    | ok layer =>
      cases hs : layer.settle place.depth s.trail.current with
      | error e => exact .inr ⟨.evaluation e, s, by simp [hs], by simp [hp, hl, hs, Except.mapError]⟩
      | ok settled =>
        cases hst : (s.moveTo place settled.depth).session.stateOf item settled with
        | error e =>
          refine .inr ⟨e, (s.moveTo place settled.depth).session, ?_, ?_⟩
          · simp only [hs, hst, Except.map]
          · simp [hp, hl, hs, hst, Except.mapError, run_writeMove]
        | ok state =>
          refine .inl ⟨_, by simp only [hs, hst, Except.map]; rfl, ?_⟩
          simp [hp, hl, hs, hst, Except.mapError, run_writeMove]

/-- The answer `s'` of a copy of `s`, with the walk that follows it. -/
theorem run_transact_landing (item : Item) (s s' : Session) :
    (Writing.transact do set s'; writeLanding item).run s = s.outcome (s'.land item) := by
  rw [Writing.run_transact]
  simp only [Writing.run_bind, Writing.run_set]
  rcases run_writeLanding item s' with ⟨step, hland, hrun⟩ | ⟨e, t, hland, hrun⟩
  · rw [hland, hrun, outcome]
  · rw [hland, hrun, outcome]

theorem run_writeMain (item : Item) (a : Answer) (s : Session) :
    (writeMain item a).run s = s.outcome (s.answerMain item a) := by
  simp only [writeMain, answerMain, Writing.run_bind, Writing.run_get]
  by_cases hm : s.trail.main = some a
  · simp only [hm, if_true]
    rfl
  · simp only [hm, if_false, run_transact_landing]

theorem run_writeSub (item : Item) (depth k : Nat) (a : Answer) (s : Session) :
    (writeSub item depth k a).run s = s.outcome (s.answerSub item depth k a) := by
  simp only [writeSub, answerSub, Writing.run_bind, Writing.run_get, Writing.run_ofExcept]
  cases s.activeLayer item with
  | error e => rfl
  | ok layer =>
    simp only
    split_ifs with hd hr h0 hk hc hx
    · rfl
    · rfl
    · rfl
    · rfl
    · rfl
    · rfl
    · exact run_transact_landing item s _

theorem run_writePick (k : Nat) (b : Bool) (s : Session) : (writePick k b).run s = s.outcome (s.toggle k b) := by
  simp only [writePick, toggle, Writing.run_bind, Writing.run_get]
  cases s.state.selection? with
  | none => rfl
  | some selection =>
    cases ht : selection.toggle k b with
    | error e => simp [ht, Except.mapError, outcome]
    | ok revised => simp [ht, Except.mapError, outcome]

/-- Written in place or not, an event has the same result and leaves the same session. -/
theorem run_write (item : Item) (e : SessionEvent) (s : Session) :
    (write item e).run s = ((s.take item e).map fun _ => (), s.after item e) := by
  have h : (write item e).run s = s.outcome (s.take item e) := by
    cases e with
    | main a => exact run_writeMain item a s
    | sub depth k a => exact run_writeSub item depth k a s
    | toggle k b => exact run_writePick k b s
  rw [h, after]
  cases s.take item e <;> rfl

end Session

end Appraisal
