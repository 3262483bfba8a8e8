import Appraisal.Questionnaire
import Appraisal.Script
/-!
# Replaying events

Events are applied in order up to the first one that is rejected; what the events before it have done stays.
-/

namespace Appraisal

/-- The rejected event of a replay; steps are counted from one. -/
structure Rejection where
  step : Nat
  event : Event
  cause : SessionError
deriving DecidableEq, Repr

def Rejection.message (r : Rejection) : String :=
  "step " ++ toString r.step ++ " (" ++ r.event.text ++ ") rejected: " ++ r.cause.message

/-- What a replay leads to when every event is accepted. -/
structure Replayed where
  applied : Nat
  last : Option Transition
deriving DecidableEq, Repr

structure Replay where
  result : Except Rejection Replayed
  questionnaire : Questionnaire
  notices : List Notice

namespace Questionnaire

/-- Goes on with a replay of which `applied` events are done, the last one leading to `last`. -/
def replayFrom (applied : Nat) (last : Option Transition) (q : Questionnaire) : List Event → Replay
  | [] => ⟨.ok ⟨applied, last⟩, q, []⟩
  | e :: events =>
    let reply := q.apply e
    match reply.result with
    | .error cause => ⟨.error ⟨applied + 1, e, cause⟩, reply.next, reply.notices⟩
    | .ok t =>
      let rest := replayFrom (applied + 1) (some t) reply.next events
      { rest with notices := reply.notices ++ .replayed (applied + 1) e.text t.standing :: rest.notices }

def replay (q : Questionnaire) (events : List Event) : Replay :=
  q.replayFrom 0 none events

end Questionnaire

end Appraisal
