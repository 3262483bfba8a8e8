import Appraisal.Session.Error
/-!
# Notices

What happens on the way to an answer is told as a list of notices. Each has a level, a message and named
fields; a program may write them to a log.
-/

namespace Appraisal

inductive Level where
  | debug
  | info
  | warn
deriving DecidableEq, Repr

def Level.word : Level → String
  | debug => "DEBUG"
  | info => "INFO"
  | warn => "WARN"

inductive Notice where
  | catalogLoaded (catalog : String) (items : Nat) (source digest : String)
  | layerAdvanced (item start finish : Nat)
  | itemTransition (item : Nat) (state : String) (cursor : Nat)
  | selectionChanged (item : Nat) (state : String) (running : Standing)
  | eventRejected (item : Nat) (event : String) (error : SessionError)
  | verdictRecorded (item : Nat) (id : String) (verdict : Verdict)
  | verdictRetracted (item : Nat) (id : String)
  | complete (items : Nat)
  | navigationRejected (error : SessionError)
  | navigated (start finish : Nat)
  | advanced (start finish : Nat)
  | replayed (step : Nat) (event : String) (standing : Standing)
deriving DecidableEq, Repr

namespace Notice

def level : Notice → Level
  | eventRejected .. | navigationRejected .. => .warn
  | verdictRecorded .. | verdictRetracted .. | complete .. => .info
  | _ => .debug

def message : Notice → String
  | catalogLoaded .. => "catalog loaded"
  | layerAdvanced .. => "advanced to next layer"
  | itemTransition .. => "item transition"
  | selectionChanged .. => "selection changed"
  | eventRejected .. => "event rejected"
  | verdictRecorded .. => "verdict recorded"
  | verdictRetracted .. => "verdict retracted"
  | complete .. => "questionnaire complete"
  | navigationRejected .. => "navigation rejected"
  | navigated .. => "navigate"
  | advanced .. => "advance"
  | replayed .. => "replayed"

def fields : Notice → List (String × String)
  | catalogLoaded c n s d => [("catalog", c), ("items", toString n), ("source", s), ("digest", d)]
  | layerAdvanced i a b => [("item", toString i), ("from", toString a), ("to", toString b)]
  | itemTransition i s c => [("item", toString i), ("state", s), ("cursor", toString c)]
  | selectionChanged i s r => [("item", toString i), ("state", s), ("running", r.word)]
  | eventRejected i e err => [("item", toString i), ("event", e), ("error", err.message)]
  | verdictRecorded i id v => [("item", toString i), ("id", id), ("verdict", v.word)]
  | verdictRetracted i id => [("item", toString i), ("id", id)]
  | complete n => [("items", toString n)]
  | navigationRejected err => [("error", err.message)]
  | navigated a b => [("from", toString a), ("to", toString b)]
  | advanced a b => [("from", toString a), ("to", toString b)]
  | replayed n e s => [("step", toString n), ("event", e), ("verdict", s.word)]

end Notice

end Appraisal
