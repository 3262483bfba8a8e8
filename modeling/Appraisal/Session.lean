import Appraisal.Notice
import Appraisal.Prompt
import Appraisal.Resolution
import Appraisal.Selection
/-!
# The session of one item

A session keeps the answers entered for one item (`Trail`) and what they amount to (`State`). Answering a
question puts the answer into the trail and walks down the layer chain from the active layer (`Session.land`);
picking a candidate revises the selection. A refused event leaves no session behind, so it changes nothing.
-/

namespace Appraisal

/-- The layer at `depth` of the branch that `branch` opens. -/
structure LayerRef where
  branch : Answer
  depth : Nat
deriving DecidableEq, Repr

def LayerRef.layer (place : LayerRef) (item : Item) : Option Layer :=
  (item.branch place.branch).descend place.depth

/-- The answers entered for one item. -/
structure Trail where
  main : Option Answer
  /-- The answers of the layers left through the chain, in order. -/
  completed : List (List Answer)
  /-- The answers of the active layer. -/
  current : List Answer
  /-- The active layer. -/
  layer? : Option LayerRef
deriving DecidableEq, Repr

namespace Trail

def empty : Trail :=
  ⟨none, [], [], none⟩

/-- A trail on which only the main question is answered. -/
def start (main : Answer) : Trail :=
  ⟨some main, [], [], some ⟨main, 0⟩⟩

/-- The depth of the active layer, counted as 0 while there is none. -/
def depth (t : Trail) : Nat :=
  (t.layer?.map LayerRef.depth).getD 0

/-- The next question to answer in the active layer. -/
def cursor (t : Trail) : Nat :=
  t.current.length

/-- The answers of every visited layer, the active one last if it has any. -/
def full (t : Trail) : List (List Answer) :=
  if t.current.isEmpty then t.completed else t.completed ++ [t.current]

/-- Records an answer of the active layer, in place or as the next one. -/
def answer (t : Trail) (subIndex : Nat) (a : Answer) : Trail :=
  if subIndex = t.cursor then { t with current := t.current ++ [a] }
  else { t with current := t.current.set subIndex a }

/-- Leaves the layer at `place` for the one at `depth` of the same branch; layers in between have no answers. -/
def leaveFor (t : Trail) (place : LayerRef) (depth : Nat) : Trail :=
  { t with
    completed := t.completed ++ t.current :: List.replicate (depth - place.depth - 1) []
    current := []
    layer? := some { place with depth := depth } }

def activeLayer (t : Trail) (item : Item) : Option Layer :=
  t.layer?.bind (·.layer item)

end Trail

inductive State where
  | unstarted
  | mainAnswered
  | inProgress
  | selecting (selection : Selection)
  /-- A verdict that comes from a selection keeps it, so that it can still be revised. -/
  | resolved (verdict : Verdict) (selection : Option Selection)
deriving DecidableEq, Repr

namespace State

def name : State → String
  | unstarted => "unstarted"
  | mainAnswered => "main_answered"
  | inProgress => "sub_in_progress"
  | selecting _ => "ambiguous"
  | resolved _ _ => "resolved"

def standing : State → Standing
  | unstarted | mainAnswered | inProgress => .pending
  | selecting _ => .ambiguous
  | resolved v _ => .decided v

def selection? : State → Option Selection
  | selecting s => some s
  | resolved _ s => s
  | _ => none

/-- The state of an item whose selection is `s`. -/
def ofSelection (s : Selection) : State :=
  match s.standing with
  | .decided v => resolved v (some s)
  | _ => selecting s

end State

structure Session where
  index : Nat
  trail : Trail
  state : State
deriving DecidableEq, Repr

/-- What an accepted event makes of a session. -/
structure SessionStep where
  session : Session
  notices : List Notice
deriving DecidableEq, Repr

namespace Session

def new (index : Nat) : Session :=
  ⟨index, .empty, .unstarted⟩

def standing (s : Session) : Standing :=
  s.state.standing

def verdict? (s : Session) : Option Verdict :=
  s.standing.verdict?

def activeLayer (s : Session) (item : Item) : Except SessionError Layer :=
  match s.trail.main, s.trail.activeLayer item with
  | none, _ => .error (.mainAnswerMissing s.index)
  | some _, none => .error (.noActiveLayer s.index)
  | some _, some l => .ok l

/-- An accepted event that changes nothing. -/
def unchanged (s : Session) : SessionStep :=
  ⟨s, []⟩

/-- The state in which a walk that came to rest leaves a session. -/
def stateOf (s : Session) (item : Item) : Settled → Except SessionError State
  | .awaiting 0 0 => .ok .mainAnswered
  | .awaiting _ _ => .ok .inProgress
  | .found _ (.decided v) => .ok (.resolved v none)
  | .found _ .ambiguous =>
    (s.activeLayer item).map fun layer => .selecting (.start layer.questions s.trail.current)

/-- Moves a session whose walk from `place` came to rest at `depth` to that layer. -/
def moveTo (s : Session) (place : LayerRef) (depth : Nat) : SessionStep :=
  if place.depth < depth then
    ⟨{ s with trail := s.trail.leaveFor place depth }, [.layerAdvanced s.index place.depth depth]⟩
  else s.unchanged

/-- Brings a session in line with its trail: walks down the chain from the active layer. -/
def land (s : Session) (item : Item) : Except SessionError SessionStep :=
  match s.trail.layer?, s.activeLayer item with
  | none, _ => .error (.noActiveLayer s.index)
  | some _, .error e => .error e
  | some place, .ok layer =>
    match layer.settle place.depth s.trail.current with
    | .error e => .error (.evaluation e)
    | .ok settled =>
      let moved := s.moveTo place settled.depth
      (moved.session.stateOf item settled).map fun state =>
        ⟨{ moved.session with state := state },
          moved.notices ++ [.itemTransition s.index state.name moved.session.trail.cursor]⟩

/-- Another main answer starts the item anew; the same one changes nothing. -/
def answerMain (s : Session) (item : Item) (a : Answer) : Except SessionError SessionStep :=
  if s.trail.main = some a then .ok s.unchanged
  else land { s with trail := .start a, state := .unstarted } item

/-- Whether `a` is what the trail says about a question of a layer already left. -/
def repeatsLeft (s : Session) (depth subIndex : Nat) (a : Answer) : Bool :=
  depth < s.trail.depth && ((s.trail.completed[depth]?).bind (·[subIndex]?)) = some a

/-- Answers a question of the layer at `depth`, which has to be the active one. The next question is answered
or an earlier answer replaced; repeating an answer, here or in a layer already left, changes nothing. -/
def answerSub (s : Session) (item : Item) (depth subIndex : Nat) (a : Answer) :
    Except SessionError SessionStep :=
  match s.activeLayer item with
  | .error e => .error e
  | .ok layer =>
    let count := layer.questions.length
    if depth ≠ s.trail.depth then
      if s.repeatsLeft depth subIndex a then .ok s.unchanged
      else .error (.inactiveLayer s.index depth s.trail.depth)
    else if count = 0 then .error (.noActiveLayer s.index)
    else if count ≤ subIndex then .error (.subIndexOutOfRange s.index subIndex count)
    else if s.trail.cursor < subIndex then .error (.outOfSequence s.index subIndex s.trail.cursor)
    else if s.trail.current[subIndex]? = some a then .ok s.unchanged
    else land { s with trail := s.trail.answer subIndex a } item

/-- Picks or drops a candidate, while there is a selection to revise. -/
def toggle (s : Session) (subIndex : Nat) (picked : Bool) : Except SessionError SessionStep :=
  match s.state.selection? with
  | none => .error (.notSelecting s.index)
  | some selection =>
    match selection.toggle subIndex picked with
    | .error e => .error (.notACandidate s.index e.subIndex)
    | .ok revised =>
      let state := State.ofSelection revised
      .ok ⟨{ s with state := state }, [.selectionChanged s.index state.name revised.standing]⟩

def mainPrompt (item : Item) : Prompt :=
  .mainQuestion item.title item.description item.yesHint item.noHint

/-- The choices that a selection offers among the questions of its layer. -/
def choices (questions : List SubQuestion) (s : Selection) : List Choice :=
  s.candidates.map fun c =>
    ⟨c.subIndex, ((questions[c.subIndex]?).map SubQuestion.title).getD "", c.favours, c.picked⟩

def prompt (s : Session) (item : Item) : Prompt :=
  match s.state with
  | .unstarted => mainPrompt item
  | .mainAnswered | .inProgress =>
    match s.trail.layer?, s.activeLayer item with
    | some place, .ok layer =>
      let i := s.trail.cursor
      .subQuestion place.depth i layer.questions.length
        (((layer.questions[i]?).map SubQuestion.title).getD "")
    | _, _ => mainPrompt item
  | .selecting selection =>
    let questions := ((s.activeLayer item).toOption.map Layer.questions).getD []
    .selection (choices questions selection) selection.standing
  | .resolved v _ => .done v

end Session

end Appraisal
