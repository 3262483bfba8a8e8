import Appraisal.Dialogue.Menu
import Appraisal.Script.Replay
import Appraisal.Text.Blank
/-!
# Dialogues

A questionnaire answered by picking from menus. The dialogue goes round: each round tells what the current prompt
is (`Dialogue.openRound`) and asks for picks until events are issued or the user leaves. One pick leads from one
menu to the next (`Dialogue.step`), and `Dialogue.play` feeds it picks until they run out or the dialogue is over.
-/

namespace Appraisal

/-- What an entry of a menu stands for. -/
inductive Action where
  | answer (a : Answer)
  | next
  | revise
  | again
  | jump
  | finish
deriving DecidableEq, Repr

structure Entry where
  label : String
  action : Action
deriving DecidableEq, Repr

/-- What is being asked. -/
inductive Screen where
  | main (yesHint noHint : Option String)
  | sub (depth subIndex count : Nat) (title : String)
  /-- Which choices apply. -/
  | choose (choices : List Choice)
  /-- What to do after a selection that decides nothing. -/
  | undecided
  /-- What to do with a decided item. -/
  | decided
  /-- Which answer to change. -/
  | whichAnswer
  /-- What to change the answer to; `position` is that of `whichAnswer`. -/
  | newAnswer (position : Nat)
  /-- Which choices of a decided item apply. -/
  | reselect (choices : List Choice)
  /-- Which item to go to. -/
  | goTo (targets : List Nat)
deriving DecidableEq, Repr

/-- How far a dialogue has come. -/
inductive Progress where
  | asking (screen : Screen)
  | left
  | failed (cause : SessionError)
deriving DecidableEq, Repr

structure Dialogue where
  questionnaire : Questionnaire
  /-- Every event so far. -/
  issued : List Event
  /-- The lines told since the last pick. -/
  told : List String
  progress : Progress

namespace Questionnaire

/-! ## What a menu shows -/

/-- The items other than the current one that can be visited. -/
def otherTargets (q : Questionnaire) : List Nat :=
  (List.range q.sessions.length).filter fun i => i ≠ q.current && q.canNavigate i

/-- The entries that end every menu of answers. -/
def travelEntries (q : Questionnaire) : List Entry :=
  (if q.otherTargets.isEmpty then [] else [⟨"Go to an answered item", .jump⟩]) ++ [⟨"Finish", .finish⟩]

def withHint (label : String) (hint : Option String) : String :=
  match hint with
  | some h => label ++ "  (" ++ h ++ ")"
  | none => label

def answerEntries (yesHint noHint : Option String) : List Entry :=
  [⟨withHint "Yes" yesHint, .answer .yes⟩, ⟨withHint "No" noHint, .answer .no⟩]

def isLast (q : Questionnaire) : Bool :=
  q.current + 1 = q.sessions.length

def decidedEntries (q : Questionnaire) : List Entry :=
  (if q.isLast then [] else [⟨"Next item", .next⟩]) ++ [⟨"Revise this item", .revise⟩]

/-- The entries of a screen that asks what to do. -/
def entries (q : Questionnaire) : Screen → List Entry
  | .main yesHint noHint => answerEntries yesHint noHint ++ q.travelEntries
  | .sub .. => answerEntries none none ++ q.travelEntries
  | .undecided => ⟨"Select again", .again⟩ :: q.travelEntries
  | .decided => q.decidedEntries ++ q.travelEntries
  | _ => []

def currentTrail (q : Questionnaire) : Trail :=
  ((q.session? q.current).map Session.trail).getD .empty

/-- The questions of the active layer of the current item. -/
def activeQuestions (q : Questionnaire) : List SubQuestion :=
  ((q.catalog.items[q.current]?).bind fun i => (q.currentTrail.activeLayer i).map Layer.questions).getD []

def currentSelection (q : Questionnaire) : Option Selection :=
  (q.session? q.current).bind fun s => s.state.selection?

/-- Whether the current item has a selection to revise. -/
def canReselect (q : Questionnaire) : Bool :=
  q.currentSelection.any fun s => !s.candidates.isEmpty

/-- The answers that can be changed: the main one first, then those of the active layer. -/
def answerLabels (q : Questionnaire) : List String :=
  let title := ((q.catalog.items[q.current]?).map Item.title).getD ""
  (title ++ "  [" ++ ((q.currentTrail.main.map Answer.word).getD "-") ++ "]") ::
    (q.activeQuestions.zip q.currentTrail.current).map fun (sub, a) =>
      "  " ++ sub.title ++ "  [" ++ a.word ++ "]"

def targetLabel (q : Questionnaire) (target : Nat) : String :=
  match q.results[target]? with
  | some r => toString (target + 1) ++ ". " ++ r.title ++ "  [" ++ r.standing.word ++ "]"
  | none => ""

def choiceMenu (choices : List Choice) : Menu :=
  .multiple "Which apply? (space to toggle, enter to confirm)" (choices.map Choice.title)
    (choices.map Choice.picked)

def menu (q : Questionnaire) (screen : Screen) : Menu :=
  let labels := (q.entries screen).map Entry.label
  match screen with
  | .main .. => .single "Answer" labels
  | .sub depth index count title => .single s!"  [{depth + 1}.{index + 1}/{count}] {title}" labels
  | .undecided => .single "Still undecided" labels
  | .decided => .single "Continue" labels
  | .choose choices | .reselect choices => choiceMenu choices
  | .whichAnswer =>
    .single "Which answer?" (q.answerLabels ++ if q.canReselect then ["Revise selection"] else [])
  | .newAnswer _ => .single "New answer" ["Yes", "No"]
  | .goTo targets => .single "Go to" (targets.map q.targetLabel)

/-! ## What a pick means -/

/-- The events that make the selection exactly the picked choices. -/
def selectionEvents (q : Questionnaire) (choices : List Choice) (pick : Pick) : List Event :=
  choices.zipIdx.filterMap fun (c, i) =>
    let included := pick.contains i
    if included = c.picked then none else some (.toggle q.current c.subIndex included)

/-- The event that changes the answer at a position of `answerLabels`. -/
def changeEvent (q : Questionnaire) (position : Nat) (a : Answer) : Event :=
  match position with
  | 0 => .main q.current a
  | index + 1 => .sub q.current q.currentTrail.depth index a

/-- The choices of the selection of the current item. -/
def currentChoices (q : Questionnaire) : List Choice :=
  (q.currentSelection.map (Session.choices q.activeQuestions)).getD []

end Questionnaire

namespace Dialogue

/-! ## Rounds -/

def mainLines (q : Questionnaire) (title : String) (description : Option String) : List String :=
  ["", s!"[{q.current + 1}/{q.sessions.length}] {title}"] ++
    (description.map fun d => "    " ++ Text.trim d).toList

def selectionLines (running : Standing) : List String :=
  "  Answers point both ways. Select the statements that apply." ::
    if running = .pending then [] else ["  Current selection: " ++ running.word]

/-- Starts a round with the prompt of the current item. -/
def openRound (d : Dialogue) : Dialogue :=
  let q := d.questionnaire
  match q.prompt with
  | .error e => { d with progress := .failed e }
  | .ok (.mainQuestion title description yesHint noHint) =>
    { d with told := mainLines q title description, progress := .asking (.main yesHint noHint) }
  | .ok (.subQuestion depth index count title) => { d with progress := .asking (.sub depth index count title) }
  | .ok (.selection choices running) =>
    { d with told := selectionLines running, progress := .asking (.choose choices) }
  | .ok (.done v) =>
    { d with
      told := ["  => " ++ v.word.toUpper]
      progress := if q.isLast && q.isComplete then .left else .asking .decided }

def start (q : Questionnaire) : Dialogue :=
  openRound ⟨q, [], [], .left⟩

/-! ## Steps -/

/-- Issues events in order and goes on, unless one is rejected. -/
def issue (d : Dialogue) (events : List Event) (goOn : Dialogue → Dialogue) : Dialogue :=
  let r := d.questionnaire.replay events
  match r.result with
  | .ok _ => goOn { d with questionnaire := r.questionnaire, issued := d.issued ++ events }
  | .error rejection =>
    { d with
      questionnaire := r.questionnaire
      issued := d.issued ++ events.take (rejection.step - 1)
      progress := .failed rejection.cause }

def ask (d : Dialogue) (screen : Screen) : Dialogue :=
  { d with progress := .asking screen }

def offerTargets (d : Dialogue) : Dialogue :=
  let targets := d.questionnaire.otherTargets
  if targets.isEmpty then d.openRound else d.ask (.goTo targets)

/-- Does what a picked entry stands for; `answerEvent` is what an answer issues. -/
def act (d : Dialogue) (action : Action) (answerEvent : Answer → Event) : Dialogue :=
  match action with
  | .answer a => d.issue [answerEvent a] openRound
  | .next => d.issue [.advance] openRound
  | .revise => d.ask .whichAnswer
  | .again => d.openRound
  | .jump => d.offerTargets
  | .finish => { d with progress := .left }

/-- Goes on after a selection that leaves the item undecided, or not. -/
def afterSelection (d : Dialogue) : Dialogue :=
  let q := d.questionnaire
  if (q.session? q.current).map Session.standing = some .ambiguous then d.ask .undecided else d.openRound

/-- The event that an answer to a screen issues. -/
def screenEvent (q : Questionnaire) (screen : Screen) (a : Answer) : Event :=
  match screen with
  | .sub depth index _ _ => .sub q.current depth index a
  | _ => .main q.current a

/-- Takes a pick that the menu of `screen` accepts. -/
def stepAt (d : Dialogue) (screen : Screen) (pick : Pick) : Dialogue :=
  let q := d.questionnaire
  let d := { d with told := [] }
  match screen with
  | .choose choices => d.issue (q.selectionEvents choices pick) afterSelection
  | .reselect choices => d.issue (q.selectionEvents choices pick) openRound
  | .whichAnswer =>
    if q.answerLabels.length ≤ pick.first then d.ask (.reselect q.currentChoices)
    else d.ask (.newAnswer pick.first)
  | .newAnswer place =>
    d.issue [q.changeEvent place (if pick.first = 0 then .yes else .no)] openRound
  | .goTo targets => d.issue ((targets[pick.first]?).map Event.navigate).toList openRound
  | screen =>
    match (q.entries screen)[pick.first]? with
    | some e => d.act e.action (screenEvent q screen)
    | none => d

def step (d : Dialogue) (pick : Pick) : Dialogue :=
  match d.progress with
  | .asking screen => d.stepAt screen pick
  | _ => d

/-- The menu on show, if the dialogue goes on. -/
def menu? (d : Dialogue) : Option Menu :=
  match d.progress with
  | .asking screen => some (d.questionnaire.menu screen)
  | _ => none

end Dialogue

/-! ## Playing -/

/-- A menu and what was picked from it; nothing, if there was no pick left. -/
structure Shown where
  menu : Menu
  pick : Option Pick
deriving DecidableEq, Repr

/-- Why a play ended. -/
inductive Ending where
  | left
  | failed (cause : SessionError)
  | noMorePicks
  | badPick
deriving DecidableEq, Repr

structure Play where
  dialogue : Dialogue
  ending : Ending
  /-- Every line told. -/
  told : List String
  shown : List Shown

/-- What comes before a play: lines, and the menu behind them. -/
def Play.after (told : List String) (shown : Shown) (p : Play) : Play :=
  { p with told := told ++ p.told, shown := shown :: p.shown }

/-- The end of a dialogue that shows no menu. -/
def Dialogue.ending (d : Dialogue) : Ending :=
  match d.progress with
  | .failed e => .failed e
  | _ => .left

/-- Plays a dialogue with the picks given, one for each menu. -/
def Dialogue.play (d : Dialogue) : List Pick → Play
  | [] =>
    match d.menu? with
    | none => ⟨d, d.ending, d.told, []⟩
    | some m => ⟨d, .noMorePicks, d.told, [⟨m, none⟩]⟩
  | pick :: picks =>
    match d.menu? with
    | none => ⟨d, d.ending, d.told, []⟩
    | some m =>
      if m.accepts pick then ((d.step pick).play picks).after d.told ⟨m, some pick⟩
      else ⟨d, .badPick, d.told, [⟨m, some pick⟩]⟩

end Appraisal
