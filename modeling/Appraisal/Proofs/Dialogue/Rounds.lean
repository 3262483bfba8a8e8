import Appraisal.Dialogue
import Appraisal.Proofs.Questionnaire.Runs
/-!
# Rounds of a dialogue

The loop that a dialogue stands for, written as one: each round looks at the prompt, shows menus, waits for a pick at
each of them and sends events on the spot. A round shows a menu or leaves the loop (`round_shows`), and a menu takes a
pick, so the loop ends within as many rounds as there are picks and one more (`loop_ends`). That it comes to the same as
`Dialogue.play` is shown in `Proofs/Dialogue/Agreement`.
-/

namespace Appraisal

/-- Where the loop stands: what is told and shown so far, and the picks that are left. -/
structure Sitting where
  questionnaire : Questionnaire
  issued : List Event
  told : List String
  shown : List Shown
  picks : List Pick

namespace Sitting

def tell (s : Sitting) (lines : List String) : Sitting :=
  { s with told := s.told ++ lines }

/-- The sitting once a menu is shown and `pick`, if any, is taken from it. -/
def taken (s : Sitting) (m : Menu) (pick : Option Pick) (picks : List Pick) : Sitting :=
  { s with shown := s.shown ++ [⟨m, pick⟩], picks := picks }

/-- The sitting once events are accepted. -/
def sent (s : Sitting) (events : List Event) : Sitting :=
  { s with questionnaire := s.questionnaire.run events, issued := s.issued ++ events }

/-- The sitting at a later menu, before anything else is sent. -/
def later (s : Sitting) (told : List String) (shown : List Shown) (picks : List Pick) : Sitting :=
  { s with told := told, shown := shown, picks := picks }

@[simp] theorem tell_nil (s : Sitting) : s.tell [] = s := by
  simp [tell]

@[simp] theorem sent_nil (s : Sitting) : s.sent [] = s := by
  simp [sent, Questionnaire.run]

end Sitting

/-- Work of the loop. Leaving the loop is an end like any other. -/
abbrev Rounds := ExceptT Ending (StateM Sitting)

namespace Rounds
open Dialogue (mainLines selectionLines)
variable {α β : Type}

/-- The work done from `s` on: its result, and where the loop stands then. -/
def run (w : Rounds α) (s : Sitting) : Except Ending α × Sitting :=
  (ExceptT.run w).run s

@[simp] theorem run_pure (a : α) (s : Sitting) : run (pure a) s = (.ok a, s) := rfl

@[simp] theorem run_get (s : Sitting) : run get s = (.ok s, s) := rfl

@[simp] theorem run_set (t s : Sitting) : run (set t) s = (.ok ⟨⟩, t) := rfl

@[simp] theorem run_throw (e : Ending) (s : Sitting) : run (throw e : Rounds α) s = (.error e, s) := rfl

@[simp] theorem run_bind (w : Rounds α) (f : α → Rounds β) (s : Sitting) :
    run (w >>= f) s =
      match run w s with
      | (.ok a, t) => run (f a) t
      | (.error e, t) => (.error e, t) := by
  unfold run ExceptT.run StateT.run
  simp only [bind, ExceptT.bind, ExceptT.mk, StateT.bind, ExceptT.bindCont]
  rcases w s with ⟨r, t⟩
  cases r <;> rfl

/-! ## The loop -/

def tell (lines : List String) : Rounds Unit := do
  let s ← get
  set (s.tell lines)

/-- Shows a menu and takes the next pick. -/
def ask (m : Menu) : Rounds Pick := do
  let s ← get
  match s.picks with
  | [] =>
    set (s.taken m none [])
    throw .noMorePicks
  | pick :: picks =>
    set (s.taken m (some pick) picks)
    if m.accepts pick then return pick else throw .badPick

def send (e : Event) : Rounds Unit := do
  let s ← get
  match (s.questionnaire.apply e).result with
  | .ok _ => set (s.sent [e])
  | .error cause =>
    set { s with questionnaire := s.questionnaire.after e }
    throw (.failed cause)

/-- Shows the entries of a screen. -/
def choose (screen : Screen) : Rounds (Option Action) := do
  let q := (← get).questionnaire
  let pick ← ask (q.menu screen)
  return (q.entries screen)[pick.first]?.map Entry.action

def selectChoices (choices : List Choice) : Rounds Unit := do
  let q := (← get).questionnaire
  let pick ← ask (Questionnaire.choiceMenu choices)
  forM (q.selectionEvents choices pick) send

/-- Changes an answer of the current item, or what is picked of it. -/
def revise : Rounds Unit := do
  let q := (← get).questionnaire
  let pick ← ask (q.menu .whichAnswer)
  if q.canReselect && pick.first = q.answerLabels.length then selectChoices q.currentChoices
  else
    let position := pick.first
    let pick ← ask (q.menu (.newAnswer position))
    send (q.changeEvent position (if pick.first = 0 then .yes else .no))

/-- Goes to an item that has been answered, if there is one. -/
def jump : Rounds Unit := do
  let q := (← get).questionnaire
  let targets := q.otherTargets
  if targets.isEmpty then return
  else
    let pick ← ask (q.menu (.goTo targets))
    forM (targets[pick.first]?.map Event.navigate).toList send

def round : Rounds Unit := do
  let q := (← get).questionnaire
  let item := q.current
  match q.prompt with
  | .error e => throw (.failed e)
  | .ok (.mainQuestion title description yesHint noHint) =>
    tell (mainLines q title description)
    match ← choose (.main yesHint noHint) with
    | some (.answer a) => send (.main item a)
    | some .jump => jump
    | some .finish => throw .left
    | _ => return
  | .ok (.subQuestion depth k count title) =>
    match ← choose (.sub depth k count title) with
    | some (.answer a) => send (.sub item depth k a)
    | some .jump => jump
    | some .finish => throw .left
    | _ => return
  | .ok (.selection choices running) =>
    tell (selectionLines running)
    selectChoices choices
    let q := (← get).questionnaire
    if (q.session? item).map Session.standing = some .ambiguous then
      match ← choose .undecided with
      | some .jump => jump
      | some .finish => throw .left
      | _ => return
    else return
  | .ok (.done v) =>
    tell ["  => " ++ v.word.toUpper]
    if q.isLast && q.isComplete then throw .left
    else
      match ← choose .decided with
      | some .next => send .advance
      | some .revise => revise
      | some .jump => jump
      | some .finish => throw .left
      | _ => return

/-- As many rounds, unless the loop ends before. -/
def loop : Nat → Rounds Unit
  | 0 => return
  | n + 1 => do
    round
    loop n

/-! ## What the steps do -/

@[simp] theorem run_tell (lines : List String) (s : Sitting) : run (tell lines) s = (.ok (), s.tell lines) := rfl

theorem run_ask_nil {s : Sitting} (h : s.picks = []) (m : Menu) :
    run (ask m) s = (.error .noMorePicks, s.taken m none []) := by
  simp [ask, h]

theorem run_ask_cons {s : Sitting} {pick : Pick} {picks : List Pick} (h : s.picks = pick :: picks) (m : Menu) :
    run (ask m) s =
      (if m.accepts pick then .ok pick else .error .badPick, s.taken m (some pick) picks) := by
  simp only [ask, run_bind, run_get, h, run_set]
  split <;> rfl

theorem run_send (e : Event) (s : Sitting) :
    run (send e) s =
      match (s.questionnaire.apply e).result with
      | .ok _ => (.ok (), s.sent [e])
      | .error cause => (.error (.failed cause), { s with questionnaire := s.questionnaire.after e }) := by
  simp only [send, run_bind, run_get]
  cases (s.questionnaire.apply e).result <;> rfl

/-! ## The loop ends -/

/-- Menus stay shown, and picks are only taken. -/
structure Extends (s t : Sitting) : Prop where
  shown : s.shown <+: t.shown
  picks : t.picks.length ≤ s.picks.length

/-- Work that shows menus and takes picks, if it does anything to them. -/
def Keeps (w : Rounds α) : Prop :=
  ∀ s, Extends s (run w s).2

theorem Extends.refl (s : Sitting) : Extends s s :=
  ⟨List.prefix_rfl, Nat.le_refl _⟩

theorem Keeps.bind {w : Rounds α} {f : α → Rounds β} (hw : Keeps w) (hf : ∀ a, Keeps (f a)) : Keeps (w >>= f) := by
  intro s
  have h := hw s
  rw [run_bind]
  generalize run w s = r at h ⊢
  obtain ⟨e | a, t⟩ := r
  · exact h
  · exact ⟨h.shown.trans (hf a t).shown, Nat.le_trans (hf a t).picks h.picks⟩

theorem keeps_pure (a : α) : Keeps (pure a) :=
  Extends.refl

theorem keeps_throw (e : Ending) : Keeps (throw e : Rounds α) :=
  Extends.refl

theorem keeps_get : Keeps get :=
  Extends.refl

/-- A menu is shown, and where the work goes on a pick has been taken from it. -/
structure Shows (s : Sitting) (r : Except Ending α × Sitting) : Prop extends Extends s r.2 where
  menu : ∃ x, s.shown ++ [x] <+: r.2.shown
  pick : ∀ a, r.1 = .ok a → r.2.picks.length < s.picks.length

theorem ask_shows (m : Menu) (s : Sitting) : Shows s (run (ask m) s) := by
  cases hp : s.picks with
  | nil =>
    rw [run_ask_nil hp]
    exact ⟨⟨List.prefix_append _ _, Nat.zero_le _⟩, ⟨_, List.prefix_rfl⟩, fun a h => by cases h⟩
  | cons pick picks =>
    have hlt : picks.length < s.picks.length := by simp [hp]
    rw [run_ask_cons hp]
    exact ⟨⟨List.prefix_append _ _, Nat.le_of_lt hlt⟩, ⟨_, List.prefix_rfl⟩, fun _ _ => hlt⟩

theorem keeps_ask (m : Menu) : Keeps (ask m) :=
  fun s => (ask_shows m s).toExtends

theorem keeps_send (e : Event) : Keeps (send e) := by
  intro s
  rw [run_send]
  cases (s.questionnaire.apply e).result with
  | ok t => exact ⟨List.prefix_rfl, Nat.le_refl _⟩
  | error cause => exact ⟨List.prefix_rfl, Nat.le_refl _⟩

theorem keeps_sends (events : List Event) : Keeps (forM events send) := by
  induction events with
  | nil => exact keeps_pure _
  | cons e events ih =>
    rw [List.forM_cons]
    exact Keeps.bind (keeps_send e) fun _ => ih

theorem keeps_choose (screen : Screen) : Keeps (choose screen) :=
  Keeps.bind keeps_get fun _ => Keeps.bind (keeps_ask _) fun _ => keeps_pure _

theorem keeps_selectChoices (choices : List Choice) : Keeps (selectChoices choices) :=
  Keeps.bind keeps_get fun _ => Keeps.bind (keeps_ask _) fun _ => keeps_sends _

theorem keeps_jump : Keeps jump := by
  refine Keeps.bind keeps_get fun s => ?_
  dsimp only
  split
  · exact keeps_pure _
  · exact Keeps.bind (keeps_ask _) fun _ => keeps_sends _

theorem keeps_revise : Keeps revise := by
  refine Keeps.bind keeps_get fun s => Keeps.bind (keeps_ask _) fun pick => ?_
  dsimp only
  split
  · exact keeps_selectChoices _
  · exact Keeps.bind (keeps_ask _) fun _ => keeps_send _

/-- What follows a menu takes nothing of it back. -/
theorem Shows.bind {s : Sitting} {w : Rounds α} {f : α → Rounds β} (hw : Shows s (run w s)) (hf : ∀ a, Keeps (f a)) :
    Shows s (run (w >>= f) s) := by
  rw [run_bind]
  generalize run w s = r at hw ⊢
  obtain ⟨e | a, t⟩ := r
  · exact ⟨hw.toExtends, hw.menu, fun a h => by cases h⟩
  · obtain ⟨x, hx⟩ := hw.menu
    have hgoes := hf a t
    exact ⟨⟨hw.shown.trans hgoes.shown, Nat.le_trans hgoes.picks hw.picks⟩, ⟨x, hx.trans hgoes.shown⟩,
      fun _ _ => Nat.lt_of_le_of_lt hgoes.picks (hw.pick a rfl)⟩

theorem Shows.of_tell {s : Sitting} {lines : List String} {r : Except Ending α × Sitting}
    (h : Shows (s.tell lines) r) : Shows s r :=
  ⟨⟨h.shown, h.picks⟩, h.menu, h.pick⟩

theorem choose_shows (screen : Screen) (s : Sitting) : Shows s (run (choose screen) s) := by
  rw [choose, run_bind, run_get]
  exact (ask_shows _ s).bind fun _ => keeps_pure _

theorem selectChoices_shows (choices : List Choice) (s : Sitting) : Shows s (run (selectChoices choices) s) := by
  rw [selectChoices, run_bind, run_get]
  exact (ask_shows _ s).bind fun _ => keeps_sends _

/-- A round shows a menu, or it ends the loop at once. -/
theorem round_shows (s : Sitting) :
    Shows s (run round s) ∨ (run round s).1 = .error .left ∨ ∃ cause, (run round s).1 = .error (.failed cause) := by
  unfold round
  rw [run_bind, run_get]
  dsimp only
  cases s.questionnaire.prompt with
  | error e => exact .inr (.inr ⟨e, rfl⟩)
  | ok p =>
    cases p with
    | mainQuestion title description yesHint noHint =>
      dsimp only
      rw [run_bind, run_tell]
      refine .inl (.of_tell ((choose_shows _ _).bind fun o => ?_))
      split
      · exact keeps_send _
      · exact keeps_jump
      · exact keeps_throw _
      · exact keeps_pure _
    | subQuestion depth k count title =>
      refine .inl ((choose_shows _ _).bind fun o => ?_)
      split
      · exact keeps_send _
      · exact keeps_jump
      · exact keeps_throw _
      · exact keeps_pure _
    | selection choices running =>
      dsimp only
      rw [run_bind, run_tell]
      -- Where the selection leads, another menu may follow, or none.
      refine .inl (.of_tell ((selectChoices_shows _ _).bind fun _ => Keeps.bind keeps_get fun t => ?_))
      split
      · refine Keeps.bind (keeps_choose _) fun o => ?_
        split
        · exact keeps_jump
        · exact keeps_throw _
        · exact keeps_pure _
      · exact keeps_pure _
    | done v =>
      rw [run_bind, run_tell]
      dsimp only
      split
      · -- The last item of a complete questionnaire: the one round that goes without a menu.
        exact .inr (.inl rfl)
      · refine .inl (.of_tell ((choose_shows _ _).bind fun o => ?_))
        split
        · exact keeps_send _
        · exact keeps_revise
        · exact keeps_jump
        · exact keeps_throw _
        · exact keeps_pure _

/-- More rounds than there are picks left are too many. -/
theorem loop_ends {n : Nat} {s : Sitting} (h : s.picks.length < n) : ∃ e t, run (loop n) s = (.error e, t) := by
  induction n generalizing s with
  | zero => omega
  | succ n ih =>
    rw [loop, run_bind]
    have hround := round_shows s
    generalize run round s = r at hround ⊢
    obtain ⟨e | ⟨⟩, t⟩ := r
    · exact ⟨e, t, rfl⟩
    · rcases hround with hshows | hleft | ⟨cause, hfailed⟩
      · -- The next round starts with fewer picks, which is what the induction is on.
        have hlt : t.picks.length < s.picks.length := hshows.pick () rfl
        exact ih (by omega)
      · cases hleft
      · cases hfailed

end Rounds

end Appraisal
