import Appraisal.Proofs.Questionnaire.Notices
import Mathlib.Logic.Function.Basic
/-!
# The journal of the store

Some notices say that a verdict has been recorded or withdrawn. These entries are all that one needs to know about the
store: `readBack` makes them into the verdicts on record, after every event. None of them is idle, since the store is
brought in line with the session after every taken answer but an entry is made only where it changes a verdict
(`Chronicles`).
-/

namespace Appraisal

/-- The verdicts on record. -/
def Store.verdicts (s : Store) (index : Nat) : Option Verdict :=
  (s.get? index).map Record.verdict

namespace Notice

/-- The notice says that a verdict has been recorded or withdrawn. -/
def isEntry (n : Notice) : Bool :=
  n.level = .info && (n.message = "verdict recorded" || n.message = "verdict retracted")

/-- What an entry makes of the verdicts so far. -/
def enter (verdicts : Nat → Option Verdict) : Notice → Nat → Option Verdict
  | verdictRecorded item _ v => Function.update verdicts item (some v)
  | verdictRetracted item _ => Function.update verdicts item none
  | _ => verdicts

/-- The entry for an item whose verdict changes, or is withdrawn. -/
def entryOf (item : Nat) (id : String) : Option Verdict → Notice
  | some v => verdictRecorded item id v
  | none => verdictRetracted item id

@[simp] theorem enter_entryOf (verdicts : Nat → Option Verdict) (item : Nat) (id : String) (v : Option Verdict) :
    enter verdicts (entryOf item id v) = Function.update verdicts item v := by
  cases v <;> rfl

theorem not_isEntry {n : Notice} (h : n.level ≠ .info) : n.isEntry = false := by
  simp [isEntry, h]

end Notice

/-- The verdicts that a journal ends with when it starts with none. -/
def readBack (entries : List Notice) : Nat → Option Verdict :=
  entries.foldl Notice.enter fun _ => none

/-- The entries lead from the verdicts `before` to the verdicts `after`, and each of them changes something. -/
inductive Chronicles : (Nat → Option Verdict) → List Notice → (Nat → Option Verdict) → Prop
  | done (verdicts : Nat → Option Verdict) : Chronicles verdicts [] verdicts
  | entry {before after : Nat → Option Verdict} {n : Notice} {entries : List Notice} :
      n.enter before ≠ before → Chronicles (n.enter before) entries after → Chronicles before (n :: entries) after

namespace Chronicles
variable {before between after : Nat → Option Verdict} {entries entries' : List Notice}

theorem append (h : Chronicles before entries between) (h' : Chronicles between entries' after) :
    Chronicles before (entries ++ entries') after := by
  induction h with
  | done => exact h'
  | entry hn _ ih => exact .entry hn (ih h')

/-- One entry tells of a verdict that changes, and none of a verdict that stays. -/
theorem update (verdicts : Nat → Option Verdict) (item : Nat) (id : String) (v : Option Verdict) :
    Chronicles verdicts (if verdicts item = v then [] else [.entryOf item id v])
      (Function.update verdicts item v) := by
  by_cases h : verdicts item = v
  · rw [if_pos h, ← h, Function.update_eq_self]
    exact .done verdicts
  · have hchanges : Function.update verdicts item v ≠ verdicts := by
      intro heq
      exact h (by rw [← heq, Function.update_self])
    rw [if_neg h]
    refine .entry ?_ ?_
    · rwa [Notice.enter_entryOf]
    · rw [Notice.enter_entryOf]
      exact .done _

theorem foldl_eq (h : Chronicles before entries after) : entries.foldl Notice.enter before = after := by
  induction h with
  | done => rfl
  | entry _ _ ih => exact ih

/-- Wherever a journal is opened, the next entry changes what has been told so far. -/
theorem changes (h : Chronicles before entries after) {front back : List Notice} {n : Notice}
    (he : entries = front ++ n :: back) :
    (front ++ [n]).foldl Notice.enter before ≠ front.foldl Notice.enter before := by
  induction h generalizing front with
  | done => simp at he
  | entry hn _ ih =>
    cases front with
    | nil =>
      cases he
      exact hn
    | cons m front =>
      cases he
      exact ih rfl

theorem eq_nil_iff (h : Chronicles before entries after) (hone : entries.length ≤ 1) :
    entries = [] ↔ after = before := by
  cases h with
  | done => simp
  | entry hn hrest =>
    obtain rfl : _ = [] := List.eq_nil_of_length_eq_zero (by simpa using hone)
    cases hrest
    exact iff_of_false (List.cons_ne_nil _ _) hn

end Chronicles

namespace Questionnaire
variable {q : Questionnaire}

/-! ## One event -/

/-- What the reply to an event enters in the journal. -/
def entered (q : Questionnaire) (e : Event) : List Notice :=
  (q.apply e).notices.filter Notice.isEntry

/-- What the replies to the events of a run tell, in order. -/
def told (q : Questionnaire) : List Event → List Notice
  | [] => []
  | e :: es => (q.apply e).notices ++ (q.after e).told es

def journal (q : Questionnaire) (es : List Event) : List Notice :=
  (q.told es).filter Notice.isEntry

theorem told_append (q : Questionnaire) (es fs : List Event) :
    q.told (es ++ fs) = q.told es ++ (q.run es).told fs := by
  induction es generalizing q with
  | nil => rfl
  | cons e es ih => rw [List.cons_append, told, told, ih, List.append_assoc, run, run, List.foldl_cons]

theorem journal_snoc (q : Questionnaire) (es : List Event) (e : Event) :
    q.journal (es ++ [e]) = q.journal es ++ (q.run es).entered e := by
  simp [journal, told_append, told, entered]

theorem journal_cons (q : Questionnaire) (e : Event) (es : List Event) :
    q.journal (e :: es) = q.entered e ++ (q.after e).journal es :=
  List.filter_append ..

theorem verdicts_putSession {i : Nat} {item : Item} (hi : q.catalog.items[i]? = some item)
    (hlt : i < q.sessions.length) (s : Session) :
    (q.putSession i s).store.verdicts =
      Function.update q.store.verdicts i ((recordOf i item s).map Record.verdict) := by
  funext j
  rw [Store.verdicts, get?_putSession hi hlt, Function.update_apply]
  split <;> rfl

theorem recordNotice_entries (r : Record) (displaced : Option Record) :
    (recordNotice r displaced).filter Notice.isEntry =
      if displaced.map Record.verdict = some r.verdict then [] else [.verdictRecorded r.index r.id r.verdict] := by
  unfold recordNotice
  split <;> rfl

theorem retractNotice_entries (i : Nat) (id : String) (displaced : Option Record) :
    (if displaced.isSome then [Notice.verdictRetracted i id] else []).filter Notice.isEntry =
      if displaced.map Record.verdict = none then [] else [.entryOf i id none] := by
  cases displaced <;> rfl

theorem completeNotice_entries (q : Questionnaire) : q.completeNotice.filter Notice.isEntry = [] := by
  unfold completeNotice
  split <;> rfl

/-- Of the notices about a record, those that the journal keeps tell of a verdict that changes. -/
theorem putNotices_entries {i : Nat} {item : Item} (hi : q.catalog.items[i]? = some item)
    (hlt : i < q.sessions.length) (s : Session) :
    (q.putNotices i s).filter Notice.isEntry =
      if q.store.verdicts i = (recordOf i item s).map Record.verdict then []
      else [.entryOf i item.id ((recordOf i item s).map Record.verdict)] := by
  have hs : (q.sessions.set i s)[i]? = some s := by simp [hlt]
  simp only [putNotices, sync, hs, hi]
  cases hr : recordOf i item s with
  | none => exact retractNotice_entries i item.id (q.store.get? i)
  | some r =>
    obtain ⟨-, -, hreq⟩ := recordOf_some.1 hr
    have hindex : r.index = i := by rw [hreq]
    have hid : r.id = item.id := by rw [hreq]
    simp only [Store.record, Store.verdicts, Option.map_some, List.filter_append, recordNotice_entries,
      completeNotice_entries, List.append_nil, hindex, hid]
    rfl

theorem chronicles_putSession {i : Nat} {item : Item} (hi : q.catalog.items[i]? = some item)
    (hlt : i < q.sessions.length) (s : Session) :
    Chronicles q.store.verdicts ((q.putNotices i s).filter Notice.isEntry) (q.putSession i s).store.verdicts := by
  rw [putNotices_entries hi hlt, verdicts_putSession hi hlt]
  exact .update ..

theorem quiet_entries {notices : List Notice} (h : ∀ n ∈ notices, n.level ≠ .info) :
    notices.filter Notice.isEntry = [] := by
  rw [List.filter_eq_nil_iff]
  intro n hn
  rw [Notice.not_isEntry (h n hn)]
  exact Bool.false_ne_true

/-- The entries of a reply tell how the verdicts change, in one step or none, and the store stays as it is after a
move and after a refusal. -/
structure Journals (q : Questionnaire) (e : Event) (r : Reply) : Prop where
  chronicles : Chronicles q.store.verdicts (r.notices.filter Notice.isEntry) r.next.store.verdicts
  once : (r.notices.filter Notice.isEntry).length ≤ 1
  silent : (e.isMove = true ∨ ∃ error, r.result = .error error) → r.notices.filter Notice.isEntry = []

theorem Journals.of_quiet {e : Event} {r : Reply} (hs : r.next.store = q.store)
    (hn : ∀ n ∈ r.notices, n.level ≠ .info) : Journals q e r := by
  have hnil := quiet_entries hn
  refine ⟨?_, by simp [hnil], fun _ => hnil⟩
  rw [hnil, hs]
  exact .done _

theorem Replies.journals {e : Event} {r : Reply} (h : Replies q e r) : Journals q e r := by
  cases h with
  | @taken item s f step t hi hs ht =>
    have hlt := (List.getElem?_eq_some_iff.1 hs).1
    have hstep : step.notices.filter Notice.isEntry = [] :=
      quiet_entries fun n hn => by simp [Session.take_quiet ht n hn]
    constructor
    · rw [List.filter_append, hstep, List.nil_append]
      exact chronicles_putSession hi hlt step.session
    · rw [List.filter_append, hstep, List.nil_append, putNotices_entries hi hlt]
      split <;> simp
    · rintro (hm | ⟨error, he⟩)
      · simp at hm
      · cases he
  | refused i f error => exact .of_quiet rfl (by simp [Notice.level])
  | @visited target t hlt =>
    refine .of_quiet rfl fun n hn => ?_
    split at hn
    · simp at hn
    · simp [List.mem_singleton.1 hn, Notice.level]
  | unreachable => exact .of_quiet rfl (by simp [Notice.level])
  | unknown => exact .of_quiet rfl (by simp)
  | advanced => exact .of_quiet rfl (by simp [Notice.level])
  | stuck => exact .of_quiet rfl (by simp)

/-! ## Every run -/

theorem Sound.chronicles (h : q.Sound) (es : List Event) :
    Chronicles q.store.verdicts (q.journal es) (q.run es).store.verdicts := by
  induction es generalizing q with
  | nil => exact .done _
  | cons e es ih =>
    rw [journal_cons]
    exact (h.replies e).journals.chronicles.append (ih (h.after e))

/-- In every run, the entries told so far read back as the verdicts on record, and each of them changes what was told
before it. An event makes at most one entry, and makes one exactly when it changes a verdict on record; a refused event
and a move make none. -/
theorem journal_faithful (c : Catalog) (es : List Event) :
    readBack ((new c).journal es) = ((new c).run es).store.verdicts ∧
    (∀ front n back, (new c).journal es = front ++ n :: back → readBack (front ++ [n]) ≠ readBack front) ∧
    ∀ e, (new c).journal (es ++ [e]) = (new c).journal es ++ ((new c).run es).entered e ∧
      (((new c).run es).entered e).length ≤ 1 ∧
      (((new c).run es).entered e = [] ↔ (((new c).run es).after e).store.verdicts = ((new c).run es).store.verdicts) ∧
      ((e.isMove = true ∨ ∃ error, (((new c).run es).apply e).result = .error error) →
        ((new c).run es).entered e = []) := by
  have hrun : Chronicles (fun _ => none) ((new c).journal es) ((new c).run es).store.verdicts :=
    (sound_new c).chronicles es
  refine ⟨hrun.foldl_eq, fun front n back he => hrun.changes he, fun e => ?_⟩
  have hstep : Journals ((new c).run es) e (((new c).run es).apply e) :=
    (((sound_new c).run es).replies e).journals
  exact ⟨journal_snoc .., hstep.once, hstep.chronicles.eq_nil_iff hstep.once, hstep.silent⟩

/-- An answer given twice is entered once, and one for an item that is not current not at all. -/
example :
    (new houseCatalog).journal [.main 0 .yes, .sub 0 0 0 .yes, .main 0 .no, .main 0 .no, .advance, .main 0 .yes,
      .navigate 0, .main 0 .yes] =
      [.verdictRecorded 0 "roof" .pass, .verdictRecorded 0 "roof" .fail, .verdictRetracted 0 "roof"] := by
  decide

end Questionnaire

end Appraisal
