import Appraisal.Command.Run
import Appraisal.Proofs.Files
/-!
# How commands end

What is loaded has been compiled. A report is delivered once, or its file cannot be written (`deliver_delivered`), and
over a tree of files that is known beforehand (`CanWrite`). What code a session ends with depends on its questionnaire
alone.
-/

namespace Appraisal

/-! ## What is loaded -/

theorem LoadedCatalog.ofDefinition_compiles {source : CatalogSource} {d : CatalogDefinition} {l : LoadedCatalog}
    (h : ofDefinition source d = .ok l) : d.compile = .ok l.catalog := by
  unfold ofDefinition at h
  cases hd : d.compile with
  | error e => simp [hd] at h
  | ok c =>
    simp only [hd, Except.ok.injEq] at h
    rw [← h]

theorem LoadedCatalog.ofText_compiles {source : CatalogSource} {text : String} {l : LoadedCatalog}
    (h : ofText source text = .ok l) : ∃ d : CatalogDefinition, d.compile = .ok l.catalog := by
  unfold ofText at h
  split at h
  · cases h
  · exact ⟨_, ofDefinition_compiles h⟩

namespace Library

theorem loadBuiltin_compiles {name : String} {l : LoadedCatalog} (h : loadBuiltin name = .ok l) :
    ∃ d : CatalogDefinition, d.compile = .ok l.catalog := by
  unfold loadBuiltin at h
  split at h
  · exact ⟨_, LoadedCatalog.ofDefinition_compiles h⟩
  · cases h

/-- A catalog that is loaded, from wherever, has been compiled from a definition. -/
theorem load_compiles {σ : Type} [Files (StateM σ)] {reference : String} {t : σ} {l : LoadedCatalog}
    (h : ((load reference : StateM σ _).run t).1 = .ok l) :
    ∃ d : CatalogDefinition, d.compile = .ok l.catalog := by
  unfold load at h
  split at h
  · exact loadBuiltin_compiles h
  · rw [Files.run_bind] at h
    split at h
    · unfold loadFile at h
      rw [Files.run_bind] at h
      split at h
      · cases h
      · exact LoadedCatalog.ofText_compiles h
    · exact loadBuiltin_compiles h

end Library

namespace Command

theorem prepare_compiles {o : SessionOptions} {t : FileTree} {c : Config} {l : LoadedCatalog}
    (h : ((prepare o : StateM FileTree _).run t).1 = .ok (c, l)) :
    ∃ d : CatalogDefinition, d.compile = .ok l.catalog := by
  unfold prepare at h
  rw [Files.run_bind] at h
  split at h
  · cases h
  · rw [Files.run_bind] at h
    split at h
    · cases h
    · next hl =>
      cases h
      exact Library.load_compiles hl

/-! ## Where reports go -/

section Reports
variable {σ : Type} [Files (StateM σ)]

/-- The report is emitted once. Either it is printed and all files stay as they are, or it is written to the file that
the output names and nothing is printed. -/
inductive Emits (output : Output) (r : Report) (t : σ) (printed : String) (t' : σ) : Prop
  | printed : output.path = none → printed = r.render output.format → t' = t → Emits output r t printed t'
  | written {path : String} : output.path = some path → printed = "" →
      (Files.write path (r.render output.format) : StateM σ _).run t = (.ok (), t') → Emits output r t printed t'

/-- The file that the output names does not take the report. -/
def Unwritable (output : Output) (r : Report) (t t' : σ) : Prop :=
  ∃ path error, output.path = some path ∧
    (Files.write path (r.render output.format) : StateM σ _).run t = (.error error, t')

/-- A report that is emitted is not held back. -/
theorem Emits.not_unwritable {output : Output} {r : Report} {t t' t'' : σ} {printed : String}
    (h : Emits output r t printed t') : ¬Unwritable output r t t'' := by
  rintro ⟨path, error, hpath, hwrite⟩
  cases h with
  | printed hnone _ _ => cases hnone.symm.trans hpath
  | written hpath' _ hrun =>
    cases hpath'.symm.trans hpath
    cases hrun.symm.trans hwrite

/-- What comes of delivering a report that a session of code `code` ends with. -/
inductive Delivered (output : Output) (r : Report) (code : ExitCode) (t : σ) (c : Conclusion) (t' : σ) : Prop
  | emitted : Emits output r t c.out t' → c.exit = .code code → Delivered output r code t c t'
  | unwritable {text : String} : Unwritable output r t t' → c.out = "" → c.exit = .fatal text →
      Delivered output r code t c t'

theorem deliver_delivered (output : Output) (r : Report) (code : ExitCode) (t : σ) :
    Delivered output r code t ((deliver r output code : StateM σ _).run t).1
      ((deliver r output code : StateM σ _).run t).2 := by
  unfold deliver
  cases hp : output.path with
  | none => exact .emitted (.printed hp rfl rfl) rfl
  | some path =>
    dsimp only
    rw [Files.run_bind]
    cases hw : (Files.write path (r.render output.format) : StateM σ _).run t with
    | mk result t' =>
      cases result with
      | ok u => exact .emitted (.written hp rfl hw) rfl
      | error e => exact .unwritable ⟨path, e, hp, hw⟩ rfl rfl

end Reports

/-- A report can be written: it goes to the output, or to a path that leads to a place for a file. -/
def CanWrite (t : FileTree) (output : Output) : Prop :=
  ∀ path, output.path = some path → ∃ place, t.target path = .ok place

theorem deliver_exit {t : FileTree} {output : Output} (h : CanWrite t output) (r : Report) (code : ExitCode) :
    ((deliver r output code : StateM FileTree Conclusion).run t).1.exit = .code code := by
  cases deliver_delivered output r code t with
  | emitted _ hexit => exact hexit
  | unwritable hwrite _ _ =>
    obtain ⟨path, error, hpath, hrun⟩ := hwrite
    obtain ⟨place, hplace⟩ := h path hpath
    rw [FileTree.run_write, hplace] at hrun
    cases hrun

/-! ## Sessions -/

section Sessions
variable {t t' : FileTree} {o : SessionOptions} {c : Config} {l : LoadedCatalog}
  (h : (prepare o : StateM FileTree _).run t = (.ok (c, l), t'))
include h

/-- An interactive session plays a dialogue over the catalog that is loaded, and shows its menus. -/
theorem playSession_run (now : String) (picks : List Pick) :
    (playSession now picks o : StateM FileTree _).run t =
      (concludePlay now c l ((Dialogue.start (.new l.catalog)).play picks) : StateM FileTree _).run t' := by
  rw [playSession, Files.run_bind, h]

/-- A user who leaves gets the code of the questionnaire. -/
theorem playSession_exit {now : String} {picks : List Pick}
    (hleft : ((Dialogue.start (.new l.catalog)).play picks).ending = .left) (hw : CanWrite t' c.output) :
    ((playSession now picks o : StateM FileTree _).run t).1.exit =
      .code (verdictCode (.of l ((Dialogue.start (.new l.catalog)).play picks).dialogue.questionnaire now)) := by
  rw [playSession_run h, concludePlay, Files.run_bind]
  have hend : (endPlay now c l ((Dialogue.start (.new l.catalog)).play picks) : StateM FileTree _) =
      conclude now c l ((Dialogue.start (.new l.catalog)).play picks).dialogue.questionnaire := by
    rw [endPlay, hleft]
    rfl
  rw [hend]
  exact deliver_exit hw _ _

/-- A replay that gets to the end of its script ends with the code of its questionnaire. -/
theorem replayScript_exit {now script : String} {s : Script} {t'' : FileTree} {replayed : Replayed}
    (hs : (Script.load script : StateM FileTree _).run t' = (.ok s, t''))
    (hr : ((Questionnaire.new l.catalog).replay s.events).result = .ok replayed) (hw : CanWrite t'' c.output) :
    ((replayScript now script o : StateM FileTree _).run t).1.exit =
      .code (verdictCode (.of l ((Questionnaire.new l.catalog).replay s.events).questionnaire now)) := by
  rw [replayScript, Files.run_bind, h]
  dsimp only
  rw [Files.run_bind, hs]
  dsimp only
  rw [concludeReplay, hr]
  exact deliver_exit hw _ _

end Sessions

end Command

end Appraisal
