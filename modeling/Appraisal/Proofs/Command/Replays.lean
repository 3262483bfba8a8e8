import Appraisal.Proofs.Command.Sittings
import Appraisal.Proofs.Questionnaire.Completeness
/-!
# How a replay ends

A replay looks for its configuration, its catalog and its script, on whatever files there are. Without one of them it
ends there and leaves the files alone. With all of them it emits one report, on what the accepted events have made of
the questionnaire, and its status tells whether an event was refused and whether every item passed. If the report cannot
be written, the status is that of a replay that lacks something.
-/

namespace Appraisal

/-! ## Looking for what is needed -/

/-- The action leaves the files as they are. -/
def Looks {σ α : Type} (x : StateM σ α) : Prop :=
  ∀ t, (x.run t).2 = t

namespace Looks
variable {σ α β : Type}

theorem pure (a : α) : Looks (Pure.pure a : StateM σ α) :=
  fun _ => rfl

theorem bind {x : StateM σ α} {f : α → StateM σ β} (hx : Looks x) (hf : ∀ a, Looks (f a)) : Looks (x >>= f) := by
  intro t
  rw [Files.run_bind, hf, hx]

/-- An action that only looks yields its result on the files that were there. -/
theorem run_bind {x : StateM σ α} (hx : Looks x) (f : α → StateM σ β) (t : σ) :
    (x >>= f).run t = (f (x.run t).1).run t := by
  rw [Files.run_bind, hx]

end Looks

section Files
variable {σ : Type} [Files (StateM σ)]

namespace Command

/-- The configuration, the catalog and the script can be loaded. -/
structure Loads (t : σ) (o : SessionOptions) (script : String) (config : Config) (l : LoadedCatalog) (s : Script) :
    Prop where
  config_ok : ((settings o : StateM σ _).run t).1 = .ok config
  catalog_ok : ((Library.load config.catalog : StateM σ _).run t).1 = .ok l
  script_ok : ((Script.load script : StateM σ _).run t).1 = .ok s

theorem Loads.unique {t : σ} {o : SessionOptions} {script : String} {config config' : Config} {l l' : LoadedCatalog}
    {s s' : Script} (h : Loads t o script config l s) (h' : Loads t o script config' l' s') :
    config = config' ∧ l = l' ∧ s = s' := by
  obtain ⟨hc, hl, hs⟩ := h
  obtain ⟨hc', hl', hs'⟩ := h'
  cases hc.symm.trans hc'
  cases hl.symm.trans hl'
  cases hs.symm.trans hs'
  exact ⟨rfl, rfl, rfl⟩

end Command

section Stable
variable [StableFiles σ]

theorem looks_present (path : String) : Looks (Files.present path : StateM σ _) :=
  StableFiles.present_run path

theorem looks_read (path : String) : Looks (Files.read path : StateM σ _) :=
  StableFiles.read_run path

theorem Config.looks_load (path : String) : Looks (Config.load path : StateM σ _) := by
  refine (looks_read path).bind fun text => ?_
  split
  · exact .pure _
  · split
    · exact .pure _
    · refine Looks.bind ?_ fun _ => .pure _
      unfold catalogFrom
      split
      · exact .pure _
      · exact (looks_present _).bind fun _ => .pure _

theorem Library.looks_load (reference : String) : Looks (Library.load reference : StateM σ _) := by
  unfold Library.load
  split
  · exact .pure _
  · refine (looks_present reference).bind fun found => ?_
    split
    · refine (looks_read reference).bind fun text => ?_
      split <;> exact .pure _
    · exact .pure _

theorem Script.looks_load (path : String) : Looks (Script.load path : StateM σ _) := by
  refine (looks_read path).bind fun text => ?_
  split <;> exact .pure _

namespace Command

theorem looks_settings (o : SessionOptions) : Looks (settings o : StateM σ _) := by
  have hfile : Looks (configFile o : StateM σ _) := by
    unfold configFile
    split
    · exact .pure _
    · exact (looks_present _).bind fun _ => .pure _
  refine hfile.bind fun path => ?_
  split
  · exact .pure _
  · exact (Config.looks_load _).bind fun _ => .pure _

/-- A replay either finds what it needs and goes on, or stops with a message. -/
theorem replayScript_cases (now script : String) (o : SessionOptions) (t : σ) :
    (∃ config l s, Loads t o script config l s ∧ (replayScript now script o : StateM σ _).run t =
      (concludeReplay now config l ((Questionnaire.new l.catalog).replay s.events) : StateM σ _).run t) ∨
    ((¬∃ config l s, Loads t o script config l s) ∧
      ∃ message, (replayScript now script o : StateM σ _).run t = (.misconfigured message, t)) := by
  simp only [replayScript, prepare, bind_assoc]
  rw [(looks_settings o).run_bind]
  cases hc : ((settings o : StateM σ _).run t).1 with
  | error e =>
    refine .inr ⟨?_, e.message, rfl⟩
    rintro ⟨config, l, s, h⟩
    cases hc.symm.trans h.config_ok
  | ok config =>
    dsimp only
    rw [bind_assoc, (Library.looks_load _).run_bind]
    cases hl : ((Library.load config.catalog : StateM σ _).run t).1 with
    | error e =>
      refine .inr ⟨?_, e.message, rfl⟩
      rintro ⟨config', l, s, h⟩
      cases hc.symm.trans h.config_ok
      cases hl.symm.trans h.catalog_ok
    | ok l =>
      dsimp only
      rw [pure_bind]
      dsimp only
      rw [(Script.looks_load _).run_bind]
      cases hs : ((Script.load script : StateM σ _).run t).1 with
      | error e =>
        refine .inr ⟨?_, e.message, rfl⟩
        rintro ⟨config', l', s, h⟩
        cases hs.symm.trans h.script_ok
      | ok s => exact .inl ⟨config, l, s, ⟨hc, hl, hs⟩, rfl⟩

end Command

end Stable

/-! ## The report -/

namespace Command

/-- The code that a session over the catalog of `l` ends with after a replay. -/
def replayCode (l : LoadedCatalog) (replay : Replay) (now : String) : ExitCode :=
  match replay.result with
  | .ok _ => verdictCode (.of l replay.questionnaire now)
  | .error _ => .rejected

theorem concludeReplay_delivered (now : String) (config : Config) (l : LoadedCatalog) (replay : Replay) (t : σ) :
    Delivered config.output (.of l replay.questionnaire now) (replayCode l replay now) t
      ((concludeReplay now config l replay : StateM σ _).run t).1
      ((concludeReplay now config l replay : StateM σ _).run t).2 := by
  have hdelivered := deliver_delivered config.output (.of l replay.questionnaire now) (replayCode l replay now) t
  unfold concludeReplay
  unfold replayCode at hdelivered ⊢
  cases hr : replay.result with
  | ok r => simpa only [hr] using hdelivered
  | error e =>
    -- The message about the refused event goes to the other output.
    simp only [hr] at hdelivered ⊢
    rw [Files.run_bind]
    cases hdelivered with
    | emitted hemits hexit => exact .emitted hemits hexit
    | unwritable hwrite hout hexit => exact .unwritable hwrite hout hexit

end Command

/-! ## The status -/

namespace Command
variable {q : Questionnaire}

/-- The verdict on a questionnaire with items is whether they all pass. -/
theorem verdictCode_cases (h : q.Sound) (hne : q.catalog.items ≠ []) (l : LoadedCatalog) (now : String) :
    (verdictCode (.of l q now) = .ok ∧ q.AllPass) ∨ (verdictCode (.of l q now) = .failed ∧ ¬q.AllPass) := by
  have hpass : ((Report.of l q now).complete && (Report.of l q now).summary.allPassed) = true ↔ q.AllPass :=
    h.allPassed_iff hne
  unfold verdictCode
  by_cases hall : q.AllPass
  · exact .inl ⟨if_pos (hpass.2 hall), hall⟩
  · exact .inr ⟨if_neg (mt hpass.1 hall), hall⟩

/-- What the status says about a replay of `events` over the catalog `c`. -/
structure CodeTells (c : Catalog) (events : List Event) (status : Nat) : Prop where
  rejected_iff : status = 3 ↔
    ∃ before e after cause, events = before ++ e :: after ∧ (Questionnaire.new c).Refuses before e cause
  passed_iff : status = 0 ↔ (Questionnaire.new c).Accepts events ∧ ((Questionnaire.new c).run events).AllPass
  failed_iff : status = 1 ↔ (Questionnaire.new c).Accepts events ∧ ¬((Questionnaire.new c).run events).AllPass

theorem codeTells_replayCode {l : LoadedCatalog} (hne : l.catalog.items ≠ []) (events : List Event) (now : String) :
    CodeTells l.catalog events (replayCode l ((Questionnaire.new l.catalog).replay events) now).toNat := by
  have hsound := Questionnaire.sound_new l.catalog
  rcases (Questionnaire.new l.catalog).accepts_or_refused events with h | ⟨before, e, after, cause, rfl, hr⟩
  · obtain ⟨⟨last, hresult⟩, hrun⟩ := Questionnaire.replay_accepted h
    have hitems : ((Questionnaire.new l.catalog).run events).catalog.items ≠ [] := by
      rwa [hsound.run_catalog]
    have hnone : ¬∃ before e after cause, events = before ++ e :: after ∧
        (Questionnaire.new l.catalog).Refuses before e cause := by
      rintro ⟨before, e, after, cause, rfl, hr⟩
      exact hr.not_accepts after h
    rw [replayCode, hresult, hrun]
    rcases verdictCode_cases (hsound.run events) hitems l now with ⟨hok, hall⟩ | ⟨hfailed, hall⟩
    · simp only [hok]
      exact ⟨iff_of_false nofun hnone, iff_of_true rfl ⟨h, hall⟩, iff_of_false nofun fun hf => hf.2 hall⟩
    · simp only [hfailed]
      exact ⟨iff_of_false nofun hnone, iff_of_false nofun fun hp => hall hp.2, iff_of_true rfl ⟨h, hall⟩⟩
  · have hnot := hr.not_accepts after
    rw [replayCode, (Questionnaire.replay_refused hr after).1]
    exact ⟨iff_of_true rfl ⟨before, e, after, cause, rfl, hr⟩, iff_of_false nofun fun hp => hnot hp.1,
      iff_of_false nofun fun hf => hnot hf.1⟩

/-- A replay that goes on is not taken for one that lacks something. -/
theorem toNat_replayCode_ne (l : LoadedCatalog) (replay : Replay) (now : String) :
    (replayCode l replay now).toNat ≠ 2 := by
  unfold replayCode verdictCode
  split
  · split_ifs <;> decide
  · decide

/-- The report `r`, made at `now`, is on what the accepted events of the script make of a questionnaire. -/
def ReportsOn (l : LoadedCatalog) (s : Script) (now : String) (r : Report) : Prop :=
  ∃ front, (Questionnaire.new l.catalog).AcceptsFront s.events front ∧
    r = .of l ((Questionnaire.new l.catalog).run front) now

theorem reportsOn_iff {l : LoadedCatalog} {s : Script} {now : String} {r : Report} :
    ReportsOn l s now r ↔ r = .of l ((Questionnaire.new l.catalog).replay s.events).questionnaire now := by
  have hsound := Questionnaire.sound_new l.catalog
  constructor
  · rintro ⟨front, hfront, rfl⟩
    rw [hsound.replay_front hfront]
  · rintro rfl
    obtain ⟨front, hfront⟩ := (Questionnaire.new l.catalog).exists_acceptsFront s.events
    exact ⟨front, hfront, by rw [hsound.replay_front hfront]⟩

/-- How a replay ends, with the conclusion `c` and the files `t'`, where it found the files `t`. -/
structure ReplayEnds (t : σ) (o : SessionOptions) (script now : String) (c : Conclusion) (t' : σ) : Prop where
  /-- The status is 2 when something cannot be loaded, and when the report cannot be written. -/
  misconfigured_iff : c.exit.toNat = 2 ↔
    (¬∃ config l s, Loads t o script config l s) ∨
      ∃ config l s r, Loads t o script config l s ∧ ReportsOn l s now r ∧ Unwritable config.output r t t'
  /-- With the status 2 no report is printed. -/
  silent : c.exit.toNat = 2 → c.out = ""
  /-- A replay that lacks something touches no file. -/
  untouched : (¬∃ config l s, Loads t o script config l s) → t' = t
  /-- Otherwise the report on the state after the accepted events is emitted and the status tells of the whole script,
  unless the report cannot be written. -/
  reported : ∀ config l s, Loads t o script config l s → ∃ r, ReportsOn l s now r ∧
    ((Emits config.output r t c.out t' ∧ CodeTells l.catalog s.events c.exit.toNat) ∨
      (Unwritable config.output r t t' ∧ c.exit.toNat = 2))

/-- With everything loaded it is the delivery of the report that counts. -/
theorem Loads.replayEnds {t t' : σ} {o : SessionOptions} {script now : String} {config : Config} {l : LoadedCatalog}
    {s : Script} {r : Report} {code : ExitCode} {c : Conclusion} (hloads : Loads t o script config l s)
    (hr : ReportsOn l s now r) (hcode : code.toNat ≠ 2) (htells : CodeTells l.catalog s.events code.toNat)
    (h : Delivered config.output r code t c t') : ReplayEnds t o script now c t' := by
  have huntouched : (¬∃ config l s, Loads t o script config l s) → t' = t :=
    fun hnot => absurd ⟨config, l, s, hloads⟩ hnot
  cases h with
  | emitted hemits hexit =>
    have hstatus : c.exit.toNat = code.toNat := by
      rw [hexit]
      rfl
    rw [← hstatus] at hcode htells
    refine ⟨iff_of_false hcode ?_, fun h => absurd h hcode, huntouched, ?_⟩
    · rintro (hnot | ⟨config', l', s', r', hloads', hr', hwrite⟩)
      · exact hnot ⟨config, l, s, hloads⟩
      · obtain ⟨rfl, rfl, rfl⟩ := hloads'.unique hloads
        cases (reportsOn_iff.1 hr').trans (reportsOn_iff.1 hr).symm
        exact hemits.not_unwritable hwrite
    · intro config' l' s' hloads'
      obtain ⟨rfl, rfl, rfl⟩ := hloads'.unique hloads
      exact ⟨r, hr, .inl ⟨hemits, htells⟩⟩
  | unwritable hwrite hout hexit =>
    have hstatus : c.exit.toNat = 2 := by
      rw [hexit]
      rfl
    refine ⟨iff_of_true hstatus (.inr ⟨config, l, s, r, hloads, hr, hwrite⟩), fun _ => hout, huntouched, ?_⟩
    intro config' l' s' hloads'
    obtain ⟨rfl, rfl, rfl⟩ := hloads'.unique hloads
    exact ⟨r, hr, .inr ⟨hwrite, hstatus⟩⟩

section Stable
variable [StableFiles σ]

theorem replayScript_ends (now script : String) (o : SessionOptions) (t : σ) :
    ReplayEnds t o script now ((replayScript now script o : StateM σ _).run t).1
      ((replayScript now script o : StateM σ _).run t).2 := by
  rcases replayScript_cases now script o t with ⟨config, l, s, hloads, hrun⟩ | ⟨hnot, message, hrun⟩
  · obtain ⟨d, hd⟩ := Library.load_compiles hloads.catalog_ok
    have hne : l.catalog.items ≠ [] := (CatalogDefinition.compile_judgeable hd).1
    rw [hrun]
    exact hloads.replayEnds (reportsOn_iff.2 rfl) (toNat_replayCode_ne l _ now)
      (codeTells_replayCode hne s.events now) (concludeReplay_delivered now config l _ t)
  · rw [hrun]
    exact ⟨iff_of_true rfl (.inl hnot), fun _ => rfl, fun _ => rfl, fun config l s h => absurd ⟨config, l, s, h⟩ hnot⟩

/-! ## The command line -/

/-- Arguments that ask for a replay and are accepted name a script. -/
theorem parse_replay {environment : Option String} {args : List String} {command : Command}
    (h : parse environment ("replay" :: args) = .ok command) : ∃ script o, command = .replay script o := by
  have hparse : parse environment ("replay" :: args) =
      Options.read CommandName.replay.specs args >>= fun found => ofOptions found environment .replay := rfl
  rw [hparse, bind_ok] at h
  obtain ⟨found, -, h⟩ := h
  simp only [ofOptions] at h
  split at h
  · cases h
    exact ⟨_, _, rfl⟩
  · cases h

/-- On whatever files, in whatever environment and with whatever arguments that are accepted: a replay has the status 2
exactly when its configuration, its catalog or its script cannot be loaded, and then it touches no file, or when its
report cannot be written. Otherwise the report is emitted, and the status is 3 when an event of the script is refused,
0 when all are accepted and every item passes, and 1 when they are accepted and some item does not. -/
theorem replay_code_tells {environment : Option String} {args : List String} {command : Command}
    (h : parse environment ("replay" :: args) = .ok command) :
    ∃ script o, command = .replay script o ∧ ∀ (now : String) (picks : List Pick) (t : σ),
      ReplayEnds t o script now ((command.perform now picks : StateM σ _).run t).1
        ((command.perform now picks : StateM σ _).run t).2 := by
  obtain ⟨script, o, rfl⟩ := parse_replay h
  exact ⟨script, o, rfl, fun now picks t => replayScript_ends now script o t⟩

end Stable

end Command

end Files

/-! ## Replays in the hut -/

namespace Command

def hutArguments (script : String) : List String :=
  ["--catalog", "catalog.yaml", "--script", script]

/-- Options that name the catalog of the hut, and no configuration, find all that a replay needs. -/
theorem hut_found {o : SessionOptions} (hconfig : o.config = none) (hcatalog : o.catalog = some "catalog.yaml") :
    Loads hutFiles o "answers.yaml" (overlay o .default) ⟨hutCatalog, hut.digest, .file "catalog.yaml"⟩
      ⟨1, hutEvents⟩ where
  config_ok := congrArg Prod.fst (hut_settings hconfig)
  catalog_ok := by
    rw [show (overlay o .default).catalog = "catalog.yaml" by simp [overlay, hcatalog], hut_loads]
  script_ok := congrArg Prod.fst hutScript_loads

theorem hut_not_found : ¬∃ config l s, Loads hutFiles hutOptions "nothing.yaml" config l s := by
  have htext : Files.textAt hutFiles "nothing.yaml" = .error .notFound := by
    rw [FileTree.textAt_of_locate (hut_locate (by decide))]
    rfl
  rintro ⟨config, l, s, -, -, hs⟩
  rw [Script.load, Files.run_bind, Files.run_read, htext] at hs
  cases hs

theorem hut_accepts : (Questionnaire.new hutCatalog).Accepts hutEvents := by
  refine Questionnaire.replay_ok_iff.1 ⟨⟨4, some ⟨0, .decided .fail, .done .fail, none⟩⟩, ?_⟩
  decide

theorem hut_not_allPass : ¬((Questionnaire.new hutCatalog).run hutEvents).AllPass := by
  intro hall
  obtain ⟨s, hs, hv⟩ := hall 0 (by decide)
  cases hs
  cases hv

/-- The script is accepted and its first item fails in the end, and that is reported. Without a script there is nothing
to report. -/
theorem hut_code_tells :
    parse none ("replay" :: hutArguments "answers.yaml") = .ok (.replay "answers.yaml" hutOptions) ∧
      (∃ c, (perform "" [] (.replay "answers.yaml" hutOptions) : StateM FileTree _).run hutFiles = (c, hutFiles) ∧
        c.exit.toNat = 1 ∧
        c.out = (Report.of ⟨hutCatalog, hut.digest, .file "catalog.yaml"⟩
          ((Questionnaire.new hutCatalog).run hutEvents) "").render .text) ∧
      parse none ("replay" :: hutArguments "nothing.yaml") = .ok (.replay "nothing.yaml" hutOptions) ∧
      ∃ c, (perform "" [] (.replay "nothing.yaml" hutOptions) : StateM FileTree _).run hutFiles = (c, hutFiles) ∧
        c.exit.toNat = 2 ∧ c.out = "" := by
  have hparse : parse none ("replay" :: hutArguments "answers.yaml") = .ok (.replay "answers.yaml" hutOptions) := by
    decide
  have hparse' : parse none ("replay" :: hutArguments "nothing.yaml") = .ok (.replay "nothing.yaml" hutOptions) := by
    decide
  refine ⟨hparse, ?_, hparse', ?_⟩
  · obtain ⟨script, o, hcommand, hends⟩ := replay_code_tells (σ := FileTree) hparse
    cases hcommand
    have hreported := (hends "" [] hutFiles).reported _ _ _ (hut_found rfl rfl)
    generalize (perform "" [] (.replay "answers.yaml" hutOptions) : StateM FileTree _).run hutFiles = r at hreported ⊢
    obtain ⟨report, ⟨front, hfront, rfl⟩, ⟨hemits, htells⟩ | ⟨⟨path, error, hpath, -⟩, -⟩⟩ := hreported
    · cases hfront.eq_of_accepts hut_accepts
      cases hemits with
      | printed _ hout hfiles =>
        exact ⟨r.1, Prod.ext rfl hfiles, htells.failed_iff.2 ⟨hut_accepts, hut_not_allPass⟩, hout⟩
      | written hpath _ _ => cases hpath
    · cases hpath
  · obtain ⟨script, o, hcommand, hends⟩ := replay_code_tells (σ := FileTree) hparse'
    cases hcommand
    have hends' := hends "" [] hutFiles
    have hstatus := hends'.misconfigured_iff.2 (.inl hut_not_found)
    exact ⟨_, Prod.ext rfl (hends'.untouched hut_not_found), hstatus, hends'.silent hstatus⟩

/-- Nothing is written into a directory that is not there. -/
theorem hut_write_refused (content : String) :
    (Files.write "nodir/out.txt" content : StateM FileTree _).run hutFiles = (.error .notFound, hutFiles) := by
  have hplain : FileTree.Plain "nodir/out.txt" := by decide
  have hnamed : String.ofList ("nodir/out.txt".toList.reverse.dropWhile (· = '/')).reverse = "nodir/out.txt" := by
    decide +kernel
  have hlocate : hutFiles.locate "nodir/out.txt" = .error .notFound := by
    rw [FileTree.locate_plain hplain]
    decide +kernel
  have htarget : hutFiles.target "nodir/out.txt" = .error .notFound := by
    simp only [FileTree.target, hplain.refusal?_eq_none, hnamed, hlocate]
    decide
  rw [FileTree.run_write, htarget]

def hutLostOptions : SessionOptions :=
  { hutOptions with output := some "nodir/out.txt" }

/-- All that a replay needs is there, but its report cannot be written: nothing is printed, no file changes, and the
status is 2, as it is without a script. -/
theorem hut_report_lost :
    parse none ("replay" :: hutArguments "answers.yaml" ++ ["--output", "nodir/out.txt"]) =
        .ok (.replay "answers.yaml" hutLostOptions) ∧
      (∃ config l s, Loads hutFiles hutLostOptions "answers.yaml" config l s) ∧
      ∃ c, (perform "" [] (.replay "answers.yaml" hutLostOptions) : StateM FileTree _).run hutFiles = (c, hutFiles) ∧
        c.exit.toNat = 2 ∧ c.out = "" := by
  have hparse : parse none ("replay" :: hutArguments "answers.yaml" ++ ["--output", "nodir/out.txt"]) =
      .ok (.replay "answers.yaml" hutLostOptions) := by decide
  have hfound := hut_found (o := hutLostOptions) rfl rfl
  have hends := replayScript_ends "" "answers.yaml" hutLostOptions hutFiles
  refine ⟨hparse, ⟨_, _, _, hfound⟩, ?_⟩
  change ∃ c, (replayScript "" "answers.yaml" hutLostOptions : StateM FileTree _).run hutFiles = (c, hutFiles) ∧ _
  generalize (replayScript "" "answers.yaml" hutLostOptions : StateM FileTree _).run hutFiles = r at hends ⊢
  obtain ⟨report, -, ⟨hemits, -⟩ | ⟨⟨path, error, hpath, hwrite⟩, hstatus⟩⟩ := hends.reported _ _ _ hfound
  · -- The report goes to the file or nowhere.
    cases hemits with
    | printed hnone _ _ => cases hnone
    | written hpath _ hwrite =>
      cases hpath
      cases (hut_write_refused _).symm.trans hwrite
  · cases hpath
    have hfiles := congrArg Prod.snd (hwrite.symm.trans (hut_write_refused _))
    exact ⟨r.1, Prod.ext rfl hfiles, hstatus, hends.silent hstatus⟩

end Command

end Appraisal
