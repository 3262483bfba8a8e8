import Appraisal.Proofs.Command.Exits
import Appraisal.Proofs.Dialogue.Agreement
import Appraisal.Proofs.Dialogue.Offers
/-!
# Sittings

An interactive session over a catalog that loads never fails on what it offers: with picks that fit their menus it goes
on, round by round, until the user leaves or the picks run out. The events it issues are a script, and to replay that
script leads to the same results and to the same code.
-/

namespace Appraisal

/-- The loop before its first round. -/
def Sitting.start (c : Catalog) (picks : List Pick) : Sitting :=
  ⟨.new c, [], [], [], picks⟩

/-- Every pick is one that the menu it was given to accepts. -/
def Play.Fitting (p : Play) : Prop :=
  ∀ x ∈ p.shown, ∀ pick ∈ x.pick, x.menu.accepts pick = true

/-- What a sitting over `c` with `picks` comes to, told by its play `p`. -/
structure Sitting.Fluent (c : Catalog) (picks : List Pick) (p : Play) : Prop where
  /-- The loop ends, and no more rounds are made than there are picks and one. -/
  finite : ∃ n ≤ picks.length + 1, ∃ s,
    Rounds.run (Rounds.loop n) (.start c picks) = (.error p.ending, s) ∧ s.Ended p.ending p
  /-- Each round shows a menu or leaves the loop. -/
  rounds : ∀ n s, Rounds.run (Rounds.loop n) (.start c picks) = (.ok (), s) →
    (∃ x, s.shown ++ [x] <+: (Rounds.run Rounds.round s).2.shown) ∨ (Rounds.run Rounds.round s).1 = .error .left
  ending : p.ending = .left ∨ p.ending = .noMorePicks
  accepted : ∃ t, ((Questionnaire.new c).replay p.dialogue.issued).result = .ok ⟨p.dialogue.issued.length, t⟩
  results : ((Questionnaire.new c).replay p.dialogue.issued).questionnaire.results = p.dialogue.questionnaire.results
  complete : ((Questionnaire.new c).replay p.dialogue.issued).questionnaire.isComplete =
    p.dialogue.questionnaire.isComplete

namespace Dialogue

/-- A dialogue starts smoothly. -/
theorem smooth_start {definition : CatalogDefinition} {c : Catalog} (hc : definition.compile = .ok c) :
    (start (.new c)).Smooth c :=
  Follows.openRound hc (d := ⟨.new c, [], [], .left⟩) ⟨trivial, rfl⟩

/-- With picks that fit, nothing ends a play but the user or the end of the picks. -/
theorem play_fitting {definition : CatalogDefinition} {c : Catalog} (hc : definition.compile = .ok c) {d : Dialogue}
    (h : d.Smooth c) {picks : List Pick} (hfit : (d.play picks).Fitting) :
    (d.play picks).ending = .left ∨ (d.play picks).ending = .noMorePicks := by
  rcases (h.play hc picks).2 with hleft | hmore | ⟨m, pick, hmem, hbad⟩
  · exact .inl hleft
  · exact .inr hmore
  · have hgood : m.accepts pick = true := hfit _ hmem pick rfl
    rw [hbad] at hgood
    cases hgood

end Dialogue

namespace Sitting

/-- The loop comes to its end like the play. -/
theorem loop_finite (c : Catalog) (picks : List Pick) :
    ∃ n ≤ picks.length + 1, ∃ s, Rounds.run (Rounds.loop n) (start c picks) =
      (.error (start c picks).play.ending, s) ∧ s.Ended (start c picks).play.ending (start c picks).play := by
  obtain ⟨e, s, hrun⟩ := Rounds.loop_ends (s := start c picks) (Nat.lt_succ_self picks.length)
  have hagrees := Rounds.loop_agrees (picks.length + 1) (start c picks)
  rw [hrun] at hagrees
  have hended : s.Ended e (start c picks).play := hagrees
  rw [← hended.ending] at hrun hended
  exact ⟨picks.length + 1, Nat.le_refl _, s, hrun, hended⟩

/-- In a play that does not fail each round shows a menu or leaves the loop. -/
theorem round_goes_on {s₀ s : Sitting} {n : Nat} (hrun : Rounds.run (Rounds.loop n) s₀ = (.ok (), s))
    (hend : ∀ cause, s₀.play.ending ≠ .failed cause) :
    (∃ x, s.shown ++ [x] <+: (Rounds.run Rounds.round s).2.shown) ∨ (Rounds.run Rounds.round s).1 = .error .left := by
  rcases Rounds.round_shows s with hshows | hleft | ⟨cause, hfailed⟩
  · exact .inl hshows.menu
  · exact .inr hleft
  · -- The play would fail like the round.
    have hloop := Rounds.loop_agrees n s₀
    have hround := Rounds.round_agrees s
    rw [hrun] at hloop
    have hplay : s.play = s₀.play := hloop
    generalize Rounds.run Rounds.round s = r at hfailed hround
    obtain ⟨result, u⟩ := r
    cases hfailed
    have hended : u.Ended (.failed cause) s.play := hround
    exact absurd (hplay ▸ hended.ending) (hend cause)

theorem fluent_play {definition : CatalogDefinition} {c : Catalog} (hc : definition.compile = .ok c)
    {picks : List Pick} {p : Play} (hp : (Dialogue.start (.new c)).play picks = p) (hfit : p.Fitting) :
    Fluent c picks p := by
  subst hp
  have hstart := Dialogue.smooth_start hc
  obtain ⟨hsmooth, -⟩ := hstart.play hc picks
  have hend := Dialogue.play_fitting hc hstart hfit
  obtain ⟨haccepted, hreplay⟩ := Questionnaire.replay_accepted hsmooth.accepted
  rw [hsmooth.questionnaire] at hreplay
  refine ⟨loop_finite c picks, fun n s hrun => round_goes_on hrun fun cause => ?_, hend, haccepted, ?_, ?_⟩
  · change ((Dialogue.start (.new c)).play picks).ending ≠ .failed cause
    rcases hend with hend | hend <;> rw [hend] <;> exact fun h => by cases h
  · rw [hreplay]
  · rw [hreplay]

end Sitting

namespace Command

/-- A replay finds the catalog `c` and a script of `events`, and can write its report. -/
def Finds (t : FileTree) (o : SessionOptions) (script : String) (c : Catalog) (events : List Event) : Prop :=
  ∃ config l v t' t'', (prepare o : StateM FileTree _).run t = (.ok (config, l), t') ∧ l.catalog = c ∧
    (Script.load script : StateM FileTree _).run t' = (.ok ⟨v, events⟩, t'') ∧ CanWrite t'' config.output

/-- The code that a replay of accepted events ends with. -/
theorem replay_exit {t : FileTree} {o : SessionOptions} {script : String} {l : LoadedCatalog} {events : List Event}
    (h : Finds t o script l.catalog events) (haccepted : (Questionnaire.new l.catalog).Accepts events)
    (now now' : String) :
    ((replayScript now' script o : StateM FileTree _).run t).1.exit =
      .code (verdictCode (.of l ((Questionnaire.new l.catalog).run events) now)) := by
  obtain ⟨config, l', v, t', t'', hprepare, hcatalog, hscript, hwrite⟩ := h
  rw [← hcatalog] at haccepted ⊢
  obtain ⟨⟨last, hresult⟩, hreplay⟩ := Questionnaire.replay_accepted haccepted
  rw [replayScript_exit hprepare hscript hresult hwrite, hreplay]
  -- Neither the time nor the rest of what is loaded has a say in the verdict.
  rfl

/-- Whatever catalog is loaded and whatever is picked, as long as it fits the menus: the session goes on until the user
leaves or the picks run out, and no event it issues is refused, neither there nor in a replay. Once the user has left, a
replay of the events issued ends with the same code, if the reports can be written. -/
theorem sitting_replays {t t' : FileTree} {o : SessionOptions} {config : Config} {l : LoadedCatalog}
    (h : (prepare o : StateM FileTree _).run t = (.ok (config, l), t')) {picks : List Pick} {p : Play}
    (hp : (Dialogue.start (.new l.catalog)).play picks = p) (hfit : p.Fitting) :
    Sitting.Fluent l.catalog picks p ∧
      (p.ending = .left → CanWrite t' config.output → ∀ now, ∃ code,
        ((playSession now picks o : StateM FileTree _).run t).1.exit = .code code ∧
          ∀ u o' script now', Finds u o' script l.catalog p.dialogue.issued →
            ((replayScript now' script o' : StateM FileTree _).run u).1.exit = .code code) := by
  obtain ⟨d, hd⟩ := prepare_compiles (congrArg Prod.fst h)
  refine ⟨Sitting.fluent_play hd hp hfit, fun hleft hwrite now => ?_⟩
  subst hp
  obtain ⟨hsmooth, -⟩ := (Dialogue.smooth_start hd).play hd picks
  refine ⟨_, playSession_exit h hleft hwrite, fun u o' script now' hfinds => ?_⟩
  rw [replay_exit hfinds hsmooth.accepted now now', hsmooth.questionnaire]

/-! ## A sitting in a hut -/

/-- Two items, each with its verdict at once. -/
def hut : CatalogDefinition :=
  ⟨"hut", "1", none,
    [⟨"a", "A", none, none, none, .last [] "pass-direct" none, .last [] "fail-direct" none⟩,
      ⟨"b", "B", none, none, none, .last [] "pass-direct" none, .last [] "fail-direct" none⟩]⟩

def hutCatalog : Catalog :=
  ⟨"hut", "1", none,
    [⟨"a", "A", none, none, none, .last [] (.direct .pass), .last [] (.direct .fail)⟩,
      ⟨"b", "B", none, none, none, .last [] (.direct .pass), .last [] (.direct .fail)⟩]⟩

def hutText : String :=
  "name: hut\nversion: 1\nitems:\n" ++
    "- id: a\n  title: A\n  on_yes:\n    pass_condition: pass-direct\n  on_no:\n    pass_condition: fail-direct\n" ++
    "- id: b\n  title: B\n  on_yes:\n    pass_condition: pass-direct\n  on_no:\n    pass_condition: fail-direct\n"

/-- The first item is answered and left, then visited again and answered anew. -/
def hutPicks : List Pick :=
  [[0], [0], [2], [0], [1], [0], [1], [2]]

def hutEvents : List Event :=
  [.main 0 .yes, .advance, .navigate 0, .main 0 .no]

/-- The same events as a script. -/
def hutScript : String :=
  "version: 1\nevents:\n- main:\n    item: 0\n    answer: yes\n- advance\n" ++
    "- navigate:\n    target: 0\n- main:\n    item: 0\n    answer: no\n"

def hutFiles : FileTree :=
  ⟨[([], .directory), (["hut"], .directory), (["hut", "catalog.yaml"], .text hutText),
    (["hut", "answers.yaml"], .text hutScript)], ["hut"]⟩

def hutOptions : SessionOptions :=
  ⟨none, some "catalog.yaml", none, none⟩

theorem hut_ofText (source : CatalogSource) :
    LoadedCatalog.ofText source hutText = .ok ⟨hutCatalog, hut.digest, source⟩ := by
  have hparse : Yaml.read CatalogDefinition.read hutText = .ok hut := by decide +kernel
  have hcompile : hut.compile = .ok hutCatalog := by decide
  rw [LoadedCatalog.ofText, hparse]
  dsimp only
  rw [LoadedCatalog.ofDefinition, hcompile]

/-- A name leads to a place in the hut, where a file may be or not. -/
theorem hut_locate {name : String} (h : FileTree.IsName name) : hutFiles.locate name = .ok ["hut", name] :=
  FileTree.locate_name rfl h

theorem hut_catalogText : Files.textAt hutFiles "catalog.yaml" = .ok hutText := by
  rw [FileTree.textAt_of_locate (hut_locate (by decide))]
  rfl

theorem hut_scriptText : Files.textAt hutFiles "answers.yaml" = .ok hutScript := by
  rw [FileTree.textAt_of_locate (hut_locate (by decide))]
  rfl

/-- The catalog of the hut is loaded from its file. -/
theorem hut_loads :
    (Library.load "catalog.yaml" : StateM FileTree _).run hutFiles =
      (.ok ⟨hutCatalog, hut.digest, .file "catalog.yaml"⟩, hutFiles) := by
  have hname : Library.builtinName? "catalog.yaml" = none := by decide +kernel
  rw [Library.load, hname]
  dsimp only
  rw [Files.run_bind, Files.run_present, FileTree.stands_of_textAt hut_catalogText, if_pos rfl, Library.loadFile,
    Files.run_bind, Files.run_read, hut_catalogText]
  dsimp only
  rw [hut_ofText]
  rfl

/-- No configuration is in the hut, so the options alone decide. -/
theorem hut_settings {o : SessionOptions} (h : o.config = none) :
    (settings o : StateM FileTree _).run hutFiles = (.ok (overlay o .default), hutFiles) := by
  have hstands : Files.stands hutFiles defaultConfigFile = false := by
    rw [FileTree.stands_of_locate (hut_locate (by decide))]
    decide
  have hconfig : (configFile o : StateM FileTree _).run hutFiles = (none, hutFiles) := by
    rw [configFile, h]
    dsimp only
    rw [Files.run_bind, Files.run_present, hstands]
    rfl
  rw [settings, Files.run_bind, hconfig]
  rfl

theorem hut_prepared :
    (prepare hutOptions : StateM FileTree _).run hutFiles =
      (.ok (overlay hutOptions .default, ⟨hutCatalog, hut.digest, .file "catalog.yaml"⟩), hutFiles) := by
  rw [prepare, Files.run_bind, hut_settings rfl]
  dsimp only
  rw [Files.run_bind, show (overlay hutOptions .default).catalog = "catalog.yaml" from rfl, hut_loads]
  rfl

theorem hutScript_loads :
    (Script.load "answers.yaml" : StateM FileTree _).run hutFiles = (.ok ⟨1, hutEvents⟩, hutFiles) := by
  have hparse : Script.parse hutScript = .ok ⟨1, hutEvents⟩ := by decide +kernel
  rw [Script.load, Files.run_bind, Files.run_read, hut_scriptText]
  dsimp only
  rw [hparse]
  rfl

/-- The user leaves after all eight picks; the session and the replay of its script end alike. -/
theorem hut_replayed :
    (prepare hutOptions : StateM FileTree _).run hutFiles =
        (.ok (overlay hutOptions .default, ⟨hutCatalog, hut.digest, .file "catalog.yaml"⟩), hutFiles) ∧
      ((Dialogue.start (.new hutCatalog)).play hutPicks).Fitting ∧
      Sitting.Fluent hutCatalog hutPicks ((Dialogue.start (.new hutCatalog)).play hutPicks) ∧
      ((Dialogue.start (.new hutCatalog)).play hutPicks).ending = .left ∧
      ((Dialogue.start (.new hutCatalog)).play hutPicks).dialogue.issued = hutEvents ∧
      Finds hutFiles hutOptions "answers.yaml" hutCatalog hutEvents ∧
      ∃ code, ((playSession "" hutPicks hutOptions : StateM FileTree _).run hutFiles).1.exit = .code code ∧
        ((replayScript "" "answers.yaml" hutOptions : StateM FileTree _).run hutFiles).1.exit = .code code := by
  have hfit : ((Dialogue.start (.new hutCatalog)).play hutPicks).Fitting := by
    unfold Play.Fitting
    decide
  have hleft : ((Dialogue.start (.new hutCatalog)).play hutPicks).ending = .left := by decide
  have hissued : ((Dialogue.start (.new hutCatalog)).play hutPicks).dialogue.issued = hutEvents := by decide
  have hwrite : CanWrite hutFiles (overlay hutOptions .default).output := fun path hp => by cases hp
  have hfinds : Finds hutFiles hutOptions "answers.yaml" hutCatalog hutEvents :=
    ⟨_, _, _, _, _, hut_prepared, rfl, hutScript_loads, hwrite⟩
  obtain ⟨hfluent, hcodes⟩ := sitting_replays hut_prepared rfl hfit
  obtain ⟨code, hrun, hreplay⟩ := hcodes hleft hwrite ""
  exact ⟨hut_prepared, hfit, hfluent, hleft, hissued, hfinds, code, hrun,
    hreplay hutFiles hutOptions "answers.yaml" "" (hissued ▸ hfinds)⟩

end Command

end Appraisal
