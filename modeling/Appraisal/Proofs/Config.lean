import Appraisal.Proofs.Command.Replays
/-!
# Where the catalog of a configuration is looked for

A configuration names its catalog by a path from its own directory, and `Config.beside` is what such a name means: the
file there, or no file. The name is looked up twice, from that directory when the configuration is loaded and from the
working directory when the catalog is. `Config.catalog_beside_iff` says when this makes a difference.
-/

namespace Appraisal

/-! ## What is read -/

/-- Files, and the paths of those that have been read. -/
structure Logged (σ : Type) where
  files : σ
  reads : List String

namespace Logged
variable {σ : Type}

/-- An action on the files that reads those at `paths`. -/
def noting {α : Type} (paths : List String) (x : StateM σ α) : StateM (Logged σ) α := fun s =>
  ((x.run s.files).1, ⟨(x.run s.files).2, s.reads ++ paths⟩)

instance [Files (StateM σ)] : Files (StateM (Logged σ)) where
  present path := noting [] (Files.present path)
  read path := noting [path] (Files.read path)
  write path content := noting [] (Files.write path content)

end Logged

/-- The catalog in the file at `path`, by what a read of the file gives. -/
def LoadedCatalog.ofRead (path : String) : Except FileError String → Except CatalogError LoadedCatalog
  | .error e => .error (.unreadable path e)
  | .ok text => ofText (.file path) text

section Files
variable {σ : Type} [Files (StateM σ)]

section Stable
variable [StableFiles σ] (t : σ) (paths : List String) (path : String)

theorem Logged.run_present :
    (Files.present path : StateM (Logged σ) _).run ⟨t, paths⟩ = (Files.stands t path, ⟨t, paths⟩) := by
  have h : (Files.present path : StateM (Logged σ) _).run ⟨t, paths⟩ =
      (Files.stands t path, ⟨((Files.present path : StateM σ _).run t).2, paths ++ []⟩) := rfl
  rw [h, StableFiles.present_run, List.append_nil]

theorem Logged.run_read :
    (Files.read path : StateM (Logged σ) _).run ⟨t, paths⟩ = (Files.textAt t path, ⟨t, paths ++ [path]⟩) := by
  have h : (Files.read path : StateM (Logged σ) _).run ⟨t, paths⟩ =
      (Files.textAt t path, ⟨((Files.read path : StateM σ _).run t).2, paths ++ [path]⟩) := rfl
  rw [h, StableFiles.read_run]

end Stable

namespace Library

/-- What is loaded by a reference, and the files that are read for it. -/
def lookup (t : σ) (reference : String) : Except CatalogError LoadedCatalog × List String :=
  (((load reference : StateM σ _).run t).1, ((load reference : StateM (Logged σ) _).run ⟨t, []⟩).2.reads)

theorem lookup_builtin (t : σ) {reference name : String} (h : builtinName? reference = some name) :
    lookup t reference = (loadBuiltin name, []) := by
  simp only [lookup, load, h]
  rfl

section Stable
variable [StableFiles σ] {t : σ} {reference : String} (h : builtinName? reference = none)
include h

theorem lookup_file (hs : Files.stands t reference = true) :
    lookup t reference = (LoadedCatalog.ofRead reference (Files.textAt t reference), [reference]) := by
  simp only [lookup, load, h, Files.run_bind, Files.run_present, Logged.run_present, hs, if_true, loadFile,
    Files.run_read, Logged.run_read]
  cases Files.textAt t reference <;> rfl

theorem lookup_nothing (hs : Files.stands t reference = false) :
    lookup t reference = (loadBuiltin reference, []) := by
  simp only [lookup, load, h, Files.run_bind, Files.run_present, Logged.run_present, hs]
  rfl

end Stable

end Library

/-! ## Looking twice -/

namespace Config

/-- The configuration `c` is written in the file at `path`. -/
def Written (t : σ) (path : String) (c : Config) : Prop :=
  ∃ text, Files.textAt t path = .ok text ∧ parse text = .ok c

theorem Written.unique {t : σ} {path : String} {c c' : Config} (h : Written t path c) (h' : Written t path c') :
    c = c' := by
  obtain ⟨text, hread, hparse⟩ := h
  obtain ⟨text', hread', hparse'⟩ := h'
  cases hread.symm.trans hread'
  cases hparse.symm.trans hparse'
  rfl

/-- The path that `name` stands for in the configuration at `path`. -/
def place (path name : String) : String :=
  Path.join (Path.directory path) name

/-- What the catalog `name` of the configuration at `path` means, and the files that are read for it: the file beside
the configuration or, if there is none, a built-in catalog. -/
def beside (t : σ) (path name : String) : Except CatalogError LoadedCatalog × List String :=
  if Files.stands t (place path name) then
    (LoadedCatalog.ofRead (place path name) (Files.textAt t (place path name)), [place path name])
  else (Library.loadBuiltin name, [])

section Stable
variable [StableFiles σ] {t : σ} {path : String}

/-- What is loaded is written there, with its paths seen from there. -/
theorem load_ok_iff {config : Config} : ((load path : StateM σ _).run t).1 = .ok config ↔
    ∃ written, Written t path written ∧
      config = { written with
        catalog := ((catalogFrom (Path.directory path) written.catalog : StateM σ _).run t).1,
        output := outputFrom (Path.directory path) written.output } := by
  simp only [load, Files.run_bind, Files.run_read]
  constructor
  · intro h
    cases hread : Files.textAt t path with
    | error e =>
      rw [hread] at h
      cases h
    | ok text =>
      cases hparse : parse text with
      | error e =>
        simp only [hread, hparse] at h
        cases h
      | ok written =>
        simp only [hread, hparse] at h
        cases h
        exact ⟨written, ⟨text, hread, hparse⟩, rfl⟩
  · rintro ⟨written, ⟨text, hread, hparse⟩, rfl⟩
    simp only [hread, hparse]
    rfl

/-- What the catalog `name` of the configuration at `path` leads to when it is looked up as `reference`. -/
structure LooksBeside (t : σ) (path name reference : String) : Prop where
  /-- It is the file beside the configuration, or no file at all, but for two exceptions. -/
  beside_iff : Library.lookup t reference = beside t path name ↔
    if Files.stands t (place path name) then Library.builtinName? (place path name) = none
    else Files.stands t name = false
  /-- The path of the file there is taken for the name of a built-in catalog. -/
  mistaken : Files.stands t (place path name) = true →
    ∀ builtin, Library.builtinName? (place path name) = some builtin →
      Library.lookup t reference = (Library.loadBuiltin builtin, [])
  /-- Nothing is there, but something stands at that path from the working directory. -/
  elsewhere : Files.stands t (place path name) = false → Files.stands t name = true →
    Library.lookup t reference = (LoadedCatalog.ofRead name (Files.textAt t name), [name])

section Relative
variable {name : String} (hrelative : Path.isAbsolute name = false) (hname : Library.builtinName? name = none)
include hrelative hname

theorem run_catalogFrom (t : σ) (path : String) :
    ((catalogFrom (Path.directory path) name : StateM σ _).run t).1 =
      if Files.stands t (place path name) then place path name else name := by
  simp only [catalogFrom, hrelative, hname, Option.isSome_none, Bool.or_self, Bool.false_eq_true, if_false,
    Files.run_bind, Files.run_present]
  rfl

theorem looksBeside (t : σ) (path : String) :
    LooksBeside t path name ((catalogFrom (Path.directory path) name : StateM σ _).run t).1 := by
  rw [run_catalogFrom hrelative hname]
  -- The first look decides which reference is looked up, and the second one what it leads to.
  cases hplace : Files.stands t (place path name) with
  | true =>
    rw [if_pos rfl]
    cases hb : Library.builtinName? (place path name) with
    | none =>
      have hlookup := Library.lookup_file hb hplace
      exact ⟨by simp [beside, hlookup, hplace, hb], by simp [hb], by simp [hplace]⟩
    | some builtin =>
      have hlookup := Library.lookup_builtin t hb
      exact ⟨by simp [beside, hlookup, hplace, hb], by simp [hb, hlookup], by simp [hplace]⟩
  | false =>
    rw [if_neg Bool.false_ne_true]
    cases hs : Files.stands t name with
    | true =>
      have hlookup := Library.lookup_file hname hs
      exact ⟨by simp [beside, hlookup, hplace, hs], by simp [hplace], fun _ _ => hlookup⟩
    | false =>
      have hlookup := Library.lookup_nothing hname hs
      exact ⟨by simp [beside, hlookup, hplace, hs], by simp [hplace], by simp [hs]⟩

end Relative

/-- The catalog of a configuration that is loaded is the file beside it or no file at all, unless the path of the file
is taken for the name of a built-in catalog, or there is no file but one at the same path from the working directory. -/
theorem catalog_beside_iff {config : Config} (h : ((load path : StateM σ _).run t).1 = .ok config) :
    ∃ written, Written t path written ∧
      (Path.isAbsolute written.catalog = false → Library.builtinName? written.catalog = none →
        LooksBeside t path written.catalog config.catalog) := by
  obtain ⟨written, hwritten, rfl⟩ := load_ok_iff.1 h
  exact ⟨written, hwritten, fun hrelative hname => looksBeside hrelative hname t path⟩

end Stable

end Config

end Files

/-! ## A configuration in a directory of its own -/

namespace Config

def hutConfig : Config :=
  ⟨1, "catalog.yaml", ⟨.text, none⟩⟩

def hutConfigText : String :=
  "version: 1\ncatalog: catalog.yaml\n"

/-- The configuration in a directory below the working directory, and the catalog of the hut at `place`. -/
def configuredHut (place : List String) : FileTree :=
  ⟨[([], .directory), (["hut"], .directory), (["hut", "conf"], .directory),
    (["hut", "conf", "gauge.yaml"], .text hutConfigText), (place, .text Command.hutText)], ["hut"]⟩

theorem hut_place : place "conf/gauge.yaml" hutConfig.catalog = "conf/catalog.yaml" := by
  decide +kernel

theorem hut_relative : Path.isAbsolute hutConfig.catalog = false ∧ Library.builtinName? hutConfig.catalog = none :=
  ⟨by decide +kernel, by decide +kernel⟩

/-- A path of `conf` and a name leads beside the configuration. -/
theorem hut_locate {path name : String} (hpath : FileTree.Plain path) (hrelative : Path.isAbsolute path = false)
    (hparts : Path.parts path = ["conf", name]) (hname : FileTree.IsName name) (place : List String) :
    (configuredHut place).locate path = .ok ["hut", "conf", name] :=
  calc (configuredHut place).locate path
    _ = ["conf", name].foldlM (configuredHut place).stepTo ["hut"] := by
      rw [FileTree.locate_plain hpath, hparts, hrelative]
      rfl
    _ = [name].foldlM (configuredHut place).stepTo ["hut", "conf"] := FileTree.walk_name rfl (by decide) [name]
    _ = .ok ["hut", "conf", name] := FileTree.walk_name rfl hname []

theorem hut_locate_catalog (place : List String) :
    (configuredHut place).locate "conf/catalog.yaml" = .ok ["hut", "conf", "catalog.yaml"] :=
  hut_locate (by decide) (by decide +kernel) (by decide +kernel) (by decide) place

theorem hut_written (place : List String) : Written (configuredHut place) "conf/gauge.yaml" hutConfig := by
  have hplace : (configuredHut place).locate "conf/gauge.yaml" = .ok ["hut", "conf", "gauge.yaml"] :=
    hut_locate (by decide) (by decide +kernel) (by decide +kernel) (by decide) place
  have hparse : parse hutConfigText = .ok hutConfig := by decide +kernel
  exact ⟨hutConfigText, FileTree.textAt_of_locate hplace, hparse⟩

theorem hut_load {p : List String} {reference : String}
    (h : (if Files.stands (configuredHut p) "conf/catalog.yaml" then "conf/catalog.yaml" else "catalog.yaml") =
      reference) :
    ((load "conf/gauge.yaml" : StateM FileTree _).run (configuredHut p)).1 =
      .ok ⟨1, reference, ⟨.text, none⟩⟩ := by
  refine load_ok_iff.2 ⟨hutConfig, hut_written p, ?_⟩
  rw [run_catalogFrom hut_relative.1 hut_relative.2, hut_place, ← h]
  rfl

/-- The catalog stands beside the configuration, and it is read. -/
theorem hut_reads_beside :
    let t := configuredHut ["hut", "conf", "catalog.yaml"]
    Written t "conf/gauge.yaml" hutConfig ∧ Path.isAbsolute hutConfig.catalog = false ∧
      Library.builtinName? hutConfig.catalog = none ∧
      ∃ config, ((load "conf/gauge.yaml" : StateM FileTree _).run t).1 = .ok config ∧
        Library.lookup t config.catalog =
          (.ok ⟨Command.hutCatalog, Command.hut.digest, .file "conf/catalog.yaml"⟩, ["conf/catalog.yaml"]) := by
  intro t
  have htext : Files.textAt t "conf/catalog.yaml" = .ok Command.hutText :=
    FileTree.textAt_of_locate (hut_locate_catalog _)
  have hstands : Files.stands t "conf/catalog.yaml" = true := FileTree.stands_of_textAt htext
  have hload := hut_load (if_pos hstands)
  obtain ⟨written, hwritten, hlooks⟩ := catalog_beside_iff hload
  cases hwritten.unique (hut_written _)
  obtain ⟨hrelative, hname⟩ := hut_relative
  refine ⟨hut_written _, hrelative, hname, _, hload, ?_⟩
  have hbeside := (hlooks hrelative hname).beside_iff
  rw [hut_place, if_pos hstands] at hbeside
  rw [hbeside.2 (by decide +kernel), beside, hut_place, if_pos hstands, htext, LoadedCatalog.ofRead,
    Command.hut_ofText]

/-- Nothing stands beside the configuration, but a catalog of the working directory is read. -/
theorem hut_reads_elsewhere :
    let t := configuredHut ["hut", "catalog.yaml"]
    Written t "conf/gauge.yaml" hutConfig ∧ Path.isAbsolute hutConfig.catalog = false ∧
      Library.builtinName? hutConfig.catalog = none ∧
      beside t "conf/gauge.yaml" hutConfig.catalog = (.error (.notFound "catalog.yaml"), []) ∧
      ∃ config, ((load "conf/gauge.yaml" : StateM FileTree _).run t).1 = .ok config ∧
        Library.lookup t config.catalog =
          (.ok ⟨Command.hutCatalog, Command.hut.digest, .file "catalog.yaml"⟩, ["catalog.yaml"]) := by
  intro t
  have hnot : Files.stands t "conf/catalog.yaml" = false := FileTree.stands_of_locate (hut_locate_catalog _)
  have htext : Files.textAt t "catalog.yaml" = .ok Command.hutText :=
    FileTree.textAt_of_locate (FileTree.locate_name rfl (by decide))
  obtain ⟨hrelative, hname⟩ := hut_relative
  refine ⟨hut_written _, hrelative, hname, ?_, _, hut_load (if_neg (ne_true_of_eq_false hnot)), ?_⟩
  · rw [beside, hut_place, hnot]
    rfl
  · have hlookup : Library.lookup t "catalog.yaml" =
        (LoadedCatalog.ofRead "catalog.yaml" (Files.textAt t "catalog.yaml"), ["catalog.yaml"]) :=
      Library.lookup_file hname (FileTree.stands_of_textAt htext)
    rw [hlookup, htext, LoadedCatalog.ofRead, Command.hut_ofText]

end Config

end Appraisal
