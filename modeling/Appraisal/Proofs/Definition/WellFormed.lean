import Appraisal.Proofs.Definition
import Mathlib.Data.List.DropRight
/-!
# Well-formed definitions

`CatalogDefinition.WellFormed` says what a definition has to look like, without the checks and without their order.
These are exactly the definitions that compile (`of_compile`, `WellFormed.compiles`). A catalog can be written down
again (`Catalog.definition`), and that is the definition that it was compiled from, so nothing is lost.
-/

namespace Appraisal

/-! ## What is asked of a definition -/

/-- The tags that a layer may be judged by. -/
def conditionTags : List String :=
  ["pass-direct", "fail-direct", "all-yes", "all-no", "any-yes", "any-no", "max-yes", "max-no",
    "yes-to-one-or-less", "yes-to-two-or-more", "yes-to-only-pass-fail"]

/-- The tags that may lead to the next layer. -/
def chainTags : List String :=
  ["next-layer", "all-yes", "all-no", "any-yes", "any-no", "max-yes", "max-no", "yes-to-one-or-less",
    "yes-to-two-or-more"]

namespace LayerDefinition

/-- The layer and all those that follow it. -/
def layers : LayerDefinition → List LayerDefinition
  | last qs c t => [last qs c t]
  | followed qs c t next => followed qs c t next :: next.layers

/-- What is asked of one layer. -/
structure InOrder (l : LayerDefinition) : Prop where
  titles : ∀ q ∈ l.questions, Text.trim q.title ≠ ""
  condition : l.conditionTag ∈ conditionTags
  /-- A layer without questions decides by itself. -/
  direct : l.questions = [] → l.conditionTag = "pass-direct" ∨ l.conditionTag = "fail-direct"
  /-- The next layer and the tag that leads to it come together. -/
  chain : (l.chainTag = none ∧ l.next? = none) ∨
    ∃ tag ∈ chainTags, ∃ next, l.chainTag = some tag ∧ l.next? = some next

def WellFormed (l : LayerDefinition) : Prop :=
  ∀ m ∈ l.layers, m.InOrder

end LayerDefinition

namespace ItemDefinition

def branch (i : ItemDefinition) : Answer → LayerDefinition
  | .yes => i.onYes
  | .no => i.onNo

structure WellFormed (i : ItemDefinition) : Prop where
  title : Text.trim i.title ≠ ""
  branch : ∀ a, (i.branch a).WellFormed

end ItemDefinition

structure CatalogDefinition.WellFormed (d : CatalogDefinition) : Prop where
  name_ne : d.name ≠ ""
  name_chars : ∀ c ∈ d.name.toList, ('a' ≤ c ∧ c ≤ 'z') ∨ ('0' ≤ c ∧ c ≤ '9') ∨ c = '-'
  name_start : d.name.toList.head? ≠ some '-'
  name_end : d.name.toList.getLast? ≠ some '-'
  items_ne : d.items ≠ []
  ids : ∀ i ∈ d.items, Text.trim i.id ≠ ""
  ids_distinct : (d.items.map (·.id)).Nodup
  items : ∀ i ∈ d.items, i.WellFormed

/-! ## A catalog as it is written down -/

def Layer.definition : Layer → LayerDefinition
  | last qs c => .last qs c.tag none
  | chained qs c fallback next => .followed qs c.tag (some fallback.tag) next.definition

def Item.definition (i : Item) : ItemDefinition :=
  ⟨i.id, i.title, i.description, i.yesHint, i.noHint, i.onYes.definition, i.onNo.definition⟩

def Catalog.definition (c : Catalog) : CatalogDefinition :=
  ⟨c.name, c.version, c.description, c.items.map Item.definition⟩

/-! ## Blank texts -/

/-- A text is blank when nothing is left of it after trimming. -/
theorem Text.trim_eq_empty {s : String} : trim s = "" ↔ isBlank s = true := by
  have hempty : ∀ cs : List Char, String.ofList cs = "" ↔ cs = [] := fun cs =>
    ⟨fun h => by simpa using congrArg String.toList h, fun h => by rw [h]⟩
  have htrim : trim s = String.ofList ((s.toList.dropWhile isBlankChar).rdropWhile isBlankChar) := rfl
  rw [htrim, hempty, List.rdropWhile_eq_nil_iff, isBlank, List.all_eq_true]
  constructor
  · intro h
    -- Whatever the front is trimmed to starts with a character that is not blank.
    have hnil : s.toList.dropWhile isBlankChar = [] := by
      by_contra hne
      have hhead := List.head_dropWhile_not isBlankChar hne
      rw [h _ (List.head_mem hne)] at hhead
      cases hhead
    exact List.dropWhile_eq_nil_iff.1 hnil
  · intro h
    rw [List.dropWhile_eq_nil_iff.2 h]
    simp

/-! ## Tags -/

theorem mem_conditionTags {tag : String} : tag ∈ conditionTags ↔ ∃ c : Condition, c.tag = tag := by
  have h : conditionTags = Condition.all.map Condition.tag := by decide
  simp [h, Condition.mem_all]

theorem mem_chainTags {tag : String} : tag ∈ chainTags ↔ ∃ c : ChainCondition, c.tag = tag := by
  have h : chainTags = ChainCondition.all.map ChainCondition.tag := by decide
  simp [h, ChainCondition.mem_all]

theorem Condition.isDirect_iff {c : Condition} :
    c.isDirect = true ↔ c.tag = "pass-direct" ∨ c.tag = "fail-direct" := by
  have h : ∀ c ∈ all, c.isDirect = true ↔ c.tag = "pass-direct" ∨ c.tag = "fail-direct" := by decide
  exact h c c.mem_all

/-! ## Layers -/

namespace LayerDefinition

/-- The checks of a layer by itself, told by its titles and its tag. -/
theorem checkLayer_iff {questions : List SubQuestion} {tag : String} {c : Condition} :
    checkLayer questions tag = .ok c ↔ c.tag = tag ∧ (∀ q ∈ questions, Text.trim q.title ≠ "") ∧
      (questions = [] → tag = "pass-direct" ∨ tag = "fail-direct") := by
  simp only [checkLayer_ok, Condition.isDirect_iff, ne_eq, Text.trim_eq_empty, Bool.not_eq_true]
  constructor
  · rintro ⟨titles, rfl, direct⟩
    exact ⟨rfl, titles, direct⟩
  · rintro ⟨rfl, titles, direct⟩
    exact ⟨titles, rfl, direct⟩

theorem wellFormed_last {questions : List SubQuestion} {tag : String} {chainTag : Option String} :
    (last questions tag chainTag).WellFormed ↔
      (∃ c, checkLayer questions tag = .ok c) ∧ chainTag = none := by
  simp only [WellFormed, layers, List.mem_singleton, forall_eq]
  constructor
  · rintro ⟨titles, condition, direct, chain⟩
    obtain ⟨c, hc⟩ := mem_conditionTags.1 condition
    refine ⟨⟨c, checkLayer_iff.2 ⟨hc, titles, direct⟩⟩, ?_⟩
    rcases chain with ⟨hnone, -⟩ | ⟨_, -, _, -, hnext⟩
    · exact hnone
    · cases hnext
  · rintro ⟨⟨c, hc⟩, hnone⟩
    obtain ⟨htag, titles, direct⟩ := checkLayer_iff.1 hc
    exact ⟨titles, mem_conditionTags.2 ⟨c, htag⟩, direct, .inl ⟨hnone, rfl⟩⟩

theorem wellFormed_followed {questions : List SubQuestion} {tag : String} {chainTag : Option String}
    {next : LayerDefinition} :
    (followed questions tag chainTag next).WellFormed ↔
      (∃ c, checkLayer questions tag = .ok c) ∧ (∃ f : ChainCondition, chainTag = some f.tag) ∧
        next.WellFormed := by
  simp only [WellFormed, layers, List.mem_cons, forall_eq_or_imp]
  constructor
  · rintro ⟨⟨titles, condition, direct, chain⟩, hnext⟩
    obtain ⟨c, hc⟩ := mem_conditionTags.1 condition
    refine ⟨⟨c, checkLayer_iff.2 ⟨hc, titles, direct⟩⟩, ?_, hnext⟩
    rcases chain with ⟨-, hnone⟩ | ⟨_, htag, _, hchain, -⟩
    · cases hnone
    · obtain ⟨f, rfl⟩ := mem_chainTags.1 htag
      exact ⟨f, hchain⟩
  · rintro ⟨⟨c, hc⟩, ⟨f, hf⟩, hnext⟩
    obtain ⟨htag, titles, direct⟩ := checkLayer_iff.1 hc
    have hchain := mem_chainTags.2 ⟨f, rfl⟩
    exact ⟨⟨titles, mem_conditionTags.2 ⟨c, htag⟩, direct, .inr ⟨f.tag, hchain, next, hf, rfl⟩⟩, hnext⟩

/-- What compiles is well formed, and the layer that comes out is written like it. -/
theorem of_compile {d : LayerDefinition} {path : LayerPath} {l : Layer} (h : d.compile path = .ok l) :
    d.WellFormed ∧ l.definition = d := by
  induction d generalizing path l with
  | last questions tag chainTag =>
    simp only [compile, bind_ok, mapError_ok, checkNoChain_ok] at h
    obtain ⟨c, hc, -, rfl, hl⟩ := h
    cases hl
    exact ⟨wellFormed_last.2 ⟨⟨c, hc⟩, rfl⟩, by rw [Layer.definition, (checkLayer_ok.1 hc).2.1]⟩
  | followed questions tag chainTag next ih =>
    simp only [compile, bind_ok, mapError_ok, checkChain_ok] at h
    obtain ⟨c, hc, f, rfl, n, hn, hl⟩ := h
    cases hl
    obtain ⟨hnext, hdef⟩ := ih hn
    exact ⟨wellFormed_followed.2 ⟨⟨c, hc⟩, ⟨f, rfl⟩, hnext⟩,
      by rw [Layer.definition, (checkLayer_ok.1 hc).2.1, hdef]⟩

/-- What is well formed compiles. -/
theorem WellFormed.compiles {d : LayerDefinition} (h : d.WellFormed) (path : LayerPath) :
    ∃ l, d.compile path = .ok l := by
  induction d generalizing path with
  | last questions tag chainTag =>
    obtain ⟨⟨c, hc⟩, rfl⟩ := wellFormed_last.1 h
    simp only [compile, bind_ok, mapError_ok, checkNoChain_ok]
    exact ⟨.last questions c, c, hc, (), trivial, rfl⟩
  | followed questions tag chainTag next ih =>
    obtain ⟨⟨c, hc⟩, ⟨f, rfl⟩, hnext⟩ := wellFormed_followed.1 h
    obtain ⟨n, hn⟩ := ih hnext path.next
    simp only [compile, bind_ok, mapError_ok, checkChain_ok]
    exact ⟨.chained questions c f n, c, hc, f, rfl, n, hn, rfl⟩

end LayerDefinition

/-! ## Items -/

namespace ItemDefinition

theorem of_compile {d : ItemDefinition} {item : Item} (h : d.compile = .ok item) :
    d.WellFormed ∧ item.definition = d := by
  simp only [compile, guard_ok, bind_ok] at h
  obtain ⟨htitle, onYes, hyes, onNo, hno, hitem⟩ := h
  cases hitem
  obtain ⟨hyes, hyesDef⟩ := LayerDefinition.of_compile hyes
  obtain ⟨hno, hnoDef⟩ := LayerDefinition.of_compile hno
  refine ⟨⟨mt Text.trim_eq_empty.1 htitle, fun a => ?_⟩, by rw [Item.definition, hyesDef, hnoDef]⟩
  cases a with
  | yes => exact hyes
  | no => exact hno

theorem WellFormed.compiles {d : ItemDefinition} (h : d.WellFormed) : ∃ item, d.compile = .ok item := by
  obtain ⟨onYes, hyes⟩ := (h.branch .yes).compiles ⟨d.id, .yes, 0⟩
  obtain ⟨onNo, hno⟩ := (h.branch .no).compiles ⟨d.id, .no, 0⟩
  simp only [compile, guard_ok, bind_ok]
  exact ⟨_, mt Text.trim_eq_empty.2 h.title, onYes, hyes, onNo, hno, rfl⟩

end ItemDefinition

/-! ## Catalogs -/

namespace CatalogDefinition

/-- What is asked of the items that follow items with the ids `seen`. -/
structure ItemsWellFormed (seen : List String) (ds : List ItemDefinition) : Prop where
  ids : ∀ d ∈ ds, Text.trim d.id ≠ ""
  ids_new : ∀ d ∈ ds, d.id ∉ seen
  ids_distinct : (ds.map (·.id)).Nodup
  items : ∀ d ∈ ds, d.WellFormed

theorem itemsWellFormed_cons {seen : List String} {d : ItemDefinition} {ds : List ItemDefinition} :
    ItemsWellFormed seen (d :: ds) ↔
      Text.trim d.id ≠ "" ∧ d.id ∉ seen ∧ d.WellFormed ∧ ItemsWellFormed (d.id :: seen) ds := by
  constructor
  · rintro ⟨ids, new, distinct, items⟩
    rw [List.forall_mem_cons] at ids new items
    rw [List.map_cons, List.nodup_cons] at distinct
    refine ⟨ids.1, new.1, items.1, ids.2, fun e he hmem => ?_, distinct.2, items.2⟩
    rcases List.mem_cons.1 hmem with heq | hseen
    · exact distinct.1 (heq ▸ List.mem_map_of_mem he)
    · exact new.2 e he hseen
  · rintro ⟨hid, hnew, hitem, ids, new, distinct, items⟩
    refine ⟨List.forall_mem_cons.2 ⟨hid, ids⟩, List.forall_mem_cons.2 ⟨hnew, fun e he hseen => ?_⟩, ?_,
      List.forall_mem_cons.2 ⟨hitem, items⟩⟩
    · exact new e he (List.mem_cons_of_mem _ hseen)
    · rw [List.map_cons, List.nodup_cons]
      refine ⟨fun hmem => ?_, distinct⟩
      obtain ⟨e, he, heq⟩ := List.mem_map.1 hmem
      exact new e he (heq ▸ List.mem_cons_self)

theorem of_compileItems {catalog : String} {ds : List ItemDefinition} :
    ∀ {seen : List String} {items : List Item}, compileItems catalog seen ds = .ok items →
      ItemsWellFormed seen ds ∧ items.map Item.definition = ds := by
  induction ds with
  | nil =>
    intro seen items h
    cases h
    exact ⟨⟨by simp, by simp, by simp, by simp⟩, rfl⟩
  | cons d rest ih =>
    intro seen items h
    simp only [compileItems, guard_ok, bind_ok] at h
    obtain ⟨hid, hseen, item, hitem, others, hothers, hitems⟩ := h
    cases hitems
    obtain ⟨hitem, hdef⟩ := ItemDefinition.of_compile hitem
    obtain ⟨hrest, hrestDef⟩ := ih hothers
    exact ⟨itemsWellFormed_cons.2 ⟨mt Text.trim_eq_empty.1 hid, by simpa using hseen, hitem, hrest⟩,
      by rw [List.map_cons, hdef, hrestDef]⟩

theorem ItemsWellFormed.compiles (catalog : String) {ds : List ItemDefinition} :
    ∀ {seen : List String}, ItemsWellFormed seen ds → ∃ items, compileItems catalog seen ds = .ok items := by
  induction ds with
  | nil => exact fun _ => ⟨[], rfl⟩
  | cons d rest ih =>
    intro seen h
    obtain ⟨hid, hseen, hitem, hrest⟩ := itemsWellFormed_cons.1 h
    obtain ⟨item, hitem⟩ := hitem.compiles
    obtain ⟨others, hothers⟩ := ih hrest
    simp only [compileItems, guard_ok, bind_ok]
    exact ⟨item :: others, mt Text.trim_eq_empty.2 hid, by simpa using hseen, item, hitem, others, hothers, rfl⟩

theorem isValidCatalogName_iff {name : String} : isValidCatalogName name = true ↔
    name ≠ "" ∧ (∀ c ∈ name.toList, ('a' ≤ c ∧ c ≤ 'z') ∨ ('0' ≤ c ∧ c ≤ '9') ∨ c = '-') ∧
      name.toList.head? ≠ some '-' ∧ name.toList.getLast? ≠ some '-' := by
  simp [isValidCatalogName, isNameChar, or_assoc, and_assoc]

theorem of_compile {d : CatalogDefinition} {c : Catalog} (h : d.compile = .ok c) :
    d.WellFormed ∧ c.definition = d := by
  simp only [compile, guard_ok, bind_ok] at h
  obtain ⟨hname, hne, items, hitems, hc⟩ := h
  cases hc
  obtain ⟨⟨ids, -, distinct, all⟩, hdef⟩ := of_compileItems hitems
  obtain ⟨hn, hchars, hstart, hend⟩ := isValidCatalogName_iff.1 (by simpa using hname)
  exact ⟨⟨hn, hchars, hstart, hend, by simpa using hne, ids, distinct, all⟩, by rw [Catalog.definition, hdef]⟩

theorem WellFormed.compiles {d : CatalogDefinition} (h : d.WellFormed) : ∃ c, d.compile = .ok c := by
  have hname := isValidCatalogName_iff.2 ⟨h.name_ne, h.name_chars, h.name_start, h.name_end⟩
  have hitems : ItemsWellFormed [] d.items := ⟨h.ids, by simp, h.ids_distinct, h.items⟩
  obtain ⟨items, hitems⟩ := hitems.compiles d.name
  simp only [compile, guard_ok, bind_ok]
  exact ⟨_, by simp [hname], by simpa using h.items_ne, items, hitems, rfl⟩

/-- Compiling accepts exactly the well-formed definitions, and the catalog that comes out, written down, is the
definition that went in. -/
theorem compiles_iff_wellFormed (d : CatalogDefinition) :
    ((∃ c, d.compile = .ok c) ↔ d.WellFormed) ∧ ∀ c, d.compile = .ok c → c.definition = d :=
  ⟨⟨fun ⟨_, h⟩ => (of_compile h).1, WellFormed.compiles⟩, fun _ h => (of_compile h).2⟩

end CatalogDefinition

/-- One item, with a layer that leads on to another. -/
def cellar : CatalogDefinition :=
  ⟨"cellar-2", "1", some "before winter",
    [⟨"damp", "Is it damp?", none, some "feel the walls", none,
      .followed [⟨"Is there mould?", .fail⟩] "all-no" (some "any-yes")
        (.last [⟨"Is the wall sealed?", .pass⟩, ⟨"Does it drip?", .fail⟩] "yes-to-only-pass-fail" none),
      .last [] "pass-direct" none⟩]⟩

def damp : Item :=
  ⟨"damp", "Is it damp?", none, some "feel the walls", none,
    .chained [⟨"Is there mould?", .fail⟩] (.count .allNo) (.count .anyYes)
      (.last [⟨"Is the wall sealed?", .pass⟩, ⟨"Does it drip?", .fail⟩] .byExample),
    .last [] (.direct .pass)⟩

def cellarCatalog : Catalog :=
  ⟨"cellar-2", "1", some "before winter", [damp]⟩

theorem cellar_compiles : cellar.compile = .ok cellarCatalog := by
  decide

theorem cellar_written_back :
    cellar.compile = .ok cellarCatalog ∧ cellar.WellFormed ∧ cellarCatalog.definition = cellar :=
  ⟨cellar_compiles, (CatalogDefinition.compiles_iff_wellFormed cellar).1.1 ⟨cellarCatalog, cellar_compiles⟩,
    (CatalogDefinition.compiles_iff_wellFormed cellar).2 cellarCatalog cellar_compiles⟩

end Appraisal
