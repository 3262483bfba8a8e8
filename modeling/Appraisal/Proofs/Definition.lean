import Appraisal.Definition
import Mathlib.Logic.Function.Basic
/-!
# What compiling ensures

`Layer.Checked` says that every layer of a chain has passed the checks of a layer by itself. So no question has a
blank title, and a layer without questions, which has no answers to judge, has a direct condition
(`Layer.Judgeable`). A definition that compiles yields only checked branches, and at least one item.
-/

namespace Appraisal

/-! ## Steps of a check -/

theorem bind_ok {ε α β : Type} {x : Except ε α} {f : α → Except ε β} {b : β} :
    x >>= f = .ok b ↔ ∃ a, x = .ok a ∧ f a = .ok b := by
  cases x <;> simp [bind, Except.bind]

theorem mapError_ok {ε ε' α : Type} {x : Except ε α} {f : ε → ε'} {a : α} :
    x.mapError f = .ok a ↔ x = .ok a := by
  constructor <;> intro h <;> cases x <;> cases h <;> rfl

/-- A guard that lets a check go on did not fire. -/
theorem guard_ok {ε α β : Type} {c : Prop} [Decidable c] {e : ε} {f : β → Except ε α} {x : Except ε α} {a : α} :
    (if c then (throw e : Except ε β) >>= f else x) = .ok a ↔ ¬c ∧ x = .ok a := by
  by_cases hc : c <;> simp [hc, throw, throwThe, MonadExceptOf.throw, bind, Except.bind]

/-! ## Tags -/

/-- Looking a value up by its tag finds it, when no other value has that tag. -/
theorem find?_tag {α : Type} {f : α → String} (hf : f.Injective) {all : List α} (hall : ∀ a, a ∈ all)
    {tag : String} {a : α} : all.find? (f · == tag) = some a ↔ f a = tag := by
  constructor
  · intro h
    simpa using List.find?_some h
  · rintro rfl
    cases h : all.find? (f · == f a) with
    | none => simpa using List.find?_eq_none.1 h a (hall a)
    | some b =>
      have hb : f b = f a := by simpa using List.find?_some h
      rw [hf hb]

namespace Condition

theorem mem_all (c : Condition) : c ∈ all := by
  cases c with
  | direct v => cases v <;> decide
  | count t => cases t <;> decide
  | byExample => decide

theorem tag_injective : tag.Injective := by
  have h : ∀ c ∈ all, ∀ d ∈ all, c.tag = d.tag → c = d := by decide
  exact fun c d => h c c.mem_all d d.mem_all

theorem parse_ok {tag : String} {c : Condition} : parse tag = .ok c ↔ c.tag = tag := by
  rw [← find?_tag tag_injective mem_all]
  unfold parse
  cases all.find? (Condition.tag · == tag) <;> simp

end Condition

namespace ChainCondition

theorem mem_all (c : ChainCondition) : c ∈ all := by
  cases c with
  | nextLayer => decide
  | count t => cases t <;> decide

theorem tag_injective : tag.Injective := by
  have h : ∀ c ∈ all, ∀ d ∈ all, c.tag = d.tag → c = d := by decide
  exact fun c d => h c c.mem_all d d.mem_all

theorem parse_ok {tag : String} {c : ChainCondition} : parse tag = .ok c ↔ c.tag = tag := by
  rw [← find?_tag tag_injective mem_all]
  unfold parse
  cases all.find? (ChainCondition.tag · == tag) <;> simp

end ChainCondition

/-! ## The checks of one layer -/

theorem checkTitles_ok {questions : List SubQuestion} {u : Unit} :
    checkTitles questions = .ok u ↔ ∀ q ∈ questions, Text.isBlank q.title = false := by
  rw [← List.findIdx?_eq_none_iff]
  unfold checkTitles
  cases questions.findIdx? (fun q => Text.isBlank q.title) <;> simp

theorem checkCondition_ok {tag : String} {questions : List SubQuestion} {c : Condition} :
    checkCondition tag questions = .ok c ↔ c.tag = tag ∧ (questions = [] → c.isDirect = true) := by
  rw [← Condition.parse_ok]
  unfold checkCondition
  cases hp : Condition.parse tag with
  | error e =>
    by_cases ht : tag = ChainCondition.nextLayer.tag <;> simp [ht]
  | ok d =>
    by_cases hd : (questions.isEmpty && !d.isDirect) = true
    · simp only [hd, if_true, reduceCtorEq, false_iff]
      rintro ⟨heq, hdirect⟩
      cases heq
      simp only [Bool.and_eq_true, List.isEmpty_iff, Bool.not_eq_true'] at hd
      simp [hdirect hd.1] at hd
    · simp only [if_neg hd, Except.ok.injEq]
      constructor
      · rintro rfl
        exact ⟨rfl, fun hq => by simpa [hq] using hd⟩
      · exact fun h => h.1

theorem checkLayer_ok {questions : List SubQuestion} {tag : String} {c : Condition} :
    checkLayer questions tag = .ok c ↔
      (∀ q ∈ questions, Text.isBlank q.title = false) ∧ c.tag = tag ∧ (questions = [] → c.isDirect = true) := by
  simp only [checkLayer, bind_ok, checkTitles_ok, checkCondition_ok, exists_const]

theorem checkChain_ok {tag? : Option String} {c : ChainCondition} :
    checkChain tag? = .ok c ↔ tag? = some c.tag := by
  cases tag? with
  | none => simp [checkChain]
  | some tag =>
    rw [checkChain, checkFallback, mapError_ok, ChainCondition.parse_ok, Option.some.injEq]
    exact eq_comm

theorem checkNoChain_ok {tag? : Option String} {u : Unit} : checkNoChain tag? = .ok u ↔ tag? = none := by
  cases tag? with
  | none => simp [checkNoChain]
  | some tag => simp [checkNoChain, bind_ok]

/-! ## Layers -/

/-- Every layer of the chain passes the checks that concern it alone. -/
def Layer.Checked (l : Layer) : Prop :=
  ∀ depth m, l.descend depth = some m → ∃ tag, checkLayer m.questions tag = .ok m.condition

/-- Every layer of the chain that asks nothing judges nothing. -/
def Layer.Judgeable (l : Layer) : Prop :=
  ∀ depth m, l.descend depth = some m → m.questions = [] → m.condition.isDirect = true

theorem checkLayer_direct {questions : List SubQuestion} {tag : String} {c : Condition}
    (h : checkLayer questions tag = .ok c) (hq : questions = []) : c.isDirect = true :=
  (checkLayer_ok.1 h).2.2 hq

/-- No question of a checked layer has a blank title. -/
theorem checkLayer_titles {questions : List SubQuestion} {tag : String} {c : Condition}
    (h : checkLayer questions tag = .ok c) : ∀ q ∈ questions, Text.isBlank q.title = false :=
  (checkLayer_ok.1 h).1

theorem Layer.Checked.judgeable {l : Layer} (h : l.Checked) : l.Judgeable := by
  intro depth m hm
  obtain ⟨tag, htag⟩ := h depth m hm
  exact checkLayer_direct htag

theorem LayerDefinition.compile_checked {d : LayerDefinition} {path : LayerPath} {l : Layer}
    (h : d.compile path = .ok l) : l.Checked := by
  induction d generalizing path l with
  | last questions tag chain =>
    simp only [compile, bind_ok, mapError_ok] at h
    obtain ⟨c, hc, -, -, hl⟩ := h
    cases hl
    intro depth m hm
    cases depth with
    | zero =>
      cases hm
      exact ⟨tag, hc⟩
    | succ depth => cases hm
  | followed questions tag chain next ih =>
    simp only [compile, bind_ok, mapError_ok] at h
    obtain ⟨c, hc, fallback, -, n, hn, hl⟩ := h
    cases hl
    intro depth m hm
    cases depth with
    | zero =>
      cases hm
      exact ⟨tag, hc⟩
    | succ depth => exact ih hn depth m hm

/-! ## Items and catalogs -/

theorem ItemDefinition.compile_checked {d : ItemDefinition} {item : Item} (h : d.compile = .ok item)
    (a : Answer) : (item.branch a).Checked := by
  simp only [compile, guard_ok, bind_ok] at h
  obtain ⟨-, onYes, hyes, onNo, hno, hitem⟩ := h
  cases hitem
  cases a with
  | yes => exact LayerDefinition.compile_checked hyes
  | no => exact LayerDefinition.compile_checked hno

namespace CatalogDefinition

theorem compileItems_checked {catalog : String} {ds : List ItemDefinition} :
    ∀ {seen : List String} {items : List Item}, compileItems catalog seen ds = .ok items →
      items.length = ds.length ∧ ∀ item ∈ items, ∀ a, (item.branch a).Checked := by
  induction ds with
  | nil =>
    intro seen items h
    cases h
    exact ⟨rfl, fun _ hm => absurd hm List.not_mem_nil⟩
  | cons d rest ih =>
    intro seen items h
    simp only [compileItems, guard_ok, bind_ok] at h
    obtain ⟨-, -, item, hitem, others, hothers, hitems⟩ := h
    cases hitems
    obtain ⟨hlen, hall⟩ := ih hothers
    refine ⟨by simp [hlen], ?_⟩
    rintro i hi a
    rcases List.mem_cons.1 hi with rfl | hi
    · exact ItemDefinition.compile_checked hitem a
    · exact hall i hi a

/-- A catalog that compiles has items, and every layer of them is checked. -/
theorem compile_checked {d : CatalogDefinition} {c : Catalog} (h : d.compile = .ok c) :
    c.items ≠ [] ∧ ∀ item ∈ c.items, ∀ a, (item.branch a).Checked := by
  simp only [compile, guard_ok, bind_ok] at h
  obtain ⟨-, he, items, hitems, hc⟩ := h
  cases hc
  obtain ⟨hlen, hall⟩ := compileItems_checked hitems
  refine ⟨?_, hall⟩
  rintro (hnil : items = [])
  rw [hnil] at hlen
  exact he (List.isEmpty_iff.2 (List.eq_nil_of_length_eq_zero hlen.symm))

/-- A catalog that compiles has items, and every layer of them can be judged. -/
theorem compile_judgeable {d : CatalogDefinition} {c : Catalog} (h : d.compile = .ok c) :
    c.items ≠ [] ∧ ∀ item ∈ c.items, ∀ a, (item.branch a).Judgeable := by
  obtain ⟨hne, hall⟩ := compile_checked h
  exact ⟨hne, fun item hi a => (hall item hi a).judgeable⟩

end CatalogDefinition

end Appraisal
