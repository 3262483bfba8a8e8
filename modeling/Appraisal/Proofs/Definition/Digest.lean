import Appraisal.Definition.Canonical
import Appraisal.Proofs.Definition.Sources
import Appraisal.Proofs.Definition.WellFormed
import Appraisal.Proofs.Json
/-!
# What a digest identifies

The canonical form of a definition is a source of it (`CatalogDefinition.read_canonical`), and the compact text of that
form keeps all of it, so two definitions with the same canonical text are the same
(`CatalogDefinition.canonicalText_injective`). A definition is known from the catalog that it compiles to. So the digest
stands for the catalog, as far as the hash tells texts apart, and however the source was written.
-/

namespace Appraisal

/-! ## The canonical form is a source -/

namespace Node

theorem readOption_ofStr? (o : Option String) : readOption readText (ofJson (Json.ofStr? o)) = .ok o := by
  cases o <;> rfl

theorem mapM_ofJsonItems {read : Reading α} {f : α → Json} (h : ∀ a, read (ofJson (f a)) = .ok a) (as : List α) :
    (ofJsonItems (as.map f)).mapM read = .ok as := by
  induction as with
  | nil => rfl
  | cons a as ih => exact mapM_cons_ok.2 ⟨a, h a, as, ih, rfl⟩

end Node

theorem SubQuestion.read_canonical (q : SubQuestion) : SubQuestion.read (.ofJson q.canonical) = .ok q := by
  obtain ⟨title, favours⟩ := q
  cases favours <;> rfl

namespace LayerDefinition

theorem readWith_canonicalWith {read : Reading LayerDefinition} {next : Json} {rest : Option LayerDefinition}
    (hnext : Node.readOption read (.ofJson next) = .ok rest) (qs : List SubQuestion) (tag : String)
    (chainTag : Option String) :
    readWith read (.ofJson (canonicalWith next qs tag chainTag)) = .ok (make qs tag chainTag rest) := by
  simp only [readWith, bind_ok]
  exact ⟨_, rfl, qs, Node.mapM_ofJsonItems SubQuestion.read_canonical qs, tag, rfl, chainTag,
    Node.readOption_ofStr? chainTag, rest, hnext, rfl⟩

theorem height_canonicalWith (next : Json) (qs : List SubQuestion) (tag : String) (chainTag : Option String) :
    (Node.ofJson next).height < (Node.ofJson (canonicalWith next qs tag chainTag)).height :=
  Nat.lt_succ_of_le (Nat.le_max_left _ _)

/-- A chain is read back with as much depth as its canonical form has. -/
theorem readChain_canonical (l : LayerDefinition) :
    ∀ depth, (Node.ofJson l.canonical).height < depth → readChain depth (.ofJson l.canonical) = .ok l := by
  induction l with
  | last qs tag chainTag =>
    intro depth hdepth
    obtain ⟨depth, rfl⟩ := Nat.exists_eq_add_one_of_ne_zero (Nat.ne_zero_of_lt hdepth)
    have hnull : Node.readOption (readChain depth) (.ofJson .null) = .ok none := rfl
    exact readWith_canonicalWith hnull qs tag chainTag
  | followed qs tag chainTag next ih =>
    intro depth hdepth
    obtain ⟨depth, rfl⟩ := Nat.exists_eq_add_one_of_ne_zero (Nat.ne_zero_of_lt hdepth)
    have hnext : Node.readOption (readChain depth) (.ofJson next.canonical) = .ok (some next) := by
      have hread := ih depth (Nat.lt_of_lt_of_le (height_canonicalWith _ qs tag chainTag) (Nat.le_of_lt_succ hdepth))
      have hsome : Node.readOption (readChain depth) (.ofJson next.canonical) =
          (readChain depth (.ofJson next.canonical)).map some := by
        cases next <;> rfl
      rw [hsome, hread]
      rfl
    exact readWith_canonicalWith hnext qs tag chainTag

theorem read_canonical (l : LayerDefinition) : read (.ofJson l.canonical) = .ok l :=
  l.readChain_canonical _ (Nat.lt_succ_self _)

end LayerDefinition

theorem ItemDefinition.read_canonical (i : ItemDefinition) : ItemDefinition.read (.ofJson i.canonical) = .ok i := by
  simp only [ItemDefinition.read, bind_ok]
  exact ⟨_, rfl, i.id, rfl, i.title, rfl, i.description, Node.readOption_ofStr? _, i.yesHint, Node.readOption_ofStr? _,
    i.noHint, Node.readOption_ofStr? _, i.onYes, i.onYes.read_canonical, i.onNo, i.onNo.read_canonical, rfl⟩

namespace CatalogDefinition

/-- The canonical form of a definition is read as that definition. -/
theorem read_canonical (d : CatalogDefinition) : CatalogDefinition.read (.ofJson d.canonical) = .ok d := by
  simp only [CatalogDefinition.read, bind_ok]
  exact ⟨_, rfl, d.name, rfl, d.version, rfl, d.description, Node.readOption_ofStr? _, d.items,
    Node.mapM_ofJsonItems ItemDefinition.read_canonical d.items, rfl⟩

/-- What is read back has not been mixed up with anything else. -/
theorem canonical_injective : canonical.Injective := by
  intro d d' h
  have hd := d.read_canonical
  rw [h, read_canonical] at hd
  exact (Except.ok.inj hd).symm

/-- The canonical text of a definition tells the definition. -/
theorem canonicalText_injective : canonicalText.Injective :=
  Json.compact_injective.comp canonical_injective

theorem digest_eq_iff {d d' : CatalogDefinition} :
    d.digest = d'.digest ↔ Sha256.hex d.canonicalText = Sha256.hex d'.canonicalText := by
  rw [digest, digest, String.append_right_inj]

end CatalogDefinition

/-! ## The order of members -/

namespace Json

mutual

/-- The names of the members ascend in every object. -/
def Ascending : Json → Prop
  | arr xs => AscendingItems xs
  | obj ms => (ms.map (·.1)).Pairwise (· < ·) ∧ AscendingMembers ms
  | _ => True

def AscendingItems : List Json → Prop
  | [] => True
  | x :: xs => x.Ascending ∧ AscendingItems xs

def AscendingMembers : List (String × Json) → Prop
  | [] => True
  | (_, v) :: ms => v.Ascending ∧ AscendingMembers ms

end

theorem ascending_arr_map {f : α → Json} (h : ∀ a, (f a).Ascending) (as : List α) : (arr (as.map f)).Ascending := by
  rw [Ascending]
  induction as with
  | nil => trivial
  | cons a as ih => exact ⟨h a, ih⟩

theorem ascending_ofStr? (o : Option String) : (ofStr? o).Ascending := by
  cases o <;> trivial

end Json

theorem SubQuestion.canonical_ascending (q : SubQuestion) : q.canonical.Ascending :=
  have names : ["example", "title"].Pairwise (· < ·) := by decide
  ⟨names, trivial, trivial, trivial⟩

namespace LayerDefinition

theorem canonicalWith_ascending {next : Json} (hnext : next.Ascending) (qs : List SubQuestion) (tag : String)
    (chainTag : Option String) : (canonicalWith next qs tag chainTag).Ascending :=
  have names : ["next_layer", "next_layer_condition", "pass_condition", "questions"].Pairwise (· < ·) := by decide
  ⟨names, hnext, Json.ascending_ofStr? _, trivial, Json.ascending_arr_map SubQuestion.canonical_ascending qs, trivial⟩

theorem canonical_ascending (l : LayerDefinition) : l.canonical.Ascending := by
  induction l with
  | last qs tag chainTag =>
    have hnull : Json.null.Ascending := trivial
    exact canonicalWith_ascending hnull qs tag chainTag
  | followed qs tag chainTag next ih => exact canonicalWith_ascending ih qs tag chainTag

end LayerDefinition

theorem ItemDefinition.canonical_ascending (i : ItemDefinition) : i.canonical.Ascending :=
  have names : ["description", "id", "no_hint", "on_no", "on_yes", "title", "yes_hint"].Pairwise (· < ·) := by decide
  ⟨names, Json.ascending_ofStr? _, trivial, Json.ascending_ofStr? _, i.onNo.canonical_ascending,
    i.onYes.canonical_ascending, trivial, Json.ascending_ofStr? _, trivial⟩

namespace CatalogDefinition

/-- In the canonical form the members of every object stand in the order of their names. -/
theorem canonical_ascending (d : CatalogDefinition) : d.canonical.Ascending :=
  have names : ["description", "items", "name", "version"].Pairwise (· < ·) := by decide
  ⟨names, Json.ascending_ofStr? _, Json.ascending_arr_map ItemDefinition.canonical_ascending d.items, trivial, trivial,
    trivial⟩

/-! ## Digests and catalogs -/

/-- What the digests say of two definitions and the catalogs that they compile to. -/
structure Identified (d d' : CatalogDefinition) (c c' : Catalog) : Prop where
  /-- The texts that are hashed are the same exactly for the same catalog. -/
  texts : d.canonicalText = d'.canonicalText ↔ c = c'
  /-- So are the digests, as far as the hash tells these texts apart. -/
  digests : (Sha256.hex d.canonicalText = Sha256.hex d'.canonicalText → d.canonicalText = d'.canonicalText) →
    (d.digest = d'.digest ↔ c = c')
  /-- In the hashed text the members of every object stand in the order of their names. -/
  ordered : d.canonical.Ascending
  /-- What is hashed is a source of the definition too. -/
  source : CatalogDefinition.read (.ofJson d.canonical) = .ok d
  /-- A source that is written in another way is read as the same definition, and so has the same digest. -/
  sources : ∀ {n n' : Node}, CatalogDefinition.read n = .ok d → n.Rewritten n' → CatalogDefinition.read n' = .ok d

theorem eq_iff_of_compile {d d' : CatalogDefinition} {c c' : Catalog} (hd : d.compile = .ok c)
    (hd' : d'.compile = .ok c') : d = d' ↔ c = c' := by
  constructor
  · rintro rfl
    exact Except.ok.inj (hd.symm.trans hd')
  · rintro rfl
    rw [← (of_compile hd).2, (of_compile hd').2]

/-- Two definitions that compile are hashed as the same text exactly when their catalogs are the same. -/
theorem digest_identifies {d d' : CatalogDefinition} {c c' : Catalog} (hd : d.compile = .ok c)
    (hd' : d'.compile = .ok c') : Identified d d' c c' := by
  have htexts : d.canonicalText = d'.canonicalText ↔ c = c' :=
    canonicalText_injective.eq_iff.trans (eq_iff_of_compile hd hd')
  refine ⟨htexts, fun htold => ?_, d.canonical_ascending, d.read_canonical, fun hn h => read_steady.rewritten h hn⟩
  rw [digest_eq_iff, ← htexts]
  exact ⟨htold, congrArg Sha256.hex⟩

end CatalogDefinition

def doorway : CatalogDefinition :=
  ⟨"doorway", "1", none,
    [⟨"door", "Is it shut?", none, none, none, .last [] "pass-direct" none, .last [] "fail-direct" none⟩]⟩

/-- The doorway with a description, which is empty. -/
def describedDoorway : CatalogDefinition :=
  { doorway with description := some "" }

def door : Item :=
  ⟨"door", "Is it shut?", none, none, none, .last [] (.direct .pass), .last [] (.direct .fail)⟩

def doorTree : Node :=
  .map [(.plain "id", .plain "door"), (.plain "title", .text "Is it shut?"),
    (.plain "on_yes", .map [(.plain "pass_condition", .plain "pass-direct")]),
    (.plain "on_no", .map [(.plain "pass_condition", .plain "fail-direct")])]

/-- A source of the doorway that says that there is no description. -/
def doorwayTree : Node :=
  .map [(.plain "name", .plain "doorway"), (.plain "version", .text "1"), (.plain "description", .plain "~"),
    (.plain "items", .list [doorTree])]

/-- The same with the version in front and without the description. -/
def shorterDoorwayTree : Node :=
  .map [(.plain "version", .text "1"), (.plain "name", .plain "doorway"), (.plain "items", .list [doorTree])]

theorem doorway_shortened : doorwayTree.Rewritten shorterDoorwayTree :=
  .tail (.single (.omission [(.plain "name", .plain "doorway"), (.plain "version", .text "1")]
    [(.plain "items", .list [doorTree])] rfl (by decide) (by decide))) (.order (.swap _ _ _))

/-- No description is not the same as an empty one. -/
theorem doorway_identified :
    doorway.compile = .ok ⟨"doorway", "1", none, [door]⟩ ∧
      describedDoorway.compile = .ok ⟨"doorway", "1", some "", [door]⟩ ∧
      doorway.canonicalText ≠ describedDoorway.canonicalText ∧
      CatalogDefinition.read doorwayTree = .ok doorway ∧ CatalogDefinition.read shorterDoorwayTree = .ok doorway := by
  have hdoorway : doorway.compile = .ok ⟨"doorway", "1", none, [door]⟩ := by decide
  have hdescribed : describedDoorway.compile = .ok ⟨"doorway", "1", some "", [door]⟩ := by decide
  have hidentified := CatalogDefinition.digest_identifies hdoorway hdescribed
  have hread : CatalogDefinition.read doorwayTree = .ok doorway := by decide
  exact ⟨hdoorway, hdescribed, mt hidentified.texts.1 (by decide), hread, hidentified.sources hread doorway_shortened⟩

end Appraisal
