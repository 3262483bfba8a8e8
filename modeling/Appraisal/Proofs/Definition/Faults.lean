import Appraisal.Proofs.Definition.WellFormed
/-!
# The first fault of a definition

`CatalogDefinition.faults` lists what is wrong with a definition from its beginning to its end. Each rule is looked at
by itself there, whatever else is wrong. Compiling stops at the first of these faults (`Reports`), and when that is a
fault of a layer, its path leads to the layer, with nothing wrong on the way (`Blames`).
-/

namespace Appraisal

/-! ## All faults, in the order of the document -/

namespace LayerDefinition

def titleFaults (l : LayerDefinition) : List LayerFault :=
  (l.questions.findIdxs fun q => Text.trim q.title = "").map .emptyQuestionTitle

/-- A tag by which no layer is judged. One of them leads to the next layer and does nothing else. -/
def conditionFaults (l : LayerDefinition) : List LayerFault :=
  if l.conditionTag ∈ conditionTags then []
  else if l.conditionTag = "next-layer" then [.chainOnlyCondition l.conditionTag]
  else [.unknownCondition (.among conditionTags l.conditionTag)]

/-- A condition that asks for answers where there is no question. -/
def directFaults (l : LayerDefinition) : List LayerFault :=
  if l.questions = [] then
    (Condition.all.filter fun c => c.tag = l.conditionTag && !c.isDirect).map .terminalNotDirect
  else []

/-- A next layer to which no tag leads. -/
def unledFaults (l : LayerDefinition) : List LayerFault :=
  if l.chainTag = none ∧ l.next? ≠ none then [.layerWithoutChain] else []

/-- A tag that leads nowhere, because it is not listed. -/
def chainTagFaults (l : LayerDefinition) : List LayerFault :=
  (l.chainTag.toList.filter (· ∉ chainTags)).map fun tag => .unknownChainCondition (.among chainTags tag)

/-- A tag that leads to a next layer, where there is none. -/
def danglingFaults (l : LayerDefinition) : List LayerFault :=
  if l.next? = none then
    (l.chainTag.toList.flatMap fun tag => ChainCondition.all.filter (·.tag = tag)).map .chainWithoutLayer
  else []

/-- What is wrong with the way to the next layer. -/
def linkFaults (l : LayerDefinition) : List LayerFault :=
  l.unledFaults ++ (l.chainTagFaults ++ l.danglingFaults)

/-- What is wrong with the layer by itself. -/
def faults (l : LayerDefinition) : List LayerFault :=
  l.titleFaults ++ (l.conditionFaults ++ l.directFaults) ++ l.linkFaults

/-- The layer `depth` steps down the chain. -/
def descend : LayerDefinition → Nat → Option LayerDefinition
  | l, 0 => some l
  | last _ _ _, _ + 1 => none
  | followed _ _ _ next, depth + 1 => next.descend depth

end LayerDefinition

namespace ItemDefinition

/-- The faults of a branch, layer by layer. -/
def branchFaults (i : ItemDefinition) (a : Answer) : List DefinitionError :=
  (i.branch a).layers.zipIdx.flatMap fun x => x.1.faults.map (.layer ⟨i.id, a, x.2⟩)

def faults (i : ItemDefinition) : List DefinitionError :=
  (if Text.trim i.title = "" then [.emptyTitle i.id] else []) ++ (i.branchFaults .yes ++ i.branchFaults .no)

end ItemDefinition

/-- Lowercase letters, digits and hyphens, with no hyphen at either end. -/
def ValidName (name : String) : Prop :=
  name ≠ "" ∧ (∀ c ∈ name.toList, ('a' ≤ c ∧ c ≤ 'z') ∨ ('0' ≤ c ∧ c ≤ '9') ∨ c = '-') ∧
    name.toList.head? ≠ some '-' ∧ name.toList.getLast? ≠ some '-'

instance : DecidablePred ValidName :=
  fun _ => decidable_of_iff _ CatalogDefinition.isValidCatalogName_iff

namespace CatalogDefinition

/-- The faults of item number `k`, whose id has to differ from those of the items before it. -/
def itemFaults (d : CatalogDefinition) (k : Nat) (i : ItemDefinition) : List DefinitionError :=
  (if Text.trim i.id = "" then [.emptyItemId d.name] else []) ++
    ((if i.id ∈ (d.items.take k).map (·.id) then [.duplicateItemId d.name i.id] else []) ++ i.faults)

def faults (d : CatalogDefinition) : List DefinitionError :=
  (if ValidName d.name then [] else [.invalidCatalogName d.name]) ++
    ((if d.items = [] then [.emptyCatalog d.name] else []) ++
      d.items.zipIdx.flatMap fun x => d.itemFaults x.2 x.1)

/-- The layer that a path leads to: down the branch of the first item with the id. -/
def layerAt? (d : CatalogDefinition) (path : LayerPath) : Option LayerDefinition :=
  (d.items.find? (·.id = path.item)).bind fun i => (i.branch path.branch).descend path.depth

end CatalogDefinition

/-! ## Checks that report the first fault -/

/-- The check passes when there is no fault, and fails with the first one otherwise. -/
inductive Reports {ε α : Type} : Except ε α → List ε → Prop
  | passes (a : α) : Reports (.ok a) []
  | fails (e : ε) (later : List ε) : Reports (.error e) (e :: later)

namespace Reports
variable {ε ε' α β : Type}

theorem error_iff {x : Except ε α} {faults : List ε} (h : Reports x faults) (e : ε) :
    x = .error e ↔ faults.head? = some e := by
  cases h with
  | passes a => simp
  | fails e' later => simp

theorem nil_iff {x : Except ε α} {faults : List ε} (h : Reports x faults) : faults = [] ↔ ∃ a, x = .ok a := by
  cases h with
  | passes a => simp
  | fails e later => simp

/-- What is checked next may have faults of its own. -/
theorem bind {x : Except ε α} {f : α → Except ε β} {fs gs : List ε} (h : Reports x fs)
    (hf : ∀ a, x = .ok a → Reports (f a) gs) : Reports (x >>= f) (fs ++ gs) := by
  cases h with
  | passes a => exact hf a rfl
  | fails e later => exact fails e (later ++ gs)

theorem mapError {x : Except ε α} {fs : List ε} (h : Reports x fs) (f : ε → ε') :
    Reports (x.mapError f) (fs.map f) := by
  cases h with
  | passes a => exact passes a
  | fails e later => exact fails (f e) (later.map f)

/-- A guard that fires has found the fault that it is there for. -/
theorem guard {c c' : Prop} [Decidable c] [Decidable c'] {e : ε} {f : β → Except ε α} {x : Except ε α} {fs : List ε}
    (hc : c ↔ c') (h : ¬c → Reports x fs) :
    Reports (if c then (throw e : Except ε β) >>= f else x) ((if c' then [e] else []) ++ fs) := by
  by_cases hn : c
  · rw [if_pos hn, if_pos (hc.1 hn)]
    exact fails e fs
  · rw [if_neg hn, if_neg (mt hc.2 hn)]
    exact h hn

end Reports

/-! ## Layers -/

theorem head?_findIdxs {α : Type} (p : α → Bool) (xs : List α) : (xs.findIdxs p).head? = xs.findIdx? p := by
  induction xs with
  | nil => rfl
  | cons x xs ih =>
    rw [List.findIdxs_cons, List.findIdx?_cons]
    by_cases hx : p x = true
    · rw [if_pos hx, if_pos hx, List.head?_cons]
    · rw [if_neg hx, if_neg hx, List.findIdxs_start, List.head?_map, ih, Nat.zero_add]

theorem conditionTags_eq : conditionTags = Condition.all.map Condition.tag := by
  decide

theorem chainTags_eq : chainTags = ChainCondition.all.map ChainCondition.tag := by
  decide

theorem Condition.parse_error {tag : String} {e : UnknownTag} (h : parse tag = .error e) :
    tag ∉ conditionTags ∧ e = .among conditionTags tag := by
  constructor
  · intro hmem
    obtain ⟨c, hc⟩ := mem_conditionTags.1 hmem
    cases h.symm.trans (parse_ok.2 hc)
  · unfold parse at h
    split at h
    · cases h
    · cases h
      rw [conditionTags_eq]

theorem ChainCondition.parse_error {tag : String} {e : UnknownTag} (h : parse tag = .error e) :
    tag ∉ chainTags ∧ e = .among chainTags tag := by
  constructor
  · intro hmem
    obtain ⟨c, hc⟩ := mem_chainTags.1 hmem
    cases h.symm.trans (parse_ok.2 hc)
  · unfold parse at h
    split at h
    · cases h
    · cases h
      rw [chainTags_eq]

namespace LayerDefinition

theorem checkTitles_reports (l : LayerDefinition) : Reports (checkTitles l.questions) l.titleFaults := by
  have hblank : (fun q : SubQuestion => decide (Text.trim q.title = "")) = fun q => Text.isBlank q.title := by
    funext q
    simp [Text.trim_eq_empty]
  have hhead := head?_findIdxs (fun q : SubQuestion => Text.isBlank q.title) l.questions
  unfold checkTitles titleFaults
  rw [hblank, ← hhead]
  cases l.questions.findIdxs fun q => Text.isBlank q.title with
  | nil => exact .passes ()
  | cons i later => exact .fails _ _

theorem checkCondition_reports (l : LayerDefinition) :
    Reports (checkCondition l.conditionTag l.questions) (l.conditionFaults ++ l.directFaults) := by
  unfold checkCondition
  cases hp : Condition.parse l.conditionTag with
  | error e =>
    obtain ⟨hmem, rfl⟩ := Condition.parse_error hp
    rw [conditionFaults, if_neg hmem]
    by_cases ht : l.conditionTag = "next-layer"
    · simp only [ht, ChainCondition.tag, if_true]
      exact .fails _ _
    · simp only [ht, ChainCondition.tag, if_false]
      exact .fails _ _
  | ok c =>
    have htag := Condition.parse_ok.1 hp
    have hmem : l.conditionTag ∈ conditionTags := mem_conditionTags.2 ⟨c, htag⟩
    -- The condition is the only one with its tag.
    have honly : ∀ c ∈ Condition.all, (Condition.all.filter fun c' => c'.tag = c.tag && !c'.isDirect) =
        if c.isDirect then [] else [c] := by
      decide
    rw [conditionFaults, if_pos hmem, List.nil_append, directFaults, ← htag, honly c c.mem_all]
    by_cases hq : l.questions = []
    · cases hd : c.isDirect with
      | true => simpa [hq, hd] using Reports.passes c
      | false => simpa [hq, hd] using Reports.fails (LayerFault.terminalNotDirect c) []
    · simpa [hq] using Reports.passes c

theorem checkLayer_reports (l : LayerDefinition) :
    Reports (checkLayer l.questions l.conditionTag) (l.titleFaults ++ (l.conditionFaults ++ l.directFaults)) :=
  l.checkTitles_reports.bind fun _ _ => l.checkCondition_reports

/-- A tag is looked up in the list of those that may lead to the next layer. -/
theorem checkFallback_reports (tag : String) :
    Reports (checkFallback tag)
      (((some tag).toList.filter (· ∉ chainTags)).map fun t => .unknownChainCondition (.among chainTags t)) := by
  unfold checkFallback
  cases hp : ChainCondition.parse tag with
  | error e =>
    obtain ⟨hmem, rfl⟩ := ChainCondition.parse_error hp
    rw [Option.toList_some, List.filter_cons_of_pos (by simpa using hmem)]
    exact .fails _ _
  | ok c =>
    have hmem : tag ∈ chainTags := mem_chainTags.2 ⟨c, ChainCondition.parse_ok.1 hp⟩
    rw [Option.toList_some, List.filter_cons_of_neg (by simpa using hmem)]
    exact .passes c

theorem checkFallback_ok {tag : String} {c : ChainCondition} : checkFallback tag = .ok c ↔ c.tag = tag := by
  rw [checkFallback, mapError_ok, ChainCondition.parse_ok]

theorem checkNoChain_reports (questions : List SubQuestion) (conditionTag : String) (chainTag : Option String) :
    Reports (checkNoChain chainTag) (last questions conditionTag chainTag).linkFaults := by
  cases chainTag with
  | none =>
    have hnone : (last questions conditionTag none).linkFaults = [] := by
      simp [linkFaults, unledFaults, chainTagFaults, danglingFaults, chainTag, next?]
    rw [hnone]
    exact .passes ()
  | some tag =>
    refine (checkFallback_reports tag).bind fun c hc => ?_
    have honly : ∀ c ∈ ChainCondition.all, ChainCondition.all.filter (·.tag = c.tag) = [c] := by
      decide
    have hdangling : (last questions conditionTag (some tag)).danglingFaults = [.chainWithoutLayer c] := by
      simp [danglingFaults, chainTag, next?, ← checkFallback_ok.1 hc, honly c c.mem_all]
    rw [hdangling]
    exact .fails _ _

theorem checkChain_reports (questions : List SubQuestion) (conditionTag : String) (chainTag : Option String)
    (next : LayerDefinition) :
    Reports (checkChain chainTag) (followed questions conditionTag chainTag next).linkFaults := by
  cases chainTag with
  | none =>
    have h : (followed questions conditionTag none next).unledFaults = [.layerWithoutChain] := by
      simp [unledFaults, LayerDefinition.chainTag, next?]
    rw [linkFaults, h]
    exact .fails _ _
  | some tag =>
    have h : (followed questions conditionTag (some tag) next).linkFaults =
        (followed questions conditionTag (some tag) next).chainTagFaults := by
      simp [linkFaults, unledFaults, danglingFaults, LayerDefinition.chainTag, next?]
    rw [h]
    exact checkFallback_reports tag

/-- Compiling a branch reports the first fault on the way down, with the depth of its layer. -/
theorem compile_reports (l : LayerDefinition) (path : LayerPath) :
    Reports (l.compile path)
      ((l.layers.zipIdx path.depth).flatMap fun x => x.1.faults.map (.layer { path with depth := x.2 })) := by
  induction l generalizing path with
  | last questions tag chainTag =>
    rw [layers, List.zipIdx_singleton, List.flatMap_singleton, faults, List.map_append]
    have hown := (checkLayer_reports (last questions tag chainTag)).mapError (DefinitionError.layer path)
    refine hown.bind fun c _ => ?_
    have hlink := (checkNoChain_reports questions tag chainTag).mapError (DefinitionError.layer path)
    have h := hlink.bind fun _ _ => Reports.passes (Layer.last questions c)
    rwa [List.append_nil] at h
  | followed questions tag chainTag next ih =>
    rw [layers, List.zipIdx_cons, List.flatMap_cons, faults, List.map_append, List.append_assoc]
    have hown := (checkLayer_reports (followed questions tag chainTag next)).mapError (DefinitionError.layer path)
    refine hown.bind fun c _ => ?_
    have hlink := (checkChain_reports questions tag chainTag next).mapError (DefinitionError.layer path)
    refine hlink.bind fun f _ => ?_
    have h := (ih path.next).bind fun n _ => Reports.passes (Layer.chained questions c f n)
    rwa [List.append_nil] at h

end LayerDefinition

/-! ## Items and catalogs -/

namespace ItemDefinition

theorem branch_reports (i : ItemDefinition) (a : Answer) :
    Reports ((i.branch a).compile ⟨i.id, a, 0⟩) (i.branchFaults a) :=
  (i.branch a).compile_reports ⟨i.id, a, 0⟩

theorem compile_reports (i : ItemDefinition) : Reports i.compile i.faults := by
  refine Reports.guard Text.trim_eq_empty.symm fun _ => ?_
  refine (i.branch_reports .yes).bind fun onYes _ => ?_
  have h := (i.branch_reports .no).bind fun onNo _ =>
    Reports.passes (⟨i.id, i.title, i.description, i.yesHint, i.noHint, onYes, onNo⟩ : Item)
  rwa [List.append_nil] at h

end ItemDefinition

namespace CatalogDefinition

/-- Items are checked in order; `seen` holds the ids of those before. -/
theorem compileItems_reports (d : CatalogDefinition) (rest : List ItemDefinition) :
    ∀ (before : List ItemDefinition) (seen : List String), d.items = before ++ rest →
      (∀ id, id ∈ seen ↔ id ∈ before.map (·.id)) →
        Reports (compileItems d.name seen rest)
          ((rest.zipIdx before.length).flatMap fun x => d.itemFaults x.2 x.1) := by
  induction rest with
  | nil => exact fun _ _ _ _ => .passes []
  | cons i rest ih =>
    intro before seen hitems hseen
    have htake : d.items.take before.length = before := by rw [hitems, List.take_left]
    have hdup : seen.contains i.id = true ↔ i.id ∈ (d.items.take before.length).map (·.id) := by
      rw [htake, List.contains_iff_mem, hseen]
    rw [List.zipIdx_cons, List.flatMap_cons, itemFaults, List.append_assoc, List.append_assoc]
    refine Reports.guard Text.trim_eq_empty.symm fun _ => Reports.guard hdup fun _ => ?_
    refine i.compile_reports.bind fun item _ => ?_
    have hnext := ih (before ++ [i]) (i.id :: seen) (by rw [hitems, List.append_cons])
      fun id => by simp [hseen, or_comm]
    rw [List.length_append, List.length_singleton] at hnext
    have h := hnext.bind fun others _ => Reports.passes (item :: others)
    rwa [List.append_nil] at h

theorem compile_reports (d : CatalogDefinition) : Reports d.compile d.faults := by
  have hname : (!isValidCatalogName d.name) = true ↔ ¬ValidName d.name := by
    rw [ValidName, ← isValidCatalogName_iff, Bool.not_eq_true', Bool.not_eq_true]
  have hitems := d.compileItems_reports d.items [] [] rfl (by simp)
  have h := hitems.bind fun items _ =>
    Reports.passes (⟨d.name, d.version, d.description, items⟩ : Catalog)
  rw [List.append_nil] at h
  rw [faults, ← ite_not]
  exact Reports.guard hname fun _ => Reports.guard List.isEmpty_iff fun _ => h

end CatalogDefinition

/-! ## Without faults -/

namespace LayerDefinition

theorem linkFaults_eq_nil_iff {l : LayerDefinition} :
    l.linkFaults = [] ↔ (l.chainTag = none ∧ l.next? = none) ∨
      ∃ tag ∈ chainTags, ∃ next, l.chainTag = some tag ∧ l.next? = some next := by
  cases l with
  | last questions tag chainTag =>
    rw [(checkNoChain_reports questions tag chainTag).nil_iff]
    simp [checkNoChain_ok, LayerDefinition.chainTag, next?]
  | followed questions tag chainTag next =>
    rw [(checkChain_reports questions tag chainTag next).nil_iff]
    simp [checkChain_ok, LayerDefinition.chainTag, next?, mem_chainTags]

/-- A layer without faults has all that is asked of it. -/
theorem faults_eq_nil_iff {l : LayerDefinition} : l.faults = [] ↔ l.InOrder := by
  rw [faults, List.append_eq_nil_iff, l.checkLayer_reports.nil_iff, linkFaults_eq_nil_iff]
  simp only [checkLayer_iff]
  constructor
  · rintro ⟨⟨c, htag, titles, direct⟩, chain⟩
    exact ⟨titles, mem_conditionTags.2 ⟨c, htag⟩, direct, chain⟩
  · rintro ⟨titles, condition, direct, chain⟩
    obtain ⟨c, htag⟩ := mem_conditionTags.1 condition
    exact ⟨⟨c, htag, titles, direct⟩, chain⟩

theorem descend_eq (l : LayerDefinition) (depth : Nat) : l.descend depth = l.layers[depth]? := by
  induction l generalizing depth with
  | last qs c t => cases depth <;> rfl
  | followed qs c t next ih =>
    cases depth with
    | zero => rfl
    | succ depth => exact ih depth

end LayerDefinition

namespace ItemDefinition

theorem branchFaults_eq_nil_iff {i : ItemDefinition} {a : Answer} :
    i.branchFaults a = [] ↔ (i.branch a).WellFormed := by
  rw [(i.branch_reports a).nil_iff]
  exact ⟨fun ⟨_, h⟩ => (LayerDefinition.of_compile h).1, fun h => h.compiles _⟩

theorem faults_eq_nil_iff {i : ItemDefinition} : i.faults = [] ↔ i.WellFormed := by
  rw [i.compile_reports.nil_iff]
  exact ⟨fun ⟨_, h⟩ => (of_compile h).1, WellFormed.compiles⟩

end ItemDefinition

/-! ## Where the first fault is -/

/-- A list of lists begins with that of the first member that has one. -/
theorem head?_flatMap_zipIdx {α β : Type} {f : α × Nat → List β} {b : β} {xs : List α} :
    ∀ {n : Nat}, ((xs.zipIdx n).flatMap f).head? = some b →
      ∃ before x after, xs = before ++ x :: after ∧ (f (x, n + before.length)).head? = some b ∧
        ∀ k y, before[k]? = some y → f (y, n + k) = [] := by
  induction xs with
  | nil => exact fun h => by cases h
  | cons x xs ih =>
    intro n h
    rw [List.zipIdx_cons, List.flatMap_cons, List.head?_append] at h
    cases hx : f (x, n) with
    | nil =>
      rw [hx] at h
      obtain ⟨before, y, after, rfl, hy, hbefore⟩ := ih h
      refine ⟨x :: before, y, after, rfl, by rwa [List.length_cons, Nat.add_comm before.length, ← Nat.add_assoc], ?_⟩
      intro k z hz
      cases k with
      | zero =>
        cases hz
        exact hx
      | succ k =>
        rw [Nat.add_comm k, ← Nat.add_assoc]
        exact hbefore k z hz
    | cons c cs =>
      rw [hx] at h
      exact ⟨[], x, xs, rfl, by rw [List.length_nil, Nat.add_zero, hx]; exact h, fun k y hy => by cases hy⟩

/-- What comes behind a rule that is kept, or is not what that rule reports. -/
theorem head?_guarded {β : Type} {c : Prop} [Decidable c] {x b : β} {fs : List β} (hne : x ≠ b)
    (h : ((if c then [x] else []) ++ fs).head? = some b) : ¬c ∧ fs.head? = some b := by
  by_cases hc : c
  · rw [if_pos hc] at h
    cases h
    exact absurd rfl hne
  · rw [if_neg hc] at h
    exact ⟨hc, h⟩

namespace ItemDefinition

/-- The first fault of a branch is the first one of its layer, and the layers above it have none. -/
theorem branchFaults_head {i : ItemDefinition} {a : Answer} {path : LayerPath} {fault : LayerFault}
    (h : (i.branchFaults a).head? = some (.layer path fault)) :
    path.item = i.id ∧ path.branch = a ∧ ∃ l, (i.branch a).descend path.depth = some l ∧
      l.faults.head? = some fault ∧ ∀ depth < path.depth, ∃ m, (i.branch a).descend depth = some m ∧ m.InOrder := by
  obtain ⟨before, l, after, hlayers, hhead, hbefore⟩ := head?_flatMap_zipIdx h
  simp only [List.head?_map, Nat.zero_add, Option.map_eq_some_iff, DefinitionError.layer.injEq] at hhead
  obtain ⟨_, hfault, rfl, rfl⟩ := hhead
  refine ⟨rfl, rfl, l, ?_, hfault, fun depth hdepth => ?_⟩
  · simp [LayerDefinition.descend_eq, hlayers]
  · have hm := List.getElem?_eq_getElem hdepth
    have hnil := hbefore depth _ hm
    rw [Nat.zero_add, List.map_eq_nil_iff] at hnil
    refine ⟨before[depth], ?_, LayerDefinition.faults_eq_nil_iff.1 hnil⟩
    rw [LayerDefinition.descend_eq, hlayers, List.getElem?_append_left hdepth, hm]

/-- The first fault of an item is found on its no branch only when the yes branch is well formed. -/
theorem faults_head {i : ItemDefinition} {path : LayerPath} {fault : LayerFault}
    (h : i.faults.head? = some (.layer path fault)) :
    Text.trim i.title ≠ "" ∧ (i.branchFaults path.branch).head? = some (.layer path fault) ∧
      (path.branch = .no → i.onYes.WellFormed) := by
  obtain ⟨htitle, h⟩ := head?_guarded (fun h => by cases h) h
  refine ⟨htitle, ?_⟩
  rw [List.head?_append] at h
  cases hyes : i.branchFaults .yes with
  | nil =>
    rw [hyes] at h
    obtain ⟨-, hbranch, -⟩ := branchFaults_head h
    exact ⟨by rwa [hbranch], fun _ => branchFaults_eq_nil_iff.1 hyes⟩
  | cons e later =>
    rw [hyes, List.head?_cons, Option.some_or, ← List.head?_cons (l := later), ← hyes] at h
    obtain ⟨-, hbranch, -⟩ := branchFaults_head h
    exact ⟨by rwa [hbranch], fun hno => by cases hno.symm.trans hbranch⟩

end ItemDefinition

namespace CatalogDefinition

/-- The path leads to the layer `l` of `item`. It breaks the rule that `fault` tells of, it keeps those before, and
nothing in the document before that layer is wrong. -/
structure Blames (d : CatalogDefinition) (path : LayerPath) (fault : LayerFault) (before : List ItemDefinition)
    (item : ItemDefinition) (l : LayerDefinition) : Prop where
  items : ∃ after, d.items = before ++ item :: after
  id : item.id = path.item
  layer : (item.branch path.branch).descend path.depth = some l
  /-- The id of the item is not that of an earlier one, so the path can be followed. -/
  layerAt : d.layerAt? path = some l
  fault : l.faults.head? = some fault
  shallower : ∀ depth < path.depth, ∃ m, (item.branch path.branch).descend depth = some m ∧ m.InOrder
  earlier_branch : path.branch = .no → item.onYes.WellFormed
  title : Text.trim item.title ≠ ""
  id_ne : Text.trim item.id ≠ ""
  earlier_items : ItemsWellFormed [] before
  name : ValidName d.name

theorem itemFaults_eq_nil_iff {d : CatalogDefinition} {k : Nat} {i : ItemDefinition} :
    d.itemFaults k i = [] ↔ Text.trim i.id ≠ "" ∧ i.id ∉ (d.items.take k).map (·.id) ∧ i.WellFormed := by
  simp [itemFaults, ItemDefinition.faults_eq_nil_iff]

theorem itemsWellFormed_front {d : CatalogDefinition} {before after : List ItemDefinition}
    (hitems : d.items = before ++ after) (h : ∀ k i, before[k]? = some i → d.itemFaults k i = []) :
    ItemsWellFormed [] before := by
  have hall : ∀ i ∈ before, Text.trim i.id ≠ "" ∧ i.WellFormed := by
    intro i hi
    obtain ⟨k, hk⟩ := List.mem_iff_getElem?.1 hi
    obtain ⟨hid, -, hitem⟩ := itemFaults_eq_nil_iff.1 (h k i hk)
    exact ⟨hid, hitem⟩
  refine ⟨fun i hi => (hall i hi).1, fun _ _ => List.not_mem_nil, ?_, fun i hi => (hall i hi).2⟩
  -- No item has the id of one before it.
  rw [List.Nodup, List.pairwise_iff_getElem]
  intro j k hj hk hjk heq
  rw [List.length_map] at hk
  obtain ⟨-, hnew, -⟩ := itemFaults_eq_nil_iff.1 (h k _ (List.getElem?_eq_getElem hk))
  refine hnew (List.mem_map.2 ⟨before[j], ?_, by simpa using heq⟩)
  rw [hitems, List.take_append_of_le_length (Nat.le_of_lt hk)]
  exact List.mem_take_iff_getElem.2 ⟨j, by omega, rfl⟩

theorem blames {d : CatalogDefinition} {path : LayerPath} {fault : LayerFault}
    (h : d.faults.head? = some (.layer path fault)) : ∃ before item l, Blames d path fault before item l := by
  rw [faults, ← ite_not] at h
  obtain ⟨hname, h⟩ := head?_guarded (fun h => by cases h) h
  obtain ⟨-, h⟩ := head?_guarded (fun h => by cases h) h
  obtain ⟨before, item, after, hitems, h, hbefore⟩ := head?_flatMap_zipIdx h
  simp only [Nat.zero_add] at h hbefore
  obtain ⟨hid, h⟩ := head?_guarded (fun h => by cases h) h
  obtain ⟨hnew, h⟩ := head?_guarded (fun h => by cases h) h
  obtain ⟨htitle, h, hyes⟩ := ItemDefinition.faults_head h
  obtain ⟨hpath, -, l, hl, hfault, hshallower⟩ := ItemDefinition.branchFaults_head h
  rw [hitems, List.take_left] at hnew
  have hfind : d.items.find? (·.id = path.item) = some item := by
    have hnone : before.find? (·.id = path.item) = none := by
      rw [List.find?_eq_none]
      intro i hi hpi
      exact hnew (List.mem_map.2 ⟨i, hi, by rw [← hpath]; simpa using hpi⟩)
    rw [hitems, List.find?_append, hnone, Option.none_or, List.find?_cons_of_pos (by simp [hpath])]
  exact ⟨before, item, l, ⟨after, hitems⟩, hpath.symm, hl, by rw [layerAt?, hfind, Option.bind_some, hl], hfault,
    hshallower, hyes, htitle, hid, itemsWellFormed_front hitems hbefore, not_not.1 hname⟩

/-- Compiling reports the first fault of the document. Where that is a fault of a layer, the path leads to the first
layer with a fault: nothing is wrong with the items, the branch and the layers before it. -/
theorem first_fault_reported (d : CatalogDefinition) :
    (∀ e, d.compile = .error e ↔ d.faults.head? = some e) ∧
      ∀ path fault, d.compile = .error (.layer path fault) → ∃ before item l, Blames d path fault before item l :=
  ⟨d.compile_reports.error_iff, fun _ _ h => blames ((d.compile_reports.error_iff _).1 h)⟩

end CatalogDefinition

/-- The second layer of the no branch asks nothing but counts answers. There is more wrong behind it. -/
def attic : CatalogDefinition :=
  ⟨"attic", "1", none,
    [⟨"hatch", "Is there a hatch?", none, none, none, .last [] "pass-direct" none, .last [] "fail-direct" none⟩,
      ⟨"beams", "Are the beams sound?", none, none, none, .last [] "pass-direct" none,
        .followed [⟨"Are they dry?", .pass⟩] "all-yes" (some "any-no") (.last [] "max-yes" (some "all-yess"))⟩,
      ⟨"hatch", " ", none, none, none, .last [] "next-layer" none, .last [⟨"", .fail⟩] "pass-direct" none⟩]⟩

def atticFault : DefinitionError :=
  .layer ⟨"beams", .no, 1⟩ (.terminalNotDirect (.count .maxYes))

theorem attic_blamed :
    attic.compile = .error atticFault ∧ attic.faults.head? = some atticFault ∧ attic.faults.length = 6 ∧
      ∃ before item l, attic.Blames ⟨"beams", .no, 1⟩ (.terminalNotDirect (.count .maxYes)) before item l := by
  have he : attic.compile = .error atticFault := by
    decide
  have h := CatalogDefinition.first_fault_reported attic
  exact ⟨he, (h.1 _).1 he, by decide, h.2 _ _ he⟩

end Appraisal
