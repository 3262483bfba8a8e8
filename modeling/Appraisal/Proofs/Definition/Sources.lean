import Appraisal.Definition.Reading
import Appraisal.Proofs.Definition
import Mathlib.Data.List.Basic
import Mathlib.Logic.Relation
/-!
# Sources of one definition

A definition can be written down in many ways. `Node.Rewrites` is one change to the tree that it is read from: a text
is spelled in another way, the entries of a map change places, or an optional field that says nothing is left out. What
is read is the same after it (`CatalogDefinition.read_steady`).
-/

namespace Appraisal

/-! ## Changes to a tree -/

/-- The fields that a definition may do without. -/
def optionalFields : List String :=
  ["description", "yes_hint", "no_hint", "questions", "next_layer_condition", "next_layer"]

namespace Node

/-- The leaves that a text is written as. A plain one must not stand for nothing. -/
inductive Spells (s : String) : Node → Prop where
  | plain (h : isNullText s = false) : Spells s (plain s)
  | literal : Spells s (literal s)
  | text : Spells s (text s)

/-- One change to how a tree is written. -/
inductive Rewrites : Node → Node → Prop where
  | spelling {s : String} {n n' : Node} (h : Spells s n) (h' : Spells s n') : Rewrites n n'
  | order {es es' : List (Node × Node)} (h : es.Perm es') : Rewrites (map es) (map es')
  | omission {name : String} {key n : Node} (front back : List (Node × Node)) (hkey : key.readText = .ok name)
      (hname : name ∈ optionalFields) (hnull : n.isNull = true) :
      Rewrites (map (front ++ (key, n) :: back)) (map (front ++ back))
  | item {n n' : Node} (front back : List Node) (h : Rewrites n n') :
      Rewrites (list (front ++ n :: back)) (list (front ++ n' :: back))
  | field {n n' : Node} (key : Node) (front back : List (Node × Node)) (h : Rewrites n n') :
      Rewrites (map (front ++ (key, n) :: back)) (map (front ++ (key, n') :: back))

/-- Any number of changes. -/
abbrev Rewritten : Node → Node → Prop :=
  Relation.ReflTransGen Rewrites

end Node

/-- What is read stays the same when the tree is written in another way. -/
def Steady (read : Reading α) : Prop :=
  ∀ {n n' : Node} {a : α}, n.Rewrites n' → read n = .ok a → read n' = .ok a

theorem Steady.rewritten {read : Reading α} (hread : Steady read) {n n' : Node} {a : α} (h : n.Rewritten n')
    (hn : read n = .ok a) : read n' = .ok a := by
  induction h with
  | refl => exact hn
  | tail _ h ih => exact hread h ih

/-! ## Lists of readings -/

section Lists
variable {ε α β : Type} {f : α → Except ε β}

theorem map_ok {x : Except ε α} {g : α → β} {b : β} : x.map g = .ok b ↔ ∃ a, x = .ok a ∧ g a = b := by
  cases x <;> simp [Except.map]

theorem mapM_cons_ok {x : α} {xs : List α} {bs : List β} :
    (x :: xs).mapM f = .ok bs ↔ ∃ b, f x = .ok b ∧ ∃ rest, xs.mapM f = .ok rest ∧ b :: rest = bs := by
  simp [List.mapM_cons, bind_ok, pure, Except.pure]

theorem mapM_append_ok {xs ys : List α} {bs : List β} :
    (xs ++ ys).mapM f = .ok bs ↔
      ∃ front, xs.mapM f = .ok front ∧ ∃ back, ys.mapM f = .ok back ∧ front ++ back = bs := by
  simp [List.mapM_append, bind_ok, pure, Except.pure]

theorem mapM_perm {xs ys : List α} (h : xs.Perm ys) :
    ∀ {bs : List β}, xs.mapM f = .ok bs → ∃ cs, ys.mapM f = .ok cs ∧ bs.Perm cs := by
  induction h with
  | nil => exact fun h => ⟨_, h, .refl _⟩
  | cons x _ ih =>
    intro bs h
    obtain ⟨b, hb, rest, hrest, rfl⟩ := mapM_cons_ok.1 h
    obtain ⟨cs, hcs, hperm⟩ := ih hrest
    exact ⟨b :: cs, mapM_cons_ok.2 ⟨b, hb, cs, hcs, rfl⟩, hperm.cons b⟩
  | swap x y xs =>
    intro bs h
    obtain ⟨b, hb, bs, hbs, rfl⟩ := mapM_cons_ok.1 h
    obtain ⟨c, hc, rest, hrest, rfl⟩ := mapM_cons_ok.1 hbs
    exact ⟨c :: b :: rest, mapM_cons_ok.2 ⟨c, hc, _, mapM_cons_ok.2 ⟨b, hb, rest, hrest, rfl⟩, rfl⟩, .swap c b rest⟩
  | trans _ _ ih ih' =>
    intro bs h
    obtain ⟨cs, hcs, hperm⟩ := ih h
    obtain ⟨ds, hds, hperm'⟩ := ih' hcs
    exact ⟨ds, hds, hperm.trans hperm'⟩

end Lists

/-! ## Leaves -/

namespace Node

namespace Spells
variable {s : String} {n : Node}

theorem readText_eq (h : Spells s n) : n.readText = .ok s := by
  cases h <;> rfl

theorem choice?_eq (h : Spells s n) : n.choice? = some s := by
  cases h <;> rfl

theorem readOption_eq (h : Spells s n) (read : Reading α) : readOption read n = (read n).map some := by
  cases h with
  | plain h => rw [readOption, h]; rfl
  | literal => rfl
  | text => rfl

theorem items?_eq (h : Spells s n) : n.items? = none := by
  cases h with
  | plain h =>
    have hs : s.isEmpty = false := (Bool.or_eq_false_iff.1 h).1
    rw [items?, hs]
    rfl
  | literal => rfl
  | text => rfl

theorem readRecord_ne (h : Spells s n) (known : List String) (fields : Fields) :
    n.readRecord known ≠ .ok fields := by
  cases h with
  | plain h =>
    have hs : s.isEmpty = false := (Bool.or_eq_false_iff.1 h).1
    rw [readRecord, readFields, hs]
    · exact nofun
    · exact nofun
  | literal => exact nofun
  | text => exact nofun

end Spells

theorem readText_steady : Steady readText := by
  intro n n' a h hn
  cases h with
  | spelling h h' => rwa [h'.readText_eq, ← h.readText_eq]
  | _ => cases hn

theorem choice?_map {es : List (Node × Node)} {word : String} (h : (map es).choice? = some word) :
    es = [(text word, null)] := by
  unfold choice? at h
  split at h <;> simp_all

/-- Choices are not named like the optional fields, so none is left out. -/
theorem readChoice_steady {ofWord? : String → Option α} (hwords : ∀ word ∈ optionalFields, ofWord? word = none) :
    Steady (readChoice ofWord?) := by
  intro n n' a h hn
  have hword : ∃ word, n.choice? = some word ∧ ofWord? word = some a := by
    unfold readChoice at hn
    split at hn
    · cases hn
      exact Option.bind_eq_some_iff.1 ‹_›
    · cases hn
  obtain ⟨word, hchoice, hword⟩ := hword
  have hsame : n'.choice? = some word := by
    cases h with
    | spelling h h' => rwa [h'.choice?_eq, ← h.choice?_eq]
    | order h =>
      cases choice?_map hchoice
      rw [List.perm_singleton.1 h.symm]
      rfl
    | omission front back hkey hname hnull =>
      rcases front with _ | ⟨e, front⟩
      · cases choice?_map hchoice
        cases hkey
        cases (hwords word hname).symm.trans hword
      · simpa using choice?_map hchoice
    | item => cases hchoice
    | field key front back h =>
      rcases front with _ | ⟨e, front⟩
      · cases choice?_map hchoice
        cases h with
        | spelling h => cases h
      · simpa using choice?_map hchoice
  simp [readChoice, hsame, hword]

/-- A node that stands for nothing is never written in another way. -/
theorem Rewrites.readOption_eq {n n' : Node} (h : n.Rewrites n') (read : Reading α) :
    readOption read n = (read n).map some ∧ readOption read n' = (read n').map some := by
  cases h with
  | spelling h h' => exact ⟨h.readOption_eq read, h'.readOption_eq read⟩
  | _ => exact ⟨rfl, rfl⟩

theorem readOption_steady {read : Reading α} (hread : Steady read) : Steady (readOption read) := by
  intro n n' o h hn
  obtain ⟨heq, heq'⟩ := h.readOption_eq read
  rw [heq, map_ok] at hn
  obtain ⟨a, ha, rfl⟩ := hn
  rw [heq', hread h ha]
  rfl

theorem readList_steady {read : Reading α} (hread : Steady read) : Steady (readList read) := by
  intro n n' as h hn
  cases h with
  | spelling h =>
    simp only [readList, h.items?_eq] at hn
    cases hn
  | item front back h =>
    simp only [readList, items?, mapM_append_ok, mapM_cons_ok] at hn ⊢
    obtain ⟨fs, hfront, _, ⟨a, ha, bs, hback, rfl⟩, rfl⟩ := hn
    exact ⟨fs, hfront, _, ⟨a, hread h ha, bs, hback, rfl⟩, rfl⟩
  | _ => cases hn

end Node

/-! ## Records -/

/-- What becomes of a field when a tree is written in another way. -/
inductive FieldRewrites (name : String) : Option Node → Option Node → Prop where
  | same (o : Option Node) : FieldRewrites name o o
  | value {n n' : Node} (h : n.Rewrites n') : FieldRewrites name (some n) (some n')
  | omitted {n : Node} (hname : name ∈ optionalFields) (hnull : n.isNull = true) : FieldRewrites name (some n) none

namespace Fields
variable {known : List String} {fields fields' : Fields}

theorem check_ok : check known fields = .ok () ↔ fields.map (·.1) ⊆ known ∧ (fields.map (·.1)).Nodup := by
  induction fields with
  | nil => simp [check]
  | cons f rest ih =>
    obtain ⟨name, n⟩ := f
    by_cases hname : name ∈ known
    · by_cases hnew : name ∈ rest.map (·.1)
      · simp_all [check]
      · simp_all [check]
    · simp_all [check]

theorem get?_eq_some (hnodup : (fields.map (·.1)).Nodup) {name : String} {n : Node} :
    fields.get? name = some n ↔ (name, n) ∈ fields := by
  rw [get?, List.lookup_eq_some_iff]
  constructor
  · rintro ⟨front, back, rfl, -⟩
    simp
  · intro hmem
    obtain ⟨front, back, rfl⟩ := List.append_of_mem hmem
    refine ⟨front, back, rfl, fun f hf => ?_⟩
    -- No other field has the name.
    rw [List.map_append, List.nodup_append] at hnodup
    have hne := hnodup.2.2 f.1 (List.mem_map_of_mem hf) name (by simp)
    simpa using Ne.symm hne

theorem get?_append_cons (front back : Fields) (key name : String) (n : Node) :
    get? (front ++ (key, n) :: back) name =
      (front.get? name).or (if name = key then some n else get? back name) := by
  rw [get?, List.lookup_append, List.lookup_cons]
  by_cases h : name = key
  · simp [get?, h]
  · simp [get?, h, beq_eq_false_iff_ne.2 h]

theorem get?_perm (h : fields.Perm fields') (hnodup : (fields.map (·.1)).Nodup) (name : String) :
    fields.get? name = fields'.get? name := by
  have hnodup' : (fields'.map (·.1)).Nodup := (h.map (·.1)).nodup_iff.1 hnodup
  refine Option.ext fun n => ?_
  rw [get?_eq_some hnodup, get?_eq_some hnodup', h.mem_iff]

/-- Of a field that is left out, nothing remains. -/
theorem omitted {front back : Fields} {key : String} {n : Node} (hkey : key ∈ optionalFields) (hnull : n.isNull = true)
    (hnodup : ((front ++ (key, n) :: back).map (·.1)).Nodup) (name : String) :
    FieldRewrites name (get? (front ++ (key, n) :: back) name) (get? (front ++ back) name) := by
  by_cases hname : name = key
  · subst hname
    have hsome : get? (front ++ (name, n) :: back) name = some n := (get?_eq_some hnodup).2 (by simp)
    have hnone : get? (front ++ back) name = none := by
      rw [List.map_append, List.map_cons, List.perm_middle.nodup_iff, List.nodup_cons,
        ← List.map_append] at hnodup
      rw [get?, List.lookup_eq_none_iff]
      intro f hf
      have hne : f.1 ≠ name := fun h => hnodup.1 (List.mem_map.2 ⟨f, hf, h⟩)
      simpa using hne.symm
    rw [hsome, hnone]
    exact .omitted hkey hnull
  · have happend : get? (front ++ back) name = (front.get? name).or (get? back name) := List.lookup_append
    rw [get?_append_cons, happend, if_neg hname]
    exact .same _

theorem rewritten {front back : Fields} {key : String} {n n' : Node} (h : n.Rewrites n') (name : String) :
    FieldRewrites name (get? (front ++ (key, n) :: back) name) (get? (front ++ (key, n') :: back) name) := by
  rw [get?_append_cons, get?_append_cons]
  cases front.get? name with
  | some _ => exact .same _
  | none =>
    by_cases hname : name = key
    · rw [if_pos hname, if_pos hname]
      exact .value h
    · rw [if_neg hname, if_neg hname]
      exact .same _

section Readings
variable {name : String} (h : FieldRewrites name (fields.get? name) (fields'.get? name)) {read : Reading α}
include h

theorem required_steady (hname : name ∉ optionalFields) (hread : Steady read) {a : α}
    (ha : fields.required name read = .ok a) : fields'.required name read = .ok a := by
  unfold required at ha ⊢
  generalize fields.get? name = o at h ha
  generalize fields'.get? name = o' at h ⊢
  cases h with
  | same => exact ha
  | value h => exact hread h ha
  | omitted hmem => exact absurd hmem hname

/-- A field may be left out when what says nothing is read as the default. -/
theorem withDefault_steady {default : α} (hnull : ∀ {n : Node} {a : α}, n.isNull = true → read n = .ok a → a = default)
    (hread : Steady read) {a : α} (ha : fields.withDefault name default read = .ok a) :
    fields'.withDefault name default read = .ok a := by
  unfold withDefault at ha ⊢
  generalize fields.get? name = o at h ha
  generalize fields'.get? name = o' at h ⊢
  cases h with
  | same => exact ha
  | value h => exact hread h ha
  | omitted _ hn => rw [hnull hn ha]

end Readings

end Fields

namespace Node

theorem entryFields_append_cons {front back : List (Node × Node)} {key n : Node} {fields : Fields} :
    entryFields (front ++ (key, n) :: back) = .ok fields ↔ ∃ front', entryFields front = .ok front' ∧
      ∃ name, key.readText = .ok name ∧ ∃ back', entryFields back = .ok back' ∧
        front' ++ (name, n) :: back' = fields := by
  simp only [entryFields, mapM_append_ok, mapM_cons_ok, map_ok]
  constructor
  · rintro ⟨front', hfront, _, ⟨_, ⟨name, hname, rfl⟩, back', hback, rfl⟩, rfl⟩
    exact ⟨front', hfront, name, hname, back', hback, rfl⟩
  · rintro ⟨front', hfront, name, hname, back', hback, rfl⟩
    exact ⟨front', hfront, _, ⟨_, ⟨name, hname, rfl⟩, back', hback, rfl⟩, rfl⟩

theorem readRecord_map {known : List String} {es : List (Node × Node)} {fields : Fields} :
    (map es).readRecord known = .ok fields ↔
      entryFields es = .ok fields ∧ fields.map (·.1) ⊆ known ∧ (fields.map (·.1)).Nodup := by
  simp only [readRecord, readFields, checkedFields, bind_ok]
  constructor
  · rintro ⟨_, hentries, ⟨⟩, hcheck, hfields⟩
    cases hfields
    exact ⟨hentries, Fields.check_ok.1 hcheck⟩
  · rintro ⟨hentries, hcheck⟩
    exact ⟨fields, hentries, (), Fields.check_ok.2 hcheck, rfl⟩

/-- A record stays a record, and its fields are the same up to what becomes of one of them. -/
theorem readRecord_rewrites {known : List String} {n n' : Node} {fields : Fields} (h : n.Rewrites n')
    (hf : n.readRecord known = .ok fields) : ∃ fields', n'.readRecord known = .ok fields' ∧
      ∀ name, FieldRewrites name (fields.get? name) (fields'.get? name) := by
  cases h with
  | spelling h => exact absurd hf (h.readRecord_ne known fields)
  | order h =>
    obtain ⟨hentries, hknown, hnodup⟩ := readRecord_map.1 hf
    obtain ⟨fields', hentries', hperm⟩ := mapM_perm h hentries
    have hnames := hperm.map (·.1)
    refine ⟨fields', readRecord_map.2
      ⟨hentries', List.Subset.trans hnames.symm.subset hknown, hnames.nodup_iff.1 hnodup⟩, fun name => ?_⟩
    rw [Fields.get?_perm hperm hnodup]
    exact .same _
  | @omission name _ n front back hkey hname hnull =>
    obtain ⟨hentries, hknown, hnodup⟩ := readRecord_map.1 hf
    obtain ⟨f, hfront, k, hk, b, hback, rfl⟩ := entryFields_append_cons.1 hentries
    obtain rfl : name = k := Except.ok.inj (hkey.symm.trans hk)
    have hsub := ((List.sublist_cons_self (name, n) b).append_left f).map (·.1)
    exact ⟨f ++ b, readRecord_map.2 ⟨mapM_append_ok.2 ⟨f, hfront, b, hback, rfl⟩,
      List.Subset.trans hsub.subset hknown, hnodup.sublist hsub⟩, Fields.omitted hname hnull hnodup⟩
  | item => cases hf
  | @field n n' key front back h =>
    obtain ⟨hentries, hknown, hnodup⟩ := readRecord_map.1 hf
    obtain ⟨f, hfront, k, hk, b, hback, rfl⟩ := entryFields_append_cons.1 hentries
    have hnames : (f ++ (k, n) :: b).map (·.1) = (f ++ (k, n') :: b).map (·.1) := by simp
    rw [hnames] at hknown hnodup
    exact ⟨f ++ (k, n') :: b, readRecord_map.2 ⟨entryFields_append_cons.2 ⟨f, hfront, k, hk, b, hback, rfl⟩, hknown,
      hnodup⟩, Fields.rewritten h⟩

/-! ## Heights -/

theorem heightOfItems_append (xs ys : List Node) :
    heightOfItems (xs ++ ys) = max (heightOfItems xs) (heightOfItems ys) := by
  induction xs with
  | nil => simp [heightOfItems]
  | cons x xs ih => simp [heightOfItems, ih, Nat.max_assoc]

theorem heightOfEntries_append (es fs : List (Node × Node)) :
    heightOfEntries (es ++ fs) = max (heightOfEntries es) (heightOfEntries fs) := by
  induction es with
  | nil => simp [heightOfEntries]
  | cons e es ih => simp [heightOfEntries, ih, Nat.max_assoc]

theorem heightOfEntries_perm {es fs : List (Node × Node)} (h : es.Perm fs) :
    heightOfEntries es = heightOfEntries fs := by
  induction h with
  | nil => rfl
  | cons e _ ih => simp [heightOfEntries, ih]
  | swap e f es => exact Nat.max_left_comm _ _ _
  | trans _ _ ih ih' => exact ih.trans ih'

theorem Spells.height_eq {s : String} {n : Node} (h : Spells s n) : n.height = 0 := by
  cases h <;> rfl

theorem height_of_isNull {n : Node} (h : n.isNull = true) : n.height = 0 := by
  cases n <;> first | rfl | cases h

theorem Rewrites.height_eq {n n' : Node} (h : n.Rewrites n') : n.height = n'.height := by
  induction h with
  | spelling h h' => rw [h.height_eq, h'.height_eq]
  | order h => rw [height, height, heightOfEntries_perm h]
  | omission front back _ _ hnull =>
    simp [height, heightOfEntries_append, heightOfEntries, height_of_isNull hnull]
  | item front back _ ih => simp [height, heightOfItems_append, heightOfItems, ih]
  | field key front back _ ih => simp [height, heightOfEntries_append, heightOfEntries, ih]

/-! ## What says nothing is read as a default -/

theorem readOption_isNull {read : Reading α} {n : Node} {o : Option α} (hnull : n.isNull = true)
    (h : readOption read n = .ok o) : o = none := by
  cases n with
  | null =>
    cases h
    rfl
  | plain s =>
    rw [isNull] at hnull
    rw [readOption, if_pos hnull] at h
    cases h
    rfl
  | _ => cases hnull

theorem readList_isNull {read : Reading α} {n : Node} {as : List α} (hnull : n.isNull = true)
    (h : readList read n = .ok as) : as = [] := by
  cases n with
  | plain s =>
    by_cases hs : s.isEmpty = true
    · rw [readList, items?, if_pos hs] at h
      cases h
      rfl
    · rw [readList, items?, if_neg hs] at h
      cases h
  | null => cases h
  | _ => cases hnull

end Node

/-! ## Definitions -/

theorem Fields.optionalText_steady {fields fields' : Fields} {name : String}
    (h : FieldRewrites name (fields.get? name) (fields'.get? name)) {o : Option String}
    (ho : fields.withDefault name none (Node.readOption Node.readText) = .ok o) :
    fields'.withDefault name none (Node.readOption Node.readText) = .ok o :=
  withDefault_steady h Node.readOption_isNull (Node.readOption_steady Node.readText_steady) ho

theorem SubQuestion.read_steady : Steady SubQuestion.read := by
  intro n n' q h hq
  simp only [SubQuestion.read, bind_ok] at hq ⊢
  obtain ⟨fields, hf, title, htitle, favours, hfavours, hq⟩ := hq
  obtain ⟨fields', hf', hfields⟩ := Node.readRecord_rewrites h hf
  exact ⟨fields', hf', title, Fields.required_steady (hfields "title") (by decide) Node.readText_steady htitle, favours,
    Fields.required_steady (hfields "example") (by decide) (Node.readChoice_steady (by decide)) hfavours, hq⟩

namespace LayerDefinition

theorem readWith_steady {next : Reading LayerDefinition} (hnext : Steady next) : Steady (readWith next) := by
  intro n n' l h hl
  simp only [readWith, bind_ok] at hl ⊢
  obtain ⟨fields, hf, questions, hquestions, tag, htag, chainTag, hchain, rest, hrest, hl⟩ := hl
  obtain ⟨fields', hf', hfields⟩ := Node.readRecord_rewrites h hf
  refine ⟨fields', hf', questions, ?_, tag, ?_, chainTag, ?_, rest, ?_, hl⟩
  · exact Fields.withDefault_steady (hfields _) Node.readList_isNull (Node.readList_steady SubQuestion.read_steady)
      hquestions
  · exact Fields.required_steady (hfields _) (by decide) Node.readText_steady htag
  · exact Fields.optionalText_steady (hfields _) hchain
  · exact Fields.withDefault_steady (hfields _) Node.readOption_isNull (Node.readOption_steady hnext) hrest

theorem readChain_steady : ∀ depth, Steady (readChain depth)
  | 0 => fun _ h => nomatch h
  | depth + 1 => readWith_steady (readChain_steady depth)

theorem read_steady : Steady LayerDefinition.read := by
  intro n n' l h hl
  rw [LayerDefinition.read, ← h.height_eq]
  exact readChain_steady _ h hl

end LayerDefinition

theorem ItemDefinition.read_steady : Steady ItemDefinition.read := by
  intro n n' i h hi
  simp only [ItemDefinition.read, bind_ok] at hi ⊢
  obtain ⟨fields, hf, id, hid, title, htitle, description, hdescription, yesHint, hyesHint, noHint, hnoHint, onYes,
    honYes, onNo, honNo, hi⟩ := hi
  obtain ⟨fields', hf', hfields⟩ := Node.readRecord_rewrites h hf
  refine ⟨fields', hf', id, ?_, title, ?_, description, ?_, yesHint, ?_, noHint, ?_, onYes, ?_, onNo, ?_, hi⟩
  · exact Fields.required_steady (hfields _) (by decide) Node.readText_steady hid
  · exact Fields.required_steady (hfields _) (by decide) Node.readText_steady htitle
  · exact Fields.optionalText_steady (hfields _) hdescription
  · exact Fields.optionalText_steady (hfields _) hyesHint
  · exact Fields.optionalText_steady (hfields _) hnoHint
  · exact Fields.required_steady (hfields _) (by decide) LayerDefinition.read_steady honYes
  · exact Fields.required_steady (hfields _) (by decide) LayerDefinition.read_steady honNo

theorem CatalogDefinition.read_steady : Steady CatalogDefinition.read := by
  intro n n' d h hd
  simp only [CatalogDefinition.read, bind_ok] at hd ⊢
  obtain ⟨fields, hf, name, hname, version, hversion, description, hdescription, items, hitems, hd⟩ := hd
  obtain ⟨fields', hf', hfields⟩ := Node.readRecord_rewrites h hf
  refine ⟨fields', hf', name, ?_, version, ?_, description, ?_, items, ?_, hd⟩
  · exact Fields.required_steady (hfields _) (by decide) Node.readText_steady hname
  · exact Fields.required_steady (hfields _) (by decide) Node.readText_steady hversion
  · exact Fields.optionalText_steady (hfields _) hdescription
  · exact Fields.required_steady (hfields _) (by decide) (Node.readList_steady ItemDefinition.read_steady) hitems

end Appraisal
