import Appraisal.Yaml.Document
import Appraisal.Proofs.Definition.Sources
/-!
# Trees that are written and read

The tree of a value is carried by a typed node, or by the document of a text, whose leaves have no types
(`Node.Carries`). It is read as that value when whatever carries it is (`Json.ReadsAs`). The reading of a record does
not take a name that it does not know, and tells which names it does not do without (`Demands`), so it cannot read a
record that has been spoilt (`Json.Spoils`).
-/

namespace Appraisal

/-! ## Carried trees -/

namespace Node

mutual

/-- The node has the values of the tree. A plain leaf may have any value but a collection. -/
inductive Carries : Node → Json → Prop where
  | null : Carries .null .null
  | plainNull {s : String} (h : isNullText s = true) : Carries (.plain s) .null
  | bool (b : Bool) : Carries (.bool b) (.bool b)
  | plainBool {b : Bool} {s : String} (h : boolOfText? s = some b) : Carries (.plain s) (.bool b)
  | nat (k : Nat) : Carries (.nat k) (.nat k)
  | plainNat {k : Nat} {s : String} (h : unsignedOfText? s = some k) : Carries (.plain s) (.nat k)
  | str {s : String} {n : Node} (h : Spells s n) : Carries n (.str s)
  | list {ns : List Node} {trees : List Json} (h : List.Forall₂ Carries ns trees) : Carries (.list ns) (.arr trees)
  | array {ns : List Node} {trees : List Json} (h : List.Forall₂ Carries ns trees) : Carries (.array ns) (.arr trees)
  | map {es : List (Node × Node)} {ms : List (String × Json)} (h : CarriesMembers es ms) : Carries (.map es) (.obj ms)

inductive CarriesMembers : List (Node × Node) → List (String × Json) → Prop where
  | nil : CarriesMembers [] []
  | cons {key n : Node} {name : String} {tree : Json} {es : List (Node × Node)} {ms : List (String × Json)}
      (hkey : Spells name key) (hvalue : Carries n tree) (h : CarriesMembers es ms) :
      CarriesMembers ((key, n) :: es) ((name, tree) :: ms)

end

mutual

/-- A typed tree carries itself. -/
theorem carries_ofJson : ∀ tree : Json, (ofJson tree).Carries tree
  | .null => .null
  | .bool b => .bool b
  | .nat k => .nat k
  | .str _ => .str .text
  | .arr trees => .array (carries_ofJsonItems trees)
  | .obj ms => .map (carries_ofJsonMembers ms)

theorem carries_ofJsonItems : ∀ trees : List Json, List.Forall₂ Carries (ofJsonItems trees) trees
  | [] => .nil
  | tree :: trees => .cons (carries_ofJson tree) (carries_ofJsonItems trees)

theorem carries_ofJsonMembers : ∀ ms : List (String × Json), CarriesMembers (ofJsonMembers ms) ms
  | [] => .nil
  | (_, tree) :: ms => .cons .text (carries_ofJson tree) (carries_ofJsonMembers ms)

end

end Node

/-- Whatever carries the tree is read as `a`. -/
def Json.ReadsAs (tree : Json) (read : Reading α) (a : α) : Prop :=
  ∀ n : Node, n.Carries tree → read n = .ok a

/-- Nothing that carries the tree can be read. -/
def Json.IsMisread (tree : Json) (read : Reading α) : Prop :=
  ∀ n : Node, n.Carries tree → ∃ misread, read n = .error misread

/-- The text is a document that carries the tree. -/
def Yaml.Carries (text : String) (tree : Json) : Prop :=
  ∃ n, Yaml.parse text = .ok n ∧ n.Carries tree

theorem Json.isMisread_iff {tree : Json} {read : Reading α} :
    tree.IsMisread read ↔ ∀ n : Node, n.Carries tree → ∀ a, read n ≠ .ok a := by
  refine forall_congr' fun n => imp_congr_right fun _ => ?_
  cases read n <;> simp

/-! ## Leaves and lists -/

namespace Json

theorem reads_nat {bound k : Nat} (hk : k < bound) : (nat k).ReadsAs (Node.readNat bound) k := by
  intro n hn
  cases hn with
  | nat => exact if_pos hk
  | plainNat h =>
    rw [Node.readNat, Node.natOfText, h]
    exact if_pos hk

theorem reads_bool (b : Bool) : (bool b).ReadsAs Node.readBool b := by
  intro n hn
  cases hn with
  | bool => rfl
  | plainBool h =>
    rw [Node.readBool, Node.boolOfText, h]

/-- The items of a node that carries a list. -/
theorem items_of_carries {n : Node} {trees : List Json} (hn : n.Carries (arr trees)) :
    ∃ ns, n.items? = some ns ∧ List.Forall₂ Node.Carries ns trees := by
  cases hn with
  | list hns => exact ⟨_, rfl, hns⟩
  | array hns => exact ⟨_, rfl, hns⟩

theorem reads_arr {read : Reading α} {trees : List Json} {as : List α}
    (h : List.Forall₂ (fun tree a => tree.ReadsAs read a) trees as) : (arr trees).ReadsAs (Node.readList read) as := by
  intro n hn
  obtain ⟨ns, hitems, hns⟩ := items_of_carries hn
  rw [Node.readList, hitems]
  clear hitems hn
  induction hns generalizing as with
  | nil =>
    cases h
    rfl
  | cons hfirst _ ih =>
    cases h with
    | cons hread h => exact mapM_cons_ok.2 ⟨_, hread _ hfirst, _, ih h, rfl⟩

/-- One item that cannot be read spoils the list. -/
theorem isMisread_arr {read : Reading α} {trees : List Json} {tree : Json} (hmem : tree ∈ trees)
    (h : tree.IsMisread read) : (arr trees).IsMisread (Node.readList read) := by
  rw [isMisread_iff] at h ⊢
  intro n hn as has
  obtain ⟨ns, hitems, hns⟩ := items_of_carries hn
  rw [Node.readList, hitems] at has
  clear hitems hn
  induction hns generalizing as with
  | nil => cases hmem
  | cons hfirst _ ih =>
    obtain ⟨a, ha, rest, hrest, -⟩ := mapM_cons_ok.1 has
    rcases List.mem_cons.1 hmem with rfl | hmem
    · exact h _ hfirst a ha
    · exact ih hmem rest hrest

end Json

/-! ## Records -/

/-- The fields are those of the members, in the same order. -/
def Fields.Carry (fields : Fields) (ms : List (String × Json)) : Prop :=
  List.Forall₂ (fun f m => f.1 = m.1 ∧ f.2.Carries m.2) fields ms

theorem Fields.get?_of_not_mem {fields : Fields} {name : String} (h : name ∉ fields.map (·.1)) :
    fields.get? name = none := by
  rw [get?, List.lookup_eq_none_iff]
  intro f hf
  have hne : name ≠ f.1 := fun heq => h (heq ▸ List.mem_map_of_mem hf)
  simpa using hne

namespace Fields.Carry
variable {fields : Fields} {ms : List (String × Json)}

theorem names (h : fields.Carry ms) : fields.map (·.1) = ms.map (·.1) := by
  induction h with
  | nil => rfl
  | cons hfirst _ ih => rw [List.map_cons, List.map_cons, hfirst.1, ih]

theorem get?_some (h : fields.Carry ms) {name : String} {tree : Json} (hm : ms.lookup name = some tree) :
    ∃ n, fields.get? name = some n ∧ n.Carries tree := by
  induction h with
  | nil => cases hm
  | @cons f m fields ms hfirst _ ih =>
    obtain ⟨key, n⟩ := f
    obtain ⟨_, tree'⟩ := m
    obtain ⟨rfl, hn⟩ : key = _ ∧ n.Carries tree' := hfirst
    simp only [get?, List.lookup_cons] at hm ih ⊢
    cases hname : name == key with
    | true =>
      simp only [hname, Option.some.injEq] at hm
      exact ⟨n, rfl, hm ▸ hn⟩
    | false =>
      simp only [hname] at hm
      exact ih hm

theorem get?_none (h : fields.Carry ms) {name : String} (hname : name ∉ ms.map (·.1)) : fields.get? name = none :=
  get?_of_not_mem (h.names ▸ hname)

theorem required (h : fields.Carry ms) {name : String} {tree : Json} {read : Reading α} {a : α}
    (hm : ms.lookup name = some tree) (hread : tree.ReadsAs read a) : fields.required name read = .ok a := by
  obtain ⟨n, hget, hn⟩ := h.get?_some hm
  rw [Fields.required, hget]
  exact hread n hn

theorem withDefault (h : fields.Carry ms) {name : String} {tree : Json} {read : Reading α} {a default : α}
    (hm : ms.lookup name = some tree) (hread : tree.ReadsAs read a) :
    fields.withDefault name default read = .ok a := by
  obtain ⟨n, hget, hn⟩ := h.get?_some hm
  rw [Fields.withDefault, hget]
  exact hread n hn

theorem default (h : fields.Carry ms) {name : String} (hname : name ∉ ms.map (·.1)) (default : α) (read : Reading α) :
    fields.withDefault name default read = .ok default := by
  rw [Fields.withDefault, h.get?_none hname]

end Fields.Carry

namespace Node

/-- The fields of a node that carries a record. -/
theorem CarriesMembers.entryFields {es : List (Node × Node)} {ms : List (String × Json)} (h : CarriesMembers es ms) :
    ∃ fields : Fields, Node.entryFields es = .ok fields ∧ fields.Carry ms := by
  induction ms generalizing es with
  | nil =>
    cases h
    exact ⟨[], rfl, .nil⟩
  | cons m ms ih =>
    cases h with
    | @cons key n name tree es _ hkey hvalue h =>
      obtain ⟨fields, hfields, hcarry⟩ := ih h
      refine ⟨(name, n) :: fields, ?_, .cons ⟨rfl, hvalue⟩ hcarry⟩
      simp only [Node.entryFields, mapM_cons_ok, map_ok]
      exact ⟨_, ⟨name, hkey.readText_eq, rfl⟩, fields, hfields, rfl⟩

/-- A node that carries a record is read as a record if its names are known and differ. -/
theorem Carries.fields {n : Node} {ms : List (String × Json)} (h : n.Carries (.obj ms)) :
    ∃ fields : Fields, fields.Carry ms ∧ ∀ known fields', n.readFields known = .ok fields' ↔
      fields' = fields ∧ ms.map (·.1) ⊆ known ∧ (ms.map (·.1)).Nodup := by
  cases h with
  | @map es _ h =>
    obtain ⟨fields, hfields, hcarry⟩ := h.entryFields
    refine ⟨fields, hcarry, fun known fields' => ?_⟩
    have hrecord : (Node.map es).readFields known = (Node.map es).readRecord known := rfl
    rw [hrecord, readRecord_map, hfields]
    constructor
    · rintro ⟨⟨⟩, hknown, hnodup⟩
      rw [hcarry.names] at hknown hnodup
      exact ⟨rfl, hknown, hnodup⟩
    · rintro ⟨rfl, hknown, hnodup⟩
      rw [hcarry.names]
      exact ⟨rfl, hknown, hnodup⟩

theorem Carries.readFields {n : Node} {ms : List (String × Json)} (h : n.Carries (.obj ms)) (names : List String)
    {known : List String} (hnames : ms.map (·.1) = names) (hknown : names ⊆ known) (hnodup : names.Nodup) :
    ∃ fields : Fields, n.readFields known = .ok fields ∧ fields.Carry ms := by
  obtain ⟨fields, hcarry, hiff⟩ := h.fields
  exact ⟨fields, (hiff _ _).2 ⟨rfl, hnames ▸ hknown, hnames ▸ hnodup⟩, hcarry⟩

end Node

/-! ## Spoilt records -/

/-- The members are all of `ms` and one with a new name, or all but one that is not optional. -/
inductive Json.Spoils (optional : List String) (ms : List (String × Json)) : List (String × Json) → Prop where
  | added {front back : List (String × Json)} {name : String} (tree : Json) (h : ms = front ++ back)
      (hname : name ∉ ms.map (·.1)) : Spoils optional ms (front ++ (name, tree) :: back)
  | dropped {front back : List (String × Json)} {name : String} {tree : Json} (h : ms = front ++ (name, tree) :: back)
      (hname : name ∉ optional) : Spoils optional ms (front ++ back)

/-- What is read is a record of the known fields that has the required ones. -/
def Demands (read : Reading α) (known required : List String) : Prop :=
  ∀ n a, read n = .ok a → ∃ fields, n.readFields known = .ok fields ∧ required ⊆ fields.map (·.1)

theorem Fields.mem_of_required {fields : Fields} {name : String} {read : Reading α} {a : α}
    (h : fields.required name read = .ok a) : name ∈ fields.map (·.1) := by
  by_contra hname
  rw [required, get?_of_not_mem hname] at h
  cases h

theorem Demands.isMisread {read : Reading α} {known required optional : List String} {ms ms' : List (String × Json)}
    (hread : Demands read known required) (hnames : ms.map (·.1) = known) (hnodup : known.Nodup)
    (hrequired : ∀ name ∈ known, name ∉ optional → name ∈ required) (h : Json.Spoils optional ms ms') :
    (Json.obj ms').IsMisread read := by
  rw [Json.isMisread_iff]
  intro n hn a ha
  obtain ⟨fields, hfields, hdemanded⟩ := hread n a ha
  obtain ⟨_, hcarry, hiff⟩ := hn.fields
  obtain ⟨rfl, hknown, -⟩ := (hiff _ _).1 hfields
  rw [hcarry.names] at hdemanded
  cases h with
  | added tree h hname => exact hname (hnames ▸ hknown (by simp))
  | @dropped front back name tree h hname =>
    have hmem : name ∈ known := by simp [← hnames, h]
    have hleft : name ∈ (front ++ back).map (·.1) := hdemanded (hrequired name hmem hname)
    -- The names were all different, so this one is gone.
    rw [← hnames, h, List.map_append, List.map_cons, List.perm_middle.nodup_iff, List.nodup_cons,
      ← List.map_append] at hnodup
    exact hnodup.1 hleft

end Appraisal
