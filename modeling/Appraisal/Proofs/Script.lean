import Appraisal.Script
import Appraisal.Proofs.Trees
import Mathlib.Data.List.Forall2
/-!
# Scripts written and read

The tree of a script (`Script.toJson`) is read as the script that was written, and a `sub` event whose depth has been
left out belongs to the first layer. A tree that has been spoilt anywhere (`Script.Spoilt`) is not read at all: with a
name that is not known or one that is missing, in the script or in an event, or with an event of more kinds than one.
-/

namespace Appraisal

/-! ## Events -/

namespace Event

/-- The numbers of the event have 64 bits. -/
def Fits : Event → Prop
  | main i _ => i < Nat.pow 2 64
  | sub i d k _ => i < Nat.pow 2 64 ∧ d < Nat.pow 2 64 ∧ k < Nat.pow 2 64
  | toggle i k _ => i < Nat.pow 2 64 ∧ k < Nat.pow 2 64
  | navigate t => t < Nat.pow 2 64
  | advance => True

/-- The tree of a `sub` event whose depth has been left out. -/
def shallowJson (item index : Nat) (answer : Answer) : Json :=
  .obj [("sub", .obj [("item", .nat item), ("index", .nat index), ("answer", .str answer.word)])]

theorem reads_index {k : Nat} (hk : k < Nat.pow 2 64) : (Json.nat k).ReadsAs readIndex k :=
  Json.reads_nat hk

theorem reads_answer (a : Answer) : (Json.str a.word).ReadsAs readAnswer a := by
  intro n hn
  cases hn with
  | str h =>
    have hbare : n.bareVariant? = some a.word := by cases h <;> rfl
    rw [readAnswer, hbare, Option.bind_some, Answer.ofWord?_word]

/-- An event of a map of one entry is that of the entry. -/
theorem read_entry {n : Node} {kind : String} {payload : Json} (h : n.Carries (.obj [(kind, payload)])) :
    ∃ v : Node, v.Carries payload ∧ Event.read n = readKind kind (some v) := by
  cases h with
  | map hms =>
    cases hms with
    | @cons key v _ _ es _ hkey hvalue hrest =>
      cases hrest
      have hvariant : (Node.map [(key, v)]).variant? = some (kind, some v) := by
        simp [Node.variant?, hkey.readText_eq, Except.toOption]
      exact ⟨v, hvalue, by rw [Event.read, hvariant]⟩

theorem reads_kind {kind : String} {payload : Json} {e : Event}
    (h : payload.ReadsAs (fun n => readKind kind (some n)) e) : (Json.obj [(kind, payload)]).ReadsAs Event.read e := by
  intro n hn
  obtain ⟨v, hv, heq⟩ := read_entry hn
  rw [heq]
  exact h v hv

theorem reads_sub {i d k : Nat} (a : Answer) (hi : i < Nat.pow 2 64) (hd : d < Nat.pow 2 64) (hk : k < Nat.pow 2 64) :
    (sub i d k a).toJson.ReadsAs Event.read (sub i d k a) := by
  refine reads_kind fun n hn => ?_
  obtain ⟨fields, hfields, hcarry⟩ :=
    hn.readFields ["item", "depth", "index", "answer"] rfl (List.Subset.refl _) (by decide)
  simp only [readKind, readSub, bind_ok]
  exact ⟨fields, hfields, i, hcarry.required rfl (reads_index hi), d, hcarry.withDefault rfl (reads_index hd), k,
    hcarry.required rfl (reads_index hk), a, hcarry.required rfl (reads_answer a), rfl⟩

/-- Without a depth, the first layer is meant. -/
theorem reads_shallow {i k : Nat} (a : Answer) (hi : i < Nat.pow 2 64) (hk : k < Nat.pow 2 64) :
    (shallowJson i k a).ReadsAs Event.read (sub i 0 k a) := by
  refine reads_kind fun n hn => ?_
  have hknown : ["item", "index", "answer"] ⊆ ["item", "depth", "index", "answer"] := by decide
  obtain ⟨fields, hfields, hcarry⟩ := hn.readFields ["item", "index", "answer"] rfl hknown (by decide)
  simp only [readKind, readSub, bind_ok]
  exact ⟨fields, hfields, i, hcarry.required rfl (reads_index hi), 0, hcarry.default (by simp) 0 _, k,
    hcarry.required rfl (reads_index hk), a, hcarry.required rfl (reads_answer a), rfl⟩

theorem reads_toJson {e : Event} (h : e.Fits) : e.toJson.ReadsAs Event.read e := by
  cases e with
  | main i a =>
    refine reads_kind fun n hn => ?_
    obtain ⟨fields, hfields, hcarry⟩ := hn.readFields ["item", "answer"] rfl (List.Subset.refl _) (by decide)
    simp only [readKind, readMain, bind_ok]
    exact ⟨fields, hfields, i, hcarry.required rfl (reads_index h), a, hcarry.required rfl (reads_answer a), rfl⟩
  | sub i d k a => exact reads_sub a h.1 h.2.1 h.2.2
  | toggle i k b =>
    refine reads_kind fun n hn => ?_
    obtain ⟨fields, hfields, hcarry⟩ := hn.readFields ["item", "index", "included"] rfl (List.Subset.refl _) (by decide)
    simp only [readKind, readToggle, bind_ok]
    exact ⟨fields, hfields, i, hcarry.required rfl (reads_index h.1), k, hcarry.required rfl (reads_index h.2), b,
      hcarry.required rfl (Json.reads_bool b), rfl⟩
  | navigate t =>
    refine reads_kind fun n hn => ?_
    obtain ⟨fields, hfields, hcarry⟩ := hn.readFields ["target"] rfl (List.Subset.refl _) (by decide)
    simp only [readKind, readNavigate, bind_ok]
    exact ⟨fields, hfields, t, hcarry.required rfl (reads_index h), rfl⟩
  | advance =>
    intro n hn
    cases hn with
    | str hs => cases hs <;> rfl

/-! ## Spoilt events -/

theorem readMain_demands : Demands readMain ["item", "answer"] ["item", "answer"] := by
  intro n e he
  simp only [readMain, bind_ok] at he
  obtain ⟨fields, hfields, i, hi, a, ha, -⟩ := he
  refine ⟨fields, hfields, ?_⟩
  simp only [List.cons_subset, List.nil_subset, and_true]
  exact ⟨Fields.mem_of_required hi, Fields.mem_of_required ha⟩

theorem readSub_demands : Demands readSub ["item", "depth", "index", "answer"] ["item", "index", "answer"] := by
  intro n e he
  simp only [readSub, bind_ok] at he
  obtain ⟨fields, hfields, i, hi, d, -, k, hk, a, ha, -⟩ := he
  refine ⟨fields, hfields, ?_⟩
  simp only [List.cons_subset, List.nil_subset, and_true]
  exact ⟨Fields.mem_of_required hi, Fields.mem_of_required hk, Fields.mem_of_required ha⟩

theorem readToggle_demands : Demands readToggle ["item", "index", "included"] ["item", "index", "included"] := by
  intro n e he
  simp only [readToggle, bind_ok] at he
  obtain ⟨fields, hfields, i, hi, k, hk, b, hb, -⟩ := he
  refine ⟨fields, hfields, ?_⟩
  simp only [List.cons_subset, List.nil_subset, and_true]
  exact ⟨Fields.mem_of_required hi, Fields.mem_of_required hk, Fields.mem_of_required hb⟩

theorem readNavigate_demands : Demands readNavigate ["target"] ["target"] := by
  intro n e he
  simp only [readNavigate, bind_ok] at he
  obtain ⟨fields, hfields, t, ht, -⟩ := he
  refine ⟨fields, hfields, ?_⟩
  simp only [List.cons_subset, List.nil_subset, and_true]
  exact Fields.mem_of_required ht

/-- The tree is that of the event with a spoilt payload, or a map of more entries than one, or of none. -/
inductive Spoilt (e : Event) : Json → Prop where
  | payload {kind : String} {ms ms' : List (String × Json)} (he : e.toJson = .obj [(kind, .obj ms)])
      (h : Json.Spoils ["depth"] ms ms') : Spoilt e (.obj [(kind, .obj ms')])
  | keys {ms : List (String × Json)} (h : ms.length ≠ 1) : Spoilt e (.obj ms)

theorem payload_isMisread {e : Event} {kind : String} {ms ms' : List (String × Json)}
    (he : e.toJson = .obj [(kind, .obj ms)]) (h : Json.Spoils ["depth"] ms ms') :
    (Json.obj ms').IsMisread fun n => readKind kind (some n) := by
  cases e with
  | main i a =>
    cases he
    exact readMain_demands.isMisread rfl (by decide) (by decide) h
  | sub i d k a =>
    cases he
    exact readSub_demands.isMisread rfl (by decide) (by decide) h
  | toggle i k b =>
    cases he
    exact readToggle_demands.isMisread rfl (by decide) (by decide) h
  | navigate t =>
    cases he
    exact readNavigate_demands.isMisread rfl (by decide) (by decide) h
  | advance => cases he

theorem isMisread_keys {ms : List (String × Json)} (h : ms.length ≠ 1) : (Json.obj ms).IsMisread Event.read := by
  intro n hn
  have hvariant : n.variant? = none := by
    cases hn with
    | map hms =>
      cases hms with
      | nil => rfl
      | cons _ _ hrest =>
        cases hrest with
        | nil => exact absurd rfl h
        | cons _ _ _ => rfl
  exact ⟨_, by rw [Event.read, hvariant]⟩

theorem Spoilt.isMisread {e : Event} {tree : Json} (h : e.Spoilt tree) : tree.IsMisread Event.read := by
  cases h with
  | payload he h =>
    intro n hn
    obtain ⟨v, hv, heq⟩ := read_entry hn
    rw [heq]
    exact payload_isMisread he h v hv
  | keys h => exact isMisread_keys h

end Event

/-! ## Scripts -/

namespace Script

/-- The tree of a script of the supported version, from the trees of its events. -/
def treeOf (events : List Json) : Json :=
  .obj [("version", .nat supportedVersion), ("events", .arr events)]

/-- The tree is that of the script with a spoilt member, or with a spoilt event. -/
inductive Spoilt (s : Script) : Json → Prop where
  | member {ms ms' : List (String × Json)} (hs : s.toJson = .obj ms) (h : Json.Spoils ["events"] ms ms') :
      Spoilt s (.obj ms')
  | event (front back : List Event) {e : Event} {tree : Json} (hs : s.events = front ++ e :: back) (h : e.Spoilt tree) :
      Spoilt s (treeOf (front.map Event.toJson ++ tree :: back.map Event.toJson))

theorem reads_treeOf {trees : List Json} {es : List Event}
    (h : List.Forall₂ (fun tree e => tree.ReadsAs Event.read e) trees es) :
    (treeOf trees).ReadsAs Script.read ⟨supportedVersion, es⟩ := by
  intro n hn
  obtain ⟨fields, hfields, hcarry⟩ := hn.readFields ["version", "events"] rfl (List.Subset.refl _) (by decide)
  simp only [Script.read, bind_ok]
  exact ⟨fields, hfields, supportedVersion, hcarry.required rfl (Json.reads_nat (by decide)), es,
    hcarry.withDefault rfl (Json.reads_arr h), rfl⟩

theorem read_demands : Demands Script.read ["version", "events"] ["version"] := by
  intro n s hs
  simp only [Script.read, bind_ok] at hs
  obtain ⟨fields, hfields, v, hv, -⟩ := hs
  refine ⟨fields, hfields, ?_⟩
  simp only [List.cons_subset, List.nil_subset, and_true]
  exact Fields.mem_of_required hv

/-- An event that cannot be read spoils the script. -/
theorem isMisread_treeOf {trees : List Json} {tree : Json} (hmem : tree ∈ trees) (h : tree.IsMisread Event.read) :
    (treeOf trees).IsMisread Script.read := by
  rw [Json.isMisread_iff]
  intro n hn s hs
  simp only [Script.read, bind_ok] at hs
  obtain ⟨fields, hfields, v, -, es, hes, -⟩ := hs
  obtain ⟨_, hcarry, hiff⟩ := hn.fields
  obtain ⟨rfl, -, -⟩ := (hiff _ _).1 hfields
  obtain ⟨events, hget, hevents⟩ : ∃ n, fields.get? "events" = some n ∧ n.Carries (.arr trees) :=
    hcarry.get?_some rfl
  obtain ⟨m, hm⟩ := Json.isMisread_arr hmem h events hevents
  rw [Fields.withDefault, hget] at hes
  cases hm.symm.trans hes

theorem Spoilt.isMisread {s : Script} {tree : Json} (h : s.Spoilt tree) : tree.IsMisread Script.read := by
  cases h with
  | member hs h =>
    cases hs
    exact read_demands.isMisread rfl (by decide) (by decide) h
  | event front back hs h => exact isMisread_treeOf (by simp) h.isMisread

/-! ## Decoding -/

/-- The tree is read as the script, by itself and from every text that carries it. -/
structure DecodesTo (tree : Json) (s : Script) : Prop where
  ofTree : Script.read (.ofJson tree) = .ok s
  ofText : ∀ text, Yaml.Carries text tree → parse text = .ok s

/-- There is no script in the tree, nor in any text that carries it. -/
structure Malformed (tree : Json) : Prop where
  ofTree : ∃ m, Script.read (.ofJson tree) = .error m
  ofText : ∀ text, Yaml.Carries text tree → ∃ m, parse text = .error (.malformed (.misread m))

theorem decodes {tree : Json} {s : Script} (h : tree.ReadsAs Script.read s) (hv : s.version = supportedVersion) :
    DecodesTo tree s := by
  refine ⟨h _ (Node.carries_ofJson tree), fun text ⟨n, hn, hcarries⟩ => ?_⟩
  have hread : Yaml.read Script.read text = .ok s := by
    rw [Yaml.read, hn]
    exact mapError_ok.2 (h n hcarries)
  rw [parse, hread]
  exact if_pos hv

theorem malformed {tree : Json} (h : tree.IsMisread Script.read) : Malformed tree := by
  refine ⟨h _ (Node.carries_ofJson tree), fun text ⟨n, hn, hcarries⟩ => ?_⟩
  obtain ⟨m, hm⟩ := h n hcarries
  have hread : Yaml.read Script.read text = .error (.misread m) := by
    simp only [Yaml.read, hn, hm, Except.mapError]
  exact ⟨m, by rw [parse, hread]⟩

theorem reads_events {es : List Event} (h : ∀ e ∈ es, e.Fits) :
    List.Forall₂ (fun tree e => tree.ReadsAs Event.read e) (es.map Event.toJson) es :=
  List.forall₂_map_left_iff.2 (List.forall₂_same.2 fun e he => Event.reads_toJson (h e he))

/-- A script that is written and read is the same. When the depth of a `sub` event is left out, the event belongs to the
first layer. With an unknown name, without one that is required, or with an event that is not a map of one entry, there
is no script. -/
theorem written_and_read {s : Script} (hv : s.version = supportedVersion) (hfits : ∀ e ∈ s.events, e.Fits) :
    DecodesTo s.toJson s ∧
    (∀ front i d k a back, s.events = front ++ .sub i d k a :: back →
      DecodesTo (treeOf (front.map Event.toJson ++ Event.shallowJson i k a :: back.map Event.toJson))
        { s with events := front ++ .sub i 0 k a :: back }) ∧
    ∀ tree, s.Spoilt tree → Malformed tree := by
  obtain ⟨_, es⟩ := s
  obtain rfl : _ = supportedVersion := hv
  refine ⟨decodes (reads_treeOf (reads_events hfits)) rfl, ?_, fun tree h => malformed h.isMisread⟩
  rintro front i d k a back rfl
  have hsub : i < Nat.pow 2 64 ∧ d < Nat.pow 2 64 ∧ k < Nat.pow 2 64 := hfits (.sub i d k a) (by simp)
  have hfront := reads_events fun e he => hfits e (List.mem_append_left _ he)
  have hback := reads_events fun e he => hfits e (List.mem_append_right _ (List.mem_cons_of_mem _ he))
  exact decodes (reads_treeOf (List.rel_append hfront (.cons (Event.reads_shallow a hsub.1 hsub.2.2) hback))) rfl

/-- The greatest number of 64 bits. -/
def greatest : Nat :=
  18446744073709551615

/-- An event of every kind. -/
def tour : Script :=
  ⟨1, [.main 0 .no, .sub 0 2 greatest .yes, .toggle greatest 1 false, .navigate 3, .advance]⟩

/-- The tour is read back, also when it is not told that its question belongs to the third layer, but then the question
belongs to the first. A tour that is to visit a target with a name of its own cannot be read. -/
theorem tour_written_and_read :
    tour.version = supportedVersion ∧ (∀ e ∈ tour.events, e.Fits) ∧
      DecodesTo tour.toJson tour ∧
      DecodesTo
        (treeOf [(Event.main 0 .no).toJson, Event.shallowJson 0 greatest .yes,
          (Event.toggle greatest 1 false).toJson, (Event.navigate 3).toJson, Event.advance.toJson])
        { tour with events :=
          [.main 0 .no, .sub 0 0 greatest .yes, .toggle greatest 1 false, .navigate 3, .advance] } ∧
      Malformed
        (treeOf [(Event.main 0 .no).toJson, (Event.sub 0 2 greatest .yes).toJson,
          (Event.toggle greatest 1 false).toJson,
          .obj [("navigate", .obj [("target", .nat 3), ("name", .str "door")])], Event.advance.toJson]) := by
  have hfits : ∀ e ∈ tour.events, e.Fits := by simp [tour, greatest, Event.Fits]
  obtain ⟨hback, hshallow, hspoilt⟩ := written_and_read (s := tour) rfl hfits
  have hname : (Event.navigate 3).Spoilt (.obj [("navigate", .obj [("target", .nat 3), ("name", .str "door")])]) :=
    .payload rfl (.added (.str "door") (List.append_nil _).symm (by decide))
  exact ⟨rfl, hfits, hback, hshallow [.main 0 .no] 0 2 greatest .yes _ rfl,
    hspoilt _ (.event [.main 0 .no, .sub 0 2 greatest .yes, .toggle greatest 1 false] [.advance] rfl hname)⟩

/-- A text that carries the tree of a script. -/
example : Yaml.Carries "version: 1\nevents: [advance]\n" (toJson ⟨1, [.advance]⟩) :=
  have hparse : Yaml.parse "version: 1\nevents: [advance]\n" =
      .ok (.map [(.plain "version", .plain "1"), (.plain "events", .list [.plain "advance"])]) := by
    cbv
  have hversion : unsignedOfText? "1" = some 1 := by decide
  ⟨_, hparse, .map (.cons (.plain rfl) (.plainNat hversion)
    (.cons (.plain rfl) (.list (.cons (.str (.plain rfl)) .nil)) .nil))⟩

end Script

end Appraisal
