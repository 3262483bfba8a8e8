import Appraisal.Proofs.Definition.Faults
import Appraisal.Proofs.Text.EditDistance
import Mathlib.Algebra.Order.Field.Rat
import Mathlib.Order.Lattice.Nat
import Mathlib.Tactic.Linarith
/-!
# Suggestions

A word that is not known is answered with the known word most like it. How alike two words are is a fraction, one less
the distance over the longer length (`similarity`), and `closest` compares such fractions without computing them. What
it picks is alike enough, more alike than every word before it and at least as alike as every word after it
(`closest_bestMatch`). The two lists of tags are searched in this way.
-/

namespace Appraisal

namespace Text

/-! ## How alike two words are -/

/-- The least number of edits that lead from one word to the other. -/
noncomputable def editDistance (a b : String) : Nat :=
  sInf {n | Edits n a.toList b.toList}

noncomputable def similarity (a b : String) : ℚ :=
  1 - (editDistance a b : ℚ) / (max a.length b.length : ℕ)

theorem levenshtein_eq_editDistance (a b : String) : levenshtein a.toList b.toList = editDistance a b :=
  (levenshtein_isLeast a.toList b.toList).csInf_eq.symm

namespace Likeness

/-- The fraction that a likeness stands for. -/
def value (l : Likeness) : ℚ :=
  1 - (l.distance : ℚ) / l.length

theorem between_length_pos (a b : String) : 0 < (between a b).length :=
  Nat.lt_of_lt_of_le Nat.one_pos (Nat.le_max_left 1 _)

theorem value_between (a b : String) : (between a b).value = similarity a b := by
  rw [value, similarity, ← levenshtein_eq_editDistance, between]
  simp only [String.length_toList]
  rcases Nat.eq_zero_or_pos (max a.length b.length) with hzero | hpos
  · -- Both words are empty, and their distance is 0 whatever it is divided by.
    have ha : a.toList = [] := List.eq_nil_of_length_eq_zero (by rw [String.length_toList]; omega)
    have hb : b.toList = [] := List.eq_nil_of_length_eq_zero (by rw [String.length_toList]; omega)
    rw [ha, hb, levenshtein_self]
    simp
  · rw [Nat.max_eq_right hpos]

theorem atLeast_iff {l : Likeness} (hl : 0 < l.length) {percent : Nat} (hp : percent ≤ 100) :
    l.atLeast percent = true ↔ (percent : ℚ) / 100 ≤ l.value := by
  have hpos : (0 : ℚ) < l.length := Nat.cast_pos.2 hl
  have hcast : 100 * l.distance ≤ (100 - percent) * l.length ↔
      (100 : ℚ) * l.distance ≤ (100 - percent) * l.length := by
    rw [← Nat.cast_le (α := ℚ)]
    push_cast [Nat.cast_sub hp]
    rfl
  rw [atLeast, decide_eq_true_eq, hcast, value, le_sub_comm, div_le_iff₀ hpos]
  constructor <;> intro h <;> linarith

theorem closer_iff {l r : Likeness} (hl : 0 < l.length) (hr : 0 < r.length) :
    l.closer r = true ↔ r.value < l.value := by
  have hlpos : (0 : ℚ) < l.length := Nat.cast_pos.2 hl
  have hrpos : (0 : ℚ) < r.length := Nat.cast_pos.2 hr
  rw [closer, decide_eq_true_eq, value, value, sub_lt_sub_iff_left, div_lt_div_iff₀ hlpos hrpos]
  exact_mod_cast Iff.rfl

theorem between_atLeast_iff {percent : Nat} (hp : percent ≤ 100) {a b : String} :
    (between a b).atLeast percent = true ↔ (percent : ℚ) / 100 ≤ similarity a b := by
  rw [atLeast_iff (between_length_pos a b) hp, value_between]

theorem between_closer_iff {a b c : String} :
    (between a b).closer (between a c) = true ↔ similarity a c < similarity a b := by
  rw [closer_iff (between_length_pos a b) (between_length_pos a c), value_between, value_between]

end Likeness

/-! ## The best of several words -/

/-- `s` is the first of the words most like `word`, and alike enough. -/
structure IsBest (threshold : ℚ) (word : String) (known : List String) (s : String) : Prop where
  enough : threshold ≤ similarity word s
  greatest : ∀ t ∈ known, similarity word t ≤ similarity word s
  first : ∃ front back, known = front ++ s :: back ∧ ∀ t ∈ front, similarity word t < similarity word s

theorem IsBest.mem {threshold : ℚ} {word s : String} {known : List String} (h : IsBest threshold word known s) :
    s ∈ known := by
  obtain ⟨front, back, rfl, -⟩ := h.first
  simp

/-- A word that is not more alike than the best one leaves it the best. -/
theorem IsBest.snoc {threshold : ℚ} {word s t : String} {known : List String}
    (h : IsBest threshold word known s) (ht : similarity word t ≤ similarity word s) :
    IsBest threshold word (known ++ [t]) s where
  enough := h.enough
  greatest := by
    intro u hu
    rcases List.mem_append.1 hu with hu | hu
    · exact h.greatest u hu
    · rwa [List.mem_singleton.1 hu]
  first := by
    obtain ⟨front, back, rfl, hfront⟩ := h.first
    exact ⟨front, back ++ [t], by simp, hfront⟩

/-- A word that is more alike than all before it is the best one. -/
theorem isBest_last {threshold : ℚ} {word t : String} {known : List String} (ht : threshold ≤ similarity word t)
    (hknown : ∀ u ∈ known, similarity word u < similarity word t) : IsBest threshold word (known ++ [t]) t where
  enough := ht
  greatest := by
    intro u hu
    rcases List.mem_append.1 hu with hu | hu
    · exact le_of_lt (hknown u hu)
    · rw [List.mem_singleton.1 hu]
  first := ⟨known, [], rfl, hknown⟩

/-- What the search remembers of the words it has seen. -/
def Remembers (threshold : ℚ) (word : String) (seen : List String) : Option (String × Likeness) → Prop
  | none => ∀ t ∈ seen, similarity word t < threshold
  | some (s, l) => l = .between word s ∧ IsBest threshold word seen s

section Search
variable {percent : Nat} (hp : percent ≤ 100) (word : String)
include hp

theorem closerWord_none (t : String) :
    closerWord percent word none t =
      if (percent : ℚ) / 100 ≤ similarity word t then some (t, .between word t) else none := by
  by_cases h : (percent : ℚ) / 100 ≤ similarity word t <;> simp [closerWord, Likeness.between_atLeast_iff hp, h]

/-- The word found before keeps a tie. -/
theorem closerWord_some (s t : String) :
    closerWord percent word (some (s, .between word s)) t =
      if (percent : ℚ) / 100 ≤ similarity word t ∧ similarity word s < similarity word t then
        some (t, .between word t)
      else some (s, .between word s) := by
  simp only [closerWord, Option.all_some, Bool.and_eq_true, Likeness.between_atLeast_iff hp,
    Likeness.between_closer_iff]

theorem Remembers.step {seen : List String} {best : Option (String × Likeness)}
    (h : Remembers (percent / 100) word seen best) (t : String) :
    Remembers (percent / 100) word (seen ++ [t]) (closerWord percent word best t) := by
  cases best with
  | none =>
    rw [closerWord_none hp]
    split
    · next ht => exact ⟨rfl, isBest_last ht fun u hu => lt_of_lt_of_le (h u hu) ht⟩
    · next ht =>
      intro u hu
      rcases List.mem_append.1 hu with hu | hu
      · exact h u hu
      · rw [List.mem_singleton.1 hu]
        exact not_le.1 ht
  | some b =>
    obtain ⟨s, l⟩ := b
    obtain ⟨rfl, hs⟩ := h
    rw [closerWord_some hp]
    split
    · next ht => exact ⟨rfl, isBest_last ht.1 fun u hu => lt_of_le_of_lt (hs.greatest u hu) ht.2⟩
    · next ht =>
      -- A word more alike than the best one would be alike enough, as that one is.
      have hle : ¬similarity word s < similarity word t := fun hlt => ht ⟨hs.enough.trans hlt.le, hlt⟩
      exact ⟨rfl, hs.snoc (not_lt.1 hle)⟩

theorem remembers_search (known : List String) :
    Remembers (percent / 100) word known (known.foldl (closerWord percent word) none) := by
  induction known using List.reverseRecOn with
  | nil => exact fun t ht => nomatch ht
  | append_singleton seen t ih =>
    rw [List.foldl_concat]
    exact ih.step hp word t

end Search

/-- `suggestion` is what is to be said to `word` when only the words of `known` are known. -/
structure BestMatch (threshold : ℚ) (known : List String) (word : String) (suggestion : Option String) : Prop where
  suggested_iff : suggestion.isSome = true ↔ ∃ t ∈ known, threshold ≤ similarity word t
  best : ∀ s, suggestion = some s → IsBest threshold word known s

theorem closest_bestMatch {percent : Nat} (hp : percent ≤ 100) (known : List String) (word : String) :
    BestMatch (percent / 100) known word (closest percent word known) := by
  have h := remembers_search hp word known
  unfold closest
  cases hbest : known.foldl (closerWord percent word) none with
  | none =>
    rw [hbest] at h
    refine ⟨⟨fun hs => (nomatch hs), fun ⟨t, ht, henough⟩ => ?_⟩, fun s hs => (nomatch hs)⟩
    exact absurd henough (not_le.2 (h t ht))
  | some b =>
    obtain ⟨s, l⟩ := b
    rw [hbest] at h
    obtain ⟨-, hs⟩ := h
    refine ⟨⟨fun _ => ⟨s, hs.mem, hs.enough⟩, fun _ => rfl⟩, fun s' hs' => ?_⟩
    cases hs'
    exact hs

end Text

/-! ## Unknown tags -/

/-- `parse` refuses `text` and suggests the tag of `known` that is most like it. What it suggests it reads. -/
def RefusesUnknown {α : Type} (parse : String → Except UnknownTag α) (known : List String) (text : String) : Prop :=
  ∃ e, parse text = .error e ∧ e.tag = text ∧ Text.BestMatch (7 / 10) known text e.suggestion ∧
    ∀ s, e.suggestion = some s → ∃ x, parse s = .ok x

theorem among_bestMatch (known : List String) (text : String) :
    Text.BestMatch (7 / 10) known text (UnknownTag.among known text).suggestion := by
  have h := Text.closest_bestMatch (by decide : 70 ≤ 100) known text
  norm_num at h
  exact h

theorem refusesUnknown_iff {α : Type} {parse : String → Except UnknownTag α} {tag : α → String} {all : List α}
    (hok : ∀ {t x}, parse t = .ok x ↔ tag x = t)
    (herror : ∀ {t e}, parse t = .error e → e = .among (all.map tag) t) (text : String) :
    (∀ x, tag x ≠ text) ↔ RefusesUnknown parse (all.map tag) text := by
  constructor
  · intro h
    cases hparse : parse text with
    | ok x => exact absurd (hok.1 hparse) (h x)
    | error e =>
      cases herror hparse
      have hmatch := among_bestMatch (all.map tag) text
      refine ⟨_, hparse, rfl, hmatch, fun s hs => ?_⟩
      obtain ⟨x, -, hx⟩ := List.mem_map.1 (hmatch.best s hs).mem
      exact ⟨x, hok.2 hx⟩
  · rintro ⟨e, hparse, -⟩ x hx
    cases hparse.symm.trans (hok.2 hx)

/-- Every text that is none of the tags is refused, and no other. With the refusal goes the first of the tags that are
most like the text, provided that they are alike in seven parts of ten. -/
theorem unknown_tags_refused (text : String) :
    ((∀ c : Condition, c.tag ≠ text) ↔ RefusesUnknown Condition.parse (Condition.all.map Condition.tag) text) ∧
      ((∀ c : ChainCondition, c.tag ≠ text) ↔
        RefusesUnknown ChainCondition.parse (ChainCondition.all.map ChainCondition.tag) text) := by
  constructor
  · refine refusesUnknown_iff Condition.parse_ok (fun h => ?_) text
    rw [(Condition.parse_error h).2, conditionTags_eq]
  · refine refusesUnknown_iff ChainCondition.parse_ok (fun h => ?_) text
    rw [(ChainCondition.parse_error h).2, chainTags_eq]

/-- The text is one edit away from two tags, and the earlier one is suggested. -/
example : Condition.parse "anl-yes" = .error ⟨"anl-yes", some "all-yes"⟩ := by
  decide +kernel

end Appraisal
