import Appraisal.Text.EditDistance
import Mathlib.Order.Bounds.Defs
/-!
# The least number of edits

`levenshtein` reads its result off a table that is filled row by row. An edit puts one character in, takes one out or
replaces one, anywhere in a word. The table has the least number of edits that lead from one word to the other
(`levenshtein_isLeast`): so many are enough, because each entry is reached by an edit of the first characters, and no
fewer are, because one edit lowers the distance to any third word by one at most.
-/

namespace Appraisal.Text

/-! ## The entries of the table -/

/-- The rows for a longer second word have one entry more, in front. -/
theorem tail_distances (d : Char) (b a : List Char) : (distances (d :: b) a).tail = distances b a := by
  induction a with
  | nil => rfl
  | cons c a ih =>
    have hrow : (distances (d :: b) (c :: a)).tail = distanceRow c b (distances (d :: b) a).tail := by
      simp only [distances, distanceRow]
      split <;> rfl
    rw [hrow, ih, distances]

theorem levenshtein_nil_left (b : List Char) : levenshtein [] b = b.length := by
  cases b <;> rfl

theorem levenshtein_nil_right (a : List Char) : levenshtein a [] = a.length := by
  induction a with
  | nil => rfl
  | cons c a ih =>
    have hrow : levenshtein (c :: a) [] = levenshtein a [] + 1 := rfl
    rw [hrow, ih, List.length_cons]

theorem levenshtein_cons_cons (c d : Char) (a b : List Char) :
    levenshtein (c :: a) (d :: b) =
      if c = d then levenshtein a b
      else 1 + min (levenshtein a (d :: b)) (min (levenshtein (c :: a) b) (levenshtein a b)) := by
  simp only [levenshtein, distances, distanceRow, tail_distances]
  split <;> rfl

theorem levenshtein_self (a : List Char) : levenshtein a a = 0 := by
  induction a with
  | nil => rfl
  | cons c a ih => rw [levenshtein_cons_cons, if_pos rfl, ih]

theorem levenshtein_comm (a b : List Char) : levenshtein a b = levenshtein b a := by
  induction a generalizing b with
  | nil => rw [levenshtein_nil_left, levenshtein_nil_right]
  | cons c a iha =>
    induction b with
    | nil => rw [levenshtein_nil_left, levenshtein_nil_right]
    | cons d b ihb =>
      rw [levenshtein_cons_cons, levenshtein_cons_cons, iha b, iha (d :: b), ihb]
      by_cases h : c = d
      · rw [if_pos h, if_pos h.symm]
      · rw [if_neg h, if_neg (Ne.symm h), Nat.min_left_comm]

/-! ## One character more or less -/

theorem levenshtein_cons_left_le_of {a : List Char} (h : ∀ d b, levenshtein a b ≤ levenshtein a (d :: b) + 1)
    (c : Char) (b : List Char) : levenshtein (c :: a) b ≤ levenshtein a b + 1 := by
  cases b with
  | nil => simp only [levenshtein_nil_right, List.length_cons, Nat.le_refl]
  | cons d b =>
    rw [levenshtein_cons_cons]
    split
    · exact h d b
    · omega

theorem levenshtein_le_cons_right (a : List Char) (d : Char) (b : List Char) :
    levenshtein a b ≤ levenshtein a (d :: b) + 1 := by
  induction a generalizing d b with
  | nil =>
    rw [levenshtein_nil_left, levenshtein_nil_left, List.length_cons]
    omega
  | cons c a ih =>
    -- Either way the first word may lose its first character, at the cost of one.
    have hcons := levenshtein_cons_left_le_of ih c b
    have htail := ih d b
    rw [levenshtein_cons_cons]
    split <;> omega

theorem levenshtein_cons_left_le (c : Char) (a b : List Char) : levenshtein (c :: a) b ≤ levenshtein a b + 1 :=
  levenshtein_cons_left_le_of (levenshtein_le_cons_right a) c b

theorem levenshtein_le_cons_left (c : Char) (a b : List Char) : levenshtein a b ≤ levenshtein (c :: a) b + 1 := by
  rw [levenshtein_comm a b, levenshtein_comm (c :: a) b]
  exact levenshtein_le_cons_right b c a

theorem levenshtein_replace_le (c d : Char) (a b : List Char) :
    levenshtein (c :: a) b ≤ levenshtein (d :: a) b + 1 := by
  induction b with
  | nil =>
    rw [levenshtein_nil_right, levenshtein_nil_right, List.length_cons, List.length_cons]
    omega
  | cons e b ih =>
    -- When `c` is the next character of the other word and `d` is not, the diagonal meets its neighbours.
    have hright := levenshtein_le_cons_right a e b
    have hleft := levenshtein_le_cons_left d a b
    rw [levenshtein_cons_cons, levenshtein_cons_cons]
    split <;> split <;> omega

/-- What holds of two words holds of them behind the same characters. -/
theorem levenshtein_append_le {a a' : List Char} (h : ∀ b, levenshtein a b ≤ levenshtein a' b + 1)
    (front b : List Char) : levenshtein (front ++ a) b ≤ levenshtein (front ++ a') b + 1 := by
  induction front generalizing b with
  | nil => exact h b
  | cons c front ih =>
    rw [List.cons_append, List.cons_append]
    induction b with
    | nil =>
      have hlen := ih []
      simp only [levenshtein_nil_right, List.length_cons] at hlen ⊢
      omega
    | cons d b ihb =>
      -- Both words start with `c`, so both entries come from the same places of the table.
      have hhere := ih b
      have hbelow := ih (d :: b)
      rw [levenshtein_cons_cons, levenshtein_cons_cons]
      split <;> omega

/-! ## Edits -/

/-- One character is put in, taken out or replaced. -/
inductive Edit : List Char → List Char → Prop
  | insert (front back : List Char) (c : Char) : Edit (front ++ back) (front ++ c :: back)
  | delete (front back : List Char) (c : Char) : Edit (front ++ c :: back) (front ++ back)
  | replace (front back : List Char) (c d : Char) : Edit (front ++ c :: back) (front ++ d :: back)

/-- So many edits, one after the other. -/
inductive Edits : Nat → List Char → List Char → Prop
  | zero (a : List Char) : Edits 0 a a
  | succ {n : Nat} {a b c : List Char} : Edit a b → Edits n b c → Edits (n + 1) a c

theorem Edit.cons {a b : List Char} (h : Edit a b) (c : Char) : Edit (c :: a) (c :: b) := by
  cases h with
  | insert front back d => exact .insert (c :: front) back d
  | delete front back d => exact .delete (c :: front) back d
  | replace front back d e => exact .replace (c :: front) back d e

namespace Edits

theorem cons {n : Nat} {a b : List Char} (h : Edits n a b) (c : Char) : Edits n (c :: a) (c :: b) := by
  induction h with
  | zero a => exact .zero (c :: a)
  | succ he _ ih => exact .succ (he.cons c) ih

theorem insertHead {n : Nat} {a b : List Char} (h : Edits n a b) (c : Char) : Edits (n + 1) a (c :: b) :=
  .succ (.insert [] a c) (h.cons c)

theorem deleteHead {n : Nat} {a b : List Char} (h : Edits n a b) (c : Char) : Edits (n + 1) (c :: a) b :=
  .succ (.delete [] a c) h

theorem replaceHead {n : Nat} {a b : List Char} (h : Edits n a b) (c d : Char) :
    Edits (n + 1) (c :: a) (d :: b) :=
  .succ (.replace [] a c d) (h.cons d)

end Edits

/-- As many edits as the table says are enough. -/
theorem edits_levenshtein (a b : List Char) : Edits (levenshtein a b) a b := by
  induction a generalizing b with
  | nil =>
    rw [levenshtein_nil_left]
    induction b with
    | nil => exact .zero []
    | cons d b ihb => exact ihb.insertHead d
  | cons c a iha =>
    induction b with
    | nil =>
      have h := (iha []).deleteHead c
      rwa [levenshtein_nil_right] at h ⊢
    | cons d b ihb =>
      rw [levenshtein_cons_cons]
      by_cases h : c = d
      · subst h
        rw [if_pos rfl]
        exact (iha b).cons c
      -- The least of the three entries says what to do with the first characters.
      have hleast : ∀ x y z : Nat, min x (min y z) = x ∨ min x (min y z) = y ∨ min x (min y z) = z := by omega
      rw [if_neg h, Nat.add_comm]
      rcases hleast (levenshtein a (d :: b)) (levenshtein (c :: a) b) (levenshtein a b) with hm | hm | hm
      · rw [hm]
        exact (iha (d :: b)).deleteHead c
      · rw [hm]
        exact ihb.insertHead d
      · rw [hm]
        exact (iha b).replaceHead c d

theorem Edit.levenshtein_le {a b : List Char} (h : Edit a b) (c : List Char) :
    levenshtein a c ≤ levenshtein b c + 1 := by
  cases h with
  | insert front back d => exact levenshtein_append_le (levenshtein_le_cons_left d back) front c
  | delete front back d => exact levenshtein_append_le (levenshtein_cons_left_le d back) front c
  | replace front back d e => exact levenshtein_append_le (levenshtein_replace_le d e back) front c

/-- Fewer edits than the table says are not enough. -/
theorem Edits.levenshtein_le {n : Nat} {a b : List Char} (h : Edits n a b) : levenshtein a b ≤ n := by
  induction h with
  | zero a => exact Nat.le_of_eq (levenshtein_self a)
  | @succ n a b c he _ ih =>
    have hstep : levenshtein a c ≤ levenshtein b c + 1 := he.levenshtein_le c
    omega

theorem levenshtein_isLeast (a b : List Char) : IsLeast {n | Edits n a b} (levenshtein a b) :=
  ⟨edits_levenshtein a b, fun _ h => h.levenshtein_le⟩

end Appraisal.Text
