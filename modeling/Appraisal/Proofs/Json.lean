import Appraisal.Json
import Appraisal.Node
import Mathlib.Tactic.SplitIfs
import Std.Data.String.ToNat
/-!
# Compact text tells the value

Nothing is lost in the compact text of a value. The value at the start of a text is known from it, and so is where the
value ends, as long as no digit follows a number (`compactChars_cancel`). So two values are written alike only if they
are the same (`compact_injective`).
-/

namespace Appraisal.Json

/-! ## Quoted texts -/

/-- The character that a backslash stands for with what follows it, and the rest. -/
def marked? : List Char → Option (Char × List Char)
  | '"' :: rest => some ('"', rest)
  | '\\' :: rest => some ('\\', rest)
  | 'n' :: rest => some ('\n', rest)
  | 'r' :: rest => some ('\r', rest)
  | 't' :: rest => some ('\t', rest)
  | 'b' :: rest => some (Char.ofNat 0x08, rest)
  | 'f' :: rest => some (Char.ofNat 0x0C, rest)
  | 'u' :: '0' :: '0' :: high :: low :: rest => do
    return (Char.ofNat (16 * (← digitValue? high) + (← digitValue? low)), rest)
  | _ => none

/-- The first character inside quotes, however it is written, and the rest. The closing quote is none. -/
def unescape : List Char → Option (Char × List Char)
  | [] => none
  | c :: rest => if c = '"' then none else if c = '\\' then marked? rest else some (c, rest)

theorem digitValue?_hexDigit {n : Nat} (h : n < 16) : digitValue? (hexDigit n) = some n := by
  revert n
  decide

theorem unescape_escapeChar (c : Char) (rest : List Char) : unescape (escapeChar c ++ rest) = some (c, rest) := by
  unfold escapeChar
  split_ifs with hquote hslash hline hreturn htab hback hform hcontrol
  · rw [hquote]; rfl
  · rw [hslash]; rfl
  · rw [hline]; rfl
  · rw [hreturn]; rfl
  · rw [htab]; rfl
  · rw [← Char.ofNat_toNat c, hback]; rfl
  · rw [← Char.ofNat_toNat c, hform]; rfl
  · have hhigh : digitValue? (hexDigit (c.toNat / 16)) = some (c.toNat / 16) := digitValue?_hexDigit (by omega)
    have hlow : digitValue? (hexDigit (c.toNat % 16)) = some (c.toNat % 16) := digitValue?_hexDigit (by omega)
    simp [unescape, marked?, hhigh, hlow, Nat.div_add_mod, Char.ofNat_toNat]
  · simp [unescape, hquote, hslash]

section Cancel
variable {r r' : List Char}

theorem escapeChar_cancel {c d : Char} (h : escapeChar c ++ r = escapeChar d ++ r') : c = d ∧ r = r' := by
  have hc := unescape_escapeChar c r
  rw [h, unescape_escapeChar] at hc
  cases hc
  exact ⟨rfl, rfl⟩

/-- No character is written with a quote in front. -/
theorem escapeChar_ne_quote (c : Char) : escapeChar c ++ r ≠ '"' :: r' := by
  intro h
  have hc := unescape_escapeChar c r
  rw [h] at hc
  cases hc

theorem escaped_cancel : ∀ {cs ds : List Char},
    cs.flatMap escapeChar ++ '"' :: r = ds.flatMap escapeChar ++ '"' :: r' → cs = ds ∧ r = r'
  | [], [], h => ⟨rfl, (List.cons.inj h).2⟩
  | [], d :: ds, h => by
    rw [List.flatMap_cons, List.append_assoc] at h
    exact absurd h.symm (escapeChar_ne_quote d)
  | c :: cs, [], h => by
    rw [List.flatMap_cons, List.append_assoc] at h
    exact absurd h (escapeChar_ne_quote c)
  | c :: cs, d :: ds, h => by
    simp only [List.flatMap_cons, List.append_assoc] at h
    obtain ⟨rfl, hrest⟩ := escapeChar_cancel h
    obtain ⟨rfl, rfl⟩ := escaped_cancel hrest
    exact ⟨rfl, rfl⟩

theorem quoted_cancel {s t : String} (h : quoted s ++ r = quoted t ++ r') : s = t ∧ r = r' := by
  simp only [quoted, List.cons_append, List.append_assoc, List.nil_append, List.cons.injEq, true_and] at h
  obtain ⟨hst, rfl⟩ := escaped_cancel h
  exact ⟨String.toList_inj.1 hst, rfl⟩

/-! ## Truth values and numbers -/

theorem boolText_cancel {b b' : Bool} (h : boolText b ++ r = boolText b' ++ r') : b = b' ∧ r = r' := by
  cases b <;> cases b' <;> simp_all [boolText]

theorem isDigit_of_mem_natText {n : Nat} {c : Char} (h : c ∈ natText n) : c.isDigit = true := by
  have hdigits : natText n = Nat.toDigits 10 n := Nat.toList_repr
  rw [hdigits] at h
  exact Nat.isDigit_of_mem_toDigits (by decide) (by decide) h

theorem natText_ne_nil (n : Nat) : natText n ≠ [] := by
  simp [natText]

/-- A text that does not go on with a digit, so that a number in front of it ends there. -/
def Ends (rest : List Char) : Prop :=
  ∀ c ∈ rest.head?, c.isDigit = false

theorem ends_nil : Ends [] := by
  intro c hc
  cases hc

theorem takeWhile_natText (n : Nat) (h : Ends r) : (natText n ++ r).takeWhile Char.isDigit = natText n := by
  have hrest : r.takeWhile Char.isDigit = [] := by
    cases r with
    | nil => rfl
    | cons c rest => exact List.takeWhile_cons_of_neg (by simp [h c rfl])
  rw [List.takeWhile_append_of_pos fun c hc => isDigit_of_mem_natText hc, hrest, List.append_nil]

theorem natText_cancel {n m : Nat} (hr : Ends r) (hr' : Ends r') (h : natText n ++ r = natText m ++ r') :
    n = m ∧ r = r' := by
  have htext : natText n = natText m := by
    rw [← takeWhile_natText n hr, h, takeWhile_natText m hr']
  have hn : n = m := Nat.repr_inj.1 (String.toList_inj.1 htext)
  rw [htext] at h
  exact ⟨hn, List.append_cancel_left h⟩

/-! ## Values -/

/-- The kinds of values. -/
inductive Kind where
  | null
  | bool
  | nat
  | str
  | arr
  | obj
deriving DecidableEq, Repr

def kind : Json → Kind
  | null => .null
  | bool _ => .bool
  | nat _ => .nat
  | str _ => .str
  | arr _ => .arr
  | obj _ => .obj

/-- The kind of the values that are written with this character in front. -/
def Kind.ofChar? (c : Char) : Option Kind :=
  if c.isDigit then some nat
  else if c = 'n' then some null
  else if c = 't' ∨ c = 'f' then some bool
  else if c = '"' then some str
  else if c = '[' then some arr
  else if c = '\x7b' then some obj
  else none

theorem kind_compactChars (j : Json) (r : List Char) :
    (compactChars j ++ r).head?.bind Kind.ofChar? = some j.kind := by
  cases j with
  | null => rfl
  | bool b => cases b <;> rfl
  | nat n =>
    obtain ⟨c, cs, hn⟩ := List.exists_cons_of_ne_nil (natText_ne_nil n)
    have hc : c.isDigit = true := isDigit_of_mem_natText (hn ▸ List.mem_cons_self)
    simp [compactChars, hn, Kind.ofChar?, hc, kind]
  | str s => rfl
  | arr xs => cases xs <;> rfl
  | obj ms => cases ms <;> rfl

theorem kind_eq {j j' : Json} (h : compactChars j ++ r = compactChars j' ++ r') : j.kind = j'.kind := by
  have hj := kind_compactChars j r
  rw [h, kind_compactChars] at hj
  exact (Option.some.inj hj).symm

/-- A closing bracket starts no value. -/
theorem compactChars_ne_close (j : Json) : compactChars j ++ r ≠ ']' :: r' := by
  intro h
  have hj := kind_compactChars j r
  rw [h] at hj
  cases hj

theorem ends_compactItems (xs : List Json) (r : List Char) : Ends (compactItems xs ++ r) := by
  cases xs <;> exact fun c hc => by cases hc; rfl

theorem ends_compactMembers (ms : List (String × Json)) (r : List Char) : Ends (compactMembers ms ++ r) := by
  rcases ms with _ | ⟨⟨k, v⟩, ms⟩ <;> exact fun c hc => by cases hc; rfl

/-! The bracket in front of a collection takes the place of the comma in front of its first element. -/

theorem compactItems_of_arr {xs xs' : List Json}
    (h : compactChars (arr xs) ++ r = compactChars (arr xs') ++ r') :
    compactItems xs ++ r = compactItems xs' ++ r' := by
  rcases xs with _ | ⟨x, xs⟩ <;> rcases xs' with _ | ⟨x', xs'⟩ <;>
    simp only [compactChars, compactItems, List.cons_append, List.append_assoc, List.nil_append, List.cons.injEq,
      true_and] at h ⊢
  · exact h
  · exact absurd h.symm (compactChars_ne_close x')
  · exact absurd h (compactChars_ne_close x)
  · exact h

theorem compactMembers_of_obj {ms ms' : List (String × Json)}
    (h : compactChars (obj ms) ++ r = compactChars (obj ms') ++ r') :
    compactMembers ms ++ r = compactMembers ms' ++ r' := by
  rcases ms with _ | ⟨⟨k, v⟩, ms⟩ <;> rcases ms' with _ | ⟨⟨k', v'⟩, ms'⟩ <;>
    simp only [compactChars, compactMembers, List.cons_append, List.append_assoc, List.nil_append, List.cons.injEq,
      true_and] at h ⊢
  · exact h
  · cases h
  · cases h
  · exact h

end Cancel

mutual

/-- From a text that starts with a value, the value and the rest are known. -/
theorem compactChars_cancel (j j' : Json) {r r' : List Char} (hr : Ends r) (hr' : Ends r')
    (h : compactChars j ++ r = compactChars j' ++ r') : j = j' ∧ r = r' := by
  have hkind := kind_eq h
  cases j <;> cases j' <;> cases hkind
  case null =>
    exact ⟨rfl, List.append_cancel_left h⟩
  case bool b b' =>
    obtain ⟨rfl, rfl⟩ := boolText_cancel h
    exact ⟨rfl, rfl⟩
  case nat n n' =>
    obtain ⟨rfl, rfl⟩ := natText_cancel hr hr' h
    exact ⟨rfl, rfl⟩
  case str s s' =>
    obtain ⟨rfl, rfl⟩ := quoted_cancel h
    exact ⟨rfl, rfl⟩
  case arr xs xs' =>
    obtain ⟨rfl, rfl⟩ := compactItems_cancel xs xs' (compactItems_of_arr h)
    exact ⟨rfl, rfl⟩
  case obj ms ms' =>
    obtain ⟨rfl, rfl⟩ := compactMembers_cancel ms ms' (compactMembers_of_obj h)
    exact ⟨rfl, rfl⟩

theorem compactItems_cancel (xs xs' : List Json) {r r' : List Char}
    (h : compactItems xs ++ r = compactItems xs' ++ r') : xs = xs' ∧ r = r' := by
  rcases xs with _ | ⟨x, xs⟩ <;> rcases xs' with _ | ⟨x', xs'⟩
  · exact ⟨rfl, List.append_cancel_left h⟩
  · cases h
  · cases h
  · simp only [compactItems, List.cons_append, List.append_assoc, List.cons.injEq, true_and] at h
    obtain ⟨rfl, hxs⟩ := compactChars_cancel x x' (ends_compactItems _ _) (ends_compactItems _ _) h
    obtain ⟨rfl, rfl⟩ := compactItems_cancel xs xs' hxs
    exact ⟨rfl, rfl⟩

theorem compactMembers_cancel (ms ms' : List (String × Json)) {r r' : List Char}
    (h : compactMembers ms ++ r = compactMembers ms' ++ r') : ms = ms' ∧ r = r' := by
  rcases ms with _ | ⟨⟨k, v⟩, ms⟩ <;> rcases ms' with _ | ⟨⟨k', v'⟩, ms'⟩
  · exact ⟨rfl, List.append_cancel_left h⟩
  · cases h
  · cases h
  · simp only [compactMembers, List.cons_append, List.append_assoc, List.cons.injEq, true_and] at h
    obtain ⟨rfl, hv⟩ := quoted_cancel h
    obtain ⟨rfl, hms⟩ :=
      compactChars_cancel v v' (ends_compactMembers _ _) (ends_compactMembers _ _) (List.cons.inj hv).2
    obtain ⟨rfl, rfl⟩ := compactMembers_cancel ms ms' hms
    exact ⟨rfl, rfl⟩

end

/-- Two values with the same compact text are the same. -/
theorem compact_injective : Function.Injective compact := by
  intro j j' h
  have hchars : compactChars j ++ [] = compactChars j' ++ [] := by
    rw [String.ofList_inj.1 h]
  exact (compactChars_cancel j j' ends_nil ends_nil hchars).1

end Appraisal.Json
