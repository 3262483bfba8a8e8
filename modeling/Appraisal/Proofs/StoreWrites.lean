import Appraisal.Proofs.StoreMap
import Mathlib.Data.Set.Card
/-!
# Stores and summaries, from what was written

A store is written by records and retractions in any order. What it holds at an index is what the last of them left
there (`Stands`), and nothing else about them can be told from it (`KeepsLast`). A summary is told by the rows alone,
wherever they stand (`Summary.Counts`).
-/

namespace Appraisal

/-- One operation on a store. -/
inductive StoreWrite where
  | record (r : Record)
  | retract (index : Nat)
deriving DecidableEq, Repr

namespace StoreWrite

def index : StoreWrite → Nat
  | record r => r.index
  | retract i => i

/-- What the operation leaves at its index. -/
def left? : StoreWrite → Option Record
  | record r => some r
  | retract _ => none

theorem left?_eq_some {w : StoreWrite} {r : Record} : w.left? = some r ↔ w = .record r := by
  cases w <;> simp [left?]

end StoreWrite

namespace Store

def write (s : Store) : StoreWrite → StoreChange
  | .record r => s.record r
  | .retract i => s.retract i

def writeAll (s : Store) (ws : List StoreWrite) : Store :=
  ws.foldl (fun s w => (s.write w).store) s

/-- `r` is the last record written at `i`, and it has not been retracted since. -/
def Stands (ws : List StoreWrite) (i : Nat) (r : Record) : Prop :=
  ∃ before after, ws = before ++ .record r :: after ∧ r.index = i ∧ ∀ w ∈ after, w.index ≠ i

/-! ## One operation -/

theorem get?_write (s : Store) (w : StoreWrite) (i : Nat) :
    (s.write w).store.get? i = if i = w.index then w.left? else s.get? i := by
  cases w with
  | record r => exact s.get?_record r i
  | retract j => exact s.get?_retract j i

theorem displaced_write (s : Store) (w : StoreWrite) : (s.write w).displaced = s.get? w.index := by
  cases w <;> rfl

theorem count_records (s : Store) (r : Record) : s.records.count r = if s.get? r.index = some r then 1 else 0 := by
  have hnodup : s.records.Nodup := .of_map _ s.nodup_indices
  simp [hnodup.count, get?_eq_some]

theorem count_toList (o : Option Record) (r : Record) : o.toList.count r = if o = some r then 1 else 0 := by
  cases o with
  | none => simp
  | some t => simp [List.count_singleton]

/-- What was there and what is put in is afterwards there or returned, and nothing else is. -/
theorem write_exchanges (s : Store) (w : StoreWrite) :
    ((s.write w).displaced.toList ++ (s.write w).store.records).Perm (w.left?.toList ++ s.records) := by
  refine List.perm_iff_count.2 fun r => ?_
  rw [List.count_append, List.count_append, count_toList, count_toList, count_records, count_records, get?_write,
    displaced_write]
  by_cases hi : r.index = w.index
  · rw [if_pos hi, hi, Nat.add_comm]
  · -- Neither the record that is put in nor the one that is taken out is `r`.
    have hold : s.get? w.index ≠ some r := fun h => hi (get?_eq_some.1 h).2
    have hnew : w.left? ≠ some r := by
      intro h
      rw [StoreWrite.left?_eq_some.1 h] at hi
      exact hi rfl
    rw [if_neg hold, if_neg hnew, if_neg hi]

/-- The first operation has the last word only where no other one writes. -/
theorem stands_cons {w : StoreWrite} {ws : List StoreWrite} {i : Nat} {r : Record} :
    Stands (w :: ws) i r ↔ Stands ws i r ∨ (w = .record r ∧ w.index = i ∧ ∀ v ∈ ws, v.index ≠ i) := by
  constructor
  · rintro ⟨before, after, h, hi, hafter⟩
    cases before with
    | nil =>
      obtain ⟨rfl, rfl⟩ := List.cons.inj h
      exact .inr ⟨rfl, hi, hafter⟩
    | cons v before =>
      obtain ⟨-, rfl⟩ := List.cons.inj h
      exact .inl ⟨before, after, rfl, hi, hafter⟩
  · rintro (⟨before, after, rfl, hi, hafter⟩ | ⟨rfl, hi, hafter⟩)
    · exact ⟨w :: before, after, rfl, hi, hafter⟩
    · exact ⟨[], ws, rfl, hi, hafter⟩

/-! ## Any number of operations -/

theorem get?_writeAll (s : Store) (ws : List StoreWrite) (i : Nat) (r : Record) :
    (s.writeAll ws).get? i = some r ↔ Stands ws i r ∨ (s.get? i = some r ∧ ∀ w ∈ ws, w.index ≠ i) := by
  induction ws generalizing s with
  | nil => simp [writeAll, Stands]
  | cons w ws ih =>
    have hstep : s.writeAll (w :: ws) = (s.write w).store.writeAll ws := rfl
    rw [hstep, ih, get?_write, stands_cons, List.forall_mem_cons, or_assoc]
    -- The first operation either writes at `i` or leaves there what `s` has.
    by_cases hi : i = w.index
    · simp [← hi, StoreWrite.left?_eq_some]
    · simp [hi, Ne.symm hi]

theorem get?_written (ws : List StoreWrite) (i : Nat) (r : Record) :
    (empty.writeAll ws).get? i = some r ↔ Stands ws i r := by
  rw [get?_writeAll]
  simp [empty, get?]

theorem size_eq_ncard (s : Store) : s.size = {i | s.contains i = true}.ncard := by
  have hset : {i | s.contains i = true} = ↑(s.records.map (·.index)).toFinset := by
    ext i
    simp [← mem_indices]
  rw [hset, Set.ncard_coe_finset, List.toFinset_card_of_nodup s.nodup_indices, List.length_map, size]

theorem contains_written (ws : List StoreWrite) (i : Nat) :
    (empty.writeAll ws).contains i = true ↔ ∃ r, Stands ws i r := by
  simp only [contains_iff, get?_written]

theorem eq_written_iff (ws : List StoreWrite) (s : Store) :
    empty.writeAll ws = s ↔ ∀ i r, Stands ws i r ↔ s.get? i = some r := by
  constructor
  · rintro rfl i r
    exact (get?_written ws i r).symm
  · intro h
    refine ext_get? fun i => Option.ext fun r => ?_
    rw [get?_written, h]

theorem records_written (ws : List StoreWrite) (rs : List Record) :
    (empty.writeAll ws).records = rs ↔
      rs.Pairwise (·.index < ·.index) ∧ ∀ r, r ∈ rs ↔ Stands ws r.index r := by
  constructor
  · rintro rfl
    refine ⟨(empty.writeAll ws).ascending, fun r => ?_⟩
    rw [← get?_written, get?_eq_some]
    simp
  · rintro ⟨hrs, hmem⟩
    -- A list in ascending order is a store, and this one reads as the written one does.
    have hstore : empty.writeAll ws = ⟨rs, hrs⟩ := by
      refine (eq_written_iff ws _).2 fun i r => ?_
      rw [get?_eq_some, hmem]
      constructor
      · intro h
        obtain ⟨_, _, _, hi, _⟩ := id h
        exact ⟨hi ▸ h, hi⟩
      · rintro ⟨h, rfl⟩
        exact h
    rw [hstore]

/-- What a store that was empty holds after `ws`. -/
structure KeepsLast (ws : List StoreWrite) : Prop where
  get : ∀ i r, (empty.writeAll ws).get? i = some r ↔ Stands ws i r
  contains : ∀ i, (empty.writeAll ws).contains i = true ↔ ∃ r, Stands ws i r
  size : (empty.writeAll ws).size = {i | ∃ r, Stands ws i r}.ncard
  /-- The next operation returns what stands at its index. -/
  returns : ∀ w r, ((empty.writeAll ws).write w).displaced = some r ↔ Stands ws w.index r
  /-- What it returns is the one record that it takes away. -/
  exchanges : ∀ w, (((empty.writeAll ws).write w).displaced.toList ++
    ((empty.writeAll ws).write w).store.records).Perm (w.left?.toList ++ (empty.writeAll ws).records)
  /-- The records are the one list in strictly ascending order of all that stand. -/
  records : ∀ rs : List Record, (empty.writeAll ws).records = rs ↔
    rs.Pairwise (·.index < ·.index) ∧ ∀ r, r ∈ rs ↔ Stands ws r.index r
  /-- Stores are equal when they were written alike at each index. -/
  same : ∀ vs, empty.writeAll ws = empty.writeAll vs ↔ ∀ i r, Stands ws i r ↔ Stands vs i r

theorem keepsLast (ws : List StoreWrite) : KeepsLast ws where
  get := get?_written ws
  contains := contains_written ws
  size := by
    rw [size_eq_ncard]
    simp only [contains_written]
  returns w r := by rw [displaced_write, get?_written]
  exchanges := write_exchanges (empty.writeAll ws)
  records := records_written ws
  same vs := by
    rw [eq_written_iff]
    simp only [get?_written]

end Store

/-! ## Summaries -/

namespace Summary

instance : Add Summary :=
  ⟨fun s t => ⟨s.total + t.total, s.passed + t.passed, s.failed + t.failed, s.pending + t.pending⟩⟩

theorem of_append (rows more : List Row) : of (rows ++ more) = of rows + of more := by
  simp only [of, List.length_append, List.countP_append]
  rfl

theorem of_perm {rows rows' : List Row} (h : rows.Perm rows') : of rows = of rows' := by
  simp only [of, h.length_eq, h.countP_eq]

theorem allPassed_of (rows : List Row) :
    (of rows).allPassed = true ↔ rows ≠ [] ∧ ∀ r ∈ rows, r.standing = .decided .pass := by
  rw [allPassed, Bool.and_eq_true, decide_eq_true_eq, decide_eq_true_eq]
  simp [of, List.length_pos_iff, List.countP_eq_length]

/-- What a summary says of its rows. -/
structure Counts (rows : List Row) : Prop where
  total : (of rows).total = rows.length
  each : (of rows).passed + (of rows).failed + (of rows).pending = (of rows).total
  order : ∀ rows', rows.Perm rows' → of rows = of rows'
  parts : ∀ more, of (rows ++ more) = of rows + of more
  allPassed : (of rows).allPassed = true ↔ rows ≠ [] ∧ ∀ r ∈ rows, r.standing = .decided .pass

theorem counts (rows : List Row) : Counts rows where
  total := rfl
  each := counts_total rows
  order _ := of_perm
  parts := of_append rows
  allPassed := allPassed_of rows

end Summary

/-- Whatever is written to a store in whatever order, the last write at each index stands there and the records are in
ascending order. A summary counts each row once, in whatever order the rows are. -/
theorem last_writes_stand (ws : List StoreWrite) (rows : List Row) : Store.KeepsLast ws ∧ Summary.Counts rows :=
  ⟨Store.keepsLast ws, Summary.counts rows⟩

end Appraisal
