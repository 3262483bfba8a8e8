import Appraisal.Answer
/-!
# The result store

One recorded verdict per item, in the order of the items, and the rows and the summary that a report shows.
-/

namespace Appraisal

/-- A recorded verdict with the answers that led to it. -/
structure Record where
  index : Nat
  id : String
  title : String
  verdict : Verdict
  main : Answer
  trail : List (List Answer)
deriving DecidableEq, Repr

/-- At most one record per index, in ascending order. -/
structure Store where
  records : List Record
  ascending : records.Pairwise (·.index < ·.index)
deriving Repr

namespace Store

/-- Puts a record in its place and drops the one it replaces. -/
def insert (r : Record) : List Record → List Record
  | [] => [r]
  | s :: rest =>
    if r.index < s.index then r :: s :: rest
    else if r.index = s.index then r :: rest
    else s :: insert r rest

theorem mem_insert {r s : Record} {rs : List Record} (h : s ∈ insert r rs) : s = r ∨ s ∈ rs := by
  induction rs with
  | nil => simpa [insert] using h
  | cons t rest ih =>
    simp only [insert] at h
    split at h
    · simpa using h
    · split at h
      · simp only [List.mem_cons] at h
        exact h.imp id (fun h => .tail _ h)
      · simp only [List.mem_cons] at h
        rcases h with rfl | h
        · exact .inr (.head _)
        · exact (ih h).imp id (fun h => .tail _ h)

theorem insert_ascending {r : Record} {rs : List Record} (h : rs.Pairwise (·.index < ·.index)) :
    (insert r rs).Pairwise (·.index < ·.index) := by
  induction rs with
  | nil => simp [insert]
  | cons t rest ih =>
    have ht := List.pairwise_cons.1 h
    simp only [insert]
    split
    · next hlt =>
      refine List.pairwise_cons.2 ⟨fun s hs => ?_, h⟩
      rcases List.mem_cons.1 hs with rfl | hs
      · exact hlt
      · exact Nat.lt_trans hlt (ht.1 s hs)
    · split
      · next heq => exact List.pairwise_cons.2 ⟨fun s hs => heq ▸ ht.1 s hs, ht.2⟩
      · next hlt heq =>
        refine List.pairwise_cons.2 ⟨fun s hs => ?_, ih ht.2⟩
        rcases mem_insert hs with rfl | hs
        · omega
        · exact ht.1 s hs

def empty : Store :=
  ⟨[], .nil⟩

def get? (s : Store) (index : Nat) : Option Record :=
  s.records.find? (·.index = index)

def contains (s : Store) (index : Nat) : Bool :=
  s.records.any (·.index = index)

def size (s : Store) : Nat :=
  s.records.length

def isEmpty (s : Store) : Bool :=
  s.records.isEmpty

end Store

/-- The store behind a change, and the record that the change took away. -/
structure StoreChange where
  store : Store
  displaced : Option Record
deriving Repr

namespace Store

/-- Stores a record in place of the one with its index. -/
def record (s : Store) (r : Record) : StoreChange :=
  ⟨⟨insert r s.records, insert_ascending s.ascending⟩, s.get? r.index⟩

def retract (s : Store) (index : Nat) : StoreChange :=
  ⟨⟨s.records.filter (·.index ≠ index), s.ascending.filter _⟩, s.get? index⟩

end Store

/-- One line of results; an item without a record is pending. -/
structure Row where
  index : Nat
  id : String
  title : String
  standing : Standing
  main : Option Answer
  trail : List (List Answer)
deriving DecidableEq, Repr

def Record.row (r : Record) : Row :=
  ⟨r.index, r.id, r.title, .decided r.verdict, some r.main, r.trail⟩

structure Summary where
  total : Nat
  passed : Nat
  failed : Nat
  pending : Nat
deriving DecidableEq, Repr

namespace Summary

def of (rows : List Row) : Summary :=
  { total := rows.length
    passed := rows.countP (·.standing = .decided .pass)
    failed := rows.countP (·.standing = .decided .fail)
    pending := rows.countP (·.standing.verdict?.isNone) }

def allPassed (s : Summary) : Bool :=
  0 < s.total && s.passed = s.total

end Summary

/-- The results of a finished questionnaire. -/
structure Completion where
  rows : List Row
  summary : Summary
deriving DecidableEq, Repr

end Appraisal
