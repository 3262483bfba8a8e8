import Appraisal.Proofs.Walk
/-!
# Depths in a chain

A layer goes by its depth in the chain of its branch. `descend` goes down to a depth, `chainLength` counts the layers,
and `settle` counts on from the depth at which it starts, each in a recursion of its own. They count alike
(`DepthsAgree`), so a depth that a walk returns means the same layer when it is looked up again from the root.
-/

namespace Appraisal

namespace Settled

/-- The same place in a chain that starts `k` layers further up. -/
def below (k : Nat) : Settled → Settled
  | awaiting depth index => .awaiting (k + depth) index
  | found depth f => .found (k + depth) f

/-- What the layer says at which the walk rests. -/
def resolution : Settled → Resolution
  | awaiting _ index => .awaiting index
  | found _ f => .found f

end Settled

namespace Layer

/-! ## Going down -/

theorem descend_add (l : Layer) (a b : Nat) : l.descend (a + b) = (l.descend a).bind (·.descend b) := by
  induction l generalizing a with
  | last qs c =>
    cases a with
    | zero => rw [Nat.zero_add, descend_zero, Option.bind_some]
    | succ a => rw [Nat.succ_add]; rfl
  | chained qs c f next ih =>
    cases a with
    | zero => rw [Nat.zero_add, descend_zero, Option.bind_some]
    | succ a =>
      rw [Nat.succ_add]
      exact ih a

theorem descend_isSome_iff (l : Layer) (depth : Nat) :
    (l.descend depth).isSome = true ↔ depth < l.chainLength := by
  induction l generalizing depth with
  | last qs c =>
    cases depth with
    | zero => simp [descend, chainLength]
    | succ depth => simp [descend, chainLength]
  | chained qs c f next ih =>
    cases depth with
    | zero => simp [descend, chainLength]
    | succ depth => simp [descend, chainLength, ih depth]

theorem chainLength_of_descend {l m : Layer} {depth : Nat} (h : l.descend depth = some m) :
    l.chainLength = depth + m.chainLength := by
  induction l generalizing depth with
  | last qs c =>
    cases depth with
    | zero =>
      cases h
      rw [Nat.zero_add]
    | succ depth => cases h
  | chained qs c f next ih =>
    cases depth with
    | zero =>
      cases h
      rw [Nat.zero_add]
    | succ depth =>
      have hnext : next.chainLength = depth + m.chainLength := ih h
      rw [chainLength, hnext]
      omega

/-! ## Walking -/

/-- Where a walk starts to count changes nothing but the depth. -/
theorem settle_add (l : Layer) (k depth : Nat) (answers : List Answer) :
    l.settle (k + depth) answers = (l.settle depth answers).map (.below k) := by
  induction l generalizing depth answers with
  | last qs c =>
    simp only [settle]
    rcases (last qs c).resolve answers with _ | _ | _ | _ <;> rfl
  | chained qs c f next ih =>
    simp only [settle]
    rcases (chained qs c f next).resolve answers with _ | _ | _ | _
    · rfl
    · rfl
    · rfl
    · exact ih (depth + 1) []

/-- A walk rests at a layer below the one it starts from, and returns what that layer says: to the answers if the walk
has not moved, and to none if it has. -/
theorem settle_rests {l : Layer} {depth : Nat} {answers : List Answer} {settled : Settled}
    (h : l.settle depth answers = .ok settled) :
    ∃ j m, settled.depth = depth + j ∧ l.descend j = some m ∧
      m.resolve (if j = 0 then answers else []) = .ok settled.resolution := by
  induction l generalizing depth answers with
  | last qs c =>
    rcases settle_cases h with ⟨hlt, rfl⟩ | ⟨f, hs, rfl⟩ | ⟨next, -, hn, -⟩
    · exact ⟨0, last qs c, rfl, rfl, resolve_awaiting hlt⟩
    · exact ⟨0, last qs c, rfl, rfl, resolve_found hs⟩
    · cases hn
  | chained qs c f next ih =>
    rcases settle_cases h with ⟨hlt, rfl⟩ | ⟨f, hs, rfl⟩ | ⟨_, -, hn, hnext⟩
    · exact ⟨0, _, rfl, descend_zero _, resolve_awaiting hlt⟩
    · exact ⟨0, _, rfl, descend_zero _, resolve_found hs⟩
    · -- The rest of the walk has no answers, whether it moves again or not.
      cases hn
      obtain ⟨j, m, hd, hm, hr⟩ := ih hnext
      exact ⟨j + 1, m, by omega, hm, by simpa using hr⟩

/-- The depths of a chain, whichever way they are counted. -/
structure DepthsAgree (root : Layer) : Prop where
  /-- Going down can be done in two parts. -/
  parts : ∀ a b, root.descend (a + b) = (root.descend a).bind (·.descend b)
  named_iff : ∀ depth, (root.descend depth).isSome = true ↔ depth < root.chainLength
  length : ∀ depth l, root.descend depth = some l → root.chainLength = depth + l.chainLength
  /-- From a layer further down a walk goes as it goes from that layer alone, only deeper. -/
  walks : ∀ k l answers, root.descend k = some l → l.settle k answers = (l.settle 0 answers).map (.below k)
  /-- The depth that a walk returns names the layer that waits or has the finding. -/
  rests : ∀ k l answers settled, root.descend k = some l → l.settle k answers = .ok settled →
    ∃ m, root.descend settled.depth = some m ∧
      m.resolve (if settled.depth = k then answers else []) = .ok settled.resolution

/-- Going down, counting and walking agree on the depths of every chain. -/
theorem depths_agree (root : Layer) : root.DepthsAgree where
  parts := root.descend_add
  named_iff := root.descend_isSome_iff
  length _ _ := chainLength_of_descend
  walks k l answers _ := l.settle_add k 0 answers
  rests := by
    intro k l answers settled hl h
    obtain ⟨j, m, hd, hm, hr⟩ := settle_rests h
    refine ⟨m, ?_, ?_⟩
    · rw [hd, root.descend_add, hl, Option.bind_some, hm]
    · have hj : settled.depth = k ↔ j = 0 := by omega
      simpa only [hj] using hr

end Layer

end Appraisal
