import Mathlib.Order.Basic
import QuorumStore.VersionVector

/-!
# The Order of Histories

Version vectors as a preorder, and comparison as the answer to two questions
about it.

A vector lies below another when no node counts more in it. That is a
preorder and not an order: vectors that differ in a moment, in a name or in
entries of zero lie below each other. `compare` asks for both directions at
once, so each of its four answers is one combination of two inequalities, and
everything that has to be known of comparisons — that they can be chained,
that agreeing vectors may take each other's place — is transitivity.

A merge is the least vector above two others. An update lies strictly above
what it updates, in one count and by one.

## Theorems

* `VersionVector.compare_eq_equal_iff`, `compare_eq_newer_iff`,
  `compare_eq_older_iff`, `compare_eq_concurrent_iff`: The four answers.
* `VersionVector.compare_swap`: Exchanging the sides gives the converse.
* `VersionVector.compare_congr`: Agreeing vectors may take each other's place.
* `VersionVector.merge_le_iff`: A merge lies below what both sides do.
* `VersionVector.lt_update`: An update lies strictly above.
-/

namespace QuorumStore

namespace VersionVector

/-- A vector lies below another when no node counts more in it. -/
instance : Preorder VersionVector where
  le a b := ∀ node, a.counter node ≤ b.counter node
  le_refl _ _ := Nat.le_refl _
  le_trans _ _ _ hab hbc node := Nat.le_trans (hab node) (hbc node)

theorem le_def {a b : VersionVector} : a ≤ b ↔ ∀ node, a.counter node ≤ b.counter node :=
  Iff.rfl

/-- A vector that is nowhere ahead lies below. -/
theorem aheadOf_eq_false_iff {a b : VersionVector} : a.aheadOf b = false ↔ a ≤ b := by
  rw [← Bool.not_eq_true, aheadOf_iff, le_def]
  constructor
  · intro h node
    by_contra hc
    exact h ⟨node, Nat.lt_of_not_le hc⟩
  · rintro h ⟨node, hlt⟩
    exact Nat.not_lt_of_le (h node) hlt

theorem aheadOf_eq_true_iff {a b : VersionVector} : a.aheadOf b = true ↔ ¬ a ≤ b := by
  rw [← aheadOf_eq_false_iff, Bool.not_eq_false]

-- Each answer is one combination of which side is ahead of the other.
theorem compare_eq_equal_iff {a b : VersionVector} : a.compare b = .equal ↔ a ≤ b ∧ b ≤ a := by
  rw [← aheadOf_eq_false_iff, ← aheadOf_eq_false_iff, compare]
  cases a.aheadOf b <;> cases b.aheadOf a <;> simp [Causality.ofAhead]

theorem compare_eq_newer_iff {a b : VersionVector} : a.compare b = .newer ↔ b < a := by
  rw [lt_iff_le_not_ge, ← aheadOf_eq_false_iff, ← aheadOf_eq_true_iff, compare]
  cases a.aheadOf b <;> cases b.aheadOf a <;> simp [Causality.ofAhead]

theorem compare_eq_older_iff {a b : VersionVector} : a.compare b = .older ↔ a < b := by
  rw [lt_iff_le_not_ge, ← aheadOf_eq_false_iff, ← aheadOf_eq_true_iff, compare]
  cases a.aheadOf b <;> cases b.aheadOf a <;> simp [Causality.ofAhead]

theorem compare_eq_concurrent_iff {a b : VersionVector} :
    a.compare b = .concurrent ↔ ¬ a ≤ b ∧ ¬ b ≤ a := by
  rw [← aheadOf_eq_true_iff, ← aheadOf_eq_true_iff, compare]
  cases a.aheadOf b <;> cases b.aheadOf a <;> simp [Causality.ofAhead]

/-- A vector that compares as older or equal lies below. -/
theorem compare_older_or_equal_iff {a b : VersionVector} :
    a.compare b = .older ∨ a.compare b = .equal ↔ a ≤ b := by
  rw [compare_eq_older_iff, compare_eq_equal_iff, lt_iff_le_not_ge]
  constructor
  · rintro (h | h) <;> exact h.1
  · intro h
    by_cases hb : b ≤ a
    · exact .inr ⟨h, hb⟩
    · exact .inl ⟨h, hb⟩

theorem compare_swap (a b : VersionVector) : b.compare a = (a.compare b).converse :=
  Causality.ofAhead_swap _ _

/-- Comparisons do not tell vectors apart that count the same. -/
theorem compare_congr {a b c d : VersionVector} (hab : a ≤ b) (hba : b ≤ a) (hcd : c ≤ d)
    (hdc : d ≤ c) : a.compare c = b.compare d := by
  have hahead : ∀ {a b c d : VersionVector}, a ≤ b → b ≤ a → c ≤ d → d ≤ c →
      (a.aheadOf c = true → b.aheadOf d = true) := by
    intro a b c d hab hba hcd hdc
    rw [aheadOf_eq_true_iff, aheadOf_eq_true_iff]
    exact fun h hbd => h (le_trans hab (le_trans hbd hdc))
  rw [compare, compare, Bool.eq_iff_iff.mpr ⟨hahead hab hba hcd hdc, hahead hba hab hdc hcd⟩,
    Bool.eq_iff_iff.mpr ⟨hahead hcd hdc hab hba, hahead hdc hcd hba hab⟩]

theorem le_merge_left (a b : VersionVector) : a ≤ a.merge b := by
  intro node
  rw [counter_merge]
  exact Nat.le_max_left _ _

theorem le_merge_right (a b : VersionVector) : b ≤ a.merge b := by
  intro node
  rw [counter_merge]
  exact Nat.le_max_right _ _

/-- A merge is the least vector above its two sides. -/
theorem merge_le_iff {a b c : VersionVector} : a.merge b ≤ c ↔ a ≤ c ∧ b ≤ c := by
  constructor
  · intro h
    exact ⟨le_trans (le_merge_left a b) h, le_trans (le_merge_right a b) h⟩
  · rintro ⟨ha, hb⟩ node
    rw [counter_merge]
    exact Nat.max_le.mpr ⟨ha node, hb node⟩

theorem counter_update_self (v : VersionVector) (node : String) (now : Instant) :
    (v.update node now).counter node = v.counter node + 1 := by
  rw [counter_update, if_pos rfl]

theorem counter_update_other (v : VersionVector) {node n : String} (now : Instant)
    (h : n ≠ node) : (v.update node now).counter n = v.counter n := by
  rw [counter_update, if_neg h, Nat.add_zero]

theorem le_update (v : VersionVector) (node : String) (now : Instant) :
    v ≤ v.update node now := by
  intro n
  rw [counter_update]
  exact Nat.le_add_right _ _

/-- One more write by a node is news to everyone, whether or not the node had
    an entry. -/
theorem lt_update (v : VersionVector) (node : String) (now : Instant) :
    v < v.update node now := by
  refine lt_of_le_not_ge (le_update v node now) (fun h => ?_)
  have hnode := h node
  rw [counter_update_self] at hnode
  omega

end VersionVector

end QuorumStore
