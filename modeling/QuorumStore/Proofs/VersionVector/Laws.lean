import QuorumStore.Proofs.VersionVector.Order

/-!
# The Laws of Histories

What can be taken for granted of comparing, merging and updating vectors,
whatever their entries look like.

A vector is a table, and tables of one meaning can look different. An entry may
count zero where another vector has none, and it may be filed under a name that
is not its own. None of this shows in the answers of `compare`, because both
ways of saying zero are the same to `counter`. So every law here is stated of
all vectors alike, in counts and in the four answers.

`compare` asks each side whether it is ahead, and each goes through its own
entries. The second question can be put differently. A side is behind where an
entry of its own counts less, or where the other has an entry that it lacks; an
entry of zero that it lacks makes no difference. So one pass over the entries
of the first side and one over those of the second decide, and the second has
to look only at what the first has not met (`compare_eq_scan`).

Answers that leave open whether two vectors agree are needed so often that they
have a name: a vector `Covers` what compares as older or as equal. The theory
of orders does the rest, since to cover is to lie above.

## Main definitions

* `VersionVector.Covers`: One vector is as new as another.

## Theorems

* `VersionVector.compare_eq_scan`: One pass over each side decides.
* `VersionVector.covers_iff`: To cover is to lie above.
* `VersionVector.compare_pointwise`: Comparing is comparing the counts.
* `VersionVector.merge_update_laws`: A merge is a least upper bound, and an
  update is a step up.
-/

namespace QuorumStore

namespace VersionVector

/-- A node that has no entry counts zero. -/
theorem counter_eq_zero {v : VersionVector} {node : String} (h : v.entries.get? node = none) :
    v.counter node = 0 := by
  rw [counter, h]

/-- A vector is behind another where an entry of its own counts less, or where
    the other has an entry, not of zero, that it lacks. -/
theorem aheadOf_eq_scan (a b : VersionVector) :
    b.aheadOf a = ((a.entries.toList.any fun p => decide (p.2.counter < b.counter p.1)) ||
      b.entries.toList.any fun p => decide (0 < p.2.counter) && !a.entries.contains p.1) := by
  rw [Bool.eq_iff_iff, aheadOf_iff]
  simp only [Bool.or_eq_true, List.any_eq_true, decide_eq_true_eq, Bool.and_eq_true,
    Bool.not_eq_true', Table.contains, Option.isSome_eq_false_iff, Option.isNone_iff_eq_none]
  constructor
  · rintro ⟨node, h⟩
    -- The first scan meets the node if it has an entry here, the second if not.
    cases hours : a.entries.get? node with
    | some e =>
      rw [counter_eq hours] at h
      exact .inl ⟨(node, e), Table.get?_eq_some_iff.mp hours, h⟩
    | none =>
      rw [counter_eq_zero hours] at h
      cases htheirs : b.entries.get? node with
      | some e =>
        rw [counter_eq htheirs] at h
        exact .inr ⟨(node, e), Table.get?_eq_some_iff.mp htheirs, h, hours⟩
      | none =>
        rw [counter_eq_zero htheirs] at h
        omega
  · rintro (⟨⟨node, e⟩, hmem, h⟩ | ⟨⟨node, e⟩, hmem, hpos, hlacks⟩)
    · refine ⟨node, ?_⟩
      rw [counter_eq (Table.get?_eq_some_iff.mpr hmem)]
      exact h
    · refine ⟨node, ?_⟩
      rw [counter_eq (Table.get?_eq_some_iff.mpr hmem), counter_eq_zero hlacks]
      exact hpos

/-- One pass over the entries of each side decides a comparison. -/
theorem compare_eq_scan (a b : VersionVector) :
    a.compare b = Causality.ofAhead
      (a.entries.toList.any fun p => decide (b.counter p.1 < p.2.counter))
      ((a.entries.toList.any fun p => decide (p.2.counter < b.counter p.1)) ||
        b.entries.toList.any fun p => decide (0 < p.2.counter) && !a.entries.contains p.1) := by
  rw [← aheadOf_eq_scan]
  rfl

/-- A vector lies strictly below another that counts less nowhere and more
    somewhere. -/
theorem lt_iff_counters {a b : VersionVector} :
    a < b ↔ (∀ n, a.counter n ≤ b.counter n) ∧ ∃ n, a.counter n < b.counter n := by
  rw [lt_iff_le_not_ge, le_def, le_def]
  simp only [not_forall, Nat.not_le]

/-- Comparing vectors is comparing their counts, node by node, where a node
    without an entry counts zero; one pass over the entries of each side does
    it. Exchanging the sides gives the converse answer. Vectors that compare as
    equal can take each other's place in every comparison, and being newer is a
    strict order. -/
theorem compare_pointwise :
    (∀ a b : VersionVector,
      (a.compare b = .equal ↔ ∀ n, a.counter n = b.counter n) ∧
      (a.compare b = .newer ↔
        (∀ n, b.counter n ≤ a.counter n) ∧ ∃ n, b.counter n < a.counter n) ∧
      (a.compare b = .older ↔
        (∀ n, a.counter n ≤ b.counter n) ∧ ∃ n, a.counter n < b.counter n) ∧
      (a.compare b = .concurrent ↔
        (∃ n, b.counter n < a.counter n) ∧ ∃ n, a.counter n < b.counter n) ∧
      a.compare b = Causality.ofAhead
        (a.entries.toList.any fun p => decide (b.counter p.1 < p.2.counter))
        ((a.entries.toList.any fun p => decide (p.2.counter < b.counter p.1)) ||
          b.entries.toList.any fun p => decide (0 < p.2.counter) && !a.entries.contains p.1) ∧
      b.compare a = (a.compare b).converse) ∧
    Equivalence (fun a b : VersionVector => a.compare b = .equal) ∧
    (∀ a b c d : VersionVector, a.compare b = .equal → c.compare d = .equal →
      a.compare c = b.compare d) ∧
    IsStrictOrder VersionVector (fun a b => a.compare b = .newer) := by
  refine ⟨fun a b => ⟨?_, ?_, ?_, ?_, compare_eq_scan a b, compare_swap a b⟩,
    ⟨?_, ?_, ?_⟩, ?_, ?_⟩
  · rw [compare_eq_equal_iff, le_def, le_def, ← forall_and]
    exact forall_congr' fun n => by omega
  · rw [compare_eq_newer_iff, lt_iff_counters]
  · rw [compare_eq_older_iff, lt_iff_counters]
  · rw [compare_eq_concurrent_iff, le_def, le_def]
    simp only [not_forall, Nat.not_le]
  -- To agree is to lie below each other, an equivalence in every preorder.
  · intro a
    exact compare_eq_equal_iff.mpr ⟨le_refl a, le_refl a⟩
  · intro a b h
    exact compare_eq_equal_iff.mpr (compare_eq_equal_iff.mp h).symm
  · intro a b c hab hbc
    rw [compare_eq_equal_iff] at hab hbc ⊢
    exact ⟨le_trans hab.1 hbc.1, le_trans hbc.2 hab.2⟩
  · intro a b c d hab hcd
    rw [compare_eq_equal_iff] at hab hcd
    exact compare_congr hab.1 hab.2 hcd.1 hcd.2
  · refine @IsStrictOrder.mk _ _ ⟨fun a h => ?_⟩ ⟨fun a b c hab hbc => ?_⟩
    · exact lt_irrefl a (compare_eq_newer_iff.mp h)
    · rw [compare_eq_newer_iff] at hab hbc ⊢
      exact lt_trans hbc hab

/-- A vector covers another that compares as older than it or as equal. -/
def Covers (a b : VersionVector) : Prop := a.compare b = .newer ∨ a.compare b = .equal

/-- To cover is to lie above. -/
theorem covers_iff {a b : VersionVector} : a.Covers b ↔ b ≤ a := by
  rw [← compare_older_or_equal_iff, compare_swap a b, Covers]
  cases a.compare b <;> simp [Causality.converse]

/-- Vectors of the same counts agree. -/
theorem compare_eq_equal_of_counters {a b : VersionVector}
    (h : ∀ n, a.counter n = b.counter n) : a.compare b = .equal :=
  compare_eq_equal_iff.mpr ⟨fun n => Nat.le_of_eq (h n), fun n => Nat.le_of_eq (h n).symm⟩

/-- A merge counts for every node the larger of two counts, so it is the least
    vector that covers both sides; merging in another order, in other groups or
    twice makes no difference to comparisons, and it keeps what covers what. An
    update raises the count of its node by one and no other, and what comes of
    it is newer, whether or not the node had an entry. -/
theorem merge_update_laws :
    (∀ a b : VersionVector,
      (∀ n, (a.merge b).counter n = max (a.counter n) (b.counter n)) ∧
      (a.merge b).Covers a ∧ (a.merge b).Covers b ∧
      ∀ c : VersionVector, c.Covers a → c.Covers b →
        (a.merge b).compare c = .older ∨ (a.merge b).compare c = .equal) ∧
    (∀ a b : VersionVector, (a.merge b).compare (b.merge a) = .equal) ∧
    (∀ a b c : VersionVector, ((a.merge b).merge c).compare (a.merge (b.merge c)) = .equal) ∧
    (∀ a : VersionVector, (a.merge a).compare a = .equal) ∧
    (∀ a b c d : VersionVector, c.Covers a → d.Covers b → (c.merge d).Covers (a.merge b)) ∧
    (∀ (a : VersionVector) (node : String) (now : Instant),
      (a.update node now).counter node = a.counter node + 1 ∧
      (∀ n, n ≠ node → (a.update node now).counter n = a.counter n) ∧
      (a.update node now).compare a = .newer) := by
  refine ⟨fun a b => ⟨counter_merge a b, ?_, ?_, fun c hca hcb => ?_⟩, fun a b => ?_,
    fun a b c => ?_, fun a => ?_, fun a b c d hca hdb => ?_, fun a node now => ⟨?_, ?_, ?_⟩⟩
  · exact covers_iff.mpr (le_merge_left a b)
  · exact covers_iff.mpr (le_merge_right a b)
  · rw [covers_iff] at hca hcb
    exact compare_older_or_equal_iff.mpr (merge_le_iff.mpr ⟨hca, hcb⟩)
  -- The laws of a merge are those of a maximum.
  · refine compare_eq_equal_of_counters fun n => ?_
    rw [counter_merge, counter_merge, Nat.max_comm]
  · refine compare_eq_equal_of_counters fun n => ?_
    rw [counter_merge, counter_merge, counter_merge, counter_merge, Nat.max_assoc]
  · refine compare_eq_equal_of_counters fun n => ?_
    rw [counter_merge, Nat.max_self]
  · rw [covers_iff] at hca hdb ⊢
    exact merge_le_iff.mpr
      ⟨le_trans hca (le_merge_left c d), le_trans hdb (le_merge_right c d)⟩
  · exact counter_update_self a node now
  · exact fun n h => counter_update_other a now h
  · exact compare_eq_newer_iff.mpr (lt_update a node now)

end VersionVector

end QuorumStore
