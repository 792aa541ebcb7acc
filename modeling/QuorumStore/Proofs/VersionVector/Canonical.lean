import QuorumStore.Proofs.VersionVector.Order

/-!
# Vectors that Sessions Build

What the three ways of making a vector have in common.

A vector that arrives in a message can file an entry under a name that is not
its own, and can carry counts of zero. No vector that was made by counting
does. `Built` says how those are made: from a list of counts, by one more write
of a node, by a merge. Each of the three keeps entries under their own names
and counts from one, so all of them are canonical.

In a canonical vector the entries say no more and no less than the counts do.
`Canonical.mem_counts_iff` is what the rest of the theory knows of the listing:
it names the nodes that have been counted, each with its count. The names
increase along it, so no node is listed twice, and a listing is determined by
what it names: canonical vectors that compare as equal have one listing.

## Main definitions

* `VersionVector.Built`: Made from counts, by writes and by merges.

## Theorems

* `VersionVector.get?_ofCounters`: Of two counts for one node the later is kept.
* `VersionVector.Built.canonical`: What is built is canonical.
* `VersionVector.Canonical.mem_counts_iff`: The listing names what is counted.
* `VersionVector.Canonical.counts_increasing`: Its names increase.
* `VersionVector.Canonical.compare_eq_equal_iff`: Vectors that compare as equal
  are listed alike.
-/

namespace QuorumStore

namespace VersionVector

/-- The vectors that counting makes: those of lists of counts, and what writes
    and merges make of them. -/
inductive Built : VersionVector → Prop where
  | ofCounters (now : Instant) (counts : List (String × Nat)) : Built (ofCounters now counts)
  | update {v : VersionVector} (node : String) (now : Instant) : Built v → Built (v.update node now)
  | merge {a b : VersionVector} : Built a → Built b → Built (a.merge b)

theorem canonical_iff {v : VersionVector} :
    v.Canonical ↔ ∀ k e, v.entries.get? k = some e → k = e.node ∧ 0 < e.counter := by
  constructor
  · intro h k e he
    exact h (k, e) (Table.get?_eq_some_iff.mp he)
  · rintro h ⟨k, e⟩ hmem
    exact h k e (Table.get?_eq_some_iff.mpr hmem)

/-- The vector that has seen nothing is that of no counts. -/
theorem built_empty : Built empty := .ofCounters default []

theorem canonical_empty : empty.Canonical := fun _ h => absurd h List.not_mem_nil

theorem canonical_ofCounters (now : Instant) (counts : List (String × Nat)) :
    (ofCounters now counts).Canonical := by
  intro p hp
  rcases List.mem_map.mp (Table.mem_of_mem_ofList hp) with ⟨q, hq, rfl⟩
  exact ⟨rfl, of_decide_eq_true (List.mem_filter.mp hq).2⟩

/-- The entry of a node is that of its last count that is not zero. -/
theorem get?_ofCounters (now : Instant) (counts : List (String × Nat)) (node : String) :
    (ofCounters now counts).entries.get? node =
      ((counts.filter fun p => decide (p.1 = node ∧ 0 < p.2)).getLast?).map fun p =>
        ⟨p.1, p.2, now⟩ := by
  simp only [ofCounters, Table.get?_ofList, List.filter_map, List.getLast?_map, Option.map_map,
    List.filter_filter, Bool.decide_and]
  rfl

theorem Canonical.update {v : VersionVector} (h : v.Canonical) (node : String) (now : Instant) :
    (v.update node now).Canonical := by
  rw [canonical_iff] at *
  intro k e he
  simp only [VersionVector.update, Table.get?_insert] at he
  by_cases hk : k = node
  · rw [if_pos hk, Option.some.injEq] at he
    -- The entry of the node has its name already, or is given it.
    cases hold : v.entries.get? node with
    | none =>
      rw [hold] at he
      rw [← he]
      exact ⟨hk, Nat.one_pos⟩
    | some old =>
      rw [hold] at he
      rw [← he]
      exact ⟨hk.trans (h node old hold).1, Nat.succ_pos _⟩
  · rw [if_neg hk] at he
    exact h k e he

theorem Canonical.merge {a b : VersionVector} (ha : a.Canonical) (hb : b.Canonical) :
    (a.merge b).Canonical := by
  rw [canonical_iff] at *
  intro k e he
  simp only [VersionVector.merge, Table.get?_mergeWith] at he
  cases hours : a.entries.get? k with
  | none =>
    cases htheirs : b.entries.get? k with
    | none => simp [hours, htheirs] at he
    | some theirs =>
      simp only [hours, htheirs, Option.some.injEq] at he
      rw [← he]
      exact hb k theirs htheirs
  | some ours =>
    have hname := ha k ours hours
    cases htheirs : b.entries.get? k with
    | none =>
      simp only [hours, htheirs, Option.some.injEq] at he
      rw [← he]
      exact hname
    | some theirs =>
      simp only [hours, htheirs, Option.some.injEq, Entry.join] at he
      rw [← he]
      -- The larger count comes from one of the two, and the name stays.
      split
      · exact ⟨hname.1, (hb k theirs htheirs).2⟩
      · exact hname

/-- What is built is canonical. -/
theorem Built.canonical {v : VersionVector} (h : Built v) : v.Canonical := by
  induction h with
  | ofCounters now counts => exact canonical_ofCounters now counts
  | update node now _ ih => exact ih.update node now
  | merge _ _ iha ihb => exact iha.merge ihb

/-- The listing of a canonical vector is that of its keys. -/
theorem Canonical.counts_eq {v : VersionVector} (h : v.Canonical) :
    v.counts = v.entries.toList.map fun p => (p.1, p.2.counter) := by
  rw [counts, Table.values, List.map_map]
  refine List.map_congr_left fun p hp => ?_
  rw [(h p hp).1]
  rfl

/-- The listing of a canonical vector names the nodes it has counted. -/
theorem Canonical.mem_counts_iff {v : VersionVector} (h : v.Canonical) {n : String} {c : Nat} :
    (n, c) ∈ v.counts ↔ v.counter n = c ∧ 0 < c := by
  rw [h.counts_eq, List.mem_map]
  constructor
  · rintro ⟨⟨k, e⟩, hmem, heq⟩
    cases heq
    exact ⟨counter_eq (Table.get?_eq_some_iff.mpr hmem), (h _ hmem).2⟩
  · rintro ⟨rfl, hpos⟩
    -- A count that is not zero comes from an entry.
    cases he : v.entries.get? n with
    | none =>
      rw [counter, he] at hpos
      exact absurd hpos (Nat.lt_irrefl 0)
    | some e => exact ⟨(n, e), Table.get?_eq_some_iff.mp he, by rw [counter_eq he]⟩

theorem Canonical.foldl_merge {v : VersionVector} (h : v.Canonical) {ws : List VersionVector}
    (hws : ∀ w ∈ ws, w.Canonical) : (ws.foldl VersionVector.merge v).Canonical := by
  induction ws generalizing v with
  | nil => exact h
  | cons w ws ih =>
    exact ih (h.merge (hws w List.mem_cons_self)) fun u hu => hws u (List.mem_cons_of_mem _ hu)

/-- Canonical vectors of one listing are of one history. -/
theorem Canonical.le_of_counts_eq {a b : VersionVector} (ha : a.Canonical) (hb : b.Canonical)
    (h : a.counts = b.counts) : a ≤ b := by
  intro n
  by_cases hzero : a.counter n = 0
  · omega
  · have hmem := ha.mem_counts_iff.mpr ⟨rfl, Nat.pos_of_ne_zero hzero⟩
    rw [h, hb.mem_counts_iff] at hmem
    exact Nat.le_of_eq hmem.1.symm

/-- The names increase along the listing of a canonical vector. -/
theorem Canonical.counts_increasing {v : VersionVector} (h : v.Canonical) :
    KeysIncrease v.counts := by
  rw [h.counts_eq, KeysIncrease, List.pairwise_map]
  exact v.entries.increasing

/-- Canonical vectors compare as equal exactly if they are listed alike. -/
theorem Canonical.compare_eq_equal_iff {a b : VersionVector} (ha : a.Canonical)
    (hb : b.Canonical) : a.compare b = .equal ↔ a.counts = b.counts := by
  rw [VersionVector.compare_eq_equal_iff]
  constructor
  · rintro ⟨hab, hba⟩
    -- A listing is a table of its own, and the two say the same of every node.
    suffices h : (⟨a.counts, ha.counts_increasing⟩ : Table String Nat) =
        ⟨b.counts, hb.counts_increasing⟩ from congrArg Table.toList h
    refine Table.ext_get? fun n => Option.ext fun c => ?_
    rw [Table.get?_eq_some_iff, Table.get?_eq_some_iff, ha.mem_counts_iff, hb.mem_counts_iff,
      Nat.le_antisymm (hab n) (hba n)]
  · intro h
    exact ⟨ha.le_of_counts_eq hb h, hb.le_of_counts_eq ha h.symm⟩

end VersionVector

end QuorumStore
