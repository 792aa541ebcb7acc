import QuorumStore.Proofs.Version.Arrival

/-!
# The Winner of the Highest Node

A rule for settling conflicts that no causal order contradicts.

`highestNodeOrder` compares listings from the highest node down, and a listing
leaves out the nodes that count zero. Where one version knows a node that the
other does not, all that follows is shifted by a place, so the order does not
compare count with count. It respects causality all the same. At the first
place where two listings differ, the version that counts at least as much
everywhere has the higher name, or the higher count for the same name, or is
the only one to go on (`compareCounts_ne_gt_of_covered`).

A version that another has superseded therefore comes before it, and a version
that has the history of another comes where the listing puts it, which is how
reconciliation chooses between the two. So what reconciliation drops could not
have won: the `Highest` of the survivors is the `Highest` of all versions, and
any two such agree.

## Main definitions

* `Version.Falling`: The names decrease along a list of counts.
* `Version.Highest`: No version of the list comes after this one.

## Theorems

* `Version.compareCounts_ne_gt_of_covered`: What counts no more comes no later.
* `Version.highestNodeOrder_of_lt`: What is superseded comes before.
* `Version.highestNode?_eq_some`: The winner is the highest.
* `Version.Highest.of_reconcile`: Reconciliation keeps the highest.
* `Version.Highest.agrees`: The highest is one version.
* `Version.resolve_highestNode`: The winner does not depend on the arrival.
-/

namespace QuorumStore

namespace Version

theorem compareCounts_eq_compareLex :
    compareCounts = List.compareLex (compareLex (compareOn Prod.fst) (compareOn Prod.snd)) := by
  funext l m
  induction l generalizing m with
  | nil => cases m <;> rfl
  | cons p l ih =>
    cases m with
    | nil => rfl
    | cons q m =>
      rw [compareCounts, List.compareLex_cons_cons, ih]
      rfl

instance : Std.TransCmp compareCounts := by
  rw [compareCounts_eq_compareLex]
  infer_instance

/-- Lists of counts are tied only with themselves. -/
theorem eq_of_compareCounts {l m : List (String × Nat)} (h : compareCounts l m = .eq) : l = m := by
  induction l generalizing m with
  | nil =>
    cases m with
    | nil => rfl
    | cons q m => cases h
  | cons p l ih =>
    cases m with
    | nil => cases h
    | cons q m =>
      rw [compareCounts, Ordering.then_eq_eq, Ordering.then_eq_eq] at h
      rcases h with ⟨⟨hname, hcount⟩, hrest⟩
      rw [ih hrest, Prod.ext (Std.LawfulEqCmp.eq_of_compare hname)
        (Std.LawfulEqCmp.eq_of_compare hcount)]

instance : Std.TransCmp highestNodeOrder where
  eq_swap {a b} := by
    rw [highestNodeOrder, highestNodeOrder, Ordering.swap_then, ← Std.OrientedCmp.eq_swap,
      ← Std.OrientedCmp.eq_swap]
  isLE_trans {a b c} hab hbc := by
    rw [highestNodeOrder, Ordering.isLE_then_iff_or] at *
    rcases hab with hab | ⟨hab, sab⟩ <;> rcases hbc with hbc | ⟨hbc, sbc⟩
    · exact .inl (Std.TransCmp.lt_trans hab hbc)
    · exact .inl (Std.TransCmp.lt_of_lt_of_eq hab hbc)
    · exact .inl (Std.TransCmp.lt_of_eq_of_lt hab hbc)
    · exact .inr ⟨Std.TransCmp.eq_trans hab hbc, Std.TransCmp.isLE_trans sab sbc⟩

/-- The names decrease along a list of counts. -/
def Falling (l : List (String × Nat)) : Prop := l.Pairwise fun p q => compare q.1 p.1 = .lt

/-- A list that counts no name more than another comes no later. -/
theorem compareCounts_ne_gt_of_covered {l m : List (String × Nat)} (hl : Falling l)
    (hm : Falling m) (h : ∀ p ∈ l, ∃ d, (p.1, d) ∈ m ∧ p.2 ≤ d) : compareCounts l m ≠ .gt := by
  induction l generalizing m with
  | nil => cases m <;> simp [compareCounts]
  | cons p l ih =>
    rcases h p List.mem_cons_self with ⟨d, hd, hle⟩
    cases m with
    | nil => cases hd
    | cons q m =>
      rw [Falling, List.pairwise_cons] at hl hm
      rcases List.mem_cons.mp hd with rfl | hd
      · -- The same name stands in front, so the count decides, or else the rest does.
        have hrest : compareCounts l m ≠ .gt := by
          refine ih hl.2 hm.2 fun r hr => ?_
          rcases h r (List.mem_cons_of_mem _ hr) with ⟨c, hc, hrc⟩
          rcases List.mem_cons.mp hc with heq | hc
          · have hlt := hl.1 r hr
            rw [congrArg Prod.fst heq] at hlt
            exact absurd hlt (compare_self_ne_lt _)
          · exact ⟨c, hc, hrc⟩
        rcases Nat.lt_or_eq_of_le hle with hlt | heq
        · simp [compareCounts, Nat.compare_eq_lt.mpr hlt]
        · simpa [compareCounts, heq] using hrest
      · -- Another name stands in front there, and it is higher.
        simp [compareCounts, hm.1 _ hd]

section Causal

variable {a b : Version}

/-- From the last key down, the names of a canonical vector decrease. -/
theorem falling_reverse_counts {v : VersionVector} (h : v.Canonical) : Falling v.counts.reverse :=
  List.pairwise_reverse.mpr h.counts_increasing

theorem compareCounts_of_le (ha : a.vector.Canonical) (hb : b.vector.Canonical)
    (hab : a.vector ≤ b.vector) :
    compareCounts a.vector.counts.reverse b.vector.counts.reverse ≠ .gt := by
  refine compareCounts_ne_gt_of_covered (falling_reverse_counts ha) (falling_reverse_counts hb) ?_
  rintro ⟨n, c⟩ hmem
  rw [List.mem_reverse, ha.mem_counts_iff] at hmem
  have hle := hab n
  refine ⟨b.vector.counter n, ?_, by omega⟩
  rw [List.mem_reverse, hb.mem_counts_iff]
  exact ⟨rfl, by omega⟩

/-- A version that is superseded comes before the one that supersedes it. -/
theorem highestNodeOrder_of_lt (ha : a.vector.Canonical) (hb : b.vector.Canonical)
    (hab : a.vector < b.vector) : highestNodeOrder a b = .lt := by
  have hne := compareCounts_of_le ha hb (le_of_lt hab)
  rw [highestNodeOrder]
  cases hcmp : compareCounts a.vector.counts.reverse b.vector.counts.reverse with
  | lt => rfl
  | gt => exact absurd hcmp hne
  | eq =>
    -- Listings that are tied are one listing, and that is one history.
    have hcounts := List.reverse_injective (eq_of_compareCounts hcmp)
    exact absurd (hb.le_of_counts_eq ha hcounts.symm) (not_le_of_gt hab)

/-- Under one history versions are ordered as siblings. -/
theorem highestNodeOrder_of_equiv (ha : a.vector.Canonical) (hb : b.vector.Canonical)
    (hab : a.vector ≤ b.vector) (hba : b.vector ≤ a.vector) :
    highestNodeOrder a b = siblingOrder a b := by
  have hle := Ordering.isLE_iff_ne_gt.mpr (compareCounts_of_le ha hb hab)
  have hge := Ordering.isLE_iff_ne_gt.mpr (compareCounts_of_le hb ha hba)
  rw [highestNodeOrder, Std.OrientedCmp.isLE_antisymm hle hge]
  rfl

/-- Versions that are tied agree. -/
theorem agrees_of_highestNodeOrder_eq (ha : a.vector.Canonical) (hb : b.vector.Canonical)
    (h : highestNodeOrder a b = .eq) : a.agrees b = true := by
  rw [highestNodeOrder, Ordering.then_eq_eq] at h
  have hcounts := List.reverse_injective (eq_of_compareCounts h.1)
  rcases siblingOrder_eq_iff.mp h.2 with ⟨-, htombstone, hvalue⟩
  exact agrees_iff.mpr ⟨hvalue, htombstone, ha.le_of_counts_eq hb hcounts,
    hb.le_of_counts_eq ha hcounts.symm⟩

end Causal

/-- No version of the list comes after this one. -/
def Highest (vs : List Version) (m : Version) : Prop :=
  m ∈ vs ∧ ∀ v ∈ vs, (highestNodeOrder v m).isLE = true

/-- The greatest of a list of versions is their highest. -/
theorem highestNode?_eq_some {vs : List Version} (hne : vs ≠ []) :
    ∃ m, highestNode? vs = some m ∧ Highest vs m := by
  cases vs with
  | nil => exact absurd rfl hne
  | cons v vs =>
    refine ⟨_, rfl, ?_⟩
    clear hne
    induction vs generalizing v with
    | nil =>
      refine ⟨List.mem_cons_self, fun w hw => ?_⟩
      rw [List.mem_singleton.mp hw]
      exact Std.ReflCmp.isLE_rfl
    | cons w vs ih =>
      rw [List.foldl_cons]
      by_cases hgt : highestNodeOrder v w = .gt
      · rw [if_pos hgt]
        rcases ih v with ⟨hmem, hall⟩
        refine ⟨?_, fun u hu => ?_⟩
        · rcases List.mem_cons.mp hmem with heq | hmem
          · rw [heq]
            exact List.mem_cons_self
          · exact List.mem_cons_of_mem _ (List.mem_cons_of_mem _ hmem)
        · -- What was passed over comes before what was kept instead.
          rcases List.mem_cons.mp hu with rfl | hu
          · exact hall u List.mem_cons_self
          rcases List.mem_cons.mp hu with rfl | hu
          · have hlt : highestNodeOrder u v = .lt := Std.OrientedCmp.lt_of_gt hgt
            refine Std.TransCmp.isLE_trans ?_ (hall v List.mem_cons_self)
            rw [hlt]
            rfl
          · exact hall u (List.mem_cons_of_mem _ hu)
      · rw [if_neg hgt]
        rcases ih w with ⟨hmem, hall⟩
        refine ⟨List.mem_cons_of_mem _ hmem, fun u hu => ?_⟩
        rcases List.mem_cons.mp hu with rfl | hu
        · exact Std.TransCmp.isLE_trans (Ordering.isLE_iff_ne_gt.mpr hgt)
            (hall w List.mem_cons_self)
        · exact hall u hu

/-- The policy of the highest node finds a winner among any survivors. -/
theorem resolve_eq_winner {survivors : List Version} (hne : survivors ≠ []) :
    ∃ w, resolve .highestNode survivors = .winner w ∧ Highest survivors w := by
  rcases highestNode?_eq_some hne with ⟨w, hw, hhighest⟩
  refine ⟨w, ?_, hhighest⟩
  rcases survivors with _ | ⟨a, _ | ⟨b, l⟩⟩
  · exact absurd rfl hne
  · rw [← Option.some.inj hw]
    rfl
  · simp only [resolve, hw]

theorem reconcile_ne_nil {vs : List Version} (hne : vs ≠ []) : reconcile vs ≠ [] := by
  rcases List.exists_mem_of_ne_nil vs hne with ⟨v, hv⟩
  rcases (frontier_reconcile vs).covers v hv with ⟨s, hs, -⟩
  exact List.ne_nil_of_mem hs

section Canonical

variable {vs : List Version} (hcanonical : ∀ v ∈ vs, v.vector.Canonical)
include hcanonical

/-- The highest of the survivors is the highest of all versions. -/
theorem Highest.of_reconcile {w : Version} (h : Highest (reconcile vs) w) : Highest vs w := by
  have hfrontier := frontier_reconcile vs
  refine ⟨hfrontier.sound w h.1, fun v hv => ?_⟩
  rcases hfrontier.covers v hv with ⟨s, hs, hvs⟩
  have hcv := hcanonical v hv
  have hcs := hcanonical s (hfrontier.sound s hs)
  -- The survivor that covers a version comes no earlier than it.
  refine Std.TransCmp.isLE_trans ?_ (h.2 s hs)
  by_cases hsv : s.vector ≤ v.vector
  · rw [highestNodeOrder_of_equiv hcv hcs hvs hsv, ← siblingLE_iff]
    exact hfrontier.last s hs v hv hvs hsv
  · rw [highestNodeOrder_of_lt hcv hcs (lt_of_le_not_ge hvs hsv)]
    rfl

/-- The highest of a list is one version. -/
theorem Highest.agrees {a b : Version} (ha : Highest vs a) (hb : Highest vs b) :
    a.agrees b = true :=
  agrees_of_highestNodeOrder_eq (hcanonical a ha.1) (hcanonical b hb.1)
    (Std.OrientedCmp.isLE_antisymm (hb.2 a ha.1) (ha.2 b hb.1))

/-- Nothing supersedes the highest. -/
theorem Highest.not_lt {w v : Version} (h : Highest vs w) (hv : v ∈ vs) :
    ¬ w.vector < v.vector := by
  intro hlt
  have hgt := Std.OrientedCmp.gt_of_lt
    (highestNodeOrder_of_lt (hcanonical w h.1) (hcanonical v hv) hlt)
  exact Ordering.isLE_iff_ne_gt.mp (h.2 v hv) hgt

end Canonical

/-- The order of the highest node extends causality, and under it there is a
    winner that reconciliation does not change. In whatever order some
    versions arrive, the survivors are resolved to a winner that agrees with
    the greatest of all the versions, and with any other that no version comes
    after; and no version supersedes it. -/
theorem resolve_highestNode (vs : List Version) (hne : vs ≠ [])
    (hbuilt : ∀ v ∈ vs, v.vector.Built) :
    (∀ a ∈ vs, ∀ b ∈ vs, a.vector.compare b.vector = .older → highestNodeOrder a b = .lt) ∧
    ∃ m, highestNode? vs = some m ∧ m ∈ vs ∧ (∀ v ∈ vs, highestNodeOrder v m ≠ .gt) ∧
      ∀ ws, ws.Perm vs → ∃ w, resolve .highestNode (reconcile ws) = .winner w ∧ w ∈ vs ∧
        w.agrees m = true ∧
        (∀ n ∈ vs, (∀ v ∈ vs, highestNodeOrder v n ≠ .gt) → w.agrees n = true) ∧
        ∀ v ∈ vs, w.vector.compare v.vector ≠ .older := by
  have hcanonical : ∀ v ∈ vs, v.vector.Canonical := fun v hv => (hbuilt v hv).canonical
  rcases highestNode?_eq_some hne with ⟨m, hm, hmhigh⟩
  refine ⟨fun a ha b hb hab => ?_, m, hm, hmhigh.1,
    fun v hv => Ordering.isLE_iff_ne_gt.mp (hmhigh.2 v hv), fun ws hperm => ?_⟩
  · exact highestNodeOrder_of_lt (hcanonical a ha) (hcanonical b hb)
      (VersionVector.compare_eq_older_iff.mp hab)
  · have hws : ws ≠ [] := fun hnil => hne (List.perm_nil.mp (hnil ▸ hperm.symm))
    rcases resolve_eq_winner (reconcile_ne_nil hws) with ⟨w, hw, hhighest⟩
    -- The winner is the highest of the survivors, so of all, in any order.
    have hwhigh : Highest vs w := by
      have hall := hhighest.of_reconcile fun v hv => hcanonical v (hperm.mem_iff.mp hv)
      exact ⟨hperm.mem_iff.mp hall.1, fun v hv => hall.2 v (hperm.mem_iff.mpr hv)⟩
    refine ⟨w, hw, hwhigh.1, hwhigh.agrees hcanonical hmhigh, fun n hn hmax => ?_,
      fun v hv holder => ?_⟩
    · exact hwhigh.agrees hcanonical ⟨hn, fun v hv => Ordering.isLE_iff_ne_gt.mpr (hmax v hv)⟩
    · exact hwhigh.not_lt hcanonical hv (VersionVector.compare_eq_older_iff.mp holder)

/-- A version, one that supersedes it, and a stranger with larger counts. The
    superseding version has a lower node more, so its listing is the longer
    one, and its highest node decides. -/
theorem resolve_highestNode_stranger :
    let old : Version := .live "x" (.ofCounters ⟨0, 0⟩ [("zoe", 1)])
    let new : Version := .deleted (.ofCounters ⟨0, 0⟩ [("ann", 1), ("zoe", 1)])
    let stranger : Version := .live "y" (.ofCounters ⟨0, 0⟩ [("ann", 5), ("may", 9)])
    (∀ v ∈ [old, new, stranger], v.vector.Built) ∧
    ∃ w, resolve .highestNode (reconcile [stranger, new, old]) = .winner w ∧
      w.agrees new = true := by
  intro old new stranger
  have hbuilt : ∀ v ∈ [old, new, stranger], v.vector.Built := by
    intro v hv
    simp only [List.mem_cons, List.not_mem_nil, or_false] at hv
    rcases hv with rfl | rfl | rfl <;> exact .ofCounters _ _
  have hhighest : highestNode? [old, new, stranger] = some new := by cbv
  rcases (resolve_highestNode [old, new, stranger] (by simp) hbuilt).2
    with ⟨m, hm, -, -, hall⟩
  rw [hhighest, Option.some.injEq] at hm
  have hperm : [stranger, new, old].Perm [old, new, stranger] :=
    List.reverse_perm [old, new, stranger]
  rcases hall _ hperm with ⟨w, hw, -, hagrees, -⟩
  rw [← hm] at hagrees
  exact ⟨hbuilt, w, hw, hagrees⟩

end Version

end QuorumStore
