import Mathlib.Data.List.Forall2
import Mathlib.Data.List.Perm.Subperm
import Mathlib.Data.List.Permutation
import QuorumStore.Proofs.Version.Frontier
import QuorumStore.Proofs.VersionVector.Canonical
import QuorumStore.Proofs.VersionVector.Listing

/-!
# The Order of Arrival

When reconciliation forgets in which order the versions came.

Which histories survive does not depend on the order of arrival, nor does
which version stands for each of them: whatever the order, the survivors of the
same versions are `Twins`, of one history and in one place of the listing. What
is left is the order among the survivors. They are sorted by `siblingOrder`,
and the sort keeps what it cannot tell apart in the order in which it came. So
the arrival leaves no trace exactly when no two survivors are tied
(`reconcile_perm_iff`).

A tie takes two histories with one text, so it takes a name that is not
`Plain`: with plain names the text of a vector says which vector it is. With
others a tie does happen, and the arrival decides (`reconcile_tied`).

## Main definitions

* `Version.Twins`: One history, and one place in the listing.
* `Version.Yields`: A version does not drive another out.

## Theorems

* `Version.Frontier.twin`: The same versions have the same survivors.
* `Version.forall₂_twins`: Without a tie there is one way to list them.
* `Version.sublist_foldl_enlist`: Candidates that stay keep their order.
* `Version.untied_of_plain`: Plain names make no ties.
* `Version.reconcile_perm_iff`: When the order of arrival leaves no trace.
* `Version.reconcile_tied`: It does leave one where two survivors are tied.
-/

namespace QuorumStore

namespace Version

theorem agrees_iff {a b : Version} :
    a.agrees b = true ↔ a.value = b.value ∧ a.tombstone = b.tombstone ∧
      a.vector ≤ b.vector ∧ b.vector ≤ a.vector := by
  rw [agrees, VersionVector.agrees, Bool.and_eq_true, Bool.and_eq_true, beq_iff_eq, beq_iff_eq,
    beq_iff_eq, VersionVector.compare_eq_equal_iff, and_right_comm, and_assoc]

/-- Versions of one history, in one place of the listing. -/
def Twins (a b : Version) : Prop :=
  a.vector ≤ b.vector ∧ b.vector ≤ a.vector ∧ siblingOrder a b = .eq

theorem agrees_refl (a : Version) : a.agrees a = true :=
  agrees_iff.mpr ⟨rfl, rfl, le_refl _, le_refl _⟩

/-- Versions that agree do so with the same versions. -/
theorem agrees_congr {a b : Version} (h : a.agrees b = true) (c : Version) :
    a.agrees c = b.agrees c := by
  rw [agrees_iff] at h
  rw [Bool.eq_iff_iff, agrees_iff, agrees_iff, h.1, h.2.1]
  refine and_congr_right fun _ => and_congr_right fun _ => ?_
  constructor
  · rintro ⟨hac, hca⟩
    exact ⟨le_trans h.2.2.2 hac, le_trans hca h.2.2.1⟩
  · rintro ⟨hbc, hcb⟩
    exact ⟨le_trans h.2.2.1 hbc, le_trans hcb h.2.2.2⟩

theorem Twins.agrees {a b : Version} (h : Twins a b) : a.agrees b = true := by
  rcases siblingOrder_eq_iff.mp h.2.2 with ⟨-, htombstone, hvalue⟩
  exact agrees_iff.mpr ⟨hvalue, htombstone, h.1, h.2.1⟩

theorem Twins.symm {a b : Version} (h : Twins a b) : Twins b a :=
  ⟨h.2.1, h.1, Std.OrientedCmp.eq_symm h.2.2⟩

theorem siblingOrder_eq_of_le {a b : Version} (hab : siblingLE a b = true)
    (hba : siblingLE b a = true) : siblingOrder a b = .eq :=
  Std.OrientedCmp.isLE_antisymm (siblingLE_iff.mp hab) (siblingLE_iff.mp hba)

theorem siblingLE_of_eq {a b : Version} (h : siblingOrder a b = .eq) :
    siblingLE a b = true ∧ siblingLE b a = true := by
  have hswap : siblingOrder b a = .eq := Std.OrientedCmp.eq_symm h
  rw [siblingLE_iff, siblingLE_iff, h, hswap]
  exact ⟨rfl, rfl⟩

/-- The same versions have the same survivors, whichever came first. -/
theorem Frontier.twin {seen kept seen' kept' : List Version} (h : Frontier seen kept)
    (h' : Frontier seen' kept') (hseen : ∀ v, v ∈ seen ↔ v ∈ seen') {a : Version}
    (ha : a ∈ kept) : ∃ b ∈ kept', Twins a b := by
  rcases h'.covers a ((hseen a).mp (h.sound a ha)) with ⟨b, hb, hab⟩
  have hbseen := (hseen b).mpr (h'.sound b hb)
  rcases h.covers b hbseen with ⟨c, hc, hbc⟩
  -- What covers `b` covers `a`, which is not below any other survivor.
  rw [← h.eq_of_le ha hc (le_trans hab hbc)] at hbc
  have hba := h.last a ha b hbseen hbc hab
  have habs := h'.last b hb a ((hseen a).mp (h.sound a ha)) hab hbc
  exact ⟨b, hb, hab, hbc, siblingOrder_eq_of_le habs hba⟩

/-- Two listings of the same survivors are the same, place by place, if the
    order of siblings tells all survivors apart. -/
theorem forall₂_twins {l m : List Version} (hl : l.Pairwise fun a b => siblingLE a b = true)
    (hm : m.Pairwise fun a b => siblingLE a b = true) (hlapart : l.Pairwise Apart)
    (hmapart : m.Pairwise Apart) (huntied : l.Pairwise fun a b => siblingOrder a b ≠ .eq)
    (hlm : ∀ a ∈ l, ∃ b ∈ m, Twins a b) (hml : ∀ b ∈ m, ∃ a ∈ l, Twins a b) :
    List.Forall₂ Twins l m := by
  induction l generalizing m with
  | nil =>
    cases m with
    | nil => exact .nil
    | cons b m =>
      rcases hml b List.mem_cons_self with ⟨a, ha, -⟩
      cases ha
  | cons a l ih =>
    cases m with
    | nil =>
      rcases hlm a List.mem_cons_self with ⟨b, hb, -⟩
      cases hb
    | cons b m =>
      rw [List.pairwise_cons] at hl hm hlapart hmapart huntied
      -- The twin of `b` is listed between `a` and the twin of `a`, which are tied.
      have hhead : Twins a b := by
        rcases hlm a List.mem_cons_self with ⟨b', hb', hab'⟩
        rcases hml b List.mem_cons_self with ⟨a', ha', ha'b⟩
        have hbb' : siblingLE b b' = true := by
          rcases List.mem_cons.mp hb' with rfl | hb'
          · exact siblingLE_refl b'
          · exact hm.1 b' hb'
        rcases List.mem_cons.mp ha' with rfl | ha'
        · exact ha'b
        · have ha'a := siblingLE_trans (siblingLE_of_eq ha'b.2.2).1
            (siblingLE_trans hbb' (siblingLE_of_eq hab'.2.2).2)
          exact absurd (siblingOrder_eq_of_le (hl.1 a' ha') ha'a) (huntied.1 a' ha')
      refine .cons hhead (ih hl.2 hm.2 hlapart.2 hmapart.2 huntied.2 ?_ ?_)
      · intro x hx
        rcases hlm x (List.mem_cons_of_mem _ hx) with ⟨y, hy, hxy⟩
        rcases List.mem_cons.mp hy with rfl | hy
        · exact absurd (le_trans hxy.1 hhead.2.1) (hlapart.1 x hx).2
        · exact ⟨y, hy, hxy⟩
      · intro y hy
        rcases hml y (List.mem_cons_of_mem _ hy) with ⟨x, hx, hxy⟩
        rcases List.mem_cons.mp hx with rfl | hx
        · exact absurd (le_trans hhead.2.1 hxy.1) (hmapart.1 y hy).1
        · exact ⟨x, hx, hxy⟩

section Stay

/-- A version does not drive another out: it does not supersede it, nor is it
    listed later under the same history. -/
def Yields (w c : Version) : Prop :=
  ¬ c.vector < w.vector ∧
  (w.vector ≤ c.vector → c.vector ≤ w.vector → siblingLE w c = true)

theorem Frontier.yields {seen kept : List Version} (h : Frontier seen kept) {c w : Version}
    (hc : c ∈ kept) (hw : w ∈ seen) : Yields w c := by
  refine ⟨fun hlt => ?_, h.last c hc w hw⟩
  rcases h.covers w hw with ⟨d, hd, hwd⟩
  rw [← h.eq_of_le hc hd (le_trans (le_of_lt hlt) hwd)] at hwd
  exact absurd hwd (not_le_of_gt hlt)

/-- Candidates that a version does not drive out keep their order. -/
theorem sublist_enlist {stay cs : List Version} (h : stay.Sublist cs) {w : Version}
    (hstay : ∀ c ∈ stay, Yields w c) : stay.Sublist (enlist cs w) := by
  unfold enlist
  split
  · rename_i ds hds
    rcases absorb?_eq_some hds with ⟨rfl, -⟩ | ⟨front, c, back, rfl, hwc, hcw, rfl⟩
    · exact h
    · by_cases hgt : siblingOrder w c = .gt
      · rw [if_pos hgt]
        -- The candidate that is replaced is not one of those that stay.
        have hne : ∀ d ∈ stay, decide (d ≠ c) = true := by
          intro d hd
          rw [decide_eq_true_eq]
          rintro rfl
          exact absurd hgt (bne_iff_ne.mp ((hstay d hd).2 hwc hcw))
        have hsub := h.filter fun d => decide (d ≠ c)
        rw [List.filter_eq_self.mpr hne, List.filter_append,
          List.filter_cons_of_neg (by simp)] at hsub
        exact hsub.trans (List.filter_sublist.append
          (List.filter_sublist.trans (List.sublist_cons_self w back)))
      · rw [if_neg hgt]
        exact h
  · have hsub := h.filter fun c => w.vector.compare c.vector != .newer
    rw [List.filter_eq_self.mpr] at hsub
    · exact hsub.trans (List.sublist_append_left _ _)
    · intro c hc
      rw [bne_iff_ne, ne_eq, VersionVector.compare_eq_newer_iff]
      exact (hstay c hc).1

theorem sublist_foldl_enlist {stay cs : List Version} (h : stay.Sublist cs) {ws : List Version}
    (hstay : ∀ w ∈ ws, ∀ c ∈ stay, Yields w c) : stay.Sublist (ws.foldl enlist cs) := by
  induction ws generalizing cs with
  | nil => exact h
  | cons w ws ih =>
    exact ih (sublist_enlist h (hstay w List.mem_cons_self))
      fun u hu => hstay u (List.mem_cons_of_mem _ hu)

/-- Of two tied survivors the one that comes first is listed first. -/
theorem sublist_reconcile_of_tied {a b : Version} {rest : List Version} (hapart : Apart a b)
    (htied : siblingOrder a b = .eq) (ha : ∀ w ∈ rest, Yields w a)
    (hb : ∀ w ∈ rest, Yields w b) : [a, b].Sublist (reconcile (a :: b :: rest)) := by
  have hpair : enlist (enlist [] a) b = [a, b] := by
    have hab := compare_eq_concurrent_iff_apart.mpr hapart.symm
    simp [enlist, absorb?, hab]
  refine @List.sublist_mergeSort Version siblingLE _ (fun _ _ _ => siblingLE_trans)
    siblingLE_total _ ?_ ?_
  · exact List.pairwise_pair.mpr (siblingLE_of_eq htied).1
  · rw [List.foldl_cons, List.foldl_cons, hpair]
    refine sublist_foldl_enlist (List.Sublist.refl _) fun w hw c hc => ?_
    rcases List.mem_pair.mp hc with rfl | rfl
    · exact ha w hw
    · exact hb w hw

end Stay

/-- Two survivors are all that is listed under their histories. -/
theorem Frontier.filter_pair {seen kept : List Version} (h : Frontier seen kept)
    {a b : Version} (hab : [a, b].Sublist kept) :
    kept.filter (fun c => c.agrees a || c.agrees b) = [a, b] := by
  have hsub := hab.filter fun c => c.agrees a || c.agrees b
  rw [List.filter_eq_self.mpr (by simp [agrees_refl])] at hsub
  refine (hsub.eq_of_length_le ?_).symm
  -- Whatever agrees with a survivor is that survivor, and no survivor is listed twice.
  have hnodup : kept.Nodup := by
    refine List.Pairwise.imp ?_ h.apart
    rintro c _ hcc rfl
    exact hcc.1 (le_refl _)
  refine (List.subperm_of_subset (hnodup.filter _) fun c hc => ?_).length_le
  rw [List.mem_filter, Bool.or_eq_true, agrees_iff, agrees_iff] at hc
  rcases hc with ⟨hc, hca | hcb⟩
  · rw [h.eq_of_le hc (hab.subset List.mem_cons_self) hca.2.2.1]
    exact List.mem_cons_self
  · rw [h.eq_of_le hc (hab.subset (by simp)) hcb.2.2.1]
    simp

/-- A tie between survivors is settled by the order of arrival. -/
theorem untied_of_forall_perm {vs : List Version}
    (h : ∀ ws, ws.Perm vs →
      List.Forall₂ (fun a b => a.agrees b = true) (reconcile ws) (reconcile vs)) :
    (reconcile vs).Pairwise fun a b => siblingOrder a b ≠ .eq := by
  have hfrontier := frontier_reconcile vs
  rw [List.pairwise_iff_forall_sublist]
  intro a b hab htied
  have ha : a ∈ reconcile vs := hab.subset List.mem_cons_self
  have hb : b ∈ reconcile vs := hab.subset (by simp)
  have hapart : Apart a b := List.pairwise_iff_forall_sublist.mp hfrontier.apart hab
  have hne : a ≠ b := fun heq => hapart.1 (heq ▸ le_refl _)
  -- Let `b` come first and `a` second, and all others behind them.
  have hrest : (b :: a :: (vs.erase b).erase a).Perm vs := by
    have hmem : a ∈ vs.erase b := (List.mem_erase_of_ne hne).mpr (hfrontier.sound a ha)
    exact ((List.perm_cons_erase hmem).symm.cons b).trans
      (List.perm_cons_erase (hfrontier.sound b hb)).symm
  have hmem : ∀ w ∈ (vs.erase b).erase a, w ∈ vs :=
    fun w hw => List.mem_of_mem_erase (List.mem_of_mem_erase hw)
  have hba : [b, a].Sublist (reconcile (b :: a :: (vs.erase b).erase a)) :=
    sublist_reconcile_of_tied hapart.symm (Std.OrientedCmp.eq_symm htied)
      (fun w hw => hfrontier.yields hb (hmem w hw)) fun w hw => hfrontier.yields ha (hmem w hw)
  have hall := List.rel_filter (p := fun c => c.agrees a || c.agrees b)
    (q := fun c => c.agrees a || c.agrees b) ?_ (h _ hrest)
  · rw [hfrontier.filter_pair hab] at hall
    have hswap : (fun c : Version => c.agrees a || c.agrees b) =
        fun c => c.agrees b || c.agrees a := funext fun c => Bool.or_comm _ _
    rw [hswap, (frontier_reconcile _).filter_pair hba] at hall
    exact hapart.2 (agrees_iff.mp (List.forall₂_cons.mp hall).1).2.2.1
  · intro c d hcd
    simp only [agrees_congr hcd]

/-- Where no two survivors are tied, all orders of arrival list the same. -/
theorem forall₂_reconcile_of_untied {vs ws : List Version} (hperm : ws.Perm vs)
    (huntied : (reconcile vs).Pairwise fun a b => siblingOrder a b ≠ .eq) :
    List.Forall₂ (fun a b => a.agrees b = true) (reconcile ws) (reconcile vs) := by
  have hv := frontier_reconcile vs
  have hw := frontier_reconcile ws
  have hmem : ∀ v, v ∈ vs ↔ v ∈ ws := fun v => hperm.mem_iff.symm
  have htwins : List.Forall₂ Twins (reconcile vs) (reconcile ws) := by
    refine forall₂_twins (reconcile_sorted vs) (reconcile_sorted ws) hv.apart hw.apart huntied
      (fun a ha => hv.twin hw hmem ha) fun b hb => ?_
    rcases hw.twin hv (fun v => (hmem v).symm) hb with ⟨a, ha, hba⟩
    exact ⟨a, ha, hba.symm⟩
  exact (htwins.imp fun a b hab => hab.symm.agrees).flip

/-- Versions whose vectors are built, with plain names, are never tied as
    survivors. -/
theorem untied_of_plain {vs : List Version}
    (h : ∀ v ∈ vs, v.vector.Built ∧ ∀ p ∈ v.vector.counts, VersionVector.Plain p.1) :
    (reconcile vs).Pairwise fun a b => siblingOrder a b ≠ .eq := by
  have hfrontier := frontier_reconcile vs
  refine hfrontier.apart.imp_of_mem fun {a b} ha hb hapart htied => ?_
  rcases h a (hfrontier.sound a ha) with ⟨habuilt, haplain⟩
  rcases h b (hfrontier.sound b hb) with ⟨hbbuilt, hbplain⟩
  -- One text is one listing, and that is one history.
  have hcounts := VersionVector.eq_of_listing_eq haplain hbplain (siblingOrder_eq_iff.mp htied).1
  exact hapart.1 (habuilt.canonical.le_of_counts_eq hbbuilt.canonical hcounts)

theorem resolve_surface_eq_conflict_iff {survivors siblings : List Version} :
    resolve .surface survivors = .conflict siblings ↔
      siblings = survivors ∧ 2 ≤ survivors.length := by
  rcases survivors with _ | ⟨a, _ | ⟨b, l⟩⟩ <;> simp [resolve, eq_comm]

/-- The order of arrival leaves no trace exactly when no two survivors are
    tied in the order of siblings. None are where the vectors are built and
    their names are plain, and then a conflict lists the same siblings, in the
    same places, in whatever order they have arrived. -/
theorem reconcile_perm_iff (vs : List Version) :
    ((∀ ws, ws.Perm vs →
        List.Forall₂ (fun a b => a.agrees b = true) (reconcile ws) (reconcile vs)) ↔
      (reconcile vs).Pairwise fun a b => siblingOrder a b ≠ .eq) ∧
    ((∀ v ∈ vs, v.vector.Built ∧ ∀ p ∈ v.vector.counts, VersionVector.Plain p.1) →
      ∀ ws, ws.Perm vs →
        List.Forall₂ (fun a b => a.agrees b = true) (reconcile ws) (reconcile vs) ∧
        ∀ siblings, resolve .surface (reconcile ws) = .conflict siblings →
          ∃ siblings', resolve .surface (reconcile vs) = .conflict siblings' ∧
            List.Forall₂ (fun a b => a.agrees b = true) siblings siblings') := by
  refine ⟨⟨untied_of_forall_perm, fun h ws hperm => forall₂_reconcile_of_untied hperm h⟩, ?_⟩
  intro h ws hperm
  have hall := forall₂_reconcile_of_untied hperm (untied_of_plain h)
  refine ⟨hall, fun siblings hconflict => ?_⟩
  rcases resolve_surface_eq_conflict_iff.mp hconflict with ⟨rfl, hlen⟩
  rw [hall.length_eq] at hlen
  exact ⟨_, resolve_surface_eq_conflict_iff.mpr ⟨rfl, hlen⟩, hall⟩

/-- Two sessions have put a value without having read. A space in the name of
    one of them does no harm. -/
theorem reconcile_perm_strangers :
    let ann : Version := .live "x" (.ofCounters ⟨0, 0⟩ [("ann b", 1)])
    let ben : Version := .live "x" (.ofCounters ⟨0, 0⟩ [("ben", 2)])
    (∀ v ∈ [ann, ben], v.vector.Built ∧ ∀ p ∈ v.vector.counts, VersionVector.Plain p.1) ∧
    resolve .surface (reconcile [ben, ann]) = .conflict [ann, ben] ∧
    ∃ siblings, resolve .surface (reconcile [ann, ben]) = .conflict siblings ∧
      List.Forall₂ (fun a b => a.agrees b = true) [ann, ben] siblings := by
  intro ann ben
  have hplain : ∀ v ∈ [ann, ben],
      v.vector.Built ∧ ∀ p ∈ v.vector.counts, VersionVector.Plain p.1 := by
    have hann : ann.vector.counts = [("ann b", 1)] := by cbv
    have hben : ben.vector.counts = [("ben", 2)] := by cbv
    intro v hv
    rcases List.mem_pair.mp hv with rfl | rfl
    · refine ⟨.ofCounters _ _, fun p hp => VersionVector.plain_of_no_colon ?_⟩
      rw [hann, List.mem_singleton] at hp
      rw [hp]
      decide
    · refine ⟨.ofCounters _ _, fun p hp => VersionVector.plain_of_no_space ?_⟩
      rw [hben, List.mem_singleton] at hp
      rw [hp]
      decide
  have hconflict : resolve .surface (reconcile [ben, ann]) = .conflict [ann, ben] := by cbv
  exact ⟨hplain, hconflict,
    ((reconcile_perm_iff [ann, ben]).2 hplain [ben, ann] (.swap _ _ _)).2 _ hconflict⟩

/-- A name that looks like an entry and the beginning of another. The two
    vectors have one text and neither has seen the other, so what arrives first
    is listed first. -/
theorem reconcile_tied :
    let one : Version := .live "x" (.ofCounters ⟨0, 0⟩ [("a:1 b", 1)])
    let two : Version := .live "x" (.ofCounters ⟨0, 0⟩ [("a", 1), ("b", 1)])
    (∀ v ∈ [one, two], v.vector.Built) ∧
    reconcile [one, two] = [one, two] ∧ reconcile [two, one] = [two, one] ∧
    ¬ List.Forall₂ (fun a b => a.agrees b = true) (reconcile [two, one])
      (reconcile [one, two]) := by
  intro one two
  have hfirst : reconcile [one, two] = [one, two] := by cbv
  have hsecond : reconcile [two, one] = [two, one] := by cbv
  refine ⟨fun v hv => ?_, hfirst, hsecond, ?_⟩
  · rcases List.mem_pair.mp hv with rfl | rfl <;> exact .ofCounters _ _
  · rw [hfirst, hsecond]
    intro hall
    have hagrees : two.agrees one = false := by cbv
    rw [(List.forall₂_cons.mp hall).1] at hagrees
    cases hagrees

end Version

end QuorumStore
