import Mathlib.Data.List.Pairwise
import QuorumStore.Proofs.VersionVector.Order
import QuorumStore.Version.Reconcile

/-!
# The Frontier of Versions

What reconciliation keeps: the versions that nothing else has superseded.

`Version.enlist` changes its list of candidates while it looks through it, in
three ways. A version that some candidate covers is dropped or takes the place
of that candidate, and the scan ends there; only a version that no candidate
covers drives others out. What makes the early end harmless is that the
candidates are pairwise apart. A version below one of them cannot lie above
another, so nothing that should have been removed is forgotten.

`Frontier` is that invariant. It says of the candidates that they are among
the versions seen so far, that they are apart, that they cover everything
seen, and that each of them is listed last among those seen under its history.
`frontier_enlist` carries it over one more version, one case for each way in
which the scan can end, and `frontier_foldl` over all of them.

## Main definitions

* `Version.Apart`: Neither version has seen the other.
* `Version.Frontier`: The candidates are the maximal versions seen.

## Theorems

* `Version.absorb?_eq_none_iff`: A version is taken up if none covers it.
* `Version.absorb?_eq_some`: What becomes of a version that is covered.
* `Version.frontier_enlist`: One more version keeps the frontier.
* `Version.frontier_reconcile`: The survivors are the frontier of them all.
* `Version.reconcile_maximal`: Reconciliation computes the maximal versions.
-/

namespace QuorumStore

namespace Version

/-- Neither version has seen the other. -/
def Apart (a b : Version) : Prop := ¬ a.vector ≤ b.vector ∧ ¬ b.vector ≤ a.vector

theorem Apart.symm {a b : Version} (h : Apart a b) : Apart b a := And.symm h

instance : Std.Symm Apart where
  symm _ _ := Apart.symm

theorem compare_eq_concurrent_iff_apart {a b : Version} :
    a.vector.compare b.vector = .concurrent ↔ Apart a b :=
  VersionVector.compare_eq_concurrent_iff

/-- Being apart is a matter of the history alone. -/
theorem Apart.congr_right {a b c : Version} (h : Apart a b) (hbc : b.vector ≤ c.vector)
    (hcb : c.vector ≤ b.vector) : Apart a c :=
  ⟨fun hac => h.1 (le_trans hac hcb), fun hca => h.2 (le_trans hbc hca)⟩

/-- The order of siblings compares three texts and marks one after another,
    so it chains as they do. -/
instance : Std.TransCmp siblingOrder :=
  inferInstanceAs (Std.TransCmp (compareLex
    (compareLex (compareOn fun v : Version => v.vector.text) (compareOn Version.tombstone))
    (compareOn Version.value)))

theorem siblingLE_iff {a b : Version} : siblingLE a b = true ↔ (siblingOrder a b).isLE = true := by
  rw [siblingLE, bne_iff_ne, Ordering.isLE_iff_ne_gt]

theorem siblingLE_refl (a : Version) : siblingLE a a = true := by
  rw [siblingLE_iff]
  exact Std.ReflCmp.isLE_rfl

theorem siblingLE_trans {a b c : Version} (hab : siblingLE a b = true)
    (hbc : siblingLE b c = true) : siblingLE a c = true := by
  rw [siblingLE_iff] at *
  exact Std.TransCmp.isLE_trans hab hbc

theorem siblingLE_of_gt {a b : Version} (h : siblingOrder a b = .gt) : siblingLE b a = true := by
  have hlt : siblingOrder b a = .lt := Std.OrientedCmp.lt_of_gt h
  rw [siblingLE_iff, hlt]
  rfl

theorem siblingLE_total (a b : Version) : (siblingLE a b || siblingLE b a) = true := by
  rw [Bool.or_eq_true]
  by_cases h : siblingOrder a b = .gt
  · exact .inr (siblingLE_of_gt h)
  · exact .inl (bne_iff_ne.mpr h)

/-- A version is absorbed exactly when a candidate covers it. -/
theorem absorb?_eq_none_iff {v : Version} {cs : List Version} :
    absorb? v cs = none ↔ ∀ c ∈ cs, ¬ v.vector ≤ c.vector := by
  induction cs with
  | nil => simp only [absorb?, List.not_mem_nil, false_imp_iff, implies_true]
  | cons c cs ih =>
    rw [List.forall_mem_cons, ← VersionVector.compare_older_or_equal_iff, ← ih, absorb?]
    cases v.vector.compare c.vector <;> simp

/-- A version that is absorbed lies below a candidate. Unless it lies strictly
    below, the later listed of the two takes that candidate's place. -/
theorem absorb?_eq_some {v : Version} {cs ds : List Version} (h : absorb? v cs = some ds) :
    (ds = cs ∧ ∃ c ∈ cs, v.vector < c.vector) ∨
    ∃ front c back, cs = front ++ c :: back ∧ v.vector ≤ c.vector ∧ c.vector ≤ v.vector ∧
      ds = front ++ (if siblingOrder v c = .gt then v else c) :: back := by
  induction cs generalizing ds with
  | nil => simp only [absorb?, reduceCtorEq] at h
  | cons c cs ih =>
    rw [absorb?] at h
    -- The scan goes on past the candidates that the version does not lie below.
    have onward : ∀ {ds}, (absorb? v cs).map (c :: ·) = some ds →
        (ds = c :: cs ∧ ∃ d ∈ c :: cs, v.vector < d.vector) ∨
        ∃ front d back, c :: cs = front ++ d :: back ∧ v.vector ≤ d.vector ∧
          d.vector ≤ v.vector ∧
          ds = front ++ (if siblingOrder v d = .gt then v else d) :: back := by
      intro ds hds
      rcases Option.map_eq_some_iff.mp hds with ⟨es, hes, rfl⟩
      rcases ih hes with ⟨rfl, d, hd, hlt⟩ | ⟨front, d, back, rfl, hvd, hdv, rfl⟩
      · exact .inl ⟨rfl, d, List.mem_cons_of_mem _ hd, hlt⟩
      · exact .inr ⟨c :: front, d, back, rfl, hvd, hdv, rfl⟩
    cases hcmp : v.vector.compare c.vector with
    | older =>
      rw [hcmp] at h
      have hlt := VersionVector.compare_eq_older_iff.mp hcmp
      exact .inl ⟨(Option.some.inj h).symm, c, List.mem_cons_self, hlt⟩
    | equal =>
      rw [hcmp] at h
      have heq := VersionVector.compare_eq_equal_iff.mp hcmp
      exact .inr ⟨[], c, cs, rfl, heq.1, heq.2, (Option.some.inj h).symm⟩
    | newer =>
      rw [hcmp] at h
      exact onward h
    | concurrent =>
      rw [hcmp] at h
      exact onward h

/-- The candidates are the maximal ones of the versions seen so far. -/
structure Frontier (seen kept : List Version) : Prop where
  sound : ∀ c ∈ kept, c ∈ seen
  apart : kept.Pairwise Apart
  covers : ∀ v ∈ seen, ∃ c ∈ kept, v.vector ≤ c.vector
  /-- Of the versions under one history the one listed last is kept. -/
  last : ∀ c ∈ kept, ∀ v ∈ seen, v.vector ≤ c.vector → c.vector ≤ v.vector →
    siblingLE v c = true

theorem frontier_nil : Frontier [] [] := ⟨by simp, .nil, by simp, by simp⟩

/-- No candidate lies below another. -/
theorem Frontier.eq_of_le {seen kept : List Version} (h : Frontier seen kept) {a b : Version}
    (ha : a ∈ kept) (hb : b ∈ kept) (hab : a.vector ≤ b.vector) : a = b := by
  by_contra hne
  exact (h.apart.forall ha hb hne).1 hab

/-- A version strictly below a candidate changes nothing. -/
theorem Frontier.drop {seen kept : List Version} (h : Frontier seen kept) {v c : Version}
    (hc : c ∈ kept) (hlt : v.vector < c.vector) : Frontier (seen ++ [v]) kept := by
  constructor
  · intro d hd
    exact List.mem_append_left _ (h.sound d hd)
  · exact h.apart
  · intro w hw
    rcases List.mem_append.mp hw with hw | hw
    · exact h.covers w hw
    · rw [List.mem_singleton.mp hw]
      exact ⟨c, hc, le_of_lt hlt⟩
  · intro d hd w hw hwd hdw
    rcases List.mem_append.mp hw with hw | hw
    · exact h.last d hd w hw hwd hdw
    · -- A candidate under the dropped history would lie below `c`.
      rw [List.mem_singleton.mp hw] at hdw
      have hdc : d = c := h.eq_of_le hd hc (le_trans hdw (le_of_lt hlt))
      rw [hdc] at hdw
      exact absurd hdw (not_le_of_gt hlt)

/-- Of two versions under one history the later listed one stands for both. -/
theorem later_listed {v c : Version} (hvc : v.vector ≤ c.vector) (hcv : c.vector ≤ v.vector) :
    ∃ u, u = (if siblingOrder v c = .gt then v else c) ∧ (u = v ∨ u = c) ∧
      u.vector ≤ c.vector ∧ c.vector ≤ u.vector ∧ siblingLE v u = true ∧
      siblingLE c u = true := by
  by_cases hgt : siblingOrder v c = .gt
  · rw [if_pos hgt]
    exact ⟨v, rfl, .inl rfl, hvc, hcv, siblingLE_refl v, siblingLE_of_gt hgt⟩
  · rw [if_neg hgt]
    exact ⟨c, rfl, .inr rfl, le_refl _, le_refl _, bne_iff_ne.mpr hgt, siblingLE_refl c⟩

/-- A version under the history of a candidate leaves the later listed of the
    two in its place. -/
theorem Frontier.replace {seen front back : List Version} {c : Version}
    (h : Frontier seen (front ++ c :: back)) {v : Version} (hvc : v.vector ≤ c.vector)
    (hcv : c.vector ≤ v.vector) :
    Frontier (seen ++ [v]) (front ++ (if siblingOrder v c = .gt then v else c) :: back) := by
  have hc : c ∈ front ++ c :: back := List.mem_append_right _ List.mem_cons_self
  -- Whichever of the two stays, it has the history of the candidate and is
  -- listed no earlier than either.
  rcases later_listed hvc hcv with ⟨u, hu, hmem, huc, hcu, hvu, hclate⟩
  rw [← hu]
  have happ := List.pairwise_append.mp h.apart
  have hback := List.pairwise_cons.mp happ.2.1
  have hothers : ∀ d, d ∈ front ∨ d ∈ back → Apart c d := by
    rintro d (hd | hd)
    · exact (happ.2.2 d hd c List.mem_cons_self).symm
    · exact hback.1 d hd
  have hsplit : ∀ d, d ∈ front ++ u :: back ↔ d = u ∨ d ∈ front ∨ d ∈ back := by
    intro d
    rw [List.mem_append, List.mem_cons, or_left_comm]
  have hstay : ∀ d, d ∈ front ∨ d ∈ back → d ∈ front ++ c :: back := by
    rintro d (hd | hd)
    · exact List.mem_append_left _ hd
    · exact List.mem_append_right _ (List.mem_cons_of_mem _ hd)
  constructor
  · intro d hd
    rcases (hsplit d).mp hd with rfl | hd
    · rcases hmem with rfl | rfl
      · exact List.mem_append_right _ List.mem_cons_self
      · exact List.mem_append_left _ (h.sound _ hc)
    · exact List.mem_append_left _ (h.sound d (hstay d hd))
  · refine List.pairwise_append.mpr ⟨happ.1, List.pairwise_cons.mpr ⟨fun d hd => ?_, hback.2⟩,
      fun d hd e he => ?_⟩
    · exact ((hback.1 d hd).symm.congr_right hcu huc).symm
    · rcases List.mem_cons.mp he with rfl | he
      · exact (happ.2.2 d hd c List.mem_cons_self).congr_right hcu huc
      · exact happ.2.2 d hd e (List.mem_cons_of_mem _ he)
  · intro w hw
    rcases List.mem_append.mp hw with hw | hw
    · rcases h.covers w hw with ⟨d, hd, hwd⟩
      rcases List.mem_append.mp hd with hd | hd
      · exact ⟨d, (hsplit d).mpr (.inr (.inl hd)), hwd⟩
      · rcases List.mem_cons.mp hd with rfl | hd
        · exact ⟨u, (hsplit u).mpr (.inl rfl), le_trans hwd hcu⟩
        · exact ⟨d, (hsplit d).mpr (.inr (.inr hd)), hwd⟩
    · rw [List.mem_singleton.mp hw]
      exact ⟨u, (hsplit u).mpr (.inl rfl), le_trans hvc hcu⟩
  · intro d hd w hw hwd hdw
    rcases (hsplit d).mp hd with rfl | hd
    · rcases List.mem_append.mp hw with hw | hw
      · have hwc := h.last c hc w hw (le_trans hwd huc) (le_trans hcu hdw)
        exact siblingLE_trans hwc hclate
      · rw [List.mem_singleton.mp hw]
        exact hvu
    · rcases List.mem_append.mp hw with hw | hw
      · exact h.last d (hstay d hd) w hw hwd hdw
      · -- The other candidates are apart from this history.
        rw [List.mem_singleton.mp hw] at hwd
        exact absurd (le_trans hcv hwd) (hothers d hd).1

/-- A version that no candidate covers drives out those it has seen. -/
theorem Frontier.push {seen kept : List Version} (h : Frontier seen kept) {v : Version}
    (hnew : ∀ c ∈ kept, ¬ v.vector ≤ c.vector) :
    Frontier (seen ++ [v])
      (kept.filter (fun c => v.vector.compare c.vector != .newer) ++ [v]) := by
  have hstay : ∀ c, c ∈ kept.filter (fun c => v.vector.compare c.vector != .newer) ↔
      c ∈ kept ∧ ¬ c.vector < v.vector := by
    intro c
    rw [List.mem_filter, bne_iff_ne, ne_eq, VersionVector.compare_eq_newer_iff]
  constructor
  · intro d hd
    rcases List.mem_append.mp hd with hd | hd
    · exact List.mem_append_left _ (h.sound d ((hstay d).mp hd).1)
    · exact List.mem_append_right _ hd
  · refine List.pairwise_append.mpr ⟨h.apart.filter _, List.pairwise_singleton _ _,
      fun d hd e he => ?_⟩
    rw [List.mem_singleton.mp he]
    have hdv := (hstay d).mp hd
    exact ⟨fun hle => hdv.2 (lt_of_le_not_ge hle (hnew d hdv.1)), hnew d hdv.1⟩
  · intro w hw
    rcases List.mem_append.mp hw with hw | hw
    · rcases h.covers w hw with ⟨c, hc, hwc⟩
      by_cases hlt : c.vector < v.vector
      · exact ⟨v, List.mem_append_right _ List.mem_cons_self, le_trans hwc (le_of_lt hlt)⟩
      · exact ⟨c, List.mem_append_left _ ((hstay c).mpr ⟨hc, hlt⟩), hwc⟩
    · exact ⟨w, List.mem_append_right _ hw, le_refl _⟩
  · intro d hd w hw hwd hdw
    rcases List.mem_append.mp hd with hd | hd
    · have hdk := ((hstay d).mp hd).1
      rcases List.mem_append.mp hw with hw | hw
      · exact h.last d hdk w hw hwd hdw
      · rw [List.mem_singleton.mp hw] at hwd
        exact absurd hwd (hnew d hdk)
    · rw [List.mem_singleton.mp hd] at hdw ⊢
      rcases List.mem_append.mp hw with hw | hw
      · -- What has been seen under this history is covered, so it is too.
        rcases h.covers w hw with ⟨c, hc, hwc⟩
        exact absurd (le_trans hdw hwc) (hnew c hc)
      · rw [List.mem_singleton.mp hw]
        exact siblingLE_refl v

/-- One more version keeps the frontier, however the scan ends. -/
theorem frontier_enlist {seen kept : List Version} (h : Frontier seen kept) (v : Version) :
    Frontier (seen ++ [v]) (enlist kept v) := by
  unfold enlist
  split
  · rename_i ds hds
    rcases absorb?_eq_some hds with ⟨rfl, c, hc, hlt⟩ | ⟨front, c, back, rfl, hvc, hcv, rfl⟩
    · exact h.drop hc hlt
    · exact h.replace hvc hcv
  · rename_i hnone
    exact h.push (absorb?_eq_none_iff.mp hnone)

theorem frontier_foldl {seen kept : List Version} (h : Frontier seen kept) (vs : List Version) :
    Frontier (seen ++ vs) (vs.foldl enlist kept) := by
  induction vs generalizing seen kept with
  | nil => simpa only [List.append_nil, List.foldl_nil] using h
  | cons v vs ih =>
    have hstep := ih (frontier_enlist h v)
    rwa [List.append_assoc, List.singleton_append] at hstep

/-- The frontier does not depend on how the candidates are listed. -/
theorem Frontier.perm {seen kept kept' : List Version} (h : Frontier seen kept)
    (hp : kept'.Perm kept) : Frontier seen kept' := by
  constructor
  · intro c hc
    exact h.sound c (hp.mem_iff.mp hc)
  · exact (hp.pairwise_iff fun hab => hab.symm).mpr h.apart
  · intro v hv
    rcases h.covers v hv with ⟨c, hc, hvc⟩
    exact ⟨c, hp.mem_iff.mpr hc, hvc⟩
  · intro c hc
    exact h.last c (hp.mem_iff.mp hc)

theorem reconcile_nil : reconcile [] = [] := List.mergeSort_nil

/-- The survivors are the frontier of all versions. -/
theorem frontier_reconcile (vs : List Version) : Frontier vs (reconcile vs) :=
  (frontier_foldl frontier_nil vs).perm (List.mergeSort_perm _ _)

theorem reconcile_sorted (vs : List Version) :
    (reconcile vs).Pairwise fun a b => siblingLE a b = true :=
  @List.pairwise_mergeSort Version siblingLE (fun _ _ _ => siblingLE_trans) siblingLE_total _

/-- Versions that are apart are one version at most, if they are all the
    same. -/
theorem eq_singleton_of_apart {kept : List Version} {c : Version} (hapart : kept.Pairwise Apart)
    (hmem : c ∈ kept) (hall : ∀ d ∈ kept, d = c) : kept = [c] := by
  rcases kept with _ | ⟨a, _ | ⟨b, rest⟩⟩
  · cases hmem
  · rw [hall a List.mem_cons_self]
  · -- Two of them would both be `c`, which is not apart from itself.
    have hab := (List.pairwise_cons.mp hapart).1 b List.mem_cons_self
    rw [hall a List.mem_cons_self, hall b (by simp)] at hab
    exact absurd (le_refl _) hab.1

/-- A history that is among the survivors is there once. -/
theorem Frontier.filter_eq_singleton {seen kept : List Version} (h : Frontier seen kept)
    {v c : Version} (hc : c ∈ kept) (heq : c.vector.compare v.vector = .equal) :
    kept.filter (fun d => d.vector.compare v.vector == .equal) = [c] := by
  have hcv := VersionVector.compare_eq_equal_iff.mp heq
  refine eq_singleton_of_apart (h.apart.filter _)
    (List.mem_filter.mpr ⟨hc, beq_iff_eq.mpr heq⟩) fun d hd => ?_
  rw [List.mem_filter, beq_iff_eq, VersionVector.compare_eq_equal_iff] at hd
  exact h.eq_of_le hd.1 hc (le_trans hd.2.1 hcv.2)

/-- A version that has seen all of them survives alone, if no other has its
    history. -/
theorem reconcile_eq_singleton {vs : List Version} {v : Version} (hmem : v ∈ vs)
    (hall : ∀ u ∈ vs, u.vector ≤ v.vector) (hnewest : ∀ u ∈ vs, v.vector ≤ u.vector → u = v) :
    reconcile vs = [v] := by
  have h := frontier_reconcile vs
  rcases h.covers v hmem with ⟨s, hs, hvs⟩
  rw [hnewest s (h.sound s hs) hvs] at hs
  exact eq_singleton_of_apart h.apart hs fun d hd => h.eq_of_le hd hs (hall d (h.sound d hd))

/-- Reconciliation computes the maximal versions: survivors are among the
    versions, pairwise concurrent and in the order of siblings; every version
    is covered by one; and a history that no version has superseded survives
    exactly once, in the version that is listed last under it. -/
theorem reconcile_maximal (vs : List Version) :
    (∀ s ∈ reconcile vs, s ∈ vs) ∧
    (reconcile vs).Pairwise (fun a b => a.vector.compare b.vector = .concurrent) ∧
    (∀ v ∈ vs, ∃ s ∈ reconcile vs,
      v.vector.compare s.vector = .equal ∨ v.vector.compare s.vector = .older) ∧
    (∀ v ∈ vs, (∀ w ∈ vs, v.vector.compare w.vector ≠ .older) →
      ∃ s, (reconcile vs).filter (fun t => t.vector.compare v.vector == .equal) = [s] ∧
        ∀ w ∈ vs, w.vector.compare v.vector = .equal → siblingOrder w s ≠ .gt) ∧
    (reconcile vs).Pairwise (fun a b => siblingOrder a b ≠ .gt) := by
  have h := frontier_reconcile vs
  refine ⟨h.sound, h.apart.imp compare_eq_concurrent_iff_apart.mpr, ?_, ?_,
    (reconcile_sorted vs).imp bne_iff_ne.mp⟩
  · intro v hv
    rcases h.covers v hv with ⟨s, hs, hvs⟩
    exact ⟨s, hs, (VersionVector.compare_older_or_equal_iff.mpr hvs).symm⟩
  · intro v hv hmax
    rcases h.covers v hv with ⟨s, hs, hvs⟩
    -- The survivor above `v` is a version as well, so it is not strictly above.
    have hsv : s.vector ≤ v.vector := by
      by_contra hc
      exact hmax s (h.sound s hs)
        (VersionVector.compare_eq_older_iff.mpr (lt_of_le_not_ge hvs hc))
    refine ⟨s, h.filter_eq_singleton hs (VersionVector.compare_eq_equal_iff.mpr ⟨hsv, hvs⟩), ?_⟩
    intro w hw heq
    have hwv := VersionVector.compare_eq_equal_iff.mp heq
    exact bne_iff_ne.mp (h.last s hs w hw (le_trans hwv.1 hvs) (le_trans hsv hwv.2))

end Version

end QuorumStore
