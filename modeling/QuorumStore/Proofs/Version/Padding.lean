import Mathlib.Data.List.Perm.Basic
import QuorumStore.Proofs.Version.HighestNode

/-!
# Counts of Zero

What an entry that counts zero does to the resolution of conflicts.

A vector that arrives in a message may name nodes it has not counted. Such an
entry says what a missing one says, and comparisons do not tell the two apart.
A listing does. It shows the entry, and both orders of versions read listings:
`siblingOrder` their text, `highestNodeOrder` the names from the highest down.
So versions that agree may be listed in different places.

Comparisons decide what survives, and that is the same with and without such
entries: `Matched` versions make `Matched` candidates, one step after another
(`matched_enlist`). Beyond that, listings decide. They are read of survivors
only, so what a superseded version is padded with makes no difference. Where
the others name the same nodes their listings are the same, and so is all that
comes of them. Otherwise it need not be: an entry of zero moves a sibling to
another place, and it wins a conflict (`resolve_of_zero`).

## Main definitions

* `VersionVector.Filed`: Every entry is filed under the node it names.
* `VersionVector.ofEntries`: A vector that keeps its entries of zero.
* `Version.Alike`: Versions that agree and are listed alike.
* `Version.Matched`: One history; alike, if nothing supersedes it.
* `Resolution.Rel`: Two resolutions are of one kind, with related versions.

## Theorems

* `VersionVector.Filed.counts_congr`: Names and counts make a listing.
* `Version.matched_enlist`: Matched candidates stay matched.
* `Version.rel_resolve`: Related survivors resolve alike, if the highest are
  related.
* `Version.perm_survivors`, `Version.alike_survivors`: What agreeing versions
  leave.
* `Version.resolve_of_agrees`: What does not depend on entries of zero.
* `Version.resolve_of_zero`: What does.
-/

namespace QuorumStore

namespace VersionVector

/-- Every entry is filed under the node it names. It may count zero. -/
def Filed (v : VersionVector) : Prop := ∀ p ∈ v.entries.toList, p.1 = p.2.node

/-- The vector with an entry for every one of some counts, those of zero
    included. -/
def ofEntries (counts : List (String × Nat)) : VersionVector :=
  ⟨Table.ofList (counts.map fun p => (p.1, ⟨p.1, p.2, ⟨0, 0⟩⟩))⟩

theorem filed_ofEntries (counts : List (String × Nat)) : (ofEntries counts).Filed := by
  intro p hp
  rcases List.mem_map.mp (Table.mem_of_mem_ofList hp) with ⟨q, -, rfl⟩
  rfl

/-- The listing of such a vector names its keys, each with its count. -/
theorem Filed.counts_eq {v : VersionVector} (h : v.Filed) :
    v.counts = v.entries.keys.map fun k => (k, v.counter k) := by
  rw [counts, Table.values, Table.keys, List.map_map, List.map_map]
  refine List.map_congr_left fun p hp => ?_
  rw [Function.comp_apply, Function.comp_apply, counter_eq (Table.get?_eq_some_iff.mpr hp), h p hp]

/-- Vectors that name the same nodes and count the same are listed alike. -/
theorem Filed.counts_congr {a b : VersionVector} (ha : a.Filed) (hb : b.Filed)
    (hkeys : a.entries.keys = b.entries.keys) (hab : a ≤ b) (hba : b ≤ a) :
    a.counts = b.counts := by
  rw [ha.counts_eq, hb.counts_eq, hkeys]
  exact List.map_congr_left fun k _ => by rw [Nat.le_antisymm (hab k) (hba k)]

end VersionVector

/-- Resolutions of one kind, with related versions place by place. -/
inductive Resolution.Rel (R : Version → Version → Prop) : Resolution → Resolution → Prop where
  | missing : Rel R .missing .missing
  | winner {v w : Version} (h : R v w) : Rel R (.winner v) (.winner w)
  | conflict {vs ws : List Version} (h : List.Forall₂ R vs ws) :
    Rel R (.conflict vs) (.conflict ws)

theorem Resolution.Rel.mono {R S : Version → Version → Prop} (h : ∀ v w, R v w → S v w)
    {r s : Resolution} (hr : Rel R r s) : Rel S r s := by
  cases hr with
  | missing => exact .missing
  | winner hvw => exact .winner (h _ _ hvw)
  | conflict hall => exact .conflict (hall.imp h)

/-- Whatever stands in a list stands in the place of something related. -/
theorem exists_of_forall₂ {α β : Type} {R : α → β → Prop} {xs : List α} {ys : List β}
    (h : List.Forall₂ R xs ys) {y : β} (hy : y ∈ ys) : ∃ x ∈ xs, R x y := by
  induction h with
  | nil => cases hy
  | @cons x y' xs ys hxy _ ih =>
    rcases List.mem_cons.mp hy with rfl | hy
    · exact ⟨x, List.mem_cons_self, hxy⟩
    · rcases ih hy with ⟨x', hx', hrel⟩
      exact ⟨x', List.mem_cons_of_mem _ hx', hrel⟩

/-- Related lists are sorted to related lists by orders that relate them. -/
theorem forall₂_mergeSort {α β : Type} {R : α → β → Prop} {le : α → α → Bool}
    {le' : β → β → Bool} (hle : ∀ a b c d, R a b → R c d → le a c = le' b d) {xs : List α}
    {ys : List β} (h : List.Forall₂ R xs ys) :
    List.Forall₂ R (xs.mergeSort le) (ys.mergeSort le') := by
  rcases List.forall₂_iff_zip.mp h with ⟨hlen, hrel⟩
  -- Both are sorted along with the list of pairs.
  have hxs : xs.mergeSort le = ((xs.zip ys).mergeSort fun p q => le p.1 q.1).map Prod.fst := by
    rw [List.map_mergeSort (s := le) fun p _ q _ => rfl, List.map_fst_zip (Nat.le_of_eq hlen)]
  have hys : ys.mergeSort le' = ((xs.zip ys).mergeSort fun p q => le p.1 q.1).map Prod.snd := by
    rw [List.map_mergeSort (s := le') fun p hp q hq => hle _ _ _ _ (hrel hp) (hrel hq),
      List.map_snd_zip (Nat.le_of_eq hlen.symm)]
  rw [hxs, hys, List.forall₂_map_left_iff, List.forall₂_map_right_iff, List.forall₂_same]
  exact fun p hp => hrel (List.mem_mergeSort.mp hp)

namespace Version

/-- Versions that agree and are listed alike. -/
def Alike (a b : Version) : Prop := a.agrees b = true ∧ a.vector.counts = b.vector.counts

section Alike

variable {a b c d : Version}

theorem Alike.siblingOrder (hab : Alike a b) (hcd : Alike c d) :
    siblingOrder a c = siblingOrder b d := by
  rcases agrees_iff.mp hab.1 with ⟨hvalue, htombstone, -⟩
  rcases agrees_iff.mp hcd.1 with ⟨hvalue', htombstone', -⟩
  simp only [Version.siblingOrder, VersionVector.text, hab.2, hcd.2, hvalue, htombstone, hvalue',
    htombstone']

theorem Alike.highestNodeOrder (hab : Alike a b) (hcd : Alike c d) :
    highestNodeOrder a c = highestNodeOrder b d := by
  rw [Version.highestNodeOrder, Version.highestNodeOrder, hab.siblingOrder hcd, hab.2, hcd.2]

theorem Alike.highestNode? {vs ws : List Version} (h : List.Forall₂ Alike vs ws) :
    Option.Rel Alike (highestNode? vs) (highestNode? ws) := by
  cases h with
  | nil => exact .none
  | cons hfirst hrest =>
    refine .some (List.rel_foldl ?_ hfirst hrest)
    intro best best' hbest u u' hu
    beta_reduce
    rw [hbest.highestNodeOrder hu]
    split
    · exact hbest
    · exact hu

end Alike

/-- Survivors that are related place by place resolve to the same kind of
    answer. Which of several is the highest has to be looked at. -/
theorem rel_resolve {R : Version → Version → Prop} {vs ws : List Version}
    (h : List.Forall₂ R vs ws) (hhighest : Option.Rel R (highestNode? vs) (highestNode? ws))
    (policy : Policy) : Resolution.Rel R (resolve policy vs) (resolve policy ws) := by
  cases h with
  | nil => exact .missing
  | cons hfirst hrest =>
    cases hrest with
    | nil => exact .winner hfirst
    | cons hsecond hrest =>
      cases policy with
      | surface => exact .conflict (.cons hfirst (.cons hsecond hrest))
      | highestNode =>
        rw [highestNode?, highestNode?, Option.rel_some_some] at hhighest
        exact .winner hhighest

/-- Versions of one history, which are alike if they are in some set of
    current ones. -/
structure Matched (P : VersionVector → Prop) (a b : Version) : Prop where
  le : a.vector ≤ b.vector
  ge : b.vector ≤ a.vector
  alike : P a.vector → Alike a b

section Matched

variable {P : VersionVector → Prop}
  (hP : ∀ a b : VersionVector, a ≤ b → b ≤ a → P a → P b)
include hP

/-- Of matched versions under one history the later listed are matched. -/
theorem Matched.later {a b c d : Version} (hab : Matched P a b) (hcd : Matched P c d)
    (hac : a.vector ≤ c.vector) (hca : c.vector ≤ a.vector) :
    Matched P (if siblingOrder a c = .gt then a else c)
      (if siblingOrder b d = .gt then b else d) := by
  by_cases hcurrent : P a.vector
  · -- They are current as well, so the same one of the two is listed later.
    have hcd' := hcd.alike (hP _ _ hac hca hcurrent)
    rw [(hab.alike hcurrent).siblingOrder hcd']
    split
    · exact hab
    · exact hcd
  · -- Neither is current, so it is enough that all have one history.
    have hnot : ¬ P c.vector := fun hc => hcurrent (hP _ _ hca hac hc)
    by_cases hfirst : siblingOrder a c = .gt <;> by_cases hsecond : siblingOrder b d = .gt
    · rw [if_pos hfirst, if_pos hsecond]
      exact hab
    · rw [if_pos hfirst, if_neg hsecond]
      exact ⟨le_trans hac hcd.le, le_trans hcd.ge hca, fun h => absurd h hcurrent⟩
    · rw [if_neg hfirst, if_pos hsecond]
      exact ⟨le_trans hca hab.le, le_trans hab.ge hac, fun h => absurd h hnot⟩
    · rw [if_neg hfirst, if_neg hsecond]
      exact hcd

theorem matched_absorb? {v w : Version} (hvw : Matched P v w) {cs ds : List Version}
    (h : List.Forall₂ (Matched P) cs ds) :
    Option.Rel (List.Forall₂ (Matched P)) (absorb? v cs) (absorb? w ds) := by
  induction h with
  | nil => exact .none
  | @cons c d cs ds hcd hrest ih =>
    have hsame := VersionVector.compare_congr hvw.le hvw.ge hcd.le hcd.ge
    -- The scan goes on alike on both sides.
    have honward : Option.Rel (List.Forall₂ (Matched P)) ((absorb? v cs).map (c :: ·))
        ((absorb? w ds).map (d :: ·)) := by
      generalize absorb? v cs = es at ih
      generalize absorb? w ds = fs at ih
      cases ih with
      | none => exact .none
      | some hall => exact .some (.cons hcd hall)
    rw [absorb?, absorb?, ← hsame]
    cases hcmp : v.vector.compare c.vector with
    | older => exact .some (.cons hcd hrest)
    | equal =>
      have heq := VersionVector.compare_eq_equal_iff.mp hcmp
      exact .some (.cons (hvw.later hP hcd heq.1 heq.2) hrest)
    | newer => exact honward
    | concurrent => exact honward

/-- Matched versions keep matched candidates matched. -/
theorem matched_enlist {v w : Version} (hvw : Matched P v w) {cs ds : List Version}
    (h : List.Forall₂ (Matched P) cs ds) :
    List.Forall₂ (Matched P) (enlist cs v) (enlist ds w) := by
  have habsorb := matched_absorb? hP hvw h
  unfold enlist
  cases hv : absorb? v cs <;> cases hw : absorb? w ds <;> rw [hv, hw] at habsorb
  · -- Neither is covered, so both drive out what they have seen.
    refine List.rel_append (List.rel_filter (fun c d hcd => ?_) h) (.cons hvw .nil)
    beta_reduce
    rw [VersionVector.compare_congr hvw.le hvw.ge hcd.le hcd.ge]
  · cases habsorb
  · cases habsorb
  · exact Option.rel_some_some.mp habsorb

/-- Matched versions leave matched candidates. -/
theorem matched_foldl {vs ws : List Version} (hall : List.Forall₂ (Matched P) vs ws)
    {cs ds : List Version} (h : List.Forall₂ (Matched P) cs ds) :
    List.Forall₂ (Matched P) (vs.foldl enlist cs) (ws.foldl enlist ds) := by
  induction hall generalizing cs ds with
  | nil => exact h
  | cons hvw _ ih => exact ih (matched_enlist hP hvw h)

end Matched

section Lists

variable {l m : List Version} (hagrees : List.Forall₂ (fun a b => a.agrees b = true) l m)
include hagrees

/-- Versions that agree have survivors of the same histories. -/
theorem perm_survivors : ∃ ks, ks.Perm (reconcile m) ∧
    List.Forall₂ (Matched fun _ => False) (reconcile l) ks := by
  have hmatched : List.Forall₂ (Matched fun _ => False) l m := by
    refine hagrees.imp fun a b hab => ?_
    rcases agrees_iff.mp hab with ⟨-, -, hle, hge⟩
    exact ⟨hle, hge, False.elim⟩
  have hkept := matched_foldl (fun _ _ _ _ h => h) hmatched .nil
  rcases List.perm_comp_forall₂ (List.mergeSort_perm _ siblingLE) hkept with ⟨ks, hks, hperm⟩
  exact ⟨ks, hperm.trans (List.mergeSort_perm _ _).symm, hks⟩

/-- If the versions that nothing supersedes are listed alike, so are the
    survivors. -/
theorem alike_survivors (hcounts : ∀ p ∈ l.zip m, (∀ u ∈ l, ¬ p.1.vector < u.vector) →
    p.1.vector.counts = p.2.vector.counts) :
    List.Forall₂ Alike (reconcile l) (reconcile m) := by
  have hcurrent : ∀ a b : VersionVector, a ≤ b → b ≤ a →
      (∀ u ∈ l, ¬ a < u.vector) → ∀ u ∈ l, ¬ b < u.vector :=
    fun a b hab _ h u hu hlt => h u hu (lt_of_le_of_lt hab hlt)
  have hmatched : List.Forall₂ (Matched fun v => ∀ u ∈ l, ¬ v < u.vector) l m := by
    rcases List.forall₂_iff_zip.mp hagrees with ⟨hlen, hzip⟩
    refine List.forall₂_iff_zip.mpr ⟨hlen, fun {a b} hab => ?_⟩
    rcases agrees_iff.mp (hzip hab) with ⟨-, -, hle, hge⟩
    exact ⟨hle, hge, fun h => ⟨hzip hab, hcounts (a, b) hab h⟩⟩
  rcases List.forall₂_iff_zip.mp (matched_foldl hcurrent hmatched .nil) with ⟨hlen, hzip⟩
  -- Nothing supersedes a candidate that is left in the end.
  have hfrontier := frontier_foldl frontier_nil l
  have halike : List.Forall₂ Alike (l.foldl enlist []) (m.foldl enlist []) := by
    refine List.forall₂_iff_zip.mpr ⟨hlen, fun {a b} hab => (hzip hab).alike fun u hu => ?_⟩
    exact (hfrontier.yields (List.of_mem_zip hab).1 hu).1
  refine forall₂_mergeSort (fun a b c d hab hcd => ?_) halike
  rw [siblingLE, siblingLE, hab.siblingOrder hcd]

end Lists

/-- Versions that agree place by place, under vectors that file their entries
    where they belong, resolve to the same kind of answer, and leave survivors
    of the same histories. If no history comes with two contents, the survivors
    agree but for their order. They do so in their places, and the answers
    agree, if the entries of zero are the same in both lists wherever nothing
    supersedes a version, that is if the vectors there name the same nodes. -/
theorem resolve_of_agrees (l m : List Version)
    (hagrees : List.Forall₂ (fun a b => a.agrees b = true) l m)
    (hfiled : ∀ v ∈ l ++ m, v.vector.Filed) :
    (∀ policy, Resolution.Rel (fun _ _ => True) (resolve policy (reconcile l))
      (resolve policy (reconcile m))) ∧
    (∃ ks, ks.Perm (reconcile m) ∧
      List.Forall₂ (fun a b => a.vector.agrees b.vector = true) (reconcile l) ks ∧
      ((∀ a ∈ l, ∀ b ∈ l, a.vector.compare b.vector = .equal →
          a.value = b.value ∧ a.tombstone = b.tombstone) →
        List.Forall₂ (fun a b => a.agrees b = true) (reconcile l) ks)) ∧
    ((∀ p ∈ l.zip m, (∀ u ∈ l, p.1.vector.compare u.vector ≠ .older) →
        p.1.vector.entries.keys = p.2.vector.entries.keys) →
      ∀ policy, Resolution.Rel (fun a b => a.agrees b = true) (resolve policy (reconcile l))
        (resolve policy (reconcile m))) := by
  rcases perm_survivors hagrees with ⟨ks, hperm, hmatched⟩
  refine ⟨fun policy => ?_, ⟨ks, hperm, hmatched.imp fun a b hab => ?_, fun hsingle => ?_⟩,
    fun hkeys policy => ?_⟩
  · have hlen : (reconcile l).length = (reconcile m).length :=
      hmatched.length_eq.trans hperm.length_eq
    refine rel_resolve (List.forall₂_iff_zip.mpr ⟨hlen, fun _ => trivial⟩) ?_ policy
    -- Where there is a highest on one side there is one on the other.
    cases hl : reconcile l <;> cases hm : reconcile m <;> rw [hl, hm] at hlen
    · exact .none
    · cases hlen
    · cases hlen
    · exact .some trivial
  · exact beq_iff_eq.mpr (VersionVector.compare_eq_equal_iff.mpr ⟨hab.le, hab.ge⟩)
  · rcases List.forall₂_iff_zip.mp hmatched with ⟨hlen, hzip⟩
    refine List.forall₂_iff_zip.mpr ⟨hlen, fun {a b} hab => ?_⟩
    have ha := (frontier_reconcile l).sound a (List.of_mem_zip hab).1
    have hb := (frontier_reconcile m).sound b (hperm.mem_iff.mp (List.of_mem_zip hab).2)
    -- What `b` agrees with in the other list has the history of `a`, so its content.
    rcases exists_of_forall₂ hagrees hb with ⟨c, hc, hcb⟩
    rcases agrees_iff.mp hcb with ⟨hvalue, htombstone, hle, hge⟩
    have hac := VersionVector.compare_eq_equal_iff.mpr
      ⟨le_trans (hzip hab).le hge, le_trans hle (hzip hab).ge⟩
    rcases hsingle a ha c hc hac with ⟨hvalue', htombstone'⟩
    exact agrees_iff.mpr ⟨hvalue'.trans hvalue, htombstone'.trans htombstone, (hzip hab).le,
      (hzip hab).ge⟩
  · have halike : List.Forall₂ Alike (reconcile l) (reconcile m) := by
      refine alike_survivors hagrees fun p hp hcurrent => ?_
      rcases agrees_iff.mp ((List.forall₂_iff_zip.mp hagrees).2 hp) with ⟨-, -, hle, hge⟩
      rcases List.of_mem_zip hp with ⟨hpl, hpm⟩
      refine (hfiled p.1 (List.mem_append_left _ hpl)).counts_congr
        (hfiled p.2 (List.mem_append_right _ hpm)) (hkeys p hp fun u hu holder => ?_) hle hge
      exact hcurrent u hu (VersionVector.compare_eq_older_iff.mp holder)
    exact (rel_resolve halike (Alike.highestNode? halike) policy).mono fun a b hab => hab.1

/-- An old version, and two writes that have seen it but not each other. One
    of them counts a stranger at zero, in both lists. The old version does so
    in one list only, and that makes no difference. -/
theorem resolve_of_agrees_padded :
    let old : Version := .live "x" (.ofEntries [("ann", 1)])
    let padded : Version := .live "x" (.ofEntries [("ann", 1), ("zoe", 0)])
    let ann : Version := .live "y" (.ofEntries [("ann", 2), ("cid", 0)])
    let ben : Version := .deleted (.ofEntries [("ann", 1), ("ben", 1)])
    List.Forall₂ (fun a b => a.agrees b = true) [ann, old, ben] [ann, padded, ben] ∧
    (∀ v ∈ [ann, old, ben] ++ [ann, padded, ben], v.vector.Filed) ∧
    (reconcile [ann, old, ben]).length = 2 ∧
    ∀ policy, Resolution.Rel (fun a b => a.agrees b = true)
      (resolve policy (reconcile [ann, old, ben]))
      (resolve policy (reconcile [ann, padded, ben])) := by
  intro old padded ann ben
  have hpadded : old.agrees padded = true := by decide +kernel
  have hagrees : List.Forall₂ (fun a b => a.agrees b = true) [ann, old, ben] [ann, padded, ben] :=
    .cons (agrees_refl ann) (.cons hpadded (.cons (agrees_refl ben) .nil))
  have hfiled : ∀ v ∈ [ann, old, ben] ++ [ann, padded, ben], v.vector.Filed := by
    intro v hv
    simp only [List.cons_append, List.nil_append, List.mem_cons, List.not_mem_nil, or_false] at hv
    rcases hv with rfl | rfl | rfl | rfl | rfl | rfl <;> exact VersionVector.filed_ofEntries _
  have hlen : (reconcile [ann, old, ben]).length = 2 := by
    rw [reconcile, List.length_mergeSort]
    decide +kernel
  refine ⟨hagrees, hfiled, hlen, (resolve_of_agrees _ _ hagrees hfiled).2.2 fun p hp hmax => ?_⟩
  have holder : old.vector.compare ann.vector = .older := by decide +kernel
  simp only [List.zip_cons_cons, List.zip_nil_right, List.mem_cons, List.not_mem_nil,
    or_false] at hp
  rcases hp with rfl | rfl | rfl
  · rfl
  · exact absurd holder (hmax ann List.mem_cons_self)
  · rfl

/-- Two writes that have not seen each other, each in two forms of which one
    has an entry of zero. The entry of a high name wins the conflict for its
    write; that of a low name moves it to the front of the siblings. -/
theorem resolve_of_zero :
    let ann : Version := .live "x" (.ofEntries [("a", 1)])
    let ben : Version := .live "y" (.ofEntries [("b", 1)])
    let high : Version := .live "x" (.ofEntries [("a", 1), ("z", 0)])
    let low : Version := .live "y" (.ofEntries [("a", 0), ("b", 1)])
    resolve .highestNode (reconcile [ann, ben]) = .winner ben ∧
    resolve .highestNode (reconcile [high, ben]) = .winner high ∧
    resolve .surface (reconcile [ann, ben]) = .conflict [ann, ben] ∧
    resolve .surface (reconcile [ann, low]) = .conflict [low, ann] ∧
    ¬ ∀ (policy : Policy) (l m : List Version),
      List.Forall₂ (fun a b => a.agrees b = true) l m → (∀ v ∈ l ++ m, v.vector.Filed) →
        Resolution.Rel (fun a b => a.agrees b = true) (resolve policy (reconcile l))
          (resolve policy (reconcile m)) := by
  intro ann ben high low
  have hplain : resolve .highestNode (reconcile [ann, ben]) = .winner ben := by cbv
  have hhigh : resolve .highestNode (reconcile [high, ben]) = .winner high := by cbv
  refine ⟨hplain, hhigh, by cbv, by cbv, fun hall => ?_⟩
  have hsame : ann.agrees high = true := by decide +kernel
  have hrel := hall .highestNode [ann, ben] [high, ben]
    (.cons hsame (.cons (agrees_refl ben) .nil)) fun v hv => ?_
  · rw [hplain, hhigh] at hrel
    have hdiffer : ben.agrees high = false := by decide +kernel
    cases hrel with
    | winner h =>
      rw [hdiffer] at h
      cases h
  · simp only [List.cons_append, List.nil_append, List.mem_cons, List.not_mem_nil, or_false] at hv
    rcases hv with rfl | rfl | rfl | rfl <;> exact VersionVector.filed_ofEntries _

end Version

end QuorumStore
