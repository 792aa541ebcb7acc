import QuorumStore.Proofs.Replica.Offers
import QuorumStore.Proofs.Version.Arrival

/-!
# Convergence

When replicas come to hold the same, whatever way the offers have taken.

A replica that is offered concurrent versions keeps the one that came last,
so what it holds tells the order of the offers. It does not where the versions
of a key are one `Line`: of any two of them one has seen the other, or else
they agree. Then the version held is the greatest of those that have come, and
it does not matter in which order they did, or how often.

Nor do offers of other keys matter. What a replica holds under a key is
computed from the versions of that key alone (`get?_putAll`), one after
another, by `hold`. So the argument is about a list of versions and not about
a store: `crown_hold` is one step of it, and `crown_foldl` goes along the list.

## Main definitions

* `Version.Line`: Versions that are pairwise comparable.
* `Store.offered`: The versions of a key among some offers.
* `Store.hold`: What is held of a key after one more offer.
* `Store.Crown`: What is held is the greatest of some versions.

## Theorems

* `Store.get?_putAll`: A key is decided by its own versions.
* `Store.crown_foldl`: Of a line the greatest version is held.
* `Store.converges`: Replicas that were offered the same hold the same.
-/

namespace QuorumStore

/-- Versions of which one has always seen the other. Those of one history are
    one version. -/
structure Version.Line (vs : List Version) : Prop where
  comparable : ∀ a ∈ vs, ∀ b ∈ vs, a.vector.compare b.vector ≠ .concurrent
  single : ∀ a ∈ vs, ∀ b ∈ vs, a.vector.compare b.vector = .equal →
    a.value = b.value ∧ a.tombstone = b.tombstone

namespace Store

variable {s : Store} {key : String} {held : Option Version} {seen vs : List Version}
  {v : Version}

/-- The versions of a key among some offers, in order. -/
def offered (key : String) (offers : List (String × Version)) : List Version :=
  offers.filterMap fun o => if o.1 = key then some o.2 else none

theorem mem_offered {offers : List (String × Version)} :
    v ∈ offered key offers ↔ (key, v) ∈ offers := by
  rw [offered, List.mem_filterMap]
  constructor
  · rintro ⟨⟨k, u⟩, hmem, h⟩
    by_cases hk : k = key
    · rw [if_pos hk, Option.some.injEq] at h
      rw [← h, ← hk]
      exact hmem
    · rw [if_neg hk] at h
      cases h
  · intro hmem
    exact ⟨(key, v), hmem, if_pos rfl⟩

/-- What is held of a key after one more offer: a version that is as new stays,
    any other gives way. -/
def hold (held : Option Version) (v : Version) : Option Version :=
  match held with
  | none => some v
  | some current =>
    match v.vector.compare current.vector with
    | .older | .equal => some current
    | .newer | .concurrent => some v

theorem get?_put (s : Store) (k : String) (v : Version) (key : String) :
    (s.put k v).get? key = if k = key then hold (s.get? key) v else s.get? key := by
  by_cases hk : k = key
  · rw [if_pos hk, hk, get?_put_self, accepts]
    cases s.get? key with
    | none => rfl
    | some current => cases hcmp : v.vector.compare current.vector <;> simp [hold, hcmp]
  · rw [if_neg hk, get?_put_other s v (Ne.symm hk)]

/-- What is held under a key after some offers is decided by the versions of
    that key, and by nothing else. -/
theorem get?_putAll (s : Store) (offers : List (String × Version)) (key : String) :
    (s.putAll offers).get? key = (offered key offers).foldl hold (s.get? key) := by
  induction offers generalizing s with
  | nil => rfl
  | cons o offers ih =>
    rw [putAll_cons, ih, get?_put]
    by_cases hk : o.1 = key
    · simp only [offered, List.filterMap_cons, if_pos hk, List.foldl_cons]
    · simp only [offered, List.filterMap_cons, if_neg hk]

/-- What is held is the greatest of some versions; nothing, if there are
    none. -/
def Crown (held : Option Version) (vs : List Version) : Prop :=
  match held with
  | none => vs = []
  | some top => top ∈ vs ∧ ∀ v ∈ vs, v.vector ≤ top.vector

/-- A version that is comparable to all before it keeps the crown or takes
    it. -/
theorem crown_hold (h : Crown held seen)
    (hcomparable : ∀ u ∈ seen, v.vector.compare u.vector ≠ .concurrent) :
    Crown (hold held v) (seen ++ [v]) := by
  cases held with
  | none =>
    rw [show seen = [] from h]
    exact ⟨List.mem_singleton_self v, fun u hu => by rw [List.mem_singleton.mp hu]⟩
  | some top =>
    rcases h with ⟨hmem, habove⟩
    -- Whichever of the two is the greater covers both, and so all the rest.
    have hstay : v.vector ≤ top.vector → Crown (some top) (seen ++ [v]) := by
      refine fun hle => ⟨List.mem_append_left _ hmem, fun u hu => ?_⟩
      rcases List.mem_append.mp hu with hu | hu
      · exact habove u hu
      · rw [List.mem_singleton.mp hu]
        exact hle
    cases hcmp : v.vector.compare top.vector with
    | older =>
      simp only [hold, hcmp]
      exact hstay (VersionVector.compare_older_or_equal_iff.mp (.inl hcmp))
    | equal =>
      simp only [hold, hcmp]
      exact hstay (VersionVector.compare_older_or_equal_iff.mp (.inr hcmp))
    | newer =>
      simp only [hold, hcmp]
      refine ⟨List.mem_append_right _ (List.mem_singleton_self v), fun u hu => ?_⟩
      rcases List.mem_append.mp hu with hu | hu
      · exact le_trans (habove u hu) (le_of_lt (VersionVector.compare_eq_newer_iff.mp hcmp))
      · rw [List.mem_singleton.mp hu]
    | concurrent => exact absurd hcmp (hcomparable top hmem)

/-- Of versions that are pairwise comparable the greatest is held in the end. -/
theorem crown_foldl (h : Crown held seen) (hcomparable : ∀ a ∈ seen ++ vs, ∀ b ∈ seen ++ vs,
    a.vector.compare b.vector ≠ .concurrent) : Crown (vs.foldl hold held) (seen ++ vs) := by
  induction vs generalizing held seen with
  | nil =>
    rw [List.append_nil]
    exact h
  | cons v vs ih =>
    rw [List.append_cons] at hcomparable ⊢
    refine ih (crown_hold h fun u hu => ?_) hcomparable
    exact hcomparable v (by simp) u (by simp [hu])

/-- The greatest of some versions is the greatest of all lists of them. -/
theorem Crown.congr {ws : List Version} (h : Crown held ws) (hmem : ∀ v, v ∈ ws ↔ v ∈ vs) :
    Crown held vs := by
  cases held with
  | none =>
    rw [Crown] at h
    refine List.eq_nil_iff_forall_not_mem.mpr fun v hv => ?_
    rw [← hmem, h] at hv
    cases hv
  | some top => exact ⟨(hmem top).mp h.1, fun v hv => h.2 v ((hmem v).mpr hv)⟩

/-- In a line the greatest is newer than all others, or agrees with them. -/
theorem Crown.newer_or_agrees {top : Version} (h : Crown (some top) vs) (hline : Version.Line vs)
    (hv : v ∈ vs) : top.vector.compare v.vector = .newer ∨ top.agrees v = true := by
  have hle := h.2 v hv
  by_cases hback : top.vector ≤ v.vector
  · have hequal := VersionVector.compare_eq_equal_iff.mpr ⟨hback, hle⟩
    rcases hline.single top h.1 v hv hequal with ⟨hvalue, htombstone⟩
    exact .inr (Version.agrees_iff.mpr ⟨hvalue, htombstone, hback, hle⟩)
  · exact .inl (VersionVector.compare_eq_newer_iff.mpr (lt_of_le_not_ge hle hback))

/-- There is one greatest version in a line. -/
theorem Crown.unique {a b : Version} (ha : Crown (some a) vs) (hb : Crown (some b) vs)
    (hline : Version.Line vs) : a.agrees b = true := by
  rcases ha.newer_or_agrees hline hb.1 with hnewer | hagrees
  · exact absurd (hb.2 a ha.1) (not_le_of_gt (VersionVector.compare_eq_newer_iff.mp hnewer))
  · exact hagrees

/-- A store that has a version as new refuses what it is offered, and stays as
    it is. -/
theorem put_of_le {top : Version} (hheld : s.get? key = some top)
    (hle : v.vector ≤ top.vector) : s.accepts key v = false ∧ s.put key v = s := by
  have hrefused := accepts_eq_false_iff.mpr ⟨top, hheld, hle⟩
  exact ⟨hrefused, by rw [put, hrefused]⟩

/-- Replicas converge on a line of versions. Offered all of them, in any order
    and any number of times, among offers of other keys, an empty replica holds
    the greatest: one of the versions that is newer than all that do not agree
    with it. So it holds the same, up to the form of the vector, as any other
    replica that was offered them. To be offered one of them again changes
    nothing, and offers of other keys make no difference. -/
theorem converges (key : String) (vs : List Version) (hline : Version.Line vs)
    (offers : List (String × Version)) (hoffers : ∀ v, (key, v) ∈ offers ↔ v ∈ vs) :
    let s := empty.putAll offers
    (s.get? key = none ∧ vs = [] ∨
      ∃ top ∈ vs, s.get? key = some top ∧
        ∀ v ∈ vs, top.vector.compare v.vector = .newer ∨ top.agrees v = true) ∧
    (∀ offers', (∀ v, (key, v) ∈ offers' ↔ v ∈ vs) →
      ∀ a b, s.get? key = some a → (empty.putAll offers').get? key = some b →
        a.agrees b = true) ∧
    (∀ v ∈ vs, s.accepts key v = false ∧ s.put key v = s) ∧
    ∀ offers', offered key offers' = offered key offers →
      (empty.putAll offers').get? key = s.get? key := by
  intro s
  -- Any replica that was offered the versions holds the greatest.
  have hcrown : ∀ offers', (∀ v, (key, v) ∈ offers' ↔ v ∈ vs) →
      Crown ((empty.putAll offers').get? key) vs := by
    intro offers' hoffers'
    have hmem : ∀ v, v ∈ offered key offers' ↔ v ∈ vs := fun v => by rw [mem_offered, hoffers']
    rw [get?_putAll]
    refine Crown.congr (@crown_foldl none [] _ rfl fun a ha b hb => ?_) hmem
    exact hline.comparable a ((hmem a).mp ha) b ((hmem b).mp hb)
  have hs : Crown (s.get? key) vs := hcrown offers hoffers
  refine ⟨?_, fun offers' hoffers' a b ha hb => ?_, fun v hv => ?_, fun offers' hsame => ?_⟩
  · cases hheld : s.get? key with
    | none =>
      rw [hheld] at hs
      exact .inl ⟨rfl, hs⟩
    | some top =>
      rw [hheld] at hs
      exact .inr ⟨top, hs.1, rfl, fun v hv => hs.newer_or_agrees hline hv⟩
  · rw [ha] at hs
    have hother := hcrown offers' hoffers'
    rw [hb] at hother
    exact hs.unique hother hline
  · cases hheld : s.get? key with
    | none =>
      rw [hheld] at hs
      rw [show vs = [] from hs] at hv
      cases hv
    | some top =>
      rw [hheld] at hs
      exact put_of_le hheld (hs.2 v hv)
  · rw [get?_putAll, get?_putAll, hsame]

/-- Two writes and a deletion, one after another, which come in the wrong order
    and more than once, with another key in between. The deletion comes in two
    forms, of which one counts a stranger at zero; they agree. -/
theorem converges_deleted :
    let first : Version := .live "x" (.ofCounters ⟨0, 0⟩ [("ann", 1)])
    let second : Version := .live "y" (.ofCounters ⟨0, 0⟩ [("ann", 1), ("ben", 1)])
    let gone : Version := .deleted (.ofCounters ⟨0, 0⟩ [("ann", 2), ("ben", 1)])
    let padded : Version := .deleted ⟨gone.vector.entries.insert "cid" ⟨"cid", 0, ⟨7, 0⟩⟩⟩
    let vs := [first, second, gone, padded]
    let offers := [("k", second), ("j", first), ("k", padded), ("k", first), ("k", gone),
      ("k", second), ("j", gone), ("k", first)]
    Version.Line vs ∧ (∀ v, ("k", v) ∈ offers ↔ v ∈ vs) ∧
      (empty.putAll offers).get? "k" = some padded ∧ padded.agrees gone = true ∧
      (empty.putAll offers).put "k" second = empty.putAll offers := by
  intro first second gone padded vs offers
  have hcomparable : (vs.all fun a => vs.all fun b =>
      a.vector.compare b.vector != .concurrent) = true := by decide +kernel
  have hsingle : (vs.all fun a => vs.all fun b => a.vector.compare b.vector != .equal ||
      (a.value == b.value && a.tombstone == b.tombstone)) = true := by decide +kernel
  have hline : Version.Line vs := by
    simp only [List.all_eq_true, bne_iff_ne] at hcomparable
    simp only [List.all_eq_true, Bool.or_eq_true, bne_iff_ne, Bool.and_eq_true, beq_iff_eq]
      at hsingle
    exact ⟨hcomparable, fun a ha b hb heq => (hsingle a ha b hb).resolve_left (not_not_intro heq)⟩
  have hoffers : ∀ v, ("k", v) ∈ offers ↔ v ∈ vs := by
    have hsound : ∀ o ∈ offers, o.1 = "k" → o.2 ∈ vs := by decide +kernel
    have hcomplete : ∀ v ∈ vs, ("k", v) ∈ offers := by decide +kernel
    exact fun v => ⟨fun hv => hsound _ hv rfl, hcomplete v⟩
  have hheld : (empty.putAll offers).get? "k" = some padded := by decide +kernel
  rcases converges "k" vs hline offers hoffers with ⟨hgreatest, -, hagain, -⟩
  have hmem : ∀ v ∈ [second, gone], v ∈ vs := by decide +kernel
  refine ⟨hline, hoffers, hheld, ?_, (hagain second (hmem second List.mem_cons_self)).2⟩
  rcases hgreatest with ⟨hnone, -⟩ | ⟨top, -, htop, hall⟩
  · rw [hnone] at hheld
    cases hheld
  · -- The version held is not newer than the deletion, so it agrees with it.
    rw [htop, Option.some.injEq] at hheld
    rw [← hheld]
    refine (hall gone (hmem gone (by simp))).resolve_left fun hnewer => ?_
    rw [hheld, show padded.vector.compare gone.vector = .equal by decide +kernel] at hnewer
    cases hnewer

end Store

end QuorumStore
