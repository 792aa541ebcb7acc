import Mathlib.Data.List.Nodup
import QuorumStore.Cluster
import QuorumStore.Proofs.VersionVector.Order

/-!
# Calls to a Cluster

What the calls of one operation bring and leave behind, replica by replica.

The calls of an operation take effect one after another, so in general the
reply to one depends on those before it. Here it does not. A replica set names
each endpoint once, and a call touches only the store of its own endpoint, so
every call finds its replica as the operation found it. `arrivals_eq_map` says
this of the replies, and `store?_after_of_handled` and
`store?_after_of_untouched` say it of the stores.

A store that is offered a version has something afterwards that covers it,
whether it took the version or not (`Store.covers_put`).

## Main definitions

* `Fate.handled`: A call of this fate reaches its replica.
* `Plan.Honest`: No version and no acknowledgement is made up.
* `Plan.Truthful`: No version is made up.

## Theorems

* `mem_scheduled`, `scheduled_sorted`, `scheduled_nodup`: The calls due.
* `Store.covers_put`: A store covers what it was offered.
* `Cluster.response_meet`, `Cluster.fate_of_meet_broken`: Where a response comes
  from, and who brings none.
* `Cluster.store?_after_of_handled`, `Cluster.store?_after_of_untouched`: What
  calls leave at each replica.
* `Cluster.arrivals_eq_map`: Every call finds its replica untouched.
-/

namespace QuorumStore

/-- A call of this fate reaches its replica, and is handled there. -/
def Fate.handled : Fate → Bool
  | .served | .servedUnheard => true
  | .answered _ | .failed _ | .broken => false

/-- A plan makes up no answer that only a replica can give: neither a version
    nor an acknowledgement. -/
def Plan.Honest (p : Plan) : Prop :=
  p.fate ≠ .answered .ack ∧ ∀ v, p.fate ≠ .answered (.value v)

/-- A plan makes up no version. It may make up anything else, even an
    acknowledgement. -/
def Plan.Truthful (p : Plan) : Prop := ∀ v, p.fate ≠ .answered (.value v)

theorem Plan.Honest.truthful {p : Plan} (h : p.Honest) : p.Truthful := h.2

section Scheduled

variable {plan : Endpoint → Plan} {es : List Endpoint}

theorem mem_scheduled {call : Call} :
    call ∈ scheduled plan es ↔ call.endpoint ∈ es ∧
      (plan call.endpoint).due = some call.due ∧ (plan call.endpoint).fate = call.fate := by
  rw [scheduled, (List.mergeSort_perm _ _).mem_iff, List.mem_filterMap]
  constructor
  · rintro ⟨e, he, hcall⟩
    rcases Option.map_eq_some_iff.mp hcall with ⟨t, ht, rfl⟩
    exact ⟨he, ht, rfl⟩
  · rintro ⟨he, hdue, hfate⟩
    exact ⟨call.endpoint, he, by rw [hdue, hfate]; rfl⟩

theorem scheduled_sorted : (scheduled plan es).Pairwise fun a b => a.due ≤ b.due := by
  refine List.Pairwise.imp of_decide_eq_true
    (@List.pairwise_mergeSort Call (fun a b => decide (a.due ≤ b.due)) ?_ ?_ _)
  · intro a b c
    simp only [decide_eq_true_eq]
    exact Nat.le_trans
  · intro a b
    rw [Bool.or_eq_true, decide_eq_true_eq, decide_eq_true_eq]
    exact Nat.le_total a.due b.due

/-- No endpoint is called twice. -/
theorem scheduled_nodup (h : es.Nodup) : ((scheduled plan es).map Call.endpoint).Nodup := by
  rw [scheduled, ((List.mergeSort_perm _ _).map _).nodup_iff]
  refine List.Nodup.map_on ?_ (h.filterMap ?_)
  · intro a ha b hb hab
    rcases List.mem_filterMap.mp ha with ⟨e, -, he⟩
    rcases List.mem_filterMap.mp hb with ⟨f, -, hf⟩
    rcases Option.map_eq_some_iff.mp he with ⟨t, ht, rfl⟩
    rcases Option.map_eq_some_iff.mp hf with ⟨u, hu, rfl⟩
    -- The plan of one endpoint makes it due once.
    obtain rfl : e = f := hab
    rw [ht, Option.some.injEq] at hu
    rw [hu]
  · intro e f call he hf
    rcases Option.map_eq_some_iff.mp he with ⟨t, -, rfl⟩
    rcases Option.map_eq_some_iff.mp hf with ⟨u, -, hu⟩
    exact (congrArg Call.endpoint hu).symm

end Scheduled

namespace Store

/-- A store refuses a version that lies below the one it has. -/
theorem accepts_eq_false_iff {s : Store} {key : String} {v : Version} :
    s.accepts key v = false ↔ ∃ current, s.get? key = some current ∧
      v.vector ≤ current.vector := by
  unfold accepts
  cases s.get? key with
  | none => simp
  | some current =>
    have hle := @VersionVector.compare_older_or_equal_iff v.vector current.vector
    cases h : v.vector.compare current.vector <;> simp [← hle, h]

/-- What a store has after a put covers what it was offered, and is either
    that or what it had before. -/
theorem covers_put (s : Store) (key : String) (v : Version) :
    ∃ u, (s.put key v).get? key = some u ∧ v.vector ≤ u.vector ∧
      (u = v ∨ s.get? key = some u) := by
  rw [get?_put_self]
  cases h : s.accepts key v with
  | true => exact ⟨v, if_pos rfl, le_refl _, .inl rfl⟩
  | false =>
    rcases accepts_eq_false_iff.mp h with ⟨u, hu, hvu⟩
    exact ⟨u, by rw [if_neg Bool.false_ne_true, hu], hvu, .inr hu⟩

end Store

namespace Cluster

variable {c : Cluster} {request : Request}

theorem serve_eq (c : Cluster) (request : Request) (e : Endpoint) :
    c.serve request e = (c.store? e).map fun s =>
      ((s.handle request).1,
        { c.setStore e (s.handle request).2 with handled := c.handled.count request.kind }) := by
  unfold serve
  cases c.store? e <;> rfl

theorem store?_setStore (c : Cluster) (e f : Endpoint) (s : Store) :
    (c.setStore e s).store? f = if f = e then some s else c.store? f :=
  Table.get?_insert _ _ _ _

/-- A call changes the store of its endpoint, if it is handled there, and no
    other. -/
theorem store?_meet (c : Cluster) (request : Request) (e f : Endpoint) (fate : Fate) :
    (c.meet request e fate).2.store? f =
      if f = e ∧ fate.handled = true then (c.store? f).map fun s => (s.handle request).2
      else c.store? f := by
  -- Two fates have the replica handle the request; the others touch nothing.
  have hserve : ∀ r c', c.serve request e = some (r, c') →
      c'.store? f = if f = e then (c.store? f).map fun s => (s.handle request).2
        else c.store? f := by
    intro r c' h
    rw [serve_eq] at h
    rcases Option.map_eq_some_iff.mp h with ⟨s, hs, heq⟩
    cases heq
    by_cases hf : f = e
    · subst hf
      rw [if_pos rfl, hs]
      exact (store?_setStore c f f _).trans (if_pos rfl)
    · rw [if_neg hf]
      exact (store?_setStore c e f _).trans (if_neg hf)
  have hnone : c.serve request e = none →
      c.store? f = if f = e then (c.store? f).map fun s => (s.handle request).2
        else c.store? f := by
    intro h
    rw [serve_eq, Option.map_eq_none_iff] at h
    by_cases hf : f = e
    · rw [if_pos hf, hf, h]
      rfl
    · rw [if_neg hf]
  cases fate with
  | served =>
    simp only [meet, Fate.handled, and_true]
    cases h : c.serve request e with
    | none => exact hnone h
    | some p => exact hserve p.1 p.2 h
  | servedUnheard =>
    simp only [meet, Fate.handled, and_true]
    cases h : c.serve request e with
    | none => exact hnone h
    | some p => exact hserve p.1 p.2 h
  | answered r => simp [meet, Fate.handled]
  | failed err => simp [meet, Fate.handled]
  | broken => simp [meet, Fate.handled]

/-- The reply to a call depends on the store of its endpoint only. -/
theorem reply_meet_congr {c c' : Cluster} (request : Request) {e : Endpoint} (fate : Fate)
    (h : c.store? e = c'.store? e) : (c.meet request e fate).1 = (c'.meet request e fate).1 := by
  cases fate with
  | served =>
    simp only [meet, serve_eq, h]
    cases c'.store? e <;> rfl
  | servedUnheard =>
    simp only [meet, serve_eq, h]
    cases c'.store? e <;> rfl
  | answered r => rfl
  | failed err => rfl
  | broken => rfl

/-- A response comes from the replica's store, unless it is made up. -/
theorem response_meet {e : Endpoint} {fate : Fate} {r : Response}
    (h : (c.meet request e fate).1 = .response r) :
    (fate = .served ∧ ∃ s, c.store? e = some s ∧ r = (s.handle request).1) ∨
    fate = .answered r := by
  cases fate with
  | served =>
    refine .inl ⟨rfl, ?_⟩
    simp only [meet, serve_eq] at h
    cases hs : c.store? e with
    | none =>
      rw [hs] at h
      cases h
    | some s =>
      rw [hs] at h
      cases h
      exact ⟨s, rfl, rfl⟩
  | servedUnheard =>
    simp only [meet, serve_eq] at h
    cases hs : c.store? e <;> rw [hs] at h <;> cases h
  | answered r' =>
    cases h
    exact .inr rfl
  | failed err => cases h
  | broken => cases h

/-- Only a call that breaks off brings a reply that says nothing. -/
theorem fate_of_meet_broken {e : Endpoint} {fate : Fate}
    (h : (c.meet request e fate).1 = .broken) : fate = .broken := by
  cases fate with
  | broken => rfl
  | answered r => cases h
  | failed err => cases h
  | served =>
    rw [meet] at h
    cases hserve : c.serve request e <;> rw [hserve] at h <;> cases h
  | servedUnheard =>
    rw [meet] at h
    cases hserve : c.serve request e <;> rw [hserve] at h <;> cases h

theorem after_cons (c : Cluster) (request : Request) (call : Call) (calls : List Call) :
    c.after request (call :: calls) =
      (c.meet request call.endpoint call.fate).2.after request calls := rfl

/-- Endpoints that no call is handled at keep their store. -/
theorem store?_after_of_untouched {calls : List Call} {e : Endpoint}
    (h : ∀ call ∈ calls, call.endpoint = e → call.fate.handled = false) :
    (c.after request calls).store? e = c.store? e := by
  induction calls generalizing c with
  | nil => rfl
  | cons call calls ih =>
    rw [after_cons, ih fun d hd => h d (List.mem_cons_of_mem _ hd), store?_meet, if_neg]
    rintro ⟨rfl, hhandled⟩
    rw [h call List.mem_cons_self rfl] at hhandled
    cases hhandled

/-- An endpoint that a call is handled at has handled the request once. -/
theorem store?_after_of_handled {calls : List Call} (hnodup : (calls.map Call.endpoint).Nodup)
    {call : Call} (hcall : call ∈ calls) (hhandled : call.fate.handled = true) :
    (c.after request calls).store? call.endpoint =
      (c.store? call.endpoint).map fun s => (s.handle request).2 := by
  induction calls generalizing c with
  | nil => cases hcall
  | cons d calls ih =>
    rw [List.map_cons, List.nodup_cons] at hnodup
    rw [after_cons]
    rcases List.mem_cons.mp hcall with rfl | hcall
    · rw [store?_after_of_untouched, store?_meet, if_pos ⟨rfl, hhandled⟩]
      -- No later call goes to this endpoint again.
      intro d hd he
      exact absurd (List.mem_map.mpr ⟨d, hd, he⟩) hnodup.1
    · rw [ih hnodup.2 hcall, store?_meet, if_neg]
      rintro ⟨he, -⟩
      exact hnodup.1 (List.mem_map.mpr ⟨call, hcall, he⟩)

theorem arrivals_cons (c : Cluster) (request : Request) (call : Call) (calls : List Call) :
    c.arrivals request (call :: calls) =
      ⟨call.due, call.endpoint, (c.meet request call.endpoint call.fate).1⟩ ::
        (c.meet request call.endpoint call.fate).2.arrivals request calls := rfl

/-- Every call finds its replica as the operation found it. -/
theorem arrivals_eq_map {calls : List Call} (hnodup : (calls.map Call.endpoint).Nodup) :
    c.arrivals request calls = calls.map fun call =>
      ⟨call.due, call.endpoint, (c.meet request call.endpoint call.fate).1⟩ := by
  induction calls generalizing c with
  | nil => rfl
  | cons call calls ih =>
    rw [List.map_cons, List.nodup_cons] at hnodup
    rw [arrivals_cons, List.map_cons, ih hnodup.2]
    congr 1
    -- A later call goes elsewhere, and finds there what this one has left alone.
    refine List.map_congr_left fun d hd => ?_
    rw [reply_meet_congr request d.fate]
    rw [store?_meet, if_neg]
    rintro ⟨he, -⟩
    exact hnodup.1 (List.mem_map.mpr ⟨d, hd, he⟩)

end Cluster

end QuorumStore
