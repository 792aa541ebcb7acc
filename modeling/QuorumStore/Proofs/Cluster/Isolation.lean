import Mathlib.Logic.Function.Basic
import QuorumStore.Proofs.Cluster.FanOut

/-!
# Isolation of Keys in a Cluster

What a cluster is to those who are concerned with one key only.

The facet of a cluster at a key is where there is a replica and which version
it holds under the key. A request that matters to the key is answered by this
alone, and what it leaves of the facet depends on nothing else either. So two
clusters with the same facet give the same replies to the calls of an
operation, whatever they hold under other keys, and have the same facet
afterwards. The time the operation takes is the same as well, since it depends
on the plan of the calls and on the replies.

Asking for status is the one request that looks at all keys, and it matters to
none of them.

## Main definitions

* `Request.mattersTo`: The request is a greeting, or about the key.

## Theorems

* `Store.handle_congr`: A replica answers by the version of the key.
* `Cluster.facet_fanOut_congr`: The calls of a read or a write.
* `Cluster.facet_askEach_congr`: The calls of a greeting.
-/

namespace QuorumStore

/-- Where two options look the same, they are both empty or both there. -/
theorem cases_of_map_eq_map {α β : Type} {f : α → β} {x y : Option α} (h : x.map f = y.map f) :
    (x = none ∧ y = none) ∨ ∃ a b, x = some a ∧ y = some b ∧ f a = f b := by
  cases x with
  | none => exact .inl ⟨rfl, Option.map_eq_none_iff.mp h.symm⟩
  | some a =>
    rcases Option.map_eq_some_iff.mp h.symm with ⟨b, hb, hab⟩
    exact .inr ⟨a, b, rfl, hb, hab.symm⟩

/-- The request is about the key, or it is a greeting. -/
def Request.mattersTo (r : Request) (key : String) : Bool :=
  match r with
  | .ping => true
  | .get k => k == key
  | .put k _ _ => k == key
  | .stat => false

namespace Store

variable {s t : Store} {key : String}

theorem accepts_congr (h : s.get? key = t.get? key) (v : Version) :
    s.accepts key v = t.accepts key v := by
  rw [accepts, accepts, h]

theorem get?_put_congr (h : s.get? key = t.get? key) (v : Version) :
    (s.put key v).get? key = (t.put key v).get? key := by
  rw [get?_put_self, get?_put_self, accepts_congr h, h]

/-- The version under a key decides the response to a request that matters to
    it, and what is under the key then. -/
theorem handle_congr {request : Request} (hmatters : request.mattersTo key = true)
    (h : s.get? key = t.get? key) :
    (s.handle request).1 = (t.handle request).1 ∧
    (s.handle request).2.get? key = (t.handle request).2.get? key := by
  cases request with
  | ping => exact ⟨rfl, h⟩
  | get k =>
    obtain rfl : k = key := eq_of_beq hmatters
    exact ⟨congrArg Response.value h, h⟩
  | put k v writeId =>
    obtain rfl : k = key := eq_of_beq hmatters
    exact ⟨rfl, get?_put_congr h v⟩
  | stat => cases hmatters

end Store

namespace Cluster

variable {c d : Cluster} {request : Request} {key : String}

theorem facet_setStore (c : Cluster) (e : Endpoint) (s : Store) (key : String) :
    (c.setStore e s).facet key = Function.update (c.facet key) e (some (s.get? key)) := by
  funext f
  rw [facet, store?_setStore, Function.update_apply]
  by_cases hf : f = e
  · rw [if_pos hf, if_pos hf]
    rfl
  · rw [if_neg hf, if_neg hf, facet]

/-- Two clusters of one facet have replicas at the same endpoints, and those
    hold the same under the key. -/
theorem store?_of_facet (h : c.facet key = d.facet key) (e : Endpoint) :
    (c.store? e = none ∧ d.store? e = none) ∨
    ∃ s t, c.store? e = some s ∧ d.store? e = some t ∧ s.get? key = t.get? key :=
  cases_of_map_eq_map (congrFun h e)

/-- A call that matters to the key meets the same reply in both. -/
theorem reply_meet_of_facet (hmatters : request.mattersTo key = true)
    (h : c.facet key = d.facet key) (e : Endpoint) (fate : Fate) :
    (c.meet request e fate).1 = (d.meet request e fate).1 := by
  rcases store?_of_facet h e with ⟨hc, hd⟩ | ⟨s, t, hc, hd, hst⟩
  · exact reply_meet_congr request fate (hc.trans hd.symm)
  · have hresponse := (Store.handle_congr hmatters hst).1
    cases fate with
    | served => simp only [meet, serve_eq, hc, hd, Option.map_some, hresponse]
    | servedUnheard => simp only [meet, serve_eq, hc, hd, Option.map_some]
    | answered r => rfl
    | failed err => rfl
    | broken => rfl

/-- It leaves both with one facet again. -/
theorem facet_meet_congr (hmatters : request.mattersTo key = true)
    (h : c.facet key = d.facet key) (e : Endpoint) (fate : Fate) :
    (c.meet request e fate).2.facet key = (d.meet request e fate).2.facet key := by
  funext f
  rw [facet, facet, store?_meet, store?_meet]
  by_cases hf : f = e ∧ fate.handled = true
  · rw [if_pos hf, if_pos hf]
    rcases store?_of_facet h f with ⟨hc, hd⟩ | ⟨s, t, hc, hd, hst⟩
    · rw [hc, hd]
    · rw [hc, hd]
      exact congrArg some (Store.handle_congr hmatters hst).2
  · rw [if_neg hf, if_neg hf]
    exact congrFun h f

theorem facet_after_congr (hmatters : request.mattersTo key = true)
    (h : c.facet key = d.facet key) (calls : List Call) :
    (c.after request calls).facet key = (d.after request calls).facet key := by
  induction calls generalizing c d with
  | nil => exact h
  | cons call calls ih =>
    rw [after_cons, after_cons]
    exact ih (facet_meet_congr hmatters h call.endpoint call.fate)

theorem arrivals_congr (hmatters : request.mattersTo key = true)
    (h : c.facet key = d.facet key) (calls : List Call) :
    c.arrivals request calls = d.arrivals request calls := by
  induction calls generalizing c d with
  | nil => rfl
  | cons call calls ih =>
    rw [arrivals_cons, arrivals_cons, reply_meet_of_facet hmatters h,
      ih (facet_meet_congr hmatters h call.endpoint call.fate)]

variable {α : Type} {plan : Endpoint → Plan} {replicas : ReplicaSet}

/-- The calls of an operation end alike and at the same time. -/
theorem facet_fanOut_congr {needed deadline : Nat} {accept : Response → Except CallError α}
    (hmatters : request.mattersTo key = true) (h : c.facet key = d.facet key) :
    (c.fanOut plan replicas request needed deadline accept).1 =
      (d.fanOut plan replicas request needed deadline accept).1 ∧
    (c.fanOut plan replicas request needed deadline accept).2.facet key =
      (d.fanOut plan replicas request needed deadline accept).2.facet key := by
  have houtcome : (c.fanOut plan replicas request needed deadline accept).1 =
      (d.fanOut plan replicas request needed deadline accept).1 := by
    rw [fanOut_outcome, fanOut_outcome, completions, completions, arrivals_congr hmatters h]
  refine ⟨houtcome, ?_⟩
  -- They end alike, so the same calls are abandoned.
  rw [fanOut_cluster, fanOut_cluster, houtcome]
  exact facet_after_congr hmatters h _

theorem facet_askEach_congr (hmatters : request.mattersTo key = true)
    (h : c.facet key = d.facet key) (plan : Endpoint → Plan) (replicas : ReplicaSet)
    (limit : Nat) :
    (c.askEach plan replicas request limit).1 = (d.askEach plan replicas request limit).1 ∧
    (c.askEach plan replicas request limit).2.1.facet key =
      (d.askEach plan replicas request limit).2.1.facet key ∧
    (c.askEach plan replicas request limit).2.2 = (d.askEach plan replicas request limit).2.2 := by
  refine ⟨?_, facet_after_congr hmatters h _, rfl⟩
  simp only [askEach, arrivals_congr hmatters h]

end Cluster

end QuorumStore
