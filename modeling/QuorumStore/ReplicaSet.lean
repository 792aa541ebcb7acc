import QuorumStore.Endpoint
import QuorumStore.Table

/-!
# Replica Sets

Which replicas an operation turns to.

A replica set is a list of endpoints without repetition. Its order matters: it
is the order in which calls that are due together take effect. A placement
tells which set is responsible for a key. Every key lives on all replicas of
the session, but for those to which a set of their own is assigned.

## Main definitions

* `ReplicaSet`: Endpoints in order, each once.
* `ReplicaSet.ofList`: The set of a list, keeping first occurrences.
* `Placement`: Which set is responsible for a key.

## Theorems

* `ReplicaSet.mem_ofList`: The set of a list has its elements.
-/

namespace QuorumStore

/-- Endpoints in order, each of them once. -/
structure ReplicaSet where
  endpoints : List Endpoint
  nodup : endpoints.Nodup := by decide
  deriving DecidableEq, Repr

namespace ReplicaSet

instance : Inhabited ReplicaSet := ⟨⟨[], .nil⟩⟩

/-- Add an endpoint behind the others unless it is among them. -/
def insert (r : ReplicaSet) (e : Endpoint) : ReplicaSet :=
  if h : e ∈ r.endpoints then r
  else
    ⟨r.endpoints ++ [e], by
      refine List.nodup_append.mpr ⟨r.nodup, by simp, fun a ha b hb => ?_⟩
      rw [List.mem_singleton.mp hb]
      rintro rfl
      exact h ha⟩

/-- The set of a list of endpoints, each at its first occurrence. -/
def ofList (es : List Endpoint) : ReplicaSet := es.foldl insert default

/-- How many replicas there are. -/
def size (r : ReplicaSet) : Nat := r.endpoints.length

/-- Whether there is no replica. -/
def isEmpty (r : ReplicaSet) : Bool := r.endpoints.isEmpty

private theorem mem_foldl_insert {e : Endpoint} (es : List Endpoint) (r : ReplicaSet) :
    e ∈ (es.foldl insert r).endpoints ↔ e ∈ r.endpoints ∨ e ∈ es := by
  induction es generalizing r with
  | nil => simp
  | cons f es ih =>
    rw [List.foldl_cons, ih, List.mem_cons]
    have : e ∈ (r.insert f).endpoints ↔ e ∈ r.endpoints ∨ e = f := by
      simp only [insert]
      split
      · rename_i h
        exact ⟨.inl, fun he => he.elim id (· ▸ h)⟩
      · simp
    rw [this, or_assoc]

/-- The set of a list holds the elements of the list. -/
theorem mem_ofList {e : Endpoint} {es : List Endpoint} :
    e ∈ (ofList es).endpoints ↔ e ∈ es :=
  (mem_foldl_insert es default).trans (by simp [default])

end ReplicaSet

/-- Which replicas are responsible for a key. -/
structure Placement where
  /-- All replicas of the session. -/
  everywhere : ReplicaSet
  /-- Sets assigned to single keys. -/
  assigned : Table String ReplicaSet
  deriving DecidableEq, Repr, Inhabited

namespace Placement

/-- Every key on the same replicas. -/
def uniform (r : ReplicaSet) : Placement := ⟨r, Table.empty⟩

/-- The replicas responsible for a key. -/
def replicasFor (p : Placement) (key : String) : ReplicaSet :=
  (p.assigned.get? key).getD p.everywhere

end Placement

end QuorumStore
