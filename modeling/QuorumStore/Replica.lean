import QuorumStore.Message

/-!
# Replicas

What a replica keeps, and how it answers.

A replica keeps one version for each key. It takes a new version unless it
already has one that is as new: an older version or an equal one leaves it as
it is, while a newer or a concurrent one takes the place of what was there. So
a single put never takes a replica back, and a replica never holds siblings;
those appear only across replicas.

## Main definitions

* `Store`: The versions by key.
* `Store.accepts`: The store takes a version.
* `Store.put`: The store after a version is offered.
* `Store.liveKeys`: How many keys are not deleted.
* `Store.handle`: The response to a request, and the store behind it.

## Theorems

* `Store.get?_put_self`, `Store.get?_put_other`: A put touches one key.
-/

namespace QuorumStore

/-- What a replica keeps: one version for each key. -/
structure Store where
  versions : Table String Version
  deriving DecidableEq, Repr, Inhabited

namespace Store

/-- A store that holds nothing. -/
def empty : Store := ⟨Table.empty⟩

/-- The version of a key. -/
def get? (s : Store) (key : String) : Option Version := s.versions.get? key

/-- The store takes a version of a key: it has none that is as new. -/
def accepts (s : Store) (key : String) (v : Version) : Bool :=
  match s.get? key with
  | none => true
  | some current =>
    match v.vector.compare current.vector with
    | .older | .equal => false
    | .newer | .concurrent => true

/-- The store after a version of a key is offered. -/
def put (s : Store) (key : String) (v : Version) : Store :=
  match s.accepts key v with
  | true => ⟨s.versions.insert key v⟩
  | false => s

/-- How many keys have a version that is no tombstone. -/
def liveKeys (s : Store) : Nat := (s.versions.values.filter fun v => !v.tombstone).length

/-- The response to a request, and the store behind it. -/
def handle (s : Store) : Request → Response × Store
  | .ping => (.pong, s)
  | .get key => (.value (s.get? key), s)
  | .put key v _ => (.ack, s.put key v)
  | .stat => (.stat .alive s.liveKeys, s)

/-- What a put leaves under its key. -/
theorem get?_put_self (s : Store) (key : String) (v : Version) :
    (s.put key v).get? key = if s.accepts key v then some v else s.get? key := by
  simp only [put]
  split
  · rename_i h
    rw [if_pos h]
    exact (Table.get?_insert _ _ _ _).trans (if_pos rfl)
  · rename_i h
    rw [if_neg (Bool.eq_false_iff.mp h)]

/-- A put leaves other keys as they are. -/
theorem get?_put_other (s : Store) {key other : String} (v : Version) (h : other ≠ key) :
    (s.put key v).get? other = s.get? other := by
  simp only [put]
  split
  · exact (Table.get?_insert _ _ _ _).trans (if_neg h)
  · rfl

end Store

end QuorumStore
