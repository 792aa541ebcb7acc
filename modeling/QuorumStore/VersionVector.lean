import QuorumStore.Table
import QuorumStore.Text.Numeral

/-!
# Version Vectors

How much of every node's writing a version has seen.

A vector has a table of entries. Each entry names a node, counts its writes
and remembers when the count last changed. The entry's key is what lookups,
comparison and merging go by. The vectors a session builds file every entry
under the node it names and count from one; a vector that arrives in a message
is taken as it comes, with counts of zero and with entries filed under another
name. `Canonical` says which vectors are of the first kind.

What a vector means is `counter`: the count at a key, and zero at every key
that has no entry. `compare` looks only at that view. It asks of each side
whether it is ahead somewhere, which needs its own entries only, since a side
is never ahead where it counts zero.

## Main definitions

* `VersionVector.counter`: The count at a node; zero when it has no entry.
* `VersionVector.aheadOf`: Some node counts more here than there.
* `VersionVector.compare`: The causal relation of two vectors.
* `VersionVector.update`: One more write by a node.
* `VersionVector.merge`: Every node at the larger of its two counts.
* `VersionVector.ofCounters`: The vector of a list of counts.
* `VersionVector.text`: The listing `node:count`.
* `VersionVector.Canonical`: Entries are filed under their node and count from one.

## Theorems

* `VersionVector.counter_update`: An update moves one count by one.
* `VersionVector.counter_merge`: A merge takes the larger count everywhere.
* `VersionVector.aheadOf_iff`: Being ahead, said of the counts alone.
-/

namespace QuorumStore

/-- A moment, counted from the start of 1970. -/
structure Instant where
  seconds : Nat
  nanos : Nat
  deriving DecidableEq, Repr, Inhabited

/-- What a vector knows of one node. -/
structure VersionVector.Entry where
  /-- The node's name. -/
  node : String
  /-- How many of its writes have been seen. -/
  counter : Nat
  /-- When the count last changed. No order looks at it. -/
  updatedAt : Instant
  deriving DecidableEq, Repr, Inhabited

/-- A version vector: entries by key. -/
structure VersionVector where
  entries : Table String VersionVector.Entry
  deriving DecidableEq, Repr, Inhabited

/-- How one vector stands to another. -/
inductive Causality where
  | equal
  | newer
  | older
  | concurrent
  deriving DecidableEq, Repr, Inhabited

namespace Causality

/-- The same relation seen from the other side. -/
def converse : Causality → Causality
  | newer => older
  | older => newer
  | c => c

/-- The name of a relation in a listing. -/
def listing : Causality → String
  | equal => "Equal"
  | newer => "Newer"
  | older => "Older"
  | concurrent => "Concurrent"

/-- The relation of two sides of which each may be ahead of the other. -/
def ofAhead (ahead behind : Bool) : Causality :=
  match ahead, behind with
  | false, false => equal
  | true, false => newer
  | false, true => older
  | true, true => concurrent

/-- Exchanging the sides gives the converse relation. -/
theorem ofAhead_swap (a b : Bool) : ofAhead b a = (ofAhead a b).converse := by
  cases a <;> cases b <;> rfl

end Causality

namespace VersionVector

/-- The vector that has seen nothing. -/
def empty : VersionVector := ⟨Table.empty⟩

/-- The count at a node; a node without an entry counts zero. -/
def counter (v : VersionVector) (node : String) : Nat :=
  match v.entries.get? node with
  | some e => e.counter
  | none => 0

/-- Some entry counts more than the other vector does at its key. -/
def aheadOf (a b : VersionVector) : Bool :=
  a.entries.toList.any fun e => decide (b.counter e.1 < e.2.counter)

/-- How the first vector stands to the second. -/
def compare (a b : VersionVector) : Causality :=
  Causality.ofAhead (a.aheadOf b) (b.aheadOf a)

/-- Two vectors are equal as versions when no count tells them apart. -/
def agrees (a b : VersionVector) : Bool := a.compare b == .equal

/-- One more write by a node, at a given moment. Counts are numbers without a
    bound here. On the wire they have 64 bits, and what an update makes of the
    largest such count, which has no successor there, is not modelled. -/
def update (v : VersionVector) (node : String) (now : Instant) : VersionVector :=
  ⟨v.entries.insert node (match v.entries.get? node with
    | some e => { e with counter := e.counter + 1, updatedAt := now }
    | none => ⟨node, 1, now⟩)⟩

/-- What a merge makes of two entries under one key: the larger count, with
    its moment, under the name that was there. -/
def Entry.join (ours theirs : Entry) : Entry :=
  if ours.counter < theirs.counter then
    { ours with counter := theirs.counter, updatedAt := theirs.updatedAt }
  else ours

/-- Every node at the larger of its two counts. -/
def merge (a b : VersionVector) : VersionVector := ⟨a.entries.mergeWith Entry.join b.entries⟩

/-- The vector of a list of counts, all dated alike. Counts of zero are left
    out; of two counts for one node the later is kept. -/
def ofCounters (now : Instant) (counts : List (String × Nat)) : VersionVector :=
  ⟨Table.ofList ((counts.filter fun p => 0 < p.2).map fun p => (p.1, ⟨p.1, p.2, now⟩))⟩

/-- The names and counts of the entries, in the order of their keys. -/
def counts (v : VersionVector) : List (String × Nat) :=
  v.entries.values.map fun e => (e.node, e.counter)

/-- How many entries there are. -/
def size (v : VersionVector) : Nat := v.entries.size

/-- The listing `node:count` of an entry. -/
def countText (p : String × Nat) : String :=
  p.1 ++ String.ofList (':' :: Numeral.digits p.2)

/-- The listing of the entries, with a space between each two. -/
def text (v : VersionVector) : String := " ".intercalate (v.counts.map countText)

/-- Every entry is filed under the node it names and counts from one. -/
def Canonical (v : VersionVector) : Prop :=
  ∀ p ∈ v.entries.toList, p.1 = p.2.node ∧ 0 < p.2.counter

/-- A vector counts what its entry says. -/
theorem counter_eq {v : VersionVector} {node : String} {e : Entry}
    (h : v.entries.get? node = some e) : v.counter node = e.counter := by
  rw [counter, h]

/-- Nothing has been seen of any node. -/
@[simp]
theorem counter_empty (node : String) : empty.counter node = 0 := rfl

/-- A vector is ahead of another where it counts more. -/
theorem aheadOf_iff {a b : VersionVector} :
    a.aheadOf b = true ↔ ∃ node, b.counter node < a.counter node := by
  simp only [aheadOf, List.any_eq_true, decide_eq_true_eq]
  constructor
  · rintro ⟨⟨k, e⟩, hmem, h⟩
    exact ⟨k, by rw [counter_eq (Table.get?_eq_some_iff.mpr hmem)]; exact h⟩
  · rintro ⟨node, h⟩
    -- A count above another is not zero, so it comes from an entry.
    rcases he : a.entries.get? node with _ | e
    · rw [counter.eq_def a, he] at h
      exact absurd h (Nat.not_lt_zero _)
    · rw [counter_eq he] at h
      exact ⟨(node, e), Table.get?_eq_some_iff.mp he, h⟩

/-- An update raises the count of its node by one and no other. -/
theorem counter_update (v : VersionVector) (node : String) (now : Instant) (n : String) :
    (v.update node now).counter n = v.counter n + (if n = node then 1 else 0) := by
  simp only [counter, update, Table.get?_insert]
  by_cases h : n = node
  · subst h
    rcases v.entries.get? n with _ | e <;> simp
  · simp [h]

/-- A merge counts the larger of the two counts everywhere. -/
theorem counter_merge (a b : VersionVector) (node : String) :
    (a.merge b).counter node = max (a.counter node) (b.counter node) := by
  simp only [counter, merge, Table.get?_mergeWith]
  rcases a.entries.get? node with _ | ours
  · rcases b.entries.get? node with _ | theirs
    · rfl
    · exact (Nat.zero_max _).symm
  · rcases b.entries.get? node with _ | theirs
    · exact (Nat.max_zero _).symm
    · simp only [Entry.join]
      split
      · rename_i h
        exact (Nat.max_eq_right (Nat.le_of_lt h)).symm
      · rename_i h
        exact (Nat.max_eq_left (Nat.not_lt.mp h)).symm

end VersionVector

end QuorumStore
