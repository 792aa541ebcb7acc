import QuorumStore.VersionVector

/-!
# Versions

What a write leaves behind: a value, or the mark that there is none any more,
under the vector it was written with.

A deletion is a version like any other. It carries a vector, it supersedes
what it has seen, and it can be concurrent with a write it has not seen; all
that sets it apart is the tombstone.

Two orders over versions serve to make answers independent of the order in
which replicas reply. `siblingOrder` lists versions for the reader: by the
text of the vector, then live before deleted, then by value. `highestNodeOrder`
picks a winner: it compares the counts from the highest node down.

## Main definitions

* `Version`: A value or a tombstone, under its vector.
* `Version.siblingOrder`: The order in which siblings are listed.
* `Version.highestNodeOrder`: The order whose greatest element wins.
* `Version.agrees`: The same value, tombstone and counts.

## Theorems

* `Version.siblingOrder_eq_lt_iff`, `Version.siblingOrder_eq_iff`: What is listed
  first, and what the listing does not tell apart.
-/

namespace QuorumStore

/-- A value or a tombstone, under the vector it was written with. -/
structure Version where
  value : String
  vector : VersionVector
  /-- The key has been deleted. -/
  tombstone : Bool
  deriving DecidableEq, Repr, Inhabited

namespace Version

/-- A written value. -/
def live (value : String) (vector : VersionVector) : Version := ⟨value, vector, false⟩

/-- A deletion. -/
def deleted (vector : VersionVector) : Version := ⟨"", vector, true⟩

/-- The same value and tombstone, under vectors that no count tells apart. -/
def agrees (a b : Version) : Bool :=
  a.value == b.value && a.vector.agrees b.vector && a.tombstone == b.tombstone

/-- The order in which siblings are listed: by the text of the vector, live
    versions before deletions, then by value. -/
def siblingOrder (a b : Version) : Ordering :=
  ((compare a.vector.text b.vector.text).then (compare a.tombstone b.tombstone)).then
    (compare a.value b.value)

/-- Versions with the same text, mark and value are in one place. The vectors
    behind the text may differ. -/
theorem siblingOrder_eq_iff {a b : Version} :
    siblingOrder a b = .eq ↔
      a.vector.text = b.vector.text ∧ a.tombstone = b.tombstone ∧ a.value = b.value := by
  rw [siblingOrder, Ordering.then_eq_eq, Ordering.then_eq_eq, Std.LawfulEqCmp.compare_eq_iff_eq,
    Std.LawfulEqCmp.compare_eq_iff_eq, Std.LawfulEqCmp.compare_eq_iff_eq, and_assoc]

/-- The version of the lesser text comes first, under one text what is live
    before what is deleted, and then the lesser value. -/
theorem siblingOrder_eq_lt_iff {a b : Version} :
    siblingOrder a b = .lt ↔ a.vector.text < b.vector.text ∨ a.vector.text = b.vector.text ∧
      (a.tombstone = false ∧ b.tombstone = true ∨
        a.tombstone = b.tombstone ∧ a.value < b.value) := by
  have htext : ∀ s t : String, compare s t = .lt ↔ s < t := fun s t => compareOfLessAndEq_eq_lt
  have hmark : compare a.tombstone b.tombstone = .lt ↔
      a.tombstone = false ∧ b.tombstone = true := by
    cases a.tombstone <;> cases b.tombstone <;> decide
  rw [siblingOrder, Ordering.then_eq_lt, Ordering.then_eq_lt, Ordering.then_eq_eq, htext, hmark,
    htext, Std.LawfulEqCmp.compare_eq_iff_eq, Std.LawfulEqCmp.compare_eq_iff_eq, or_assoc,
    and_assoc, ← and_or_left]

/-- A version is listed no later than another. -/
def siblingLE (a b : Version) : Bool := siblingOrder a b != .gt

/-- Lists of counts compared from the front: by name, then by count; a list
    comes after those it continues. -/
def compareCounts : List (String × Nat) → List (String × Nat) → Ordering
  | [], [] => .eq
  | [], _ :: _ => .lt
  | _ :: _, [] => .gt
  | a :: as, b :: bs =>
    ((compare a.1 b.1).then (compare a.2 b.2)).then (compareCounts as bs)

/-- The order of the highest node: the counts are compared from the last key
    down, and versions that agree on them all are ordered as siblings. -/
def highestNodeOrder (a b : Version) : Ordering :=
  (compareCounts a.vector.counts.reverse b.vector.counts.reverse).then (siblingOrder a b)

/-- The greatest of a list of versions in the order of the highest node. -/
def highestNode? : List Version → Option Version
  | [] => none
  | v :: vs => some (vs.foldl (fun best w =>
      if highestNodeOrder best w = .gt then best else w) v)

/-- The line a sibling is listed on. -/
def siblingLine (v : Version) : String :=
  "  " ++ (if v.tombstone then "<deleted>" else v.value) ++ " [" ++ v.vector.text ++ "]"

/-- The listing of siblings, a line each. -/
def siblingLines (vs : List Version) : String := "\n".intercalate (vs.map siblingLine)

end Version

end QuorumStore
