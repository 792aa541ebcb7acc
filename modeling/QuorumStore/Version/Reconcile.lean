import QuorumStore.Version
import QuorumStore.Policy

/-!
# Reconciliation

From the versions that the replicas hold to the one that a read returns.

`reconcile` keeps what no other version has superseded. It goes through the
versions in the order in which they came and keeps a list of candidates, none
of which has seen another. A version that a candidate has seen is dropped; one
that agrees with a candidate may take its place, if it is listed later; any
other drives out the candidates that it has seen. What is left is sorted, so
that the order of arrival leaves no trace.

`resolve` turns the survivors into an answer. One survivor is the answer.
Several are a conflict, which the policy either reports or settles.

## Main definitions

* `Version.absorb?`: A candidate covers the new version.
* `Version.enlist`: The candidates after one more version.
* `Version.reconcile`: The versions that none of the others supersedes.
* `Resolution`: What the survivors come to.
* `Version.resolve`: The resolution under a policy.
-/

namespace QuorumStore

namespace Version

/-- The candidates after a version that one of them covers; none if it is
    covered by none. The first candidate that is newer leaves the list as it
    is; the first that agrees yields its place if it is listed earlier. -/
def absorb? (v : Version) : List Version → Option (List Version)
  | [] => none
  | c :: cs =>
    match v.vector.compare c.vector with
    | .older => some (c :: cs)
    | .equal => some ((if siblingOrder v c = .gt then v else c) :: cs)
    | .newer | .concurrent => (absorb? v cs).map (c :: ·)

/-- The candidates after one more version. -/
def enlist (candidates : List Version) (v : Version) : List Version :=
  match absorb? v candidates with
  | some cs => cs
  | none => candidates.filter (fun c => v.vector.compare c.vector != .newer) ++ [v]

/-- The versions that no other supersedes, one for each vector, in the order
    of siblings. -/
def reconcile (vs : List Version) : List Version :=
  (vs.foldl enlist []).mergeSort siblingLE

end Version

/-- What the versions that survive come to. -/
inductive Resolution where
  /-- There was none. -/
  | missing
  /-- This one is the answer. -/
  | winner (v : Version)
  /-- They are left for the caller to choose from. -/
  | conflict (siblings : List Version)
  deriving DecidableEq, Repr

namespace Version

/-- The resolution of the survivors under a policy. -/
def resolve (policy : Policy) : List Version → Resolution
  | [] => .missing
  | [v] => .winner v
  | vs =>
    match policy with
    | .surface => .conflict vs
    | .highestNode =>
      match highestNode? vs with
      | some v => .winner v
      | none => .missing

end Version

end QuorumStore
