import QuorumStore.Proofs.System.Run
import QuorumStore.Proofs.Version.HighestNode

/-!
# Deleted Keys

What a read comes to when nothing that it gathers is alive.

Whether a key is there is the last thing that a read asks. First the versions
are reconciled and the survivors resolved, and both look at histories only: a
tombstone takes part in them as any other version does. Where one version is
left it is a tombstone, and hides the key.

More than one may be left. Two sessions that delete a key on replicas of their
own have not seen each other, so the two tombstones are in conflict, though
they say the same. A session that surfaces conflicts is shown them. This
happens exactly where no tombstone covers the others, for the versions of which
one covers all are those that leave a single survivor
(`Version.length_reconcile_le_one_iff`).

## Theorems

* `Version.length_reconcile_le_one_iff`: Which versions are not in conflict.
* `Session.concludeGet_deleted`: What tombstones come to.
* `Session.get_of_deleted`: A read of a deleted key finds nothing, or a conflict
  of tombstones.
* `Session.get_of_deleted_apart`: Two sessions delete a key without each other.
-/

namespace QuorumStore

namespace Version

/-- Versions are in no conflict exactly when one of them covers all. -/
theorem length_reconcile_le_one_iff {vs : List Version} : (reconcile vs).length ≤ 1 ↔
    vs = [] ∨ ∃ v ∈ vs, ∀ u ∈ vs, u.vector ≤ v.vector := by
  have h := frontier_reconcile vs
  constructor
  · intro hlen
    rcases hsurvivors : reconcile vs with _ | ⟨s, _ | ⟨t, rest⟩⟩
    · exact .inl (by_contra fun hne => reconcile_ne_nil hne hsurvivors)
    · -- The one that survives covers everything.
      rw [hsurvivors] at h
      refine .inr ⟨s, h.sound s List.mem_cons_self, fun u hu => ?_⟩
      rcases h.covers u hu with ⟨c, hc, huc⟩
      rwa [List.mem_singleton.mp hc] at huc
    · rw [hsurvivors, List.length_cons, List.length_cons] at hlen
      omega
  · rintro (rfl | ⟨v, hv, hall⟩)
    · rw [reconcile_nil]
      exact Nat.zero_le 1
    · rcases h.covers v hv with ⟨s, hs, hvs⟩
      have hsingle := eq_singleton_of_apart h.apart hs fun d hd =>
        h.eq_of_le hd hs (le_trans (hall d (h.sound d hd)) hvs)
      rw [hsingle, List.length_singleton]

end Version

namespace Session

/-- Tombstones hide the key, unless several are to be shown. -/
theorem concludeGet_deleted (policy : Policy) (key : String) (n : Nat) {survivors : List Version}
    (hdeleted : ∀ v ∈ survivors, v.tombstone = true) :
    concludeGet policy key n survivors =
      if policy = .highestNode ∨ survivors.length ≤ 1 then .error (.notFound key)
      else .error (.conflict key survivors) := by
  cases policy with
  | highestNode =>
    rw [if_pos (.inl rfl)]
    by_cases hne : survivors = []
    · rw [hne]
      rfl
    · -- Whichever of them wins is a tombstone.
      rcases Version.resolve_eq_winner hne with ⟨w, hw, hhighest⟩
      simp only [concludeGet, hw, hdeleted w hhighest.1, if_true]
  | surface =>
    rcases survivors with _ | ⟨v, _ | ⟨w, vs⟩⟩
    · rfl
    · simp [concludeGet, Version.resolve, hdeleted v List.mem_cons_self]
    · simp [concludeGet, Version.resolve]

variable {s : Session} {c : Cluster} {plan : Endpoint → Plan} {key : String}

/-- A read that gathers its replies, with no version that is alive among them,
    finds nothing, unless its session surfaces conflicts and none of the
    tombstones covers the others. Then it is a conflict of tombstones that have
    not seen each other, two at least, and just those that survive. -/
theorem get_of_deleted {replies : List (Endpoint × Option Version)}
    (h : s.gathered? c plan key = some replies)
    (hdeleted : ∀ v ∈ versions replies, v.tombstone = true) :
    ((s.get c plan key).result = .error (.notFound key) ↔
      s.settings.policy = .highestNode ∨ versions replies = [] ∨
        ∃ v ∈ versions replies, ∀ u ∈ versions replies,
          u.vector.compare v.vector = .older ∨ u.vector.compare v.vector = .equal) ∧
    ((s.get c plan key).result ≠ .error (.notFound key) →
      ∃ siblings, (s.get c plan key).result = .error (.conflict key siblings) ∧
        siblings = Version.reconcile (versions replies) ∧ 2 ≤ siblings.length ∧
        (∀ v ∈ siblings, v ∈ versions replies ∧ v.tombstone = true) ∧
        siblings.Pairwise fun a b => a.vector.compare b.vector = .concurrent) := by
  have hfrontier := Version.frontier_reconcile (versions replies)
  have hgone : ∀ v ∈ Version.reconcile (versions replies), v.tombstone = true :=
    fun v hv => hdeleted v (hfrontier.sound v hv)
  simp only [VersionVector.compare_older_or_equal_iff]
  rw [(get_of_gathered h).1, concludeGet_deleted _ key _ hgone,
    ← Version.length_reconcile_le_one_iff]
  by_cases hone : s.settings.policy = .highestNode ∨
      (Version.reconcile (versions replies)).length ≤ 1
  · rw [if_pos hone]
    exact ⟨⟨fun _ => hone, fun _ => rfl⟩, fun hne => absurd rfl hne⟩
  · rw [if_neg hone]
    refine ⟨⟨fun heq => ?_, fun h => absurd h hone⟩, fun _ => ⟨_, rfl, rfl, by omega, ?_, ?_⟩⟩
    · cases heq
    · exact fun v hv => ⟨hfrontier.sound v hv, hgone v hv⟩
    · exact hfrontier.apart.imp Version.compare_eq_concurrent_iff_apart.mpr

/-- A session that has seen a deletion deletes the key again. Its tombstone
    reaches one of two replicas, and covers the one that the other holds. -/
theorem get_of_deleted_twice :
    let all : ReplicaSet := ⟨[⟨"a", 1⟩, ⟨"a", 2⟩], by decide⟩
    let s : Session := { Session.start (.standard "cid") (.uniform all) with connected := true }
    let first := VersionVector.empty.update "ann" ⟨0, 0⟩
    let plan : Endpoint → Plan := fun e => ⟨some 0, .answered (.value (some (.deleted
      (if e.port = 1 then first else first.update "ben" ⟨0, 0⟩))))⟩
    s.settings.policy = .surface ∧
    (s.get (Cluster.fresh all.endpoints) plan "k").result = .error (.notFound "k") := by
  intro all s first plan
  have hgathered : s.gathered? (Cluster.fresh all.endpoints) plan "k" =
      some [(⟨"a", 1⟩, some (.deleted first)),
        (⟨"a", 2⟩, some (.deleted (first.update "ben" ⟨0, 0⟩)))] := by cbv
  have hdeleted : ∀ v ∈ versions [((⟨"a", 1⟩ : Endpoint), some (Version.deleted first)),
      (⟨"a", 2⟩, some (.deleted (first.update "ben" ⟨0, 0⟩)))], v.tombstone = true := by
    decide +kernel
  refine ⟨rfl, (get_of_deleted hgathered hdeleted).1.mpr (.inr (.inr ?_))⟩
  refine ⟨.deleted (first.update "ben" ⟨0, 0⟩), by decide +kernel, by decide +kernel⟩

/-- Two sessions delete a key, each on a replica of its own. A third one reads
    it from both replicas, and surfaces conflicts. -/
theorem get_of_deleted_apart :
    let east : ReplicaSet := ⟨[⟨"a", 1⟩], by decide⟩
    let west : ReplicaSet := ⟨[⟨"a", 2⟩], by decide⟩
    let all : ReplicaSet := ⟨[⟨"a", 1⟩, ⟨"a", 2⟩], by decide⟩
    let clients := [(Settings.standard "ann", Placement.uniform east),
      (Settings.standard "ben", Placement.uniform west),
      (Settings.standard "cid", Placement.uniform all)]
    let H := (System.start all.endpoints clients).chronicle
      (promptly [(0, .connect), (0, .delete "k"), (1, .connect), (1, .delete "k"),
        (2, .connect), (2, .get "k")])
    let ann := Version.deleted (VersionVector.empty.update "ann" ⟨0, 0⟩)
    let ben := Version.deleted (VersionVector.empty.update "ben" ⟨0, 0⟩)
    H[5]?.bind (fun m => m.read? "k") = some [(⟨"a", 1⟩, some ann), (⟨"a", 2⟩, some ben)] ∧
    H[5]?.bind Moment.result? = some (.error (.conflict "k" [ann, ben])) :=
  ⟨by cbv, by cbv⟩

end Session

end QuorumStore
