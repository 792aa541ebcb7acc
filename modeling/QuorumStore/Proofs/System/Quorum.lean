import Mathlib.Data.List.Perm.Subperm
import QuorumStore.Proofs.System.Causality

/-!
# Overlapping Quorums

No acknowledged write is lost where reads and writes overlap.

A replica may let go of a version for one that has not seen it, so a version
that was acknowledged can disappear from every replica that had it. What
prevents this is how the sessions go about their writes. If each of them reads
what the others have had acknowledged before it writes, then its version has
seen all of it, and so has everything that a replica takes in its place.

`Kept` is the invariant that says so. Of every acknowledged write it keeps a
quorum of replicas that hold something covering it — not the same replicas
that acknowledged it, perhaps, and not the same version. The sessions that
need to have seen it are its writer and whoever has completed a read since;
the read met the quorum, because the two overlap. That is all that the next
writer has to know, and all that the next reader has to find.

## Main definitions

* `Acked`: A write that succeeds.
* `Completed`: A read that gathers its replies.
* `Quorate`: Overlapping reads and writes, and writers that read first.
* `Kept`: Acknowledged writes are covered where they have to be.

## Theorems

* `quorums_meet`: Large sets of replicas share one.
* `Session.gathered_meets`: A large read has a reply from a large set.
* `Kept.le_history`: A writer has seen what was acknowledged.
* `Kept.gathered`: A read gathers something that covers what was acknowledged.
* `Kept.step`: Every move keeps the invariant.
* `kept_run`: The invariant holds at every place of a run.
* `System.acked_write_kept`: No acknowledged write is lost.
-/

namespace QuorumStore

/-- Two sets of replicas that are too large to lie apart share a replica. -/
theorem quorums_meet {all : ReplicaSet} {Q P : List Endpoint} (hQ : Q.Nodup) (hP : P.Nodup)
    (hQall : ∀ e ∈ Q, e ∈ all.endpoints) (hPall : ∀ e ∈ P, e ∈ all.endpoints)
    (hlarge : all.size < Q.length + P.length) : ∃ e, e ∈ Q ∧ e ∈ P := by
  by_contra hapart
  -- Apart, they would be more replicas together than there are.
  have hnodup : (Q ++ P).Nodup := by
    refine List.nodup_append.mpr ⟨hQ, hP, fun e he f hf hef => ?_⟩
    subst hef
    exact hapart ⟨e, he, hf⟩
  have hsub : (Q ++ P) ⊆ all.endpoints := by
    intro e he
    rcases List.mem_append.mp he with he | he
    · exact hQall e he
    · exact hPall e he
  have hle := (List.subperm_of_subset hnodup hsub).length_le
  rw [List.length_append] at hle
  exact Nat.not_lt_of_le hle hlarge

theorem ReplicaSet.size_congr {a b : ReplicaSet} (h : ∀ e, e ∈ a.endpoints ↔ e ∈ b.endpoints) :
    a.size = b.size :=
  ((List.perm_ext_iff_of_nodup a.nodup b.nodup).mpr h).length_eq

/-- A read that reaches more replicas than a set of them leaves out has a reply
    from one of the set, and it is what that replica holds. -/
theorem Session.gathered_meets {s : Session} {c : Cluster} {plan : Endpoint → Plan} {key : String}
    {all : ReplicaSet} {replies : List (Endpoint × Option Version)}
    (hhonest : ∀ e, (plan e).Honest) (hgathered : s.gathered? c plan key = some replies)
    (hshared : ∀ e, e ∈ (s.placement.replicasFor key).endpoints ↔ e ∈ all.endpoints)
    {Q : List Endpoint} (hQ : Q.Nodup) (hall : ∀ e ∈ Q, e ∈ all.endpoints)
    (hlarge : all.size < s.settings.readLevel.required all.size + Q.length) :
    ∃ e ∈ Q, (e, c.holds? e key) ∈ replies := by
  rcases mem_gathered hhonest hgathered with ⟨hlen, hnodup, hreplies⟩
  rw [ReplicaSet.size_congr hshared] at hlen
  have hmeet : ∃ e, e ∈ replies.map Prod.fst ∧ e ∈ Q := by
    refine quorums_meet hnodup hQ ?_ hall ?_
    · intro e he
      rcases List.mem_map.mp he with ⟨p, hp, rfl⟩
      exact (hshared p.1).mp (hreplies p hp).1
    · rw [List.length_map, hlen]
      exact hlarge
  rcases hmeet with ⟨e, he, heQ⟩
  rcases List.mem_map.mp he with ⟨p, hp, rfl⟩
  refine ⟨p.1, heQ, ?_⟩
  rw [(hreplies p hp).2]
  exact hp

/-- The move at a place of the run is a write of the key by this session that
    succeeds, and it sends out this version. -/
def Acked (H : List Moment) (key : String) (who i : Nat) (v : Version) : Prop :=
  Wrote H key who i v ∧ ∃ m a, H[i]? = some m ∧ m.result? = some (.ok a)

/-- The move at a place of the run is a read of the key by this session that
    gathers its replies. -/
def Completed (H : List Moment) (key : String) (who g : Nat) : Prop :=
  ∃ m, H[g]? = some m ∧ m.move.who = who ∧ (m.read? key).isSome = true

/-- Sessions that use quorums of the same replicas, and look before they write:
    whoever writes has completed a read since the last write of another
    session was acknowledged. -/
structure Quorate (all : ReplicaSet) (clients : List (Settings × Placement)) (H : List Moment)
    (key : String) : Prop where
  surface : ∀ p ∈ clients, p.1.policy = .surface
  shared : ∀ p ∈ clients, ∀ e, e ∈ (p.2.replicasFor key).endpoints ↔ e ∈ all.endpoints
  overlap : ∀ m ∈ H, ∀ m' ∈ H, ∀ s s', m.session? = some s → m'.session? = some s' →
    (m.read? key).isSome = true → (m'.stamp? key).isSome = true →
    all.size < s.settings.readLevel.required all.size + s'.settings.writeLevel.required all.size
  informed : ∀ a i v b j w, Acked H key a i v → Wrote H key b j w → b ≠ a → i < j →
    ∃ g, i < g ∧ g < j ∧ Completed H key b g

/-- The session that makes the move has just these replicas for a key. -/
def Moment.On (m : Moment) (all : ReplicaSet) (key : String) : Prop :=
  ∀ s, m.session? = some s →
    ∀ e, e ∈ (s.placement.replicasFor key).endpoints ↔ e ∈ all.endpoints

variable {all : ReplicaSet} {clients : List (Settings × Placement)} {H : List Moment}
  {key : String} {k : Nat}

/-- A set of replicas, too large for a read of the run to miss, of which each
    holds something that covers a version. -/
def CoveredBy (all : ReplicaSet) (H : List Moment) (key : String) (c : Cluster) (v : Version)
    (Q : List Endpoint) : Prop :=
  Q.Nodup ∧
  (∀ e ∈ Q, e ∈ all.endpoints ∧ ∃ u, c.holds? e key = some u ∧ v.vector ≤ u.vector) ∧
  ∀ m ∈ H, ∀ s, m.session? = some s → (m.read? key).isSome = true →
    all.size < s.settings.readLevel.required all.size + Q.length

/-- Every write that was acknowledged before a place of the run is covered by a
    quorum, by its writer's history, and by that of every session that has
    completed a read since. -/
structure Kept (all : ReplicaSet) (H : List Moment) (key : String) (k : Nat) (sys : System) :
    Prop where
  quorum : ∀ {a i : Nat} {v : Version}, i < k → Acked H key a i v →
    ∃ Q, CoveredBy all H key sys.cluster v Q
  writer : ∀ {a i : Nat} {v : Version}, i < k → Acked H key a i v →
    v.vector ≤ sys.history a key
  reader : ∀ {a i b g : Nat} {v : Version}, i < g → g < k → Acked H key a i v →
    Completed H key b g → v.vector ≤ sys.history b key

section Step

variable {m : Moment}

/-- Who writes has seen all that was acknowledged before. -/
theorem Kept.le_history (h : Kept all H key k m.system) (hquorate : Quorate all clients H key)
    {b : Nat} {w : Version} (hw : Wrote H key b k w) {a i : Nat} {v : Version} (hik : i < k)
    (hacked : Acked H key a i v) : v.vector ≤ m.system.history b key := by
  -- Its own writes are in its history; those of others it has looked for.
  by_cases hab : b = a
  · rw [hab]
    exact h.writer hik hacked
  · rcases hquorate.informed a i v b k w hacked hw hab hik with ⟨g, hig, hgk, hread⟩
    exact h.reader hig hgk hacked hread

/-- A read gathers something that covers what was acknowledged before. -/
theorem Kept.gathered (h : Kept all H key k m.system) (hmem : m ∈ H)
    (hhonest : ∀ e, (m.move.plan e).Honest) (hshared : m.On all key)
    {replies : List (Endpoint × Option Version)} (hread : m.read? key = some replies)
    {a i : Nat} {v : Version} (hik : i < k) (hacked : Acked H key a i v) :
    ∃ u ∈ versions replies, v.vector ≤ u.vector := by
  rcases Option.bind_eq_some_iff.mp hread with ⟨s, hs, hgathers⟩
  rcases h.quorum hik hacked with ⟨Q, hQ, hcovers, hlarge⟩
  have hsize := hlarge m hmem s hs (by rw [hread]; rfl)
  rcases Session.gathered_meets hhonest (Session.read?_eq_some_iff.mp hgathers).2
    (hshared s hs) hQ (fun e he => (hcovers e he).1) hsize with ⟨e, he, hreply⟩
  rcases (hcovers e he).2 with ⟨u, hu, hvu⟩
  rw [hu] at hreply
  exact ⟨u, mem_versions.mpr ⟨e, hreply⟩, hvu⟩

/-- What covers a version goes on doing so while replicas go up. -/
theorem CoveredBy.mono {c c' : Cluster} {v : Version} {Q : List Endpoint}
    (h : CoveredBy all H key c v Q)
    (hup : ∀ e u, c.holds? e key = some u → v.vector ≤ u.vector →
      ∃ u', c'.holds? e key = some u' ∧ v.vector ≤ u'.vector) :
    CoveredBy all H key c' v Q := by
  refine ⟨h.1, fun e he => ?_, h.2.2⟩
  rcases h.2.1 e he with ⟨hall, u, hu, hvu⟩
  exact ⟨hall, hup e u hu hvu⟩

/-- A write that is acknowledged is covered by those who acknowledged it. -/
theorem coveredBy_acked (hquorate : Quorate all clients H key) (hmem : m ∈ H)
    (hhonest : ∀ e, (m.move.plan e).Honest) (hshared : m.On all key)
    {v : Version} (hstamp : m.stamp? key = some v) {a : Answer}
    (hok : m.result? = some (.ok a)) : ∃ Q, CoveredBy all H key m.next.cluster v Q := by
  rcases Option.bind_eq_some_iff.mp hstamp with ⟨s, hs, hsent⟩
  rw [Moment.result?_eq hs, Option.some.injEq] at hok
  rcases (Session.perform_acked hhonest hsent hok).2 with ⟨Q, hQ, hlen, hacked⟩
  rw [ReplicaSet.size_congr (hshared s hs)] at hlen
  refine ⟨Q, hQ, fun e he => ?_, fun n hn t ht hread => ?_⟩
  · rcases hacked e he with ⟨hall, st, -, hholds⟩
    rcases st.covers_put key v with ⟨u, hu, hvu, -⟩
    refine ⟨(hshared s hs e).mp hall, u, ?_, hvu⟩
    rw [Moment.cluster_next hs, hholds, hu]
  · rw [hlen]
    exact hquorate.overlap n hn m hmem t s ht hs hread (by rw [hstamp]; rfl)

/-- A write that is sent out keeps the invariant. -/
theorem Kept.step_stamp (h : Kept all H key k m.system) (hquorate : Quorate all clients H key)
    (hm : H[k]? = some m) (hhonest : ∀ e, (m.move.plan e).Honest) (hshared : m.On all key)
    {w : Version} (hstamp : m.stamp? key = some w) : Kept all H key (k + 1) m.next := by
  have hhere : Wrote H key m.move.who k w := (wrote_at hm).mpr ⟨rfl, hstamp⟩
  rcases Moment.step_stamp hstamp with ⟨⟨name, -, hvector⟩, hhistories, hholds⟩
  have hself : m.next.history m.move.who key = w.vector := by
    rw [hhistories, if_pos rfl]
  -- The new version has seen all that was acknowledged before it.
  have hseen : ∀ {a i v}, i < k → Acked H key a i v → v.vector ≤ w.vector := by
    intro a i v hik hacked
    rw [hvector]
    exact le_trans (h.le_history hquorate hhere hik hacked) (VersionVector.le_update _ _ _)
  constructor
  · intro a i v hi hacked
    by_cases hik : i = k
    · subst hik
      rcases hacked with ⟨hwrote, n, b, hn, hok⟩
      rw [hm, Option.some.injEq] at hn
      subst hn
      rw [(hwrote.unique hhere).2]
      exact coveredBy_acked hquorate (List.mem_of_getElem? hm) hhonest hshared hstamp hok
    · -- What a replica has let go of, it has let go of for the new version.
      rcases h.quorum (by omega) hacked with ⟨Q, hQ⟩
      refine ⟨Q, hQ.mono fun e u hu hvu => ?_⟩
      rcases hholds e with hsame | ⟨u', hu', hwu, -⟩
      · exact ⟨u, hsame.trans hu, hvu⟩
      · exact ⟨u', hu', le_trans (hseen (by omega) hacked) hwu⟩
  · intro a i v hi hacked
    by_cases hik : i = k
    · subst hik
      rcases hacked.1.unique hhere with ⟨rfl, rfl⟩
      rw [hself]
    · exact le_trans (h.writer (by omega) hacked) (m.history_le_next a key)
  · intro a i b g v hig hgk hacked hread
    by_cases hg : g = k
    · -- This move is no read.
      subst hg
      rcases hread with ⟨n, hn, -, hsome⟩
      rw [hm, Option.some.injEq] at hn
      rw [← hn, Moment.read?_of_stamp? hstamp] at hsome
      cases hsome
    · exact le_trans (h.reader hig (by omega) hacked hread) (m.history_le_next b key)

/-- A move that is no write keeps the invariant, if whoever completes a read
    has seen what was acknowledged. -/
theorem Kept.pass (h : Kept all H key k m.system) (hm : H[k]? = some m)
    (hstamp : m.stamp? key = none)
    (hholds : ∀ e, m.next.cluster.holds? e key = m.system.cluster.holds? e key)
    (hreader : (m.read? key).isSome = true → ∀ {a i : Nat} {v : Version}, i < k →
      Acked H key a i v → v.vector ≤ m.next.history m.move.who key) :
    Kept all H key (k + 1) m.next := by
  -- Nothing new is acknowledged here.
  have hearlier : ∀ {a i v}, i < k + 1 → Acked H key a i v → i < k := by
    intro a i v hi hacked
    by_contra hik
    have hk : i = k := by omega
    have hwrote := hacked.1
    rw [hk, wrote_at hm, hstamp] at hwrote
    cases hwrote.2
  constructor
  · intro a i v hi hacked
    rcases h.quorum (hearlier hi hacked) hacked with ⟨Q, hQ⟩
    exact ⟨Q, hQ.mono fun e u hu hvu => ⟨u, (hholds e).trans hu, hvu⟩⟩
  · intro a i v hi hacked
    exact le_trans (h.writer (hearlier hi hacked) hacked) (m.history_le_next a key)
  · intro a i b g v hig hgk hacked hread
    by_cases hg : g = k
    · subst hg
      rcases hread with ⟨n, hn, rfl, hsome⟩
      rw [hm, Option.some.injEq] at hn
      subst hn
      exact hreader hsome hig hacked
    · exact le_trans (h.reader hig (by omega) hacked hread) (m.history_le_next b key)

/-- Every move keeps the invariant. -/
theorem Kept.step (h : Kept all H key k m.system) (hquorate : Quorate all clients H key)
    (hm : H[k]? = some m) (hhonest : ∀ e, (m.move.plan e).Honest) (hshared : m.On all key) :
    Kept all H key (k + 1) m.next := by
  cases hstamp : m.stamp? key with
  | some w => exact h.step_stamp hquorate hm hhonest hshared hstamp
  | none =>
    cases hread : m.read? key with
    | some replies =>
      rcases Moment.step_read hread with ⟨hhistory, -, hholds⟩
      refine h.pass hm hstamp hholds fun _ a i v hik hacked node => ?_
      rcases h.gathered (List.mem_of_getElem? hm) hhonest hshared hread hik hacked
        with ⟨u, hu, hvu⟩
      exact (hhistory node _).mpr (.inr ⟨u, hu, hvu node⟩)
    | none =>
      refine h.pass hm hstamp (Moment.step_other hstamp hread).2 fun hsome => ?_
      rw [hread] at hsome
      cases hsome

end Step

section Runs

variable {endpoints : List Endpoint} {es : List Event}

theorem on_run
    (hquorate : Quorate all clients ((System.start endpoints clients).chronicle es) key)
    {m : Moment} (hm : ((System.start endpoints clients).chronicle es)[k]? = some m) :
    m.On all key := by
  intro s hs e
  rcases System.client_of_session hm hs with ⟨p, hp, -, -, hplacement⟩
  rw [hplacement]
  exact hquorate.shared p hp e

/-- The invariant holds at every move of a run. -/
theorem kept_run (hhonest : ∀ e ∈ es, e.Honest)
    (hquorate : Quorate all clients ((System.start endpoints clients).chronicle es) key) :
    ∀ (k : Nat) (m : Moment), ((System.start endpoints clients).chronicle es)[k]? = some m →
      Kept all ((System.start endpoints clients).chronicle es) key k m.system := by
  refine (System.run_induction (P := fun k sys =>
    Kept all ((System.start endpoints clients).chronicle es) key k sys) ?_ ?_ ?_).2
  · constructor
    · intro a i v hi
      exact absurd hi (Nat.not_lt_zero i)
    · intro a i v hi
      exact absurd hi (Nat.not_lt_zero i)
    · intro a i b g v hig hg
      exact absurd hg (Nat.not_lt_zero g)
  · intro k m hm h
    exact h.step hquorate hm (System.honest_of_chronicle hhonest (List.mem_of_getElem? hm))
      (on_run hquorate hm)
  · intro k sys who read write h
    constructor
    · exact h.quorum
    · intro a i v hi hacked
      rw [System.history_retune]
      exact h.writer hi hacked
    · intro a i b g v hig hg hacked hread
      rw [System.history_retune]
      exact h.reader hig hg hacked hread

/-- What survives in a read after a write was acknowledged: the version that
    was written, or one that has seen it, and nothing that it has replaced. -/
theorem survivors_of_acked (hdistinct : (clients.map fun p => p.1.node).Nodup)
    (hhonest : ∀ e ∈ es, e.Honest)
    (hquorate : Quorate all clients ((System.start endpoints clients).chronicle es) key)
    {a i g : Nat} {v : Version} {m : Moment}
    (hacked : Acked ((System.start endpoints clients).chronicle es) key a i v) (hig : i < g)
    (hm : ((System.start endpoints clients).chronicle es)[g]? = some m)
    (hsome : (m.read? key).isSome = true) :
    (∃ t ∈ m.survivors key, t = v ∨ t.vector.compare v.vector = .newer) ∧
    ∀ t ∈ m.survivors key, t.vector.compare v.vector ≠ .older := by
  rcases Option.isSome_iff_exists.mp hsome with ⟨replies, hread⟩
  have hplans := System.honest_of_chronicle hhonest (List.mem_of_getElem? hm)
  have htracks := (@tracks_run endpoints clients es hdistinct hhonest key).2 g m hm
  rcases (kept_run hhonest hquorate g m hm).gathered (List.mem_of_getElem? hm) hplans
    (on_run hquorate hm) hread hig hacked with ⟨u, hu, hvu⟩
  have hfrontier := Version.frontier_reconcile (versions replies)
  rcases hfrontier.covers u hu with ⟨t, ht, hut⟩
  have hvt : v.vector ≤ t.vector := le_trans hvu hut
  rw [Moment.survivors, hread]
  refine ⟨⟨t, ht, ?_⟩, fun x hx hxv => ?_⟩
  · by_cases htv : t.vector ≤ v.vector
    · -- The two lie below each other, so they are of one write.
      rcases htracks.sent hplans hread (hfrontier.sound t ht) with ⟨b, j, hjg, hwrote⟩
      have hji := htracks.eq_of_le (System.named_run hdistinct).2 hjg hig hwrote hacked.1 htv hvt
      rw [hji] at hwrote
      exact .inl (hwrote.unique hacked.1).2
    · exact .inr (VersionVector.compare_eq_newer_iff.mpr (lt_of_le_not_ge hvt htv))
  · -- What the write has replaced would lie below the survivor that covers it.
    have hlt := VersionVector.compare_eq_older_iff.mp hxv
    have hxt := hfrontier.eq_of_le hx ht (le_trans (le_of_lt hlt) hvt)
    rw [hxt] at hlt
    exact not_le_of_gt hlt hvt

end Runs

namespace System

/-- No acknowledged write is lost. Where sessions use overlapping quorums of
    the same replicas and look before they write, every read of a key that
    completes after a write of it was acknowledged decides by that version or
    by one that has seen it: the value that it finds, the tombstone for which
    it finds nothing, one of the siblings in a conflict. It never finds nothing
    for want of a version, and no sibling is one that the write has replaced. -/
theorem acked_write_kept (endpoints : List Endpoint) (clients : List (Settings × Placement))
    (hdistinct : (clients.map fun p => p.1.node).Nodup) (es : List Event)
    (hhonest : ∀ e ∈ es, e.Honest) (all : ReplicaSet) (key : String)
    (hquorate : Quorate all clients ((start endpoints clients).chronicle es) key) :
    let H := (start endpoints clients).chronicle es
    ∀ a i v, Acked H key a i v → ∀ g m, i < g → H[g]? = some m → m.move.operation = .get key →
      (∀ f, m.result? = some (.ok (.found f)) →
        ∃ t, m.survivors key = [t] ∧ t.tombstone = false ∧ f.value = t.value ∧
          f.vector = t.vector ∧ (t = v ∨ t.vector.compare v.vector = .newer)) ∧
      (∀ k, m.result? = some (.error (.notFound k)) →
        ∃ t, m.survivors key = [t] ∧ t.tombstone = true ∧
          (t = v ∨ t.vector.compare v.vector = .newer)) ∧
      ∀ k siblings, m.result? = some (.error (.conflict k siblings)) →
        siblings = m.survivors key ∧
        (∃ t ∈ siblings, t = v ∨ t.vector.compare v.vector = .newer) ∧
        ∀ t ∈ siblings, t.vector.compare v.vector ≠ .older := by
  intro H a i v hacked g m hig hm hop
  -- What the read comes to is decided by the survivors.
  have hdecide : (m.read? key).isSome = true → ∃ n,
      m.result? = some ((Session.concludeGet .surface key n (m.survivors key)).map .found) := by
    intro hsome
    rcases Option.isSome_iff_exists.mp hsome with ⟨replies, hread⟩
    rcases Moment.result?_of_read? hread with ⟨s, hs, -⟩
    rcases client_of_session hm hs with ⟨p, hp, -, hpolicy, -⟩
    exact Moment.result?_of_surface hs (hpolicy.trans (hquorate.surface p hp)) hsome
  have hsingle : ∀ t, (m.read? key).isSome = true → m.survivors key = [t] →
      t = v ∨ t.vector.compare v.vector = .newer := by
    intro t hsome ht
    rcases (survivors_of_acked hdistinct hhonest hquorate hacked hig hm hsome).1 with ⟨u, hu, huv⟩
    rw [ht, List.mem_singleton] at hu
    rw [← hu]
    exact huv
  refine ⟨?_, ?_, ?_⟩
  · intro f hf
    have hsome := Moment.read?_isSome_iff.mpr ⟨hop, .inl ⟨f, hf⟩⟩
    rcases hdecide hsome with ⟨n, hn⟩
    rw [hf, Option.some.injEq] at hn
    rcases Session.concludeGet_surface key n (m.survivors key) with
      ⟨-, hc⟩ | ⟨t, -, -, hc⟩ | ⟨t, ht, hlive, hc⟩ | hc <;> rw [hc] at hn <;> cases hn
    exact ⟨t, ht, hlive, rfl, rfl, hsingle t hsome ht⟩
  · intro k hk
    have hsome := Moment.read?_isSome_iff.mpr ⟨hop, .inr (.inl ⟨k, hk⟩)⟩
    rcases hdecide hsome with ⟨n, hn⟩
    rw [hk, Option.some.injEq] at hn
    rcases Session.concludeGet_surface key n (m.survivors key) with
      ⟨hnil, hc⟩ | ⟨t, ht, hdead, hc⟩ | ⟨t, -, -, hc⟩ | hc <;> rw [hc] at hn <;> cases hn
    · -- Something survives, since the quorum holds something.
      rcases (survivors_of_acked hdistinct hhonest hquorate hacked hig hm hsome).1 with ⟨u, hu, -⟩
      rw [hnil] at hu
      cases hu
    · exact ⟨t, ht, hdead, hsingle t hsome ht⟩
  · intro k siblings hk
    have hsome := Moment.read?_isSome_iff.mpr ⟨hop, .inr (.inr ⟨k, siblings, hk⟩)⟩
    rcases hdecide hsome with ⟨n, hn⟩
    rw [hk, Option.some.injEq] at hn
    rcases Session.concludeGet_surface key n (m.survivors key) with
      ⟨-, hc⟩ | ⟨t, -, -, hc⟩ | ⟨t, -, -, hc⟩ | hc <;> rw [hc] at hn <;> cases hn
    exact ⟨rfl, survivors_of_acked hdistinct hhonest hquorate hacked hig hm hsome⟩

/-- One session puts, another reads and deletes, and the first one reads again:
    it finds nothing for the tombstone, which has seen the value. -/
theorem acked_write_kept_deleted :
    let all : ReplicaSet := ⟨[⟨"a", 1⟩, ⟨"a", 2⟩, ⟨"a", 3⟩], by decide⟩
    let H := (start all.endpoints (standardClients all .quorum ["ann", "ben"])).chronicle
      (promptly [(0, .connect), (1, .connect), (0, .put "k" "x"), (1, .get "k"),
        (1, .delete "k"), (0, .get "k")])
    let x : Version := .live "x" (VersionVector.empty.update "ann" ⟨0, 0⟩)
    Acked H "k" 0 2 x ∧
    ∃ m t, H[5]? = some m ∧ m.survivors "k" = [t] ∧ t.tombstone = true ∧
      (t = x ∨ t.vector.compare x.vector = .newer) := by
  intro all H x
  have hlevels : H.all (fun m => m.session?.all fun s =>
      s.settings.readLevel == .quorum && s.settings.writeLevel == .quorum) = true := by cbv
  have hwriters : (List.range 6).all (fun i => (H[i]?.bind fun m =>
      (m.stamp? "k").map fun _ => m.move.who).all fun a => [(0, 2), (1, 4)].contains (a, i))
      = true := by cbv
  -- There are two writes, and the second comes after a read.
  have hwriter : ∀ {a i v}, Wrote H "k" a i v → (a = 0 ∧ i = 2) ∨ (a = 1 ∧ i = 4) := by
    rintro a i v hwrote
    have hall := List.all_eq_true.mp hwriters i (List.mem_range.mpr hwrote.lt_length)
    rcases hwrote with ⟨m, hm, rfl, hv⟩
    rw [hm, Option.bind_some, hv] at hall
    simpa using hall
  have hacked : Acked H "k" 0 2 x :=
    ⟨wrote_iff.mpr (by cbv), _, _, rfl, by cbv⟩
  have hread : Completed H "k" 1 3 := ⟨_, rfl, rfl, by cbv⟩
  have hquorate : Quorate all (standardClients all .quorum ["ann", "ben"]) H "k" := by
    constructor
    · decide
    · intro p hp e
      rcases List.mem_map.mp hp with ⟨name, -, rfl⟩
      exact Iff.rfl
    · intro m hm m' hm' s s' hs hs' _ _
      have h := List.all_eq_true.mp hlevels m hm
      have h' := List.all_eq_true.mp hlevels m' hm'
      rw [hs, Option.all_some, Bool.and_eq_true, beq_iff_eq, beq_iff_eq] at h
      rw [hs', Option.all_some, Bool.and_eq_true, beq_iff_eq, beq_iff_eq] at h'
      rw [h.1, h'.2]
      decide
    · intro a i v b j w hi hj hab hij
      rcases hwriter hi.1 with ⟨rfl, rfl⟩ | ⟨rfl, rfl⟩ <;>
        rcases hwriter hj with ⟨rfl, rfl⟩ | ⟨rfl, rfl⟩
      · omega
      · exact ⟨3, by omega, by omega, hread⟩
      · omega
      · omega
  have hkept := acked_write_kept all.endpoints _ (by decide) _ (promptly_honest _) all "k"
    hquorate 0 2 x hacked 5 _ (by decide) rfl rfl
  rcases hkept.2.1 "k" (by cbv) with ⟨t, ht⟩
  exact ⟨hacked, _, t, rfl, ht⟩

end System

end QuorumStore
