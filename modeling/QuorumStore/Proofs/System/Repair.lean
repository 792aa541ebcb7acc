import QuorumStore.Proofs.System.Readback

/-!
# Repair

A read and a write at the level of all bring the replicas of a key together.

Whatever the replicas hold, a read at the level of all takes all of it into its
session's history: the versions that it returns, those that it drops for them
and those that it hides. The session's next write goes out one count beyond
that history. It is newer than anything a replica has, so no replica turns it
down, and if all of them acknowledge it then all of them hold it. From there
on there is nothing else to be read, and nothing to be in conflict with.

Nobody may write the key in between, and that is all that is asked of the
rest of the run. The system may be any at the start. So it need not be one
that sessions have brought about: replicas may hold versions that no session
knows of, and a history may count writes that never were.

## Main definitions

* `Quiet`: Nobody writes a key between two places of a run.
* `Moment.replicas`: The replicas that a key has for the session that moves.
* `Moment.Surveys`: A read that concludes at the level of all.
* `Moment.Settles`: A write that succeeds at the level of all.

## Theorems

* `System.quiet_between`: Without writes, replicas keep what they hold.
* `Moment.Surveys.le_history`: A survey takes in everything there is.
* `Moment.Settles.holds?_next`: What is news to all replicas, all of them take.
* `Moment.result?_of_unanimous`: Where replicas agree, every read finds it.
* `System.read_then_write_all`: A survey and a write repair any divergence.
-/

namespace QuorumStore

/-- Between two places of the run nobody sends out a version of the key. -/
def Quiet (H : List Moment) (key : String) (p q : Nat) : Prop :=
  ∀ j m, p < j → j < q → H[j]? = some m → m.stamp? key = none

namespace Moment

variable {m : Moment} {key : String}

/-- The replicas that a key has for the session that makes the move. -/
def replicas (m : Moment) (key : String) : List Endpoint :=
  match m.system.charter? m.move.who with
  | some (_, _, placement) => (placement.replicasFor key).endpoints
  | none => []

/-- The move is a read of the key at the level of all that concludes, and no
    reply to it is made up. -/
structure Surveys (m : Moment) (key : String) : Prop where
  concludes : m.Concludes key
  level : ∀ s, m.session? = some s → s.settings.readLevel = .all
  honest : ∀ e, (m.move.plan e).Honest

/-- The move writes a value of the key, or the mark that there is none, at the
    level of all. It succeeds with this answer, and no acknowledgement is made
    up. -/
structure Settles (m : Moment) (key : String) (value : Option String) (a : Answer) : Prop where
  writes : m.move.operation.writes? key = some value
  level : ∀ s, m.session? = some s → s.settings.writeLevel = .all
  succeeds : m.result? = some (.ok a)
  honest : ∀ e, (m.move.plan e).Honest

theorem replicas_of_session {s : Session} (hs : m.session? = some s) :
    m.replicas key = (s.placement.replicasFor key).endpoints := by
  rw [replicas, System.charter?, show m.system.sessions[m.move.who]? = some s from hs]
  rfl

/-- A read does not write. -/
theorem Concludes.stamp? (h : m.Concludes key) : m.stamp? key = none := by
  rcases concludes_iff.mp h with ⟨replies, hread⟩
  by_contra hwrites
  rcases Option.ne_none_iff_exists'.mp hwrites with ⟨v, hv⟩
  rw [read?_of_stamp? hv] at hread
  cases hread

/-- A move that does not write the key leaves it on the replicas. -/
theorem holds?_next_of_quiet (h : m.stamp? key = none) (e : Endpoint) :
    m.next.cluster.holds? e key = m.system.cluster.holds? e key := by
  cases hread : m.read? key with
  | some replies => exact (step_read hread).2.2 e
  | none => exact (step_other h hread).2 e

/-- A survey takes everything that the replicas hold into its session's
    history. -/
theorem Surveys.le_history (h : m.Surveys key) {e : Endpoint} (he : e ∈ m.replicas key)
    {u : Version} (hu : m.system.cluster.holds? e key = some u) :
    u.vector ≤ m.next.history m.move.who key := by
  rcases concludes_iff.mp h.concludes with ⟨replies, hread⟩
  rcases mem_read h.honest hread with ⟨s, hs, hlen, hnodup, hall⟩
  rw [replicas_of_session hs] at he
  rw [h.level s hs, ← List.length_map Prod.fst] at hlen
  -- Every replica has replied, and with what it holds.
  have hsub : ∀ f ∈ replies.map Prod.fst, f ∈ (s.placement.replicasFor key).endpoints := by
    intro f hf
    rcases List.mem_map.mp hf with ⟨p, hp, rfl⟩
    exact (hall p hp).1
  rcases List.mem_map.mp (ReplicaSet.mem_of_length hnodup hsub hlen he) with ⟨p, hp, rfl⟩
  have hmem : u ∈ versions replies := by
    refine mem_versions.mpr ⟨p.1, ?_⟩
    rw [← hu, (hall p hp).2]
    exact hp
  exact fun node => ((step_read hread).1 node _).mpr (.inr ⟨u, hmem, Nat.le_refl _⟩)

/-- A version that is news to all replicas, and that all of them acknowledge,
    is what all of them hold. It goes by the vector of the answer. -/
theorem Settles.holds?_next {value : Option String} {a : Answer} (h : m.Settles key value a)
    (hknown : ∀ e ∈ m.replicas key, ∀ u, m.system.cluster.holds? e key = some u →
      u.vector ≤ m.system.history m.move.who key) :
    ∃ vector, a = .written ⟨vector, (m.replicas key).length⟩ ∧
      ∀ e ∈ m.replicas key,
        m.next.cluster.holds? e key = some (Session.versionOf value vector) := by
  rcases result?_eq_some_iff.mp h.succeeds with ⟨s, hs, hresult⟩
  have hlevel := h.level s hs
  have hstamp : s.stamp? m.move.ticket m.move.operation key =
      some (Session.versionOf value (s.nextVector m.move.ticket key)) :=
    Session.stamp?_eq_some_iff.mpr
      ⟨Session.sends_of_written h.writes hresult, value, h.writes, rfl⟩
  have hanswer := (Session.perform_acked h.honest hstamp hresult).1
  rw [Session.versionOf_vector, hlevel] at hanswer
  rw [replicas_of_session hs] at hknown ⊢
  refine ⟨s.nextVector m.move.ticket key, hanswer, fun e he => ?_⟩
  rw [cluster_next hs]
  refine Session.holds?_of_acked h.honest hstamp hlevel hresult he fun u hu hle => ?_
  -- What a replica held is in the history, and the history is behind.
  have hbehind := hknown e he u hu
  rw [System.history_of_session hs] at hbehind
  rw [Session.versionOf_vector] at hle
  exact not_le_of_gt (VersionVector.lt_update _ _ _) (le_trans hle hbehind)

/-- Where the replicas agree on a version, every read that concludes comes to
    it, at any level and under any policy. -/
theorem result?_of_unanimous {v : Version} (hconcludes : m.Concludes key)
    (hhonest : ∀ e, (m.move.plan e).Honest)
    (hholds : ∀ e ∈ m.replicas key, m.system.cluster.holds? e key = some v) :
    ∃ n, m.result? = some (if v.tombstone then .error (.notFound key)
      else .ok (.found ⟨v.value, v.vector, n⟩)) := by
  rcases concludes_iff.mp hconcludes with ⟨replies, hread⟩
  rcases Option.bind_eq_some_iff.mp hread with ⟨s, hs, hgathered⟩
  rw [replicas_of_session hs] at hholds
  have hsurvives := Session.reconcile_of_unanimous hhonest
    (Session.read?_eq_some_iff.mp hgathered).2 hholds
  refine ⟨replies.length, ?_⟩
  rw [result?_eq hs, (Session.perform_read m.move.ticket hgathered).1, hsurvives,
    Session.concludeGet_singleton]
  cases v.tombstone <;> rfl

end Moment

namespace System

variable {sys : System} {es : List Event} {key : String}

/-- While nobody writes a key the replicas keep what they hold of it. -/
theorem quiet_between {p q : Nat} {m n : Moment} (hm : (sys.chronicle es)[p]? = some m)
    (hn : (sys.chronicle es)[q]? = some n) (hpq : p < q)
    (hquiet : Quiet (sys.chronicle es) key p q) (e : Endpoint) :
    n.system.cluster.holds? e key = m.next.cluster.holds? e key := by
  refine run_induction_from
    (P := fun k s => k ≤ q → s.cluster.holds? e key = m.next.cluster.holds? e key)
    hm (fun _ => rfl) ?_ ?_ hn hpq (Nat.le_refl q)
  · intro k l hpk hl ih hkq
    exact (Moment.holds?_next_of_quiet (hquiet k l hpk (by omega) hl) e).trans (ih (by omega))
  · intro k s who read write ih hkq
    exact ih hkq

/-- A session has the same replicas at every place of a run. -/
theorem replicas_eq {p q : Nat} {m n : Moment} (hm : (sys.chronicle es)[p]? = some m)
    (hn : (sys.chronicle es)[q]? = some n) (hwho : m.move.who = n.move.who) :
    m.replicas key = n.replicas key := by
  rw [Moment.replicas, Moment.replicas, hwho, (charter_run sys es n.move.who).2 p m hm,
    (charter_run sys es n.move.who).2 q n hn]

/-- A read and a write at the level of all repair any divergence. From
    whatever state of the replicas and the sessions: if a session's read of a
    key concludes at the level of all, and its next write of the key succeeds
    at that level, then all replicas hold exactly what was written, under the
    vector that the write returned. Every read that concludes on some of them
    before the next write, by whatever session, level and policy, finds the
    value, or finds nothing after a deletion. -/
theorem read_then_write_all (sys : System) (es : List Event) (key : String)
    {g i : Nat} {look act : Moment} {value : Option String} {a : Answer}
    (hlook : (sys.chronicle es)[g]? = some look) (hact : (sys.chronicle es)[i]? = some act)
    (hgi : g < i) (hwho : look.move.who = act.move.who)
    (hquiet : Quiet (sys.chronicle es) key g i)
    (hsurveys : look.Surveys key) (hsettles : act.Settles key value a) :
    ∃ vector, a = .written ⟨vector, (act.replicas key).length⟩ ∧
      (∀ e ∈ act.replicas key,
        act.next.cluster.holds? e key = some (Session.versionOf value vector)) ∧
      ∀ r m, i < r → (sys.chronicle es)[r]? = some m → Quiet (sys.chronicle es) key i r →
        m.Concludes key → (∀ e, (m.move.plan e).Honest) →
        (∀ e ∈ m.replicas key, e ∈ act.replicas key) →
        (∀ x, value = some x → ∃ n, m.result? = some (.ok (.found ⟨x, vector, n⟩))) ∧
        (value = none → m.result? = some (.error (.notFound key))) := by
  -- What the replicas hold is what they held at the read, which has seen it.
  have hknown : ∀ e ∈ act.replicas key, ∀ u, act.system.cluster.holds? e key = some u →
      u.vector ≤ act.system.history act.move.who key := by
    intro e he u hu
    rw [quiet_between hlook hact hgi hquiet,
      Moment.holds?_next_of_quiet hsurveys.concludes.stamp?] at hu
    rw [← replicas_eq hlook hact hwho] at he
    rw [← hwho]
    exact le_trans (hsurveys.le_history he hu) (history_le_later hlook hact hgi _ key)
  rcases hsettles.holds?_next hknown with ⟨vector, hanswer, hall⟩
  refine ⟨vector, hanswer, hall, fun r m hir hm hstill hconcludes hhonest hsub => ?_⟩
  -- A later read meets replicas that still hold it.
  have hagree : ∀ e ∈ m.replicas key,
      m.system.cluster.holds? e key = some (Session.versionOf value vector) := by
    intro e he
    rw [quiet_between hact hm hir hstill]
    exact hall e (hsub e he)
  rcases Moment.result?_of_unanimous hconcludes hhonest hagree with ⟨n, hresult⟩
  constructor
  · rintro x rfl
    exact ⟨n, hresult⟩
  · rintro rfl
    exact hresult

/-- Two sessions that reach one replica each put values that nobody can put in
    order. A third one reads the conflict and puts a value of its own, and the
    second finds it. -/
theorem read_then_write_all_strangers :
    let left : ReplicaSet := ⟨[⟨"a", 1⟩], by decide⟩
    let right : ReplicaSet := ⟨[⟨"a", 2⟩], by decide⟩
    let both : ReplicaSet := ⟨[⟨"a", 1⟩, ⟨"a", 2⟩], by decide⟩
    let H := (start both.endpoints (standardClients left .all ["ann"] ++
      standardClients right .all ["ben"] ++ standardClients both .all ["cat"])).chronicle
      (promptly [(0, .connect), (1, .connect), (2, .connect), (0, .put "k" "west"),
        (1, .put "k" "east"), (2, .get "k"), (2, .put "k" "both"), (1, .get "k")])
    (∃ siblings, H[5]?.bind Moment.result? = some (.error (.conflict "k" siblings)) ∧
      siblings.length = 2) ∧
    ∃ vector n, H[7]?.bind Moment.result? = some (.ok (.found ⟨"both", vector, n⟩)) := by
  intro left right both H
  have hlook : (H[5]?.any fun m => m.move.who == 2 && (m.read? "k").isSome &&
      m.session?.all fun s => s.settings.readLevel == .all) = true := by cbv
  have hact : (H[6]?.any fun m => m.move.who == 2 && (m.result?.any fun r => r.isOk) &&
      (m.move.operation.writes? "k" == some (some "both")) &&
      (m.replicas "k" == both.endpoints) &&
      m.session?.all fun s => s.settings.writeLevel == .all) = true := by cbv
  have hread : (H[7]?.any fun m => (m.read? "k").isSome &&
      (m.replicas "k" == right.endpoints)) = true := by cbv
  rw [Option.any_eq_true] at hlook hact hread
  rcases hlook with ⟨look, hlook, hlooks⟩
  rcases hact with ⟨act, hact, hacts⟩
  rcases hread with ⟨m, hm, hreads⟩
  simp only [Bool.and_eq_true, beq_iff_eq, Option.all_eq_true, Option.any_eq_true]
    at hlooks hacts hreads
  rcases hlooks with ⟨⟨hlooker, hsome⟩, hreadLevel⟩
  rcases hacts with ⟨⟨⟨⟨hwriter, r, hr, hok⟩, hwrites⟩, hactReplicas⟩, hwriteLevel⟩
  rcases hreads with ⟨hfinds, hreplicas⟩
  have hplans : ∀ {n : Moment} {k : Nat}, H[k]? = some n → ∀ e, (n.move.plan e).Honest :=
    fun hn => honest_of_chronicle (promptly_honest _) (List.mem_of_getElem? hn)
  refine ⟨⟨_, by cbv, rfl⟩, ?_⟩
  cases r with
  | error err => cases hok
  | ok a =>
    rcases read_then_write_all _ _ "k" hlook hact (by decide) (hlooker.trans hwriter.symm)
      (fun j _ hlo hhi => by omega)
      ⟨Moment.concludes_iff.mpr (Option.isSome_iff_exists.mp hsome), hreadLevel, hplans hlook⟩
      ⟨hwrites, hwriteLevel, hr, hplans hact⟩ with ⟨vector, -, -, hlater⟩
    have hsub : ∀ e ∈ m.replicas "k", e ∈ act.replicas "k" := by
      rw [hreplicas, hactReplicas]
      decide
    rcases (hlater 7 m (by decide) hm (fun j _ hlo hhi => by omega)
      (Moment.concludes_iff.mpr (Option.isSome_iff_exists.mp hfinds)) (hplans hm) hsub).1
      "both" rfl with ⟨n, hn⟩
    refine ⟨vector, n, ?_⟩
    rw [hm]
    exact hn

end System

end QuorumStore
