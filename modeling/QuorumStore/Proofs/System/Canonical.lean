import QuorumStore.Proofs.Session.Counting
import QuorumStore.Proofs.System.Discipline

/-!
# Canonical Vectors over Runs

Where replicas hold nothing at first and nobody makes up a version, every
vector is canonical, wherever it turns up.

The listing of siblings, the text of a vector and the rule of the highest node
read raw entries. What they come to means something only of vectors whose
entries are filed under their own names and count from one, and no type says
that a vector is of this kind: a message can bring any other. So it has to be
an invariant of the whole system (`System.Canonical`), of what sessions
remember and what replicas hold. A write keeps it, since it goes out under a
history that has counted one write more. A read keeps it, since the versions
among its replies are held by replicas, and their vectors are merged into a
history. Acknowledgements carry no vector, so it does not matter who gives
them.

What an outcome shows to a client was sent out or accepted as a reply, so the
invariant reaches it too.

## Main definitions

* `System.Canonical`: All that is remembered and held is canonical.
* `Shown`: The vectors that the outcome of an operation shows.

## Theorems

* `Moment.canonical_of_meets`: What a session meets is canonical.
* `Moment.canonical_next`: A move keeps all vectors canonical.
* `System.canonical_run`: So does a run.
* `Moment.meets_of_shown`: What is shown was met.
* `System.vectors_canonical`: Vectors are canonical throughout a run.
-/

namespace QuorumStore

/-- Every vector that a session remembers or a replica holds is canonical. -/
structure System.Canonical (sys : System) : Prop where
  remembered : ∀ s ∈ sys.sessions, ∀ key v, s.clocks.get? key = some v → v.Canonical
  held : ∀ e key v, sys.cluster.holds? e key = some v → v.vector.Canonical

/-- A vector that the outcome of an operation shows: that of a value found, of
    a write acknowledged, or of a sibling. -/
inductive Shown : Except OpError Answer → VersionVector → Prop where
  | found (f : Found) : Shown (.ok (.found f)) f.vector
  | written (w : Written) : Shown (.ok (.written w)) w.vector
  | sibling (key : String) {siblings : List Version} {u : Version} (hu : u ∈ siblings) :
    Shown (.error (.conflict key siblings)) u.vector

/-- A history after a read is canonical if it was so before and the versions
    taken in are. -/
theorem Session.canonical_observe {s : Session} {key : String} {survivors : List Version}
    (h : (s.history key).Canonical) (hall : ∀ v ∈ survivors, v.vector.Canonical) :
    ((s.observe key survivors).history key).Canonical := by
  rw [observe]
  by_cases hempty : survivors.isEmpty = true
  · rw [if_pos hempty]
    exact h
  · rw [if_neg hempty, history_setHistory_self, ← List.foldl_map]
    refine h.foldl_merge fun w hw => ?_
    rcases List.mem_map.mp hw with ⟨v, hv, rfl⟩
    exact hall v hv

namespace System

variable {sys : System}

/-- To remember canonical vectors is to have canonical histories; a key that was
    never met has an empty one. -/
theorem canonical_iff :
    sys.Canonical ↔ (∀ who key, (sys.history who key).Canonical) ∧
      ∀ e key v, sys.cluster.holds? e key = some v → v.vector.Canonical := by
  constructor
  · intro h
    refine ⟨fun who key => ?_, h.held⟩
    cases hs : sys.sessions[who]? with
    | none =>
      rw [history, hs]
      exact VersionVector.canonical_empty
    | some s =>
      rw [history_of_session hs, Session.history]
      cases hv : s.clocks.get? key with
      | none => exact VersionVector.canonical_empty
      | some v => exact h.remembered s (List.mem_of_getElem? hs) key v hv
  · rintro ⟨hhistory, hheld⟩
    refine ⟨fun s hs key v hv => ?_, hheld⟩
    rcases List.mem_iff_getElem?.mp hs with ⟨who, hwho⟩
    have hcanonical := hhistory who key
    rw [history_of_session hwho, Session.history, hv] at hcanonical
    exact hcanonical

end System

namespace Moment

variable {m : Moment} {key : String}

/-- A version is sent out under a canonical vector. -/
theorem canonical_of_stamp (h : m.system.Canonical) {v : Version} (hstamp : m.stamp? key = some v) :
    v.vector.Canonical := by
  rcases (step_stamp hstamp).1 with ⟨name, -, hvector⟩
  rw [hvector]
  exact ((System.canonical_iff.mp h).1 m.move.who key).update name m.move.ticket.now

/-- Versions that are not made up arrive under canonical vectors. -/
theorem canonical_of_read (h : m.system.Canonical) (htruthful : ∀ e, (m.move.plan e).Truthful)
    {replies : List (Endpoint × Option Version)} (hread : m.read? key = some replies) :
    ∀ v ∈ versions replies, v.vector.Canonical := by
  intro v hv
  rcases Option.bind_eq_some_iff.mp hread with ⟨s, -, hgathered⟩
  rcases Session.mem_gathered_of_truthful htruthful (Session.read?_eq_some_iff.mp hgathered).2
    with ⟨-, -, hall⟩
  rcases mem_versions.mp hv with ⟨e, he⟩
  exact h.held e key v (hall _ he).2

/-- What a session meets is canonical. -/
theorem canonical_of_meets (h : m.system.Canonical) (htruthful : ∀ e, (m.move.plan e).Truthful)
    {vec : VersionVector} (hmeets : m.Meets key vec) : vec.Canonical := by
  rcases hmeets.stamp_or_reply with ⟨v, hstamp, rfl⟩ | ⟨replies, u, hread, hu, rfl⟩
  · exact canonical_of_stamp h hstamp
  · exact canonical_of_read h htruthful hread u hu

/-- A move keeps all vectors canonical. -/
theorem canonical_next (h : m.system.Canonical) (htruthful : ∀ e, (m.move.plan e).Truthful) :
    m.next.Canonical := by
  rcases System.canonical_iff.mp h with ⟨hhistory, hheld⟩
  -- Seen from one key, the move writes it, reads it, or leaves it alone.
  have hkey : ∀ key, (∀ who, (m.next.history who key).Canonical) ∧
      ∀ e v, m.next.cluster.holds? e key = some v → v.vector.Canonical := by
    intro key
    cases hstamp : m.stamp? key with
    | some v =>
      have hv := canonical_of_stamp h hstamp
      refine ⟨fun who => ?_, fun e u hu => ?_⟩
      · rw [(step_stamp hstamp).2.1]
        by_cases hwho : who = m.move.who
        · rw [if_pos hwho]
          exact hv
        · rw [if_neg hwho]
          exact hhistory who key
      · rcases held_of_stamp hstamp hu with rfl | hold
        · exact hv
        · exact hheld e key u hold
    | none =>
      cases hread : m.read? key with
      | some replies =>
        have hall := canonical_of_read h htruthful hread
        rcases step_read hread with ⟨-, hothers, hholds⟩
        refine ⟨fun who => ?_, fun e v hv => hheld e key v ((hholds e).symm.trans hv)⟩
        by_cases hwho : who = m.move.who
        · rcases Option.bind_eq_some_iff.mp hread with ⟨s, hs, hgathered⟩
          rw [history_next hs, if_pos hwho,
            (Session.perform_read m.move.ticket hgathered).2.1]
          refine Session.canonical_observe ?_ fun v hv =>
            hall v ((Version.frontier_reconcile _).sound v hv)
          rw [← System.history_of_session hs]
          exact hhistory m.move.who key
        · rw [hothers who hwho]
          exact hhistory who key
      | none =>
        rcases step_other hstamp hread with ⟨hsame, hholds⟩
        refine ⟨fun who => ?_, fun e v hv => hheld e key v ((hholds e).symm.trans hv)⟩
        rw [hsame who]
        exact hhistory who key
  exact System.canonical_iff.mpr ⟨fun who key => (hkey key).1 who, fun e key => (hkey key).2 e⟩

/-- What the outcome of a move shows, its session has met. -/
theorem meets_of_shown {r : Except OpError Answer} {vec : VersionVector}
    (hresult : m.result? = some r) (hshown : Shown r vec) : ∃ key, m.Meets key vec := by
  rcases result?_eq_some_iff.mp hresult with ⟨s, hs, hr⟩
  -- Each kind of outcome comes of its own kind of operation.
  cases hshown with
  | found f =>
    cases hop : m.move.operation with
    | get key => exact ⟨key, .found hop hresult⟩
    | _ =>
      rw [hop] at hr
      rcases Effect.result_map_eq_ok_iff.mp hr with ⟨a, -, ha⟩
      cases ha
  | written w =>
    have hwrites : ∃ key value, m.move.operation.writes? key = some value := by
      cases hop : m.move.operation with
      | put key value => exact ⟨key, some value, if_pos rfl⟩
      | delete key => exact ⟨key, none, if_pos rfl⟩
      | _ =>
        rw [hop] at hr
        rcases Effect.result_map_eq_ok_iff.mp hr with ⟨a, -, ha⟩
        cases ha
    rcases hwrites with ⟨key, value, hwrites⟩
    rcases write_cases hs hwrites with ⟨e, he, -⟩ | ⟨vector, hstamp, -, -, ⟨n, hok⟩ | ⟨e, he, -⟩⟩
    · rw [hresult] at he
      cases he
    · rw [hresult] at hok
      cases hok
      have hmeets := Meets.stamp hstamp
      rw [Session.versionOf_vector] at hmeets
      exact ⟨key, hmeets⟩
    · rw [hresult] at he
      cases he
  | sibling k hu =>
    have hkind := Session.perform_conflict hr
    cases hop : m.move.operation with
    | get key => exact ⟨key, .sibling hop hresult hu⟩
    | _ =>
      rw [hop] at hkind
      cases hkind

end Moment

namespace System

/-- All vectors are canonical at the end of a run without made-up versions, and
    at each of its moves. -/
theorem canonical_run (endpoints : List Endpoint) (clients : List (Settings × Placement))
    {es : List Event} (htruthful : ∀ e ∈ es, e.Truthful) :
    ((start endpoints clients).run es).Canonical ∧
    ∀ m ∈ (start endpoints clients).chronicle es, m.system.Canonical := by
  have hrun := @run_induction (start endpoints clients) es (fun _ s => s.Canonical) ?_ ?_ ?_
  · refine ⟨hrun.1, fun m hm => ?_⟩
    rcases List.mem_iff_getElem?.mp hm with ⟨k, hk⟩
    exact hrun.2 k m hk
  · refine canonical_iff.mpr ⟨fun who key => ?_, fun e key v hv => ?_⟩
    · rw [history_start]
      exact VersionVector.canonical_empty
    · rw [holds?_start] at hv
      cases hv
  · intro k m hm h
    exact m.canonical_next h (htruthful _ (move_of_chronicle (List.mem_of_getElem? hm)))
  · intro k s who read write h
    rw [canonical_iff] at h ⊢
    refine ⟨fun other key => ?_, h.2⟩
    rw [history_retune]
    exact h.1 other key

/-- Vectors stay canonical. Whatever is made of counts, by writes and by merges
    files its entries under their own names and counts from one; of the counts
    that a vector is made of, the last for each node that is not zero is kept.
    Over every run that begins with replicas that hold nothing, and in which
    nobody makes up a version, the vectors that sessions remember, that replicas
    hold, that are sent out and that outcomes show are of this kind. And vectors
    of this kind compare as equal exactly if they are listed alike, the listing
    being in the order of the names. -/
theorem vectors_canonical (endpoints : List Endpoint) (clients : List (Settings × Placement))
    (es : List Event) (htruthful : ∀ e ∈ es, e.Truthful) :
    (VersionVector.Built .empty ∧ (∀ v : VersionVector, v.Built → v.Canonical) ∧
      ∀ now counts node, (VersionVector.ofCounters now counts).entries.get? node =
        ((counts.filter fun p => decide (p.1 = node ∧ 0 < p.2)).getLast?).map fun p =>
          ⟨p.1, p.2, now⟩) ∧
    (((start endpoints clients).run es).Canonical ∧
      ∀ m ∈ (start endpoints clients).chronicle es, m.system.Canonical ∧ m.next.Canonical ∧
        (∀ key v, m.stamp? key = some v → v.vector.Canonical) ∧
        ∀ r vec, m.result? = some r → Shown r vec → vec.Canonical) ∧
    ∀ a b : VersionVector, a.Canonical → b.Canonical →
      KeysIncrease a.counts ∧ (a.compare b = .equal ↔ a.counts = b.counts) := by
  refine ⟨⟨VersionVector.built_empty, fun v => VersionVector.Built.canonical,
    VersionVector.get?_ofCounters⟩, ?_,
    fun a b ha hb => ⟨ha.counts_increasing, ha.compare_eq_equal_iff hb⟩⟩
  rcases canonical_run endpoints clients htruthful with ⟨hend, hall⟩
  refine ⟨hend, fun m hm => ?_⟩
  have hplans : ∀ e, (m.move.plan e).Truthful := htruthful _ (move_of_chronicle hm)
  have hhere := hall m hm
  refine ⟨hhere, m.canonical_next hhere hplans, fun key v => m.canonical_of_stamp hhere, ?_⟩
  intro r vec hresult hshown
  rcases m.meets_of_shown hresult hshown with ⟨key, hmeets⟩
  exact m.canonical_of_meets hhere hplans hmeets

/-- Two sessions write a key, each to a replica of its own. A third one reads
    both values as siblings, and writes one of its own; the acknowledgements it
    is given are made up. -/
theorem vectors_canonical_forged :
    let all : ReplicaSet := ⟨[⟨"a", 1⟩, ⟨"a", 2⟩], by decide⟩
    let clients := [(Settings.standard "ann", Placement.uniform ⟨[⟨"a", 1⟩], by decide⟩),
      (Settings.standard "ben", Placement.uniform ⟨[⟨"a", 2⟩], by decide⟩),
      (Settings.standard "cid", Placement.uniform all)]
    let es := promptly [(0, .connect), (0, .put "k" "x"), (1, .connect), (1, .put "k" "y"),
      (2, .connect), (2, .get "k")] ++
      [.move ⟨2, .put "k" "z", fun _ => ⟨some 0, .answered .ack⟩, ⟨⟨0, 0⟩, ""⟩⟩]
    let H := (start all.endpoints clients).chronicle es
    let ann := VersionVector.empty.update "ann" ⟨0, 0⟩
    let ben := VersionVector.empty.update "ben" ⟨0, 0⟩
    let cid := (ann.merge ben).update "cid" ⟨0, 0⟩
    (∀ e ∈ es, e.Truthful) ∧
    H[5]?.bind Moment.result? =
      some (.error (.conflict "k" [.live "x" ann, .live "y" ben])) ∧
    H[6]?.bind Moment.result? = some (.ok (.written ⟨cid, 2⟩)) ∧
    ann.Canonical ∧ ben.Canonical ∧ cid.Canonical := by
  intro all clients es H ann ben cid
  have htruthful : ∀ e ∈ es, e.Truthful := by
    intro e he
    rcases List.mem_append.mp he with he | he
    · have hhonest := promptly_honest _ e he
      cases e with
      | move m => exact fun f => (hhonest f).truthful
      | retune who read write => trivial
    · rw [List.mem_singleton.mp he]
      exact fun f v => by simp
  have hread : H[5]?.bind Moment.result? =
      some (.error (.conflict "k" [.live "x" ann, .live "y" ben])) := by cbv
  have hwritten : H[6]?.bind Moment.result? = some (.ok (.written ⟨cid, 2⟩)) := by cbv
  have hshown := fun m hm =>
    ((vectors_canonical all.endpoints clients es htruthful).2.1.2 m hm).2.2.2
  rcases Option.bind_eq_some_iff.mp hread with ⟨m, hm, hr⟩
  rcases Option.bind_eq_some_iff.mp hwritten with ⟨n, hn, hr'⟩
  exact ⟨htruthful, hread, hwritten,
    hshown m (List.mem_of_getElem? hm) _ _ hr (.sibling "k" (u := .live "x" ann) (by simp)),
    hshown m (List.mem_of_getElem? hm) _ _ hr (.sibling "k" (u := .live "y" ben) (by simp)),
    hshown n (List.mem_of_getElem? hn) _ _ hr' (.written ⟨cid, 2⟩)⟩

end System

end QuorumStore
