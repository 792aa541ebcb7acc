import Mathlib.Logic.Basic
import Mathlib.Logic.Relation
import QuorumStore.Proofs.Cluster.FanOut
import QuorumStore.Proofs.FanOut.Verdict

/-!
# The Turns of a Tally

What holds between any two replies to an operation.

`tallyFrom` takes one turn for each reply it looks at. A `Turn` is where it
stands before a turn, with all that the recursion passes on, and `Turn.Next`
is the turn itself: the operation waits, and a reply comes in time. A turn
does not change the outcome (`Turn.Next.outcome_eq`), and the turn that no
other follows has it (`Turn.outcome_of_last`), so to say something of every
turn that can be reached is to say it of the whole recursion, wherever it
stops.

The books are balanced at each of them: every call is either open, accepted or
failed, and it is counted once (`Turn.Balanced`). Two things that look as if
they could go wrong therefore cannot. The failures are never taken away from a
smaller number. And an operation never waits for a call that is not there:
with no call open, those that did not fail were accepted, and then either
there are enough of them or too few are left.

## Main definitions

* `Turn`: Where a tally stands before a turn.
* `Turn.Next`: A turn.
* `Turn.Reaches`: Any number of turns.
* `Turn.Balanced`: Every call is counted once.

## Theorems

* `Turn.balanced_reaches`: The books are balanced at every turn.
* `Turn.exists_last`: The turns come to an end, with the outcome.
* `Turn.Balanced.open_of_waiting`: An operation that waits has a call to wait
  for.
* `Turn.Balanced.ending`: An operation that has not timed out has either
  enough replies or too many failures.
* `Cluster.fanOut_balanced`: The same of the calls of an operation, at every
  level.
-/

namespace QuorumStore

/-- Where a tally stands before a turn: how many calls are open, when the last
    reply came, what it has counted, and the replies it has not looked at. -/
structure Turn (α : Type) where
  pending : Nat
  now : Nat
  tally : Tally α
  coming : List (Completion α)

namespace Turn

variable {α : Type} {total needed deadline : Nat} {cs : List (Completion α)} {s s' : Turn α}

/-- Nothing has been counted, and all calls are open. -/
def first (total : Nat) (cs : List (Completion α)) : Turn α := ⟨total, 0, {}, cs⟩

/-- What a tally that stands so comes to. -/
def outcome (total needed deadline : Nat) (s : Turn α) : Outcome α :=
  tallyFrom total needed deadline s.pending s.now s.tally s.coming

/-- The operation waits, and the next reply comes in time. -/
inductive Next (total needed deadline : Nat) : Turn α → Turn α → Prop where
  | reply (pending now : Nat) (t : Tally α) (c : Completion α) (cs : List (Completion α))
      (hwaits : t.phase total needed = .waiting) (hdue : c.due < deadline) :
      Next total needed deadline ⟨pending, now, t, c :: cs⟩
        ⟨pending - 1, c.due, t.record c.endpoint c.judged, cs⟩

/-- The tally comes from one turn to the other. -/
abbrev Reaches (total needed deadline : Nat) : Turn α → Turn α → Prop :=
  Relation.ReflTransGen (Next total needed deadline)

/-- A turn does not change the outcome. -/
theorem Next.outcome_eq (h : Next total needed deadline s s') :
    s.outcome total needed deadline = s'.outcome total needed deadline := by
  cases h with
  | reply pending now t c cs hwaits hdue =>
    rw [outcome, tallyFrom, hwaits]
    simp only [if_pos hdue]
    rfl

theorem outcome_of_reaches (h : Reaches total needed deadline s s') :
    s'.outcome total needed deadline = s.outcome total needed deadline := by
  induction h with
  | refl => rfl
  | tail _ hnext ih => rw [← hnext.outcome_eq, ih]

/-- Where no turn follows the tally stays as it is, and the ending is what the
    phase says, or that of an operation that waits. -/
theorem outcome_of_last (hlast : ∀ s', ¬ Next total needed deadline s s') :
    (s.outcome total needed deadline).tally = s.tally ∧
    (((s.outcome total needed deadline).ending = .satisfied ∧
        s.tally.phase total needed = .satisfied) ∨
      ((s.outcome total needed deadline).ending = .unreachable ∧
        s.tally.phase total needed = .unreachable) ∨
      (s.tally.phase total needed = .waiting ∧
        ((s.outcome total needed deadline).ending = .timedOut ∨
          (s.outcome total needed deadline).ending = .exhausted ∧ s.pending = 0))) := by
  rcases s with ⟨pending, now, t, cs⟩
  rw [outcome, tallyFrom.eq_def]
  cases hphase : t.phase total needed with
  | satisfied => exact ⟨rfl, .inl ⟨rfl, rfl⟩⟩
  | unreachable => exact ⟨rfl, .inr (.inl ⟨rfl, rfl⟩)⟩
  | waiting =>
    cases cs with
    | nil =>
      by_cases h : pending = 0
      · simp only [if_pos h]
        exact ⟨trivial, .inr (.inr ⟨trivial, .inr ⟨trivial, h⟩⟩)⟩
      · simp only [if_neg h]
        exact ⟨trivial, .inr (.inr ⟨trivial, .inl trivial⟩)⟩
    | cons c cs =>
      -- The next reply is late, or it would have its turn.
      have hlate : ¬ c.due < deadline := fun hdue => hlast _ (.reply pending now t c cs hphase hdue)
      simp only [if_neg hlate]
      exact ⟨trivial, .inr (.inr ⟨trivial, .inl trivial⟩)⟩

/-- The turns come to an end, and the last has the outcome of them all. -/
theorem exists_last (total needed deadline : Nat) (s : Turn α) :
    ∃ last, Reaches total needed deadline s last ∧
      (∀ s', ¬ Next total needed deadline last s') ∧
      s.outcome total needed deadline = last.outcome total needed deadline := by
  rcases s with ⟨pending, now, t, cs⟩
  -- Every turn uses up a reply.
  induction cs generalizing pending now t with
  | nil => exact ⟨_, .refl, by rintro s' ⟨⟩, rfl⟩
  | cons c cs ih =>
    by_cases h : t.phase total needed = .waiting ∧ c.due < deadline
    · have hnext := Next.reply pending now t c cs h.1 h.2
      rcases ih (pending - 1) c.due (t.record c.endpoint c.judged) with ⟨last, hreach, hlast, heq⟩
      exact ⟨last, .head hnext hreach, hlast, hnext.outcome_eq.trans heq⟩
    · refine ⟨_, .refl, ?_, rfl⟩
      rintro s' ⟨⟩
      rename_i hwaits hdue
      exact h ⟨hwaits, hdue⟩

/-- The books of an operation: the replies looked at are a front part of all
    there are and make up the tally, each call is open or was counted once, and
    no more was accepted than is needed. -/
structure Balanced (total needed : Nat) (cs : List (Completion α)) (s : Turn α) : Prop where
  seen : ∃ seen, cs = seen ++ s.coming ∧ s.tally = ({} : Tally α).recordAll seen
  counted : s.tally.accepted.length + s.tally.failed + s.pending = total
  enough : s.tally.accepted.length ≤ needed

theorem balanced_first : Balanced total needed cs (first total cs) where
  seen := ⟨[], rfl, rfl⟩
  counted := Nat.zero_add total
  enough := Nat.zero_le needed

/-- As many calls are over as were accepted or failed. -/
theorem Balanced.length_seen (h : Balanced total needed cs s) :
    s.tally.accepted.length + s.tally.failed + s.coming.length = cs.length := by
  rcases h.seen with ⟨seen, hcs, htally⟩
  rw [htally, Tally.accepted_recordAll, Tally.failed_recordAll, List.nil_append, Nat.zero_add,
    ← length_eq_accepted_add_failed, hcs, List.length_append]

/-- A turn keeps the books balanced: it counts one call, which was open. -/
theorem Balanced.next (hcs : cs.length ≤ total) (h : Balanced total needed cs s)
    (hnext : Next total needed deadline s s') : Balanced total needed cs s' := by
  have hlength := h.length_seen
  have hcounted := h.counted
  cases hnext with
  | reply pending now t c rest hwaits hdue =>
    have hfew := ((t.phase_eq_waiting_iff total needed).mp hwaits).1
    have hone := c.length_accepted?_le
    have haccepted := t.length_accepted_record c
    have hfailed := t.failed_record c
    simp only [List.length_cons] at hlength hcounted
    refine ⟨?_, ?_, ?_⟩
    · rcases h.seen with ⟨seen, hsplit, htally⟩
      refine ⟨seen ++ [c], hsplit.trans (List.append_cons seen c rest), ?_⟩
      rw [Tally.recordAll_concat, ← htally]
    · simp only
      omega
    · simp only
      omega

/-- The books are balanced at every turn. -/
theorem balanced_reaches (hcs : cs.length ≤ total)
    (h : Reaches total needed deadline (first total cs) s) : Balanced total needed cs s := by
  induction h with
  | refl => exact balanced_first
  | tail _ hnext ih => exact ih.next hcs hnext

/-- An operation that waits has a call to wait for: with none open, the calls
    that did not fail are those that were accepted, and they are too few to
    wait with. -/
theorem Balanced.open_of_waiting (h : Balanced total needed cs s)
    (hwaits : s.tally.phase total needed = .waiting) : 0 < s.pending := by
  have hphase := (s.tally.phase_eq_waiting_iff total needed).mp hwaits
  have hcounted := h.counted
  omega

/-- An operation does not run out of calls. If it does not run out of time
    either, it has as many replies as it needs or cannot get them, and not
    both. -/
theorem Balanced.ending (h : Balanced total needed cs s)
    (hlast : ∀ s', ¬ Next total needed deadline s s') :
    (s.outcome total needed deadline).ending ≠ .exhausted ∧
    ((s.outcome total needed deadline).ending ≠ .timedOut →
      Xor (s.tally.accepted.length = needed) (total - s.tally.failed < needed)) := by
  have hcounted := h.counted
  have henough := h.enough
  rcases (outcome_of_last hlast).2 with ⟨hend, hphase⟩ | ⟨hend, hphase⟩ | ⟨hphase, hend⟩
  · have hfull := (s.tally.phase_eq_satisfied_iff total needed).mp hphase
    rw [hend]
    exact ⟨nofun, fun _ => .inl ⟨by omega, by omega⟩⟩
  · have hshort := (s.tally.phase_eq_unreachable_iff total needed).mp hphase
    rw [hend]
    exact ⟨nofun, fun _ => .inr ⟨hshort.2, by omega⟩⟩
  · have hopen := h.open_of_waiting hphase
    rcases hend with hend | ⟨-, hnone⟩
    · rw [hend]
      exact ⟨nofun, fun hne => absurd rfl hne⟩
    · omega

end Turn

namespace Cluster

variable {α : Type}

/-- The books of an operation, at every level and whatever becomes of its
    calls. A level asks for one replica at least and for no more than there
    are. Let the replies be any, one for each replica at most, in any order.
    Then at every turn as many calls are over as were accepted or failed, and
    those are no more than there are replicas, nor are the failures that are
    taken away from their number. While the operation waits a call is open. So
    it never runs out of calls; and if it does not run out of time, its last
    turn has either accepted as many replies as the level asks for or counted
    so many failures that the other calls are too few, and not both. The
    replies to the calls of an operation are of this kind. -/
theorem fanOut_balanced (replicas : ReplicaSet) (hreplicas : 0 < replicas.size) (level : Level)
    (deadline : Nat) :
    let total := replicas.size
    let needed := level.required total
    (1 ≤ needed ∧ needed ≤ total) ∧
    (∀ cs : List (Completion α), cs.length ≤ total →
      let first := Turn.first total cs
      let whole := tallyUp total needed deadline cs
      (∀ s, Turn.Reaches total needed deadline first s →
        s.outcome total needed deadline = whole ∧
        ∃ seen, cs = seen ++ s.coming ∧
          s.tally.accepted = seen.filterMap Completion.accepted? ∧
          s.tally.accepted.length + s.tally.failed = seen.length ∧
          seen.length + s.pending = total ∧ seen.length ≤ total ∧ s.tally.failed ≤ total ∧
          (s.tally.phase total needed = .waiting → 0 < s.pending)) ∧
      (∃ last, Turn.Reaches total needed deadline first last ∧
        (∀ s, ¬ Turn.Next total needed deadline last s) ∧ last.tally = whole.tally) ∧
      whole.ending ≠ .exhausted ∧
      (whole.ending ≠ .timedOut →
        Xor (whole.tally.accepted.length = needed) (total - whole.tally.failed < needed))) ∧
    ∀ (c : Cluster) (plan : Endpoint → Plan) (request : Request)
      (accept : Response → Except CallError α),
      let cs := c.completions plan replicas.endpoints request deadline accept
      cs.length ≤ total ∧
      (c.fanOut plan replicas request needed deadline accept).1 =
        tallyUp total needed deadline cs := by
  intro total needed
  refine ⟨⟨level.required_pos hreplicas, level.required_le hreplicas⟩, fun cs hcs => ?_,
    fun c plan request accept => ⟨completions_length_le, fanOut_outcome⟩⟩
  intro first whole
  rcases Turn.exists_last total needed deadline first with ⟨last, hreach, hlast, hwhole⟩
  have hwhole : whole = last.outcome total needed deadline := hwhole
  have htally : last.tally = whole.tally := by rw [hwhole, (Turn.outcome_of_last hlast).1]
  have hending := (Turn.balanced_reaches hcs hreach).ending hlast
  rw [← hwhole, htally] at hending
  refine ⟨fun s hs => ⟨Turn.outcome_of_reaches hs, ?_⟩, ⟨last, hreach, hlast, htally⟩, hending⟩
  have hbalanced := Turn.balanced_reaches hcs hs
  have hcounted := hbalanced.counted
  have hlength := hbalanced.length_seen
  rcases hbalanced.seen with ⟨seen, hsplit, hseen⟩
  rw [hsplit, List.length_append] at hlength
  refine ⟨seen, hsplit, ?_, by omega, by omega, by omega, by omega, hbalanced.open_of_waiting⟩
  rw [hseen, Tally.accepted_recordAll, List.nil_append]

/-- Of three calls one breaks off, without a word of why, and one is refused.
    With the second of them a quorum is out of reach, and the books say so. -/
theorem fanOut_balanced_broken :
    let replicas : ReplicaSet := ⟨[⟨"a", 1⟩, ⟨"a", 2⟩, ⟨"a", 3⟩], by decide⟩
    let cs : List (Completion Unit) := [⟨3, ⟨"a", 2⟩, .broken⟩,
      ⟨5, ⟨"a", 1⟩, .refused (.connection "refused")⟩, ⟨9, ⟨"a", 3⟩, .accepted ()⟩]
    let whole := tallyUp replicas.size (Level.quorum.required replicas.size) 100 cs
    0 < replicas.size ∧ cs.length ≤ replicas.size ∧ whole.ending = .unreachable ∧
      whole.tally.failed = 2 ∧
      Xor (whole.tally.accepted.length = Level.quorum.required replicas.size)
        (replicas.size - whole.tally.failed < Level.quorum.required replicas.size) := by
  intro replicas cs whole
  have hreplicas : 0 < replicas.size := by decide
  have hcs : cs.length ≤ replicas.size := by decide
  have hending : whole.ending = .unreachable := by decide
  refine ⟨hreplicas, hcs, hending, by decide, ?_⟩
  refine ((fanOut_balanced replicas hreplicas .quorum 100).2.1 cs hcs).2.2.2 ?_
  rw [show tallyUp _ _ _ cs = whole from rfl, hending]
  exact nofun

end Cluster

end QuorumStore
