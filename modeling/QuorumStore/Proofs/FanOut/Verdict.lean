import Mathlib.Order.Basic
import QuorumStore.Proofs.FanOut.Tally

/-!
# Verdicts

How a sequence of replies ends, told without a tally.

Lay out the replies in the order in which they come. Some front parts of that
sequence settle the matter: they have as many accepted replies as are needed,
or so many failures that the calls which are left cannot make up the number.
The shortest of them is what decides (`Decisive`). Everything about the end of
an operation can be read off it: whether it succeeds, with which replies, at
what time, and for which failure if it does not.

`tallyFrom` never looks at a front part as a whole. It keeps a tally and asks
after each reply where it stands. `tallyUp_of_decisive` says that this comes to
the same, and `tallyUp_of_undecided` says what happens where no front part
settles anything: the deadline passes. It cannot be that all calls are over by
then, since a complete sequence always settles the matter
(`decides_of_length_eq`). So of the two ways in which a tally can run out of
replies one never occurs.

## Main definitions

* `Completion.failed`: A completion that counts as a failure.
* `Completion.failure?`: The failure with a cause that a completion brings.
* `Decides`: Replies that settle the matter.
* `Decisive`: The shortest front part that does.
* `lastDue`: When the last of some replies came.

## Theorems

* `Tally.failed_recordAll`, `Tally.lastFailure_recordAll`: What a tally has
  counted and kept.
* `Tally.phase_recordAll`: A tally waits while nothing is settled.
* `decides_of_length_eq`: All replies together settle the matter.
* `exists_decisive`: What is settled is settled by a shortest front part.
* `tallyUp_of_decisive`, `tallyUp_of_undecided`: The two ways to end.
-/

namespace QuorumStore

variable {α : Type}

/-- The completion counts as a failure. -/
def Completion.failed (c : Completion α) : Bool := c.accepted?.isNone

/-- The failure with a cause that a completion brings, with where it came
    from. -/
def Completion.failure? (c : Completion α) : Option (Endpoint × CallError) :=
  match c.judged with
  | .refused e => some (c.endpoint, e)
  | _ => none

/-- The replies settle the matter: enough of them are accepted, or so many have
    failed that the rest of the calls cannot make up the number. -/
def Decides (total needed : Nat) (cs : List (Completion α)) : Prop :=
  needed ≤ (cs.filterMap Completion.accepted?).length ∨
    total - needed < cs.countP Completion.failed

instance (total needed : Nat) (cs : List (Completion α)) : Decidable (Decides total needed cs) :=
  inferInstanceAs (Decidable (_ ∨ _))

/-- The shortest front part of some replies that settles the matter. -/
structure Decisive (total needed : Nat) (cs P : List (Completion α)) : Prop where
  front : P <+: cs
  decides : Decides total needed P
  shortest : ∀ Q, Q <+: P → Decides total needed Q → Q = P

/-- When the last of some replies came. -/
def lastDue (cs : List (Completion α)) : Nat := (cs.getLast?.map (·.due)).getD 0

/-- Every reply is accepted or counts as a failure. -/
theorem length_eq_accepted_add_failed (cs : List (Completion α)) :
    cs.length = (cs.filterMap Completion.accepted?).length + cs.countP Completion.failed := by
  induction cs with
  | nil => rfl
  | cons c cs ih =>
    rw [List.length_cons, ih, List.countP_cons, Completion.failed]
    cases h : c.accepted? with
    | none => simp [List.filterMap_cons_none h, Nat.add_assoc]
    | some p => simp [List.filterMap_cons_some h, Nat.add_right_comm]

/-- All replies together settle the matter: those that failed are the total
    less those that were accepted. -/
theorem decides_of_length_eq {total needed : Nat} {cs : List (Completion α)}
    (hle : needed ≤ total) (hlen : total ≤ cs.length) : Decides total needed cs := by
  have hsplit := length_eq_accepted_add_failed cs
  unfold Decides
  omega

/-- What is settled is settled by a shortest front part. -/
theorem exists_decisive {total needed : Nat} {cs Q : List (Completion α)} (hQ : Q <+: cs)
    (hdecides : Decides total needed Q) : ∃ P, P <+: Q ∧ Decisive total needed cs P := by
  induction hn : Q.length using Nat.strongRecOn generalizing Q with
  | _ n ih =>
    -- Either no shorter front part will do, or one of those is the shortest.
    by_cases h : ∃ R, R <+: Q ∧ Decides total needed R ∧ R ≠ Q
    · rcases h with ⟨R, hRQ, hR, hne⟩
      have hlt : R.length < n := by
        rw [← hn]
        exact Nat.lt_of_le_of_ne hRQ.length_le fun heq => hne (hRQ.eq_of_length heq)
      rcases ih R.length hlt (hRQ.trans hQ) hR rfl with ⟨P, hPR, hP⟩
      exact ⟨P, hPR.trans hRQ, hP⟩
    · refine ⟨Q, List.prefix_refl Q, hQ, hdecides, fun R hRQ hR => ?_⟩
      by_contra hne
      exact h ⟨R, hRQ, hR, hne⟩

namespace Tally

theorem failed_recordAll (t : Tally α) (cs : List (Completion α)) :
    (t.recordAll cs).failed = t.failed + cs.countP Completion.failed := by
  induction cs generalizing t with
  | nil => rfl
  | cons c cs ih =>
    have hrecord := t.failed_record c
    rw [recordAll_cons, ih, List.countP_cons, Completion.failed]
    cases h : c.accepted? with
    | none =>
      rw [h, Option.toList_none, List.length_nil, Nat.add_zero] at hrecord
      rw [hrecord, Option.isNone_none, if_pos rfl, Nat.add_assoc, Nat.add_comm 1]
    | some p =>
      rw [h, Option.toList_some, List.length_singleton, Nat.add_right_cancel_iff] at hrecord
      rw [hrecord]
      rfl

/-- A tally keeps the last failure that had a cause. -/
theorem lastFailure_recordAll (t : Tally α) (cs : List (Completion α)) :
    (t.recordAll cs).lastFailure =
      (cs.filterMap Completion.failure?).getLast?.or t.lastFailure := by
  induction cs generalizing t with
  | nil => rfl
  | cons c cs ih =>
    have hrecord : (t.record c.endpoint c.judged).lastFailure = c.failure?.or t.lastFailure := by
      unfold record Completion.failure?
      cases c.judged <;> rfl
    rw [recordAll_cons, ih, hrecord]
    cases h : c.failure? with
    | none => rw [List.filterMap_cons_none h, Option.none_or]
    | some p =>
      rw [List.filterMap_cons_some h, List.getLast?_cons]
      cases (cs.filterMap Completion.failure?).getLast? <;> rfl

/-- A tally waits exactly while nothing is settled. -/
theorem phase_recordAll {total needed : Nat} (hle : needed ≤ total)
    (cs : List (Completion α)) :
    (({} : Tally α).recordAll cs).phase total needed = .waiting ↔ ¬ Decides total needed cs := by
  rw [phase_eq_waiting_iff, accepted_recordAll, failed_recordAll, List.nil_append, Nat.zero_add]
  unfold Decides
  omega

end Tally

section TallyFrom

variable {total needed deadline pending now : Nat} {t : Tally α}

/-- A tally that waits at every shorter front part stops where it no longer
    does. -/
theorem tallyFrom_stops {P rest : List (Completion α)}
    (hwaits : ∀ Q, Q <+: P → Q ≠ P → (t.recordAll Q).phase total needed = .waiting)
    (hstops : (t.recordAll P).phase total needed ≠ .waiting)
    (hdue : ∀ c ∈ P, c.due < deadline) :
    tallyFrom total needed deadline pending now t (P ++ rest) =
      ⟨if needed ≤ (t.recordAll P).accepted.length then .satisfied else .unreachable,
        t.recordAll P, (P.getLast?.map (·.due)).getD now⟩ := by
  induction P generalizing pending now t with
  | nil =>
    have hsat := t.phase_eq_satisfied_iff total needed
    rw [List.nil_append, tallyFrom.eq_def]
    rw [Tally.recordAll, List.foldl_nil] at hstops ⊢
    cases hp : t.phase total needed with
    | waiting => exact absurd hp hstops
    | satisfied => simp [hsat.mp hp]
    | unreachable =>
      have hfew : ¬ needed ≤ t.accepted.length := by
        intro h
        rw [hsat.mpr h] at hp
        cases hp
      simp [hfew]
  | cons c P ih =>
    have hhere : t.phase total needed = .waiting := hwaits [] (List.nil_prefix) (by simp)
    rw [List.cons_append, tallyFrom, hhere]
    simp only [if_pos (hdue c List.mem_cons_self)]
    rw [ih ?_ hstops fun d hd => hdue d (List.mem_cons_of_mem c hd), Tally.recordAll_cons,
      List.getLast?_cons]
    · cases P.getLast? <;> rfl
    · intro Q hQ hne
      have hlonger := hwaits (c :: Q) (List.cons_prefix_cons.mpr ⟨rfl, hQ⟩)
      exact hlonger fun heq => hne (List.cons.inj heq).2

/-- A tally that waits throughout times out, if there are calls left. -/
theorem tallyFrom_waits {cs : List (Completion α)}
    (hwaits : ∀ Q, Q <+: cs → (t.recordAll Q).phase total needed = .waiting)
    (hdue : ∀ c ∈ cs, c.due < deadline) (hpending : cs.length < pending) :
    tallyFrom total needed deadline pending now t cs = ⟨.timedOut, t.recordAll cs, deadline⟩ := by
  induction cs generalizing pending now t with
  | nil =>
    have hhere : t.phase total needed = .waiting := hwaits [] List.nil_prefix
    rw [tallyFrom, hhere]
    exact if_neg (Nat.ne_of_gt hpending)
  | cons c cs ih =>
    have hhere : t.phase total needed = .waiting := hwaits [] List.nil_prefix
    rw [tallyFrom, hhere]
    simp only [if_pos (hdue c List.mem_cons_self)]
    rw [List.length_cons] at hpending
    refine ih (fun Q hQ => hwaits (c :: Q) (List.cons_prefix_cons.mpr ⟨rfl, hQ⟩))
      (fun d hd => hdue d (List.mem_cons_of_mem c hd)) (by omega)

end TallyFrom

/-- The shortest front part that settles the matter is what an operation rests
    on, if it comes in time. -/
theorem tallyUp_of_decisive {total needed deadline : Nat} {cs P : List (Completion α)}
    (hle : needed ≤ total) (h : Decisive total needed cs P) (hdue : ∀ c ∈ P, c.due < deadline) :
    tallyUp total needed deadline cs =
      ⟨if needed ≤ (P.filterMap Completion.accepted?).length then .satisfied else .unreachable,
        ({} : Tally α).recordAll P, lastDue P⟩ := by
  rcases h.front with ⟨rest, rfl⟩
  rw [tallyUp, tallyFrom_stops ?_ ?_ hdue, Tally.accepted_recordAll, List.nil_append]
  · rfl
  · intro Q hQ hne
    exact (Tally.phase_recordAll hle Q).mpr fun hdecides => hne (h.shortest Q hQ hdecides)
  · rw [ne_eq, Tally.phase_recordAll hle, not_not]
    exact h.decides

/-- Where nothing settles the matter the deadline passes. -/
theorem tallyUp_of_undecided {total needed deadline : Nat} {cs : List (Completion α)}
    (hle : needed ≤ total) (h : ∀ Q, Q <+: cs → ¬ Decides total needed Q)
    (hdue : ∀ c ∈ cs, c.due < deadline) :
    tallyUp total needed deadline cs = ⟨.timedOut, ({} : Tally α).recordAll cs, deadline⟩ := by
  refine tallyFrom_waits (fun Q hQ => (Tally.phase_recordAll hle Q).mpr (h Q hQ)) hdue ?_
  -- Otherwise all calls were over.
  by_contra hover
  exact h cs (List.prefix_refl cs) (decides_of_length_eq hle (by omega))

end QuorumStore
