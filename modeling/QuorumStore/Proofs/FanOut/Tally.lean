import QuorumStore.FanOut

/-!
# Tallying Replies

What the decision over a sequence of replies rests on.

`tallyFrom` looks at one reply after another and may stop after each. What it
has seen by then is a front part of the sequence, and its tally is that of the
front part: `tallyFrom_seen` names it. Two things follow whatever the replies
are. It never accepts more than it needs, since it stops at the last reply it
needed; and it ends satisfied exactly when it has accepted as many.

Nothing so far promises that an operation succeeds. `tallyUp_satisfied` does:
if as many replies are acceptable as are needed, the others cannot stop it,
because each of them that fails leaves enough calls for the rest.

## Main definitions

* `Completion.accepted?`: The accepted reply that a completion brings.
* `Tally.recordAll`: The tally after a sequence of replies.

## Theorems

* `Tally.accepted_recordAll`: What a tally has accepted.
* `tallyFrom_cases`: A tally stops, or goes on with a reply.
* `tallyFrom_seen`: A tally is that of a front part of the replies.
* `tallyFrom_length_le`: No more is accepted than is needed.
* `tallyFrom_satisfied_iff`: Satisfied means that enough was accepted.
* `tallyUp_accepted`: What an operation has accepted by its end.
* `tallyUp_satisfied`: Enough acceptable replies satisfy an operation.
* `Outcome.result_eq_ok_iff`: An operation succeeds by being satisfied.
-/

namespace QuorumStore

variable {α : Type}

/-- The accepted reply that a completion brings, with where it came from. -/
def Completion.accepted? (c : Completion α) : Option (Endpoint × α) :=
  match c.judged with
  | .accepted a => some (c.endpoint, a)
  | _ => none

theorem Completion.length_accepted?_le (c : Completion α) : c.accepted?.toList.length ≤ 1 := by
  cases c.accepted? <;> simp

namespace Tally

/-- The tally after a sequence of replies. -/
def recordAll (t : Tally α) (cs : List (Completion α)) : Tally α :=
  cs.foldl (fun t c => t.record c.endpoint c.judged) t

theorem recordAll_cons (t : Tally α) (c : Completion α) (cs : List (Completion α)) :
    t.recordAll (c :: cs) = (t.record c.endpoint c.judged).recordAll cs := rfl

theorem recordAll_concat (t : Tally α) (cs : List (Completion α)) (c : Completion α) :
    t.recordAll (cs ++ [c]) = (t.recordAll cs).record c.endpoint c.judged := by
  rw [recordAll, List.foldl_append]
  rfl

theorem accepted_record (t : Tally α) (c : Completion α) :
    (t.record c.endpoint c.judged).accepted = t.accepted ++ c.accepted?.toList := by
  unfold record Completion.accepted?
  cases c.judged <;> simp

theorem length_accepted_record (t : Tally α) (c : Completion α) :
    (t.record c.endpoint c.judged).accepted.length =
      t.accepted.length + c.accepted?.toList.length := by
  rw [accepted_record, List.length_append]

/-- Every reply is accepted or counts as a failure. -/
theorem failed_record (t : Tally α) (c : Completion α) :
    (t.record c.endpoint c.judged).failed + c.accepted?.toList.length = t.failed + 1 := by
  unfold record Completion.accepted?
  cases c.judged <;> simp

theorem accepted_recordAll (t : Tally α) (cs : List (Completion α)) :
    (t.recordAll cs).accepted = t.accepted ++ cs.filterMap Completion.accepted? := by
  induction cs generalizing t with
  | nil => simp only [recordAll, List.foldl_nil, List.filterMap_nil, List.append_nil]
  | cons c cs ih =>
    rw [recordAll_cons, ih, accepted_record, List.append_assoc]
    cases h : c.accepted? with
    | none => simp only [List.filterMap_cons_none h, Option.toList_none, List.nil_append]
    | some p =>
      simp only [List.filterMap_cons_some h, Option.toList_some, List.singleton_append]

theorem phase_eq_satisfied_iff (t : Tally α) (total needed : Nat) :
    t.phase total needed = .satisfied ↔ needed ≤ t.accepted.length := by
  unfold phase
  by_cases h : needed ≤ t.accepted.length
  · rw [if_pos h]
    exact ⟨fun _ => h, fun _ => rfl⟩
  · rw [if_neg h]
    split <;> simp [h]

theorem phase_eq_unreachable_iff (t : Tally α) (total needed : Nat) :
    t.phase total needed = .unreachable ↔
      t.accepted.length < needed ∧ total - t.failed < needed := by
  unfold phase
  by_cases h : needed ≤ t.accepted.length
  · simp [if_pos h, Nat.not_lt_of_le h]
  · rw [if_neg h]
    by_cases hf : total - t.failed < needed
    · simp [Nat.lt_of_not_le h, hf]
    · simp [hf]

theorem phase_eq_waiting_iff (t : Tally α) (total needed : Nat) :
    t.phase total needed = .waiting ↔
      t.accepted.length < needed ∧ needed ≤ total - t.failed := by
  unfold phase
  by_cases h : needed ≤ t.accepted.length
  · simp [if_pos h, Nat.not_lt_of_le h]
  · rw [if_neg h]
    by_cases hf : total - t.failed < needed
    · simp [if_pos hf, Nat.not_le_of_lt hf]
    · simp [if_neg hf, Nat.lt_of_not_le h, Nat.le_of_not_lt hf]

end Tally

section TallyFrom

variable {total needed deadline : Nat}

/-- A tally stops with what it has, or goes on with a reply that is in time. -/
theorem tallyFrom_cases {pending now : Nat} (t : Tally α) (cs : List (Completion α))
    (hnow : now ≤ deadline) :
    ((tallyFrom total needed deadline pending now t cs).tally = t ∧
      now ≤ (tallyFrom total needed deadline pending now t cs).elapsed ∧
      ((tallyFrom total needed deadline pending now t cs).ending = .satisfied ↔
        needed ≤ t.accepted.length)) ∨
    ∃ c rest, cs = c :: rest ∧ t.accepted.length < needed ∧ c.due < deadline ∧
      tallyFrom total needed deadline pending now t cs =
        tallyFrom total needed deadline (pending - 1) c.due (t.record c.endpoint c.judged)
          rest := by
  -- It goes on in one case only: it waits, and a reply comes in time.
  have hsat := t.phase_eq_satisfied_iff total needed
  have hwait := t.phase_eq_waiting_iff total needed
  rw [tallyFrom.eq_def]
  cases hp : t.phase total needed with
  | satisfied => exact .inl ⟨rfl, Nat.le_refl _, by simp [← hsat, hp]⟩
  | unreachable => exact .inl ⟨rfl, Nat.le_refl _, by simp [← hsat, hp]⟩
  | waiting =>
    cases cs with
    | nil =>
      by_cases h0 : pending = 0
      · exact .inl (by simp [← hsat, hp, h0])
      · exact .inl (by simp [← hsat, hp, h0, hnow])
    | cons c cs =>
      by_cases hdue : c.due < deadline
      · exact .inr ⟨c, cs, rfl, (hwait.mp hp).1, hdue, by simp only [if_pos hdue]⟩
      · exact .inl (by simp [← hsat, hp, hdue, hnow])

/-- The tally is that of the replies seen, which are a front part of them all;
    none of them came after the end. -/
theorem tallyFrom_seen {pending now : Nat} {t : Tally α} {cs : List (Completion α)}
    (hsorted : cs.Pairwise fun a b => a.due ≤ b.due) (hcs : ∀ c ∈ cs, now ≤ c.due)
    (hnow : now ≤ deadline) :
    now ≤ (tallyFrom total needed deadline pending now t cs).elapsed ∧
    ∃ seen rest, cs = seen ++ rest ∧
      (tallyFrom total needed deadline pending now t cs).tally = t.recordAll seen ∧
      ∀ c ∈ seen, c.due ≤ (tallyFrom total needed deadline pending now t cs).elapsed := by
  induction cs generalizing pending now t with
  | nil =>
    rcases tallyFrom_cases t [] hnow with ⟨htally, helapsed, -⟩ | ⟨c, rest, hnil, -⟩
    · exact ⟨helapsed, [], [], rfl, htally, by simp⟩
    · cases hnil
  | cons c cs ih =>
    rcases tallyFrom_cases t (c :: cs) hnow with ⟨htally, helapsed, -⟩ | ⟨d, rest, hd, -, hdue, heq⟩
    · exact ⟨helapsed, [], c :: cs, rfl, htally, by simp⟩
    · cases hd
      -- The reply seen here goes in front of those that are seen from here on.
      have hpair := List.pairwise_cons.mp hsorted
      rcases @ih (pending - 1) c.due (t.record c.endpoint c.judged) hpair.2 hpair.1
        (Nat.le_of_lt hdue) with ⟨helapsed, seen, rest, rfl, htally, hseen⟩
      rw [heq]
      refine ⟨Nat.le_trans (hcs c List.mem_cons_self) helapsed, c :: seen, rest, rfl, htally, ?_⟩
      intro d hd
      rcases List.mem_cons.mp hd with rfl | hd
      · exact helapsed
      · exact hseen d hd

/-- No more replies are accepted than are needed. -/
theorem tallyFrom_length_le {pending now : Nat} {t : Tally α} {cs : List (Completion α)}
    (ht : t.accepted.length ≤ needed) (hnow : now ≤ deadline) :
    (tallyFrom total needed deadline pending now t cs).tally.accepted.length ≤ needed := by
  induction cs generalizing pending now t with
  | nil =>
    rcases tallyFrom_cases t [] hnow with ⟨htally, -⟩ | ⟨c, rest, hnil, -⟩
    · rw [htally]
      exact ht
    · cases hnil
  | cons c cs ih =>
    rcases tallyFrom_cases t (c :: cs) hnow with ⟨htally, -⟩ | ⟨d, rest, hd, hlt, hdue, heq⟩
    · rw [htally]
      exact ht
    · cases hd
      rw [heq]
      refine ih ?_ (Nat.le_of_lt hdue)
      -- A reply adds one at most, and there was room for one.
      have hone := c.length_accepted?_le
      rw [t.length_accepted_record c]
      omega

/-- An operation ends satisfied exactly when enough was accepted. -/
theorem tallyFrom_satisfied_iff {pending now : Nat} {t : Tally α} {cs : List (Completion α)}
    (hnow : now ≤ deadline) :
    (tallyFrom total needed deadline pending now t cs).ending = .satisfied ↔
      needed ≤ (tallyFrom total needed deadline pending now t cs).tally.accepted.length := by
  induction cs generalizing pending now t with
  | nil =>
    rcases tallyFrom_cases t [] hnow with ⟨htally, -, hend⟩ | ⟨c, rest, hnil, -⟩
    · rw [htally]
      exact hend
    · cases hnil
  | cons c cs ih =>
    rcases tallyFrom_cases t (c :: cs) hnow with ⟨htally, -, hend⟩ | ⟨d, rest, hd, -, hdue, heq⟩
    · rw [htally]
      exact hend
    · cases hd
      rw [heq]
      exact ih (Nat.le_of_lt hdue)

/-- While enough acceptable replies are still to come, failures among the
    others cannot make the number unreachable. -/
theorem tallyFrom_satisfied {pending now : Nat} {t : Tally α} {cs : List (Completion α)}
    (hdue : ∀ c ∈ cs, c.due < deadline)
    (henough : needed ≤ t.accepted.length + (cs.filterMap Completion.accepted?).length)
    (htotal : t.accepted.length + t.failed + cs.length ≤ total) :
    (tallyFrom total needed deadline pending now t cs).ending = .satisfied := by
  induction cs generalizing pending now t with
  | nil =>
    have hsat : t.phase total needed = .satisfied := by
      rw [t.phase_eq_satisfied_iff]
      simpa only [List.filterMap_nil, List.length_nil, Nat.add_zero] using henough
    rw [tallyFrom, hsat]
  | cons c cs ih =>
    by_cases hsat : needed ≤ t.accepted.length
    · rw [tallyFrom, (t.phase_eq_satisfied_iff total needed).mpr hsat]
    · have hsplit : (List.filterMap Completion.accepted? (c :: cs)).length
          = c.accepted?.toList.length + (cs.filterMap Completion.accepted?).length := by
        cases h : c.accepted? with
        | none => simp only [List.filterMap_cons_none h, Option.toList_none, List.length_nil,
            Nat.zero_add]
        | some p => simp only [List.filterMap_cons_some h, List.length_cons, Option.toList_some,
            List.length_nil, Nat.zero_add, Nat.add_comm]
      -- The calls still open are as many as the replies to come at least, so the
      -- phase stays at waiting, whether this reply is accepted or fails.
      have hfew := List.length_filterMap_le Completion.accepted? cs
      have hone := c.length_accepted?_le
      have haccepted := t.length_accepted_record c
      have hfailed := t.failed_record c
      rw [List.length_cons] at htotal
      have hwait : t.phase total needed = .waiting := by
        rw [t.phase_eq_waiting_iff]
        omega
      rw [tallyFrom, hwait]
      simp only [if_pos (hdue c List.mem_cons_self)]
      refine ih (fun d hd => hdue d (List.mem_cons_of_mem _ hd)) ?_ ?_ <;> omega

end TallyFrom

/-- What an operation over a sequence of replies rests on: it accepted part of
    a front part of them, no more than it needed, and all of that by its end. -/
theorem tallyUp_accepted {total needed deadline : Nat} {cs : List (Completion α)}
    (hsorted : cs.Pairwise fun a b => a.due ≤ b.due) :
    (tallyUp total needed deadline cs).tally.accepted.length ≤ needed ∧
    ∃ seen rest, cs = seen ++ rest ∧
      (tallyUp total needed deadline cs).tally.accepted
        = seen.filterMap Completion.accepted? ∧
      ∀ c ∈ seen, c.due ≤ (tallyUp total needed deadline cs).elapsed := by
  unfold tallyUp
  rcases @tallyFrom_seen α total needed deadline total 0 {} cs hsorted (by simp)
    (Nat.zero_le _) with ⟨-, seen, rest, hcs, htally, hseen⟩
  refine ⟨tallyFrom_length_le (Nat.zero_le _) (Nat.zero_le _), seen, rest, hcs, ?_, hseen⟩
  rw [htally, Tally.accepted_recordAll, List.nil_append]

/-- As many acceptable replies as are needed satisfy an operation, whatever
    becomes of its other calls. -/
theorem tallyUp_satisfied {total needed deadline : Nat} {cs : List (Completion α)}
    (hdue : ∀ c ∈ cs, c.due < deadline)
    (henough : needed ≤ (cs.filterMap Completion.accepted?).length)
    (htotal : cs.length ≤ total) :
    (tallyUp total needed deadline cs).ending = .satisfied := by
  refine tallyFrom_satisfied hdue ?_ ?_
  · simpa using henough
  · simpa using htotal

/-- An operation succeeds by ending satisfied, with what it accepted. -/
theorem Outcome.result_eq_ok_iff {o : Outcome α} {replies : List (Endpoint × α)} :
    o.result = .ok replies ↔ o.ending = .satisfied ∧ o.tally.accepted = replies := by
  unfold Outcome.result
  cases o.ending with
  | satisfied => simp
  | timedOut => simp
  | unreachable => cases o.tally.lastFailure <;> simp
  | exhausted => cases o.tally.lastFailure <;> simp

end QuorumStore
