import QuorumStore.Proofs.Session.Isolation
import QuorumStore.Proofs.System.Run

/-!
# Isolation of Keys over Whole Runs

A run with everything left out that does not matter to a key.

Only the moves that matter to the key are kept, with the plans of their calls
and their tickets, and every change of levels. To somebody who looks at nothing
but the key, the two runs are the same. They go on side by side with one facet:
an event that is kept takes both to one facet again, and comes to the same in
both, while one that is left out leaves the facet of the longer run as it is.

## Main definitions

* `Event.mattersTo`: The event is kept for a key.
* `System.Facet`, `System.facet`: What there is of a system at a key.
* `Moment.note`: The move, what it comes to, and how long it takes.

## Theorems

* `System.facet_advance_congr`, `System.effect?_congr`: Events that are kept.
* `System.facet_advance_other`: Events that are left out.
* `System.facet_run_filter`: The run and what is kept of it.
-/

namespace QuorumStore

/-- The event is a change of levels, or a move that matters to the key. -/
def Event.mattersTo (event : Event) (key : String) : Bool :=
  match event with
  | .move m => m.operation.mattersTo key
  | .retune _ _ _ => true

/-- Sessions and replicas, as far as one key goes. -/
structure System.Facet where
  sessions : List Session.Facet
  cluster : Endpoint → Option (Option Version)

/-- What there is of a system at a key. -/
def System.facet (sys : System) (key : String) : System.Facet :=
  ⟨sys.sessions.map (·.facet key), sys.cluster.facet key⟩

/-- The move, with what it comes to and how many milliseconds it takes; nothing
    comes of it if nobody makes it. -/
def Moment.note (m : Moment) : Move × Option (Except OpError Answer × Nat) :=
  (m.move, (m.system.effect? m.move).map fun x => (x.result, x.elapsed))

namespace System

variable {sys sys' : System} {key : String}

theorem facet_eq_iff : sys.facet key = sys'.facet key ↔
    sys.sessions.map (·.facet key) = sys'.sessions.map (·.facet key) ∧
      sys.cluster.facet key = sys'.cluster.facet key := by
  rw [facet, facet, Facet.mk.injEq]

/-- Two systems of one facet have the same sessions, as far as the key goes. -/
theorem sessions_of_facet (h : sys.facet key = sys'.facet key) (who : Nat) :
    (sys.sessions[who]? = none ∧ sys'.sessions[who]? = none) ∨
    ∃ s t, sys.sessions[who]? = some s ∧ sys'.sessions[who]? = some t ∧
      s.facet key = t.facet key := by
  have hwho := congrArg (fun l : List Session.Facet => l[who]?) (facet_eq_iff.mp h).1
  simp only [List.getElem?_map] at hwho
  exact cases_of_map_eq_map hwho

theorem history_of_facet (h : sys.facet key = sys'.facet key) (who : Nat) :
    sys.history who key = sys'.history who key := by
  rcases sessions_of_facet h who with ⟨hs, ht⟩ | ⟨s, t, hs, ht, hst⟩
  · rw [history, history, hs, ht]
  · rw [history_of_session hs, history_of_session ht]
    exact congrArg Session.Facet.history hst

theorem holds?_of_facet (h : sys.facet key = sys'.facet key) (e : Endpoint) :
    sys.cluster.holds? e key = sys'.cluster.holds? e key := by
  rw [Cluster.holds?_eq_join, Cluster.holds?_eq_join, (facet_eq_iff.mp h).2]

/-- Effects of one facet leave systems of one facet. -/
theorem facet_settle_congr {α : Type} {x y : Effect α} (h : sys.facet key = sys'.facet key)
    (hx : x.facet key = y.facet key) (who : Nat) :
    (sys.settle who x).facet key = (sys'.settle who y).facet key := by
  rcases Effect.facet_eq_iff.mp hx with ⟨-, hsession, hcluster, -⟩
  refine facet_eq_iff.mpr ⟨?_, hcluster⟩
  rw [settle, settle, List.map_set, List.map_set, hsession, (facet_eq_iff.mp h).1]

/-- An effect that changes the facet neither of its session nor of the cluster
    does not change that of the system. -/
theorem facet_settle_other {α : Type} {x : Effect α} {who : Nat} {s : Session}
    (hs : sys.sessions[who]? = some s) (hsession : x.session.facet key = s.facet key)
    (hcluster : x.cluster.facet key = sys.cluster.facet key) :
    (sys.settle who x).facet key = sys.facet key := by
  refine facet_eq_iff.mpr ⟨?_, hcluster⟩
  have hwho : (sys.sessions.map (·.facet key))[who]? = some (s.facet key) := by
    rw [List.getElem?_map, hs]
    rfl
  rcases List.getElem?_eq_some_iff.mp hwho with ⟨hlt, hfacet⟩
  rw [settle, List.map_set, hsession, ← hfacet, List.set_getElem_self]

section Kept

variable {m : Move} (h : sys.facet key = sys'.facet key)
include h

/-- A move that matters to the key comes to the same in both systems. -/
theorem effect?_congr (hmatters : m.operation.mattersTo key = true) :
    (sys.effect? m).map (·.facet key) = (sys'.effect? m).map (·.facet key) := by
  rw [effect?, effect?]
  rcases sessions_of_facet h m.who with ⟨hs, ht⟩ | ⟨s, t, hs, ht, hst⟩
  · rw [hs, ht]
    rfl
  · rw [hs, ht]
    exact congrArg some (Session.facet_perform_congr hst (facet_eq_iff.mp h).2 _ _ hmatters)

theorem facet_step_congr (hmatters : m.operation.mattersTo key = true) :
    (sys.step m).facet key = (sys'.step m).facet key := by
  rw [step, step]
  rcases cases_of_map_eq_map (effect?_congr h hmatters) with ⟨hx, hy⟩ | ⟨x, y, hx, hy, hxy⟩
  · rw [hx, hy]
    exact h
  · rw [hx, hy]
    exact facet_settle_congr h hxy m.who

theorem note_congr (hmatters : m.operation.mattersTo key = true) :
    (⟨sys, m⟩ : Moment).note = (⟨sys', m⟩ : Moment).note := by
  have hview := congrArg (Option.map fun x : Effect.Facet Answer => (x.result, x.elapsed))
    (effect?_congr h hmatters)
  rw [Option.map_map, Option.map_map] at hview
  exact congrArg (Prod.mk m) hview

theorem facet_retune_congr (who : Nat) (read write : Option Level) :
    (sys.retune who read write).facet key = (sys'.retune who read write).facet key := by
  refine facet_eq_iff.mpr ⟨List.ext_getElem? fun other => ?_, (facet_eq_iff.mp h).2⟩
  rw [List.getElem?_map, List.getElem?_map, sessions_retune, sessions_retune]
  rcases sessions_of_facet h other with ⟨hs, ht⟩ | ⟨s, t, hs, ht, hst⟩
  · rw [hs, ht]
  · by_cases hwho : other = who
    · rw [if_pos hwho, if_pos hwho, hs, ht]
      exact congrArg some (Session.facet_setLevels_congr hst read write)
    · rw [if_neg hwho, if_neg hwho, hs, ht]
      exact congrArg some hst

theorem facet_advance_congr {event : Event} (hmatters : event.mattersTo key = true) :
    (sys.advance event).facet key = (sys'.advance event).facet key := by
  cases event with
  | move m => exact facet_step_congr h hmatters
  | retune who read write => exact facet_retune_congr h who read write

end Kept

/-- An event that does not matter to the key leaves it as it is. -/
theorem facet_advance_other {event : Event} (hmatters : event.mattersTo key = false) :
    (sys.advance event).facet key = sys.facet key := by
  cases event with
  | retune who read write => cases hmatters
  | move m =>
    rw [advance]
    cases hs : sys.sessions[m.who]? with
    | none => rw [step_of_nobody hs]
    | some s =>
      rcases s.facet_perform_other sys.cluster m.plan m.ticket hmatters with ⟨hsession, hcluster⟩
      rw [step, effect?, hs]
      exact facet_settle_other hs hsession hcluster

/-- A run and what is kept of it have the same notes of the moves that are
    kept, and end with one facet. -/
theorem facet_run_filter (h : sys.facet key = sys'.facet key) (es : List Event) :
    ((sys.chronicle es).filter fun m => m.move.operation.mattersTo key).map Moment.note =
      (sys'.chronicle (es.filter fun event => event.mattersTo key)).map Moment.note ∧
    (sys.run es).facet key =
      (sys'.run (es.filter fun event => event.mattersTo key)).facet key := by
  induction es generalizing sys sys' with
  | nil => exact ⟨rfl, h⟩
  | cons event es ih =>
    cases hmatters : event.mattersTo key with
    | false =>
      -- The longer run takes a step, the other stays where it is.
      rcases ih ((facet_advance_other hmatters).trans h) with ⟨hnotes, hfacet⟩
      rw [List.filter_cons, hmatters, if_neg Bool.false_ne_true]
      refine ⟨?_, hfacet⟩
      rw [← hnotes]
      cases event with
      | retune who read write => cases hmatters
      | move m =>
        have hmove : m.operation.mattersTo key = false := hmatters
        rw [chronicle, List.filter_cons, hmove, if_neg Bool.false_ne_true]
        rfl
    | true =>
      rcases ih (facet_advance_congr h hmatters) with ⟨hnotes, hfacet⟩
      rw [List.filter_cons, hmatters, if_pos rfl]
      refine ⟨?_, hfacet⟩
      cases event with
      | retune who read write => exact hnotes
      | move m =>
        have hmove : m.operation.mattersTo key = true := hmatters
        rw [chronicle, chronicle, List.filter_cons, hmove, if_pos rfl, List.map_cons,
          List.map_cons, note_congr h hmove]
        exact congrArg _ hnotes

end System

end QuorumStore
