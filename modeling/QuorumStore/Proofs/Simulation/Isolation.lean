import QuorumStore.Proofs.System.Isolation
import QuorumStore.Simulation

/-!
# Isolation of Keys in Simulations

Keys do not interfere.

Whoever looks at one key cannot tell what has been done to the others. Take the
operations on other keys and the questions for status out of a run, and what is
left of it comes to the same and takes as long. Every session remembers the
same of the key, and every replica holds the same under it.

For runs of a system this needs nothing of the plans but that an operation that
stays keeps its own (`System.facet_run_filter`). In a simulation the plans come
of the disturbances of the sessions and of the rules of the replicas. Neither
of them knows of keys, and no operation changes them, so here too the plans stay
(`plan_congr`). A simulation has more to offer than operations: lines of a
shell, which count as the operation they ask for, and versions that are offered
to a replica behind everybody's back, which count as operations on their key.

## Main definitions

* `Deed`: An action, with the session that takes it.
* `Action.mattersTo`: The action is kept for a key.
* `Facet`, `facet`: What there is of a simulation at a key.
* `run`, `diary`: What a list of deeds leads to, and what comes of each.

## Theorems

* `plan_congr`: The plans of the calls know of no key.
* `act_congr`: Deeds that are kept.
* `facet_step_other`: Deeds that are left out.
* `facet_run_filter`: A run of deeds and what is kept of it.
* `keys_apart`: Keys do not interfere.
-/

namespace QuorumStore

namespace Simulation

/-- An action, with the session that takes it. -/
structure Deed where
  who : Nat
  action : Action

/-- The action is about the key, or it is about no key and asks for no
    status. -/
def Action.mattersTo (a : Action) (key : String) : Bool :=
  match a with
  | .perform op => op.mattersTo key
  | .type line =>
    match Shell.read line with
    | .operation op => op.mattersTo key
    | _ => true
  | .seed _ k _ => k == key
  | .setLevels _ _ => true
  | .disturb _ => true
  | .setRules _ _ => true

/-- A system as far as one key goes, with all that goes wrong in it. -/
structure Facet where
  system : System.Facet
  disturbances : List Disturbance
  rules : Table Endpoint (List Rule)

/-- What there is of a simulation at a key. -/
def facet (sim : Simulation) (key : String) : Facet :=
  ⟨sim.system.facet key, sim.disturbances, sim.rules⟩

/-- The simulation behind a deed; nothing happens if nobody does it. -/
def step (sim : Simulation) (d : Deed) : Simulation :=
  match sim.act d.who d.action with
  | some r => r.2
  | none => sim

/-- What comes of a deed, and how many milliseconds it takes. -/
def note (sim : Simulation) (d : Deed) : Option (Report × Nat) :=
  (sim.act d.who d.action).map fun r => (r.1.report, r.1.elapsed)

/-- The simulation behind a list of deeds. -/
def run (sim : Simulation) (ds : List Deed) : Simulation := ds.foldl step sim

/-- The deeds of a list, with what comes of each. -/
def diary (sim : Simulation) : List Deed → List (Deed × Option (Report × Nat))
  | [] => []
  | d :: ds => (d, sim.note d) :: (sim.step d).diary ds

/-- What there is of an outcome at a key. -/
def outcome (key : String) (r : Observed × Simulation) : Report × Nat × Facet :=
  (r.1.report, r.1.elapsed, r.2.facet key)

variable {sim sim' : Simulation} {key : String}

theorem outcome_eq_iff {r r' : Observed × Simulation} :
    outcome key r = outcome key r' ↔ r.1.report = r'.1.report ∧ r.1.elapsed = r'.1.elapsed ∧
      r.2.facet key = r'.2.facet key := by
  rw [outcome, outcome, Prod.mk.injEq, Prod.mk.injEq]

theorem facet_eq_iff : sim.facet key = sim'.facet key ↔
    sim.system.facet key = sim'.system.facet key ∧ sim.disturbances = sim'.disturbances ∧
      sim.rules = sim'.rules := by
  rw [facet, facet, Facet.mk.injEq]

section Kept

variable (h : sim.facet key = sim'.facet key)
include h

/-- The plan of a call is a matter of disturbances and rules, and of whether
    there is a replica. -/
theorem plan_congr (who : Nat) : sim.plan who = sim'.plan who := by
  rcases facet_eq_iff.mp h with ⟨hsystem, hdisturbances, hrules⟩
  funext kind e
  have hruled : sim.ruledPlan kind e = sim'.ruledPlan kind e := by
    rw [ruledPlan, ruledPlan, hrules]
    rcases Cluster.store?_of_facet (System.facet_eq_iff.mp hsystem).2 e
      with ⟨hc, hd⟩ | ⟨s, t, hc, hd, -⟩
    · rw [hc, hd]
    · rw [hc, hd]
  rw [plan, plan, disturbance, disturbance, hdisturbances, hruled]

theorem settle_congr {x y : Effect Answer} (hx : x.facet key = y.facet key) (who : Nat)
    (report : Report) :
    outcome key (sim.settle who report x) = outcome key (sim'.settle who report y) := by
  rcases facet_eq_iff.mp h with ⟨hsystem, hrest⟩
  exact outcome_eq_iff.mpr ⟨rfl, (Effect.facet_eq_iff.mp hx).2.2.2,
    facet_eq_iff.mpr ⟨System.facet_settle_congr hsystem hx who, hrest⟩⟩

section Session

variable {s t : Session} (hst : s.facet key = t.facet key)
include hst

/-- Under one plan an operation has effects of one facet. -/
theorem effect_congr {op : Operation} (hmatters : op.mattersTo key = true)
    (plan : Endpoint → Plan) :
    (s.perform sim.system.cluster plan ticket op).facet key =
      (t.perform sim'.system.cluster plan ticket op).facet key :=
  Session.facet_perform_congr hst (System.facet_eq_iff.mp (facet_eq_iff.mp h).1).2 plan ticket
    hmatters

theorem perform_congr {op : Operation} (hmatters : op.mattersTo key = true) (who : Nat) :
    outcome key (sim.perform who s op) = outcome key (sim'.perform who t op) := by
  have heffect := effect_congr h hst hmatters (sim.plan who op.kind)
  rw [perform, perform, ← plan_congr h, (Effect.facet_eq_iff.mp heffect).1]
  exact settle_congr h heffect who _

theorem type_congr {line : String} (hmatters : (Action.type line).mattersTo key = true)
    (who : Nat) : outcome key (sim.type who s line) = outcome key (sim'.type who t line) := by
  rw [Action.mattersTo] at hmatters
  rw [type, type, Shell.execute, Shell.execute, ← plan_congr h]
  cases hread : Shell.read line with
  | operation op =>
    rw [hread] at hmatters
    -- The text of the reply is made of the result.
    have heffect := effect_congr h hst hmatters (sim.plan who op.kind)
    simp only [(Effect.facet_eq_iff.mp heffect).1]
    exact settle_congr h heffect who _
  | blank => exact outcome_eq_iff.mpr ⟨rfl, rfl, h⟩
  | mistake e => exact outcome_eq_iff.mpr ⟨rfl, rfl, h⟩
  | exit => exact outcome_eq_iff.mpr ⟨rfl, rfl, h⟩

theorem setLevels_congr (who : Nat) (read write : Option Level) :
    outcome key (sim.setLevels who s read write) =
      outcome key (sim'.setLevels who t read write) := by
  rcases facet_eq_iff.mp h with ⟨hsystem, hrest⟩
  rcases System.facet_eq_iff.mp hsystem with ⟨hsessions, hcluster⟩
  have hlevels := Session.facet_setLevels_congr hst read write
  have hsettings := (Session.facet_eq_iff.mp hlevels).1
  refine outcome_eq_iff.mpr ⟨?_, rfl,
    facet_eq_iff.mpr ⟨System.facet_eq_iff.mpr ⟨?_, hcluster⟩, hrest⟩⟩
  · rw [setLevels, setLevels, hsettings]
  · rw [setLevels, setLevels, List.map_set, List.map_set, hlevels, hsessions]

end Session

theorem seed_congr (e : Endpoint) {k : String} (v : Version) (hk : k = key) :
    outcome key (sim.seed e k v) = outcome key (sim'.seed e k v) := by
  subst hk
  rcases facet_eq_iff.mp h with ⟨hsystem, hrest⟩
  rcases System.facet_eq_iff.mp hsystem with ⟨hsessions, hcluster⟩
  rcases Cluster.store?_of_facet hcluster e with ⟨hc, hd⟩ | ⟨s, t, hc, hd, hst⟩
  · rw [seed, seed, hc, hd]
    exact outcome_eq_iff.mpr ⟨rfl, rfl, h⟩
  · rw [seed, seed, hc, hd]
    refine outcome_eq_iff.mpr ⟨?_, rfl, facet_eq_iff.mpr
      ⟨System.facet_eq_iff.mpr ⟨hsessions, ?_⟩, hrest⟩⟩
    · exact congrArg Report.taken (Store.accepts_congr hst v)
    · rw [Cluster.facet_setStore, Cluster.facet_setStore, Store.get?_put_congr hst, hcluster]

/-- A deed that matters to the key comes to the same in both simulations, and
    leaves both with one facet again. -/
theorem act_congr (who : Nat) {a : Action} (hmatters : a.mattersTo key = true) :
    (sim.act who a).map (outcome key) = (sim'.act who a).map (outcome key) := by
  rw [act, act]
  rcases System.sessions_of_facet (facet_eq_iff.mp h).1 who with ⟨hs, ht⟩ | ⟨s, t, hs, ht, hst⟩
  · rw [hs, ht]
    rfl
  · rw [hs, ht, Option.map_some, Option.map_some, Option.map_some, Option.map_some,
      Option.some.injEq]
    rcases facet_eq_iff.mp h with ⟨hsystem, hdisturbances, hrules⟩
    cases a with
    | perform op => exact perform_congr h hst hmatters who
    | type line => exact type_congr h hst hmatters who
    | setLevels read write => exact setLevels_congr h hst who read write
    | disturb change =>
      refine outcome_eq_iff.mpr ⟨rfl, rfl, facet_eq_iff.mpr ⟨hsystem, ?_, hrules⟩⟩
      simp only [disturb, disturbance, hdisturbances]
    | setRules e rules =>
      refine outcome_eq_iff.mpr ⟨rfl, rfl, facet_eq_iff.mpr ⟨hsystem, hdisturbances, ?_⟩⟩
      simp only [setRules, hrules]
    | seed e k v => exact seed_congr h e v (eq_of_beq hmatters)

theorem note_congr {d : Deed} (hmatters : d.action.mattersTo key = true) :
    sim.note d = sim'.note d := by
  have hview := congrArg (Option.map fun o : Report × Nat × Facet => (o.1, o.2.1))
    (act_congr h d.who hmatters)
  rw [Option.map_map, Option.map_map] at hview
  exact hview

theorem facet_step_congr {d : Deed} (hmatters : d.action.mattersTo key = true) :
    (sim.step d).facet key = (sim'.step d).facet key := by
  rw [step, step]
  rcases cases_of_map_eq_map (act_congr h d.who hmatters) with ⟨hr, hr'⟩ | ⟨r, r', hr, hr', hrr'⟩
  · rw [hr, hr']
    exact h
  · rw [hr, hr']
    exact (outcome_eq_iff.mp hrr').2.2

end Kept

theorem facet_settle_other {who : Nat} {s : Session} (hs : sim.system.sessions[who]? = some s)
    {plan : Endpoint → Plan} {op : Operation} (hmatters : op.mattersTo key = false)
    (report : Report) :
    (sim.settle who report (s.perform sim.system.cluster plan ticket op)).2.facet key =
      sim.facet key := by
  rcases s.facet_perform_other sim.system.cluster plan ticket hmatters with ⟨hsession, hcluster⟩
  exact facet_eq_iff.mpr ⟨System.facet_settle_other hs hsession hcluster, rfl, rfl⟩

/-- A deed that does not matter to the key leaves it as it is. -/
theorem facet_step_other (sim : Simulation) {d : Deed}
    (hmatters : d.action.mattersTo key = false) :
    (sim.step d).facet key = sim.facet key := by
  rcases d with ⟨who, a⟩
  rw [step, act]
  cases hs : sim.system.sessions[who]? with
  | none => rfl
  | some s =>
    cases a with
    | perform op => exact facet_settle_other hs hmatters _
    | type line =>
      simp only [Action.mattersTo] at hmatters
      simp only [Option.map_some, type, Shell.execute]
      cases hread : Shell.read line with
      | operation op =>
        rw [hread] at hmatters
        exact facet_settle_other hs hmatters _
      | blank => rfl
      | mistake e => rfl
      | exit => rfl
    | seed e k v =>
      simp only [Option.map_some, seed]
      cases hstore : sim.system.cluster.store? e with
      | none => rfl
      | some st =>
        refine facet_eq_iff.mpr ⟨System.facet_eq_iff.mpr ⟨rfl, ?_⟩, rfl, rfl⟩
        -- The replica keeps what it has under the key.
        rw [Cluster.facet_setStore, Store.get?_put_other st v (ne_of_beq_false hmatters).symm,
          Function.update_eq_self_iff, Cluster.facet, hstore]
        rfl
    | setLevels read write => cases hmatters
    | disturb change => cases hmatters
    | setRules e rules => cases hmatters

/-- A run of deeds and what is kept of it: the deeds that are kept come to the
    same, and both end with one facet. -/
theorem facet_run_filter (h : sim.facet key = sim'.facet key) (ds : List Deed) :
    ((sim.diary ds).filter fun entry => entry.1.action.mattersTo key) =
      sim'.diary (ds.filter fun d => d.action.mattersTo key) ∧
    (sim.run ds).facet key = (sim'.run (ds.filter fun d => d.action.mattersTo key)).facet key := by
  induction ds generalizing sim sim' with
  | nil => exact ⟨rfl, h⟩
  | cons d ds ih =>
    rw [diary]
    cases hmatters : d.action.mattersTo key with
    | false =>
      rcases ih ((facet_step_other sim hmatters).trans h) with ⟨hdiary, hfacet⟩
      rw [List.filter_cons, List.filter_cons, hmatters, if_neg Bool.false_ne_true,
        if_neg Bool.false_ne_true]
      exact ⟨hdiary, hfacet⟩
    | true =>
      rcases ih (facet_step_congr h hmatters) with ⟨hdiary, hfacet⟩
      rw [List.filter_cons, List.filter_cons, hmatters, if_pos rfl, if_pos rfl, diary,
        note_congr h hmatters, hdiary]
      exact ⟨rfl, hfacet⟩

/-- Keys do not interfere. Let everything be left out of a run that is about
    other keys, and every question for status. Then what is left comes to the
    same and takes as long, every session remembers the same of the key, and
    every replica holds the same under it. This holds of the moves of a system
    whatever the plans of their calls are, and of the deeds of a simulation,
    where disturbances and rules make the plans. -/
theorem keys_apart (key : String) :
    (∀ (sys : System) (es : List Event),
      let kept := es.filter fun event => event.mattersTo key
      ((sys.chronicle es).filter fun m => m.move.operation.mattersTo key).map Moment.note =
          (sys.chronicle kept).map Moment.note ∧
        (∀ who, (sys.run es).history who key = (sys.run kept).history who key) ∧
        ∀ e, (sys.run es).cluster.holds? e key = (sys.run kept).cluster.holds? e key) ∧
    ∀ (sim : Simulation) (ds : List Deed),
      let kept := ds.filter fun d => d.action.mattersTo key
      ((sim.diary ds).filter fun entry => entry.1.action.mattersTo key) = sim.diary kept ∧
        (∀ who, (sim.run ds).system.history who key = (sim.run kept).system.history who key) ∧
        ∀ e, (sim.run ds).system.cluster.holds? e key =
          (sim.run kept).system.cluster.holds? e key := by
  constructor
  · intro sys es
    rcases System.facet_run_filter (Eq.refl (sys.facet key)) es with ⟨hnotes, hfacet⟩
    exact ⟨hnotes, System.history_of_facet hfacet, System.holds?_of_facet hfacet⟩
  · intro sim ds
    rcases facet_run_filter (Eq.refl (sim.facet key)) ds with ⟨hdiary, hfacet⟩
    have hsystem := (facet_eq_iff.mp hfacet).1
    exact ⟨hdiary, System.history_of_facet hsystem, System.holds?_of_facet hsystem⟩

end Simulation

end QuorumStore
