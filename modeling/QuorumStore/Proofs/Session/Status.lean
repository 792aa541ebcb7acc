import QuorumStore.Proofs.Cluster.Asking
import QuorumStore.Proofs.Text.Utf8
import QuorumStore.Session

/-!
# Status Reports

What a status report says, line by line.

A session that has connected always has a report to give. There is one line for
each replica, however often and in whatever order the endpoints were listed when
the session was set up, and the lines come in the order of the endpoints: by the
bytes of the host, and under one host by the port as a number.

A line says what its replica answered, if the answer was a status and came in
time, and that it could not be reached in all other cases: another answer, an
error, one that came late, none at all. It says nothing of the other replicas,
and they have no part in it. `lines` is therefore a function of the endpoint,
mapped over the replica set and sorted, and what holds of the report is read off
from that.

## Main definitions

* `Endpoint.Before`: The order of the lines.
* `Session.Answers`: A replica gives its status in time.
* `Session.lines`: The lines of the report.

## Theorems

* `Endpoint.compare_eq_lt_iff`: Endpoints are compared as the lines are.
* `Session.nodeReport_spec`: What a line says.
* `Session.lines_sorted`, `Session.mem_lines`: Which lines there are.
* `Session.stat_complete`: What a report says.
-/

namespace QuorumStore

namespace Endpoint

/-- By the bytes of the host, then by the port as a number. -/
def Before (a b : Endpoint) : Prop :=
  Text.encode a.host < Text.encode b.host ∨ a.host = b.host ∧ a.port.toNat < b.port.toNat

theorem compare_eq_lt_iff {a b : Endpoint} : compare a b = .lt ↔ a.Before b := by
  have hport : compare a.port b.port = .lt ↔ a.port.toNat < b.port.toNat :=
    Std.compare_eq_lt.trans UInt16.lt_iff_toNat_lt
  have hhost : compare a.host b.host = .eq ↔ a.host = b.host :=
    Std.LawfulEqOrd.compare_eq_iff_eq
  change (compare a.host b.host).then (compare a.port b.port) = .lt ↔ _
  rw [Ordering.then_eq_lt, Text.compare_eq_lt_iff, hhost, hport, Before]

end Endpoint

namespace Session

variable {s : Session} {c : Cluster} {plan : Endpoint → Plan} {limit : Nat} {e : Endpoint}

/-- The replica answers with its status within the limit. -/
def Answers (c : Cluster) (plan : Endpoint → Plan) (limit : Nat) (e : Endpoint)
    (status : Status) (keyCount : Nat) : Prop :=
  (∃ t ≤ limit, (plan e).due = some t) ∧
    (c.meet .stat e (plan e).fate).1 = .response (.stat status keyCount)

theorem nodeReport_endpoint (e : Endpoint) (heard : Option Reply) :
    (nodeReport e heard).endpoint = e := by
  unfold nodeReport
  split <;> rfl

/-- A line says what the replica answered, or that it could not be reached. -/
theorem nodeReport_spec :
    (∀ status n, (nodeReport e (c.heard? plan .stat limit e)).status = status ∧
      (nodeReport e (c.heard? plan .stat limit e)).keyCount = some n ↔
        Answers c plan limit e status n) ∧
    ((∀ status n, ¬ Answers c plan limit e status n) →
      nodeReport e (c.heard? plan .stat limit e) = ⟨e, .unreachable, none⟩) := by
  have hanswers : ∀ status n, Answers c plan limit e status n ↔
      c.heard? plan .stat limit e = some (.response (.stat status n)) :=
    fun _ _ => Cluster.heard?_eq_some_iff.symm
  simp only [hanswers]
  -- A status makes a line of its own kind, and nothing else does.
  unfold nodeReport
  split
  · rename_i status n hheard
    rw [hheard]
    simp
  · rename_i hother
    exact ⟨fun status n => by simpa using hother status n, fun _ => rfl⟩

/-- The lines of a report on the replicas of a set, in order. -/
def lines (c : Cluster) (plan : Endpoint → Plan) (limit : Nat) (replicas : ReplicaSet) :
    List NodeReport :=
  (replicas.endpoints.map fun e => nodeReport e (c.heard? plan .stat limit e)).mergeSort
    fun a b => (compare a.endpoint b.endpoint).isLE

theorem mem_lines {replicas : ReplicaSet} {line : NodeReport} :
    line ∈ lines c plan limit replicas ↔
      ∃ e ∈ replicas.endpoints, nodeReport e (c.heard? plan .stat limit e) = line := by
  rw [lines, (List.mergeSort_perm _ _).mem_iff, List.mem_map]

/-- There is a line for every replica, and no second one. -/
theorem lines_endpoints (replicas : ReplicaSet) :
    ((lines c plan limit replicas).map (·.endpoint)).Perm replicas.endpoints := by
  refine ((List.mergeSort_perm _ _).map _).trans ?_
  rw [List.map_map]
  refine .of_eq (List.map_id'' (fun e => ?_) _)
  exact nodeReport_endpoint e _

/-- The lines are in the order of the endpoints. -/
theorem lines_sorted (replicas : ReplicaSet) :
    (lines c plan limit replicas).Pairwise fun a b => a.endpoint.Before b.endpoint := by
  -- No two lines are of one replica, so the sorted lines increase.
  have hsorted : (lines c plan limit replicas).Pairwise fun a b =>
      (compare a.endpoint b.endpoint).isLE = true := by
    refine List.pairwise_mergeSort (fun a b d => ?_) (fun a b => ?_) _
    · exact Std.TransCmp.isLE_trans
    · rw [Std.OrientedOrd.eq_swap (a := b.endpoint)]
      cases compare a.endpoint b.endpoint <;> rfl
  have hnodup : (lines c plan limit replicas).Pairwise fun a b => a.endpoint ≠ b.endpoint :=
    List.pairwise_map.mp ((lines_endpoints replicas).nodup_iff.mpr replicas.nodup)
  refine hsorted.imp₂ (fun a b hle hne => ?_) hnodup
  rw [← Endpoint.compare_eq_lt_iff]
  cases hcompare : compare a.endpoint b.endpoint with
  | lt => rfl
  | eq => exact absurd (Std.LawfulEqOrd.eq_of_compare hcompare) hne
  | gt =>
    rw [hcompare] at hle
    cases hle

theorem stat_of_connected (hconnected : s.connected = true) :
    (s.stat c plan).result =
      .ok ⟨lines c plan s.settings.statTimeout s.placement.everywhere⟩ ∧
    (s.stat c plan).elapsed ≤ s.settings.statTimeout := by
  simp only [stat, hconnected, Bool.not_true, Bool.false_eq_true, if_false]
  refine ⟨?_, Cluster.elapsed_askEach_le⟩
  rw [Cluster.askEach_replies, List.map_map]
  rfl

/-- A line changes only with what its own replica has and does. -/
theorem mem_lines_congr {d : Cluster} {plan' : Endpoint → Plan} {replicas : ReplicaSet}
    {line : NodeReport} (hline : line ∈ lines c plan limit replicas)
    (hstore : d.store? line.endpoint = c.store? line.endpoint)
    (hplan : plan' line.endpoint = plan line.endpoint) : line ∈ lines d plan' limit replicas := by
  obtain ⟨e, he, rfl⟩ := mem_lines.mp hline
  rw [nodeReport_endpoint] at hstore hplan
  exact mem_lines.mpr ⟨e, he, by rw [Cluster.heard?_congr hstore hplan]⟩

/-- A session that has connected gets a report, and does not wait for it longer
    than the limit. The report has one line for each endpoint in the list, by the
    bytes of the host and then by port. A line carries the status and the number
    of keys with which its replica answered within the limit, and says that the
    replica could not be reached if it did not. No line changes with what becomes
    of other replicas and of the calls to them. -/
theorem stat_complete {es : List Endpoint} (hconnected : s.connected = true)
    (hreplicas : s.placement.everywhere = .ofList es) (c : Cluster) (plan : Endpoint → Plan) :
    ∃ lines : List NodeReport, (s.stat c plan).result = .ok ⟨lines⟩ ∧
      (lines.map (·.endpoint)).Nodup ∧ (∀ e, e ∈ lines.map (·.endpoint) ↔ e ∈ es) ∧
      (lines.Pairwise fun a b => a.endpoint.Before b.endpoint) ∧
      (∀ line ∈ lines,
        (∀ status n, line.status = status ∧ line.keyCount = some n ↔
          Answers c plan s.settings.statTimeout line.endpoint status n) ∧
        ((∀ status n, ¬ Answers c plan s.settings.statTimeout line.endpoint status n) →
          line = ⟨line.endpoint, .unreachable, none⟩)) ∧
      (∀ line ∈ lines, ∀ (d : Cluster) (plan' : Endpoint → Plan),
        d.store? line.endpoint = c.store? line.endpoint →
        plan' line.endpoint = plan line.endpoint →
        ∃ others, (s.stat d plan').result = .ok ⟨others⟩ ∧ line ∈ others) ∧
      (s.stat c plan).elapsed ≤ s.settings.statTimeout := by
  have hendpoints := @lines_endpoints c plan s.settings.statTimeout s.placement.everywhere
  obtain ⟨hresult, helapsed⟩ := @stat_of_connected s c plan hconnected
  refine ⟨_, hresult, ?_, ?_, lines_sorted _, ?_, ?_, helapsed⟩
  · exact hendpoints.nodup_iff.mpr s.placement.everywhere.nodup
  · intro e
    rw [hendpoints.mem_iff, hreplicas, ReplicaSet.mem_ofList]
  · intro line hline
    obtain ⟨e, -, rfl⟩ := mem_lines.mp hline
    rw [nodeReport_endpoint]
    exact nodeReport_spec
  · intro line hline d plan' hstore hplan
    exact ⟨_, (stat_of_connected hconnected).1, mem_lines_congr hline hstore hplan⟩

/-- The calls of a report: one is refused, one is answered, and to one there is
    an answer that comes too late. -/
def mixedPlan (e : Endpoint) : Plan :=
  if e.host = "a" then ⟨some 2001, .answered (.stat .alive 3)⟩
  else if e.port = 9 then ⟨some 7, .answered (.stat .faulty 5)⟩
  else ⟨some 0, .failed (.connection "refused")⟩

/-- Three replicas, one of them listed twice. -/
theorem stat_complete_mixed :
    ∃ lines : List NodeReport,
      (({ Session.start (.standard "n")
            (.uniform (.ofList [⟨"b", 10⟩, ⟨"b", 9⟩, ⟨"a", 1⟩, ⟨"b", 10⟩])) with
          connected := true }).stat (.fresh []) mixedPlan).result = .ok ⟨lines⟩ ∧
      (lines.map (·.endpoint)).Nodup ∧
      ⟨⟨"b", 9⟩, .faulty, some 5⟩ ∈ lines ∧ ⟨⟨"a", 1⟩, .unreachable, none⟩ ∈ lines := by
  obtain ⟨lines, hresult, hnodup, hmem, -, hspec, -, -⟩ := @stat_complete
    { Session.start (.standard "n")
        (.uniform (.ofList [⟨"b", 10⟩, ⟨"b", 9⟩, ⟨"a", 1⟩, ⟨"b", 10⟩])) with connected := true }
    [⟨"b", 10⟩, ⟨"b", 9⟩, ⟨"a", 1⟩, ⟨"b", 10⟩] rfl rfl (.fresh []) mixedPlan
  refine ⟨lines, hresult, hnodup, ?_, ?_⟩
  · obtain ⟨⟨e, status, n⟩, hline, rfl⟩ := List.mem_map.mp ((hmem ⟨"b", 9⟩).mpr (by decide))
    obtain ⟨hstatus, hcount⟩ := ((hspec _ hline).1 .faulty 5).mpr ⟨⟨7, by decide, rfl⟩, rfl⟩
    obtain rfl : status = .faulty := hstatus
    obtain rfl : n = some 5 := hcount
    exact hline
  · obtain ⟨line, hline, hend⟩ := List.mem_map.mp ((hmem ⟨"a", 1⟩).mpr (by decide))
    have hlate : line = ⟨line.endpoint, .unreachable, none⟩ := by
      refine (hspec line hline).2 fun status n h => ?_
      rw [hend] at h
      obtain ⟨t, ht, hdue⟩ := h.1
      obtain rfl : 2001 = t := Option.some.inj hdue
      exact absurd ht (by decide)
    rw [hend] at hlate
    exact hlate ▸ hline

end Session

end QuorumStore
