/-!
# Metrics

What is counted and measured, under which names.

Three families are kept by kind of call: those sent, those that failed and
those received. Operations of sessions are counted for themselves, and so are
the two outcomes that an operator looks out for. Two families measure how long
things take. Each family is announced by a line of help and a line with its
type.

## Main definitions

* `Metric`: The families.
* `Metric.headers`: The lines that announce them all.
-/

namespace QuorumStore

/-- A family of counts or measurements. -/
inductive Metric where
  | sent
  | failed
  | received
  | callSeconds
  | gets
  | puts
  | deletes
  | stats
  | timeouts
  | conflicts
  | operationSeconds
  deriving DecidableEq, Repr

namespace Metric

/-- All families. -/
def all : List Metric :=
  [sent, failed, received, callSeconds, gets, puts, deletes, stats, timeouts, conflicts,
   operationSeconds]

/-- The name of a family. -/
def name : Metric → String
  | sent => "tierkv_rpcs_sent_by_type_total"
  | failed => "tierkv_rpc_failures_total"
  | received => "tierkv_rpcs_received_by_type_total"
  | callSeconds => "tierkv_rpc_latency_seconds"
  | gets => "tierkv_kv_gets_total"
  | puts => "tierkv_kv_puts_total"
  | deletes => "tierkv_kv_deletes_total"
  | stats => "tierkv_kv_stats_total"
  | timeouts => "tierkv_kv_timeouts_total"
  | conflicts => "tierkv_kv_conflicts_total"
  | operationSeconds => "tierkv_kv_latency_seconds"

/-- What a family is about. -/
def help : Metric → String
  | sent => "Outbound replica calls, by type"
  | failed => "Outbound replica calls that failed, by type"
  | received => "Inbound replica calls served, by type"
  | callSeconds => "Replica call latency in seconds"
  | gets => "KV GET operations"
  | puts => "KV PUT operations"
  | deletes => "KV DELETE operations"
  | stats => "Cluster STAT operations"
  | timeouts => "Operations that missed their consistency level before the deadline"
  | conflicts => "Reads that returned concurrent versions"
  | operationSeconds => "KV operation latency in seconds"

/-- The family holds measurements, not counts. -/
def isMeasured : Metric → Bool
  | callSeconds | operationSeconds => true
  | _ => false

/-- The line of help. -/
def helpLine (m : Metric) : String := "# HELP " ++ m.name ++ " " ++ m.help

/-- The line with the type. -/
def typeLine (m : Metric) : String :=
  "# TYPE " ++ m.name ++ (if m.isMeasured then " histogram" else " counter")

/-- The lines that announce all families, in order. -/
def headers : List String :=
  (all.map helpLine ++ all.map typeLine).mergeSort fun a b => (compare a b).isLE

end Metric

end QuorumStore
