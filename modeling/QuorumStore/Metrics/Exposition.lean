import QuorumStore.Duration
import QuorumStore.Metrics
import QuorumStore.Metrics.Record

/-!
# Expositions

A record as it is handed to those who collect metrics.

The families come in the order of their names, each with its two lines of
announcement and then its samples. A family that is kept by kind has a sample
for every kind that occurs, and is left out as long as none does. A sample of
measurements has a line for each bound, with how many of them are within it,
and then their sum and their number.

## Main definitions

* `Metric.samples`: The lines of a family behind its announcement.
* `Record.exposition`: A record as a text.
-/

namespace QuorumStore

namespace Metric

/-- The bounds that measurements are held against, in tenths of a millisecond,
    with their texts in seconds. -/
def bounds : List (Nat × String) :=
  [(5, "0.0005"), (10, "0.001"), (50, "0.005"), (100, "0.01"), (500, "0.05"), (1000, "0.1"),
   (5000, "0.5"), (10000, "1"), (50000, "5")]

/-- Labels with their values as they stand behind a name. -/
def labelText (labels : List (String × String)) : String :=
  if labels.isEmpty then ""
  else "\x7b" ++ ",".intercalate (labels.map fun l => l.1 ++ "=" ++ Text.quoted l.2) ++ "\x7d"

/-- A line with a number. -/
def sample (name : String) (labels : List (String × String)) (value : String) : String :=
  name ++ labelText labels ++ " " ++ value

/-- The lines of some measurements, which are in milliseconds. -/
def measurements (name : String) (labels : List (String × String)) (times : List Nat) :
    List String :=
  let within (bound : Nat) := (times.filter fun t => decide (t * 10 ≤ bound)).length
  (bounds.map fun b =>
    sample (name ++ "_bucket") (labels ++ [("le", b.2)]) (listNat (within b.1))) ++
  [sample (name ++ "_bucket") (labels ++ [("le", "+Inf")]) (listNat times.length),
   sample (name ++ "_sum") labels (Duration.seconds (times.foldl (· + ·) 0)),
   sample (name ++ "_count") labels (listNat times.length)]

/-- The kinds in the order of their names. -/
def kinds : List Kind := [.delete, .get, .ping, .put, .stat]

/-- The lines of a family that is kept by kind. -/
def byKind {α : Type} (kind : α → Kind) (items : List α) (lines : Kind → List α → List String) :
    List String :=
  kinds.flatMap fun k =>
    match items.filter fun x => kind x == k with
    | [] => []
    | xs => lines k xs

/-- The lines of a family behind its announcement. No call is ever received by
    a client. -/
def samples (r : Record) (m : Metric) : List String :=
  let calls (cs : List CallRecord) :=
    byKind (·.kind) cs fun k cs => [sample m.name [("rpc_type", k.name)] (listNat cs.length)]
  let count (n : Nat) := [sample m.name [] (listNat n)]
  match m with
  | sent => calls r.calls
  | failed => calls (r.calls.filter (·.failed))
  | received => []
  | callSeconds => byKind (·.kind) r.calls fun k cs =>
      measurements m.name [("direction", "outbound"), ("rpc_type", k.name)] (cs.map (·.time))
  | gets => count r.counters.gets
  | puts => count r.counters.puts
  | deletes => count r.counters.deletes
  | stats => count r.counters.stats
  | timeouts => count r.counters.timeouts
  | conflicts => count r.counters.conflicts
  | operationSeconds => byKind (·.1) r.operations fun k ts =>
      measurements m.name [("op_type", k.name)] (ts.map (·.2))

/-- The lines of a family; none if it has no sample. -/
def lines (r : Record) (m : Metric) : List String :=
  match m.samples r with
  | [] => []
  | ls => m.helpLine :: m.typeLine :: ls

/-- All families in the order of their names. -/
def sorted : List Metric := all.mergeSort fun a b => (compare a.name b.name).isLE

end Metric

/-- A record as a text. -/
def Record.exposition (r : Record) : String :=
  String.join ((Metric.sorted.flatMap (Metric.lines r)).map (· ++ "\n"))

end QuorumStore
