import QuorumStore.Cluster
import QuorumStore.Duration
import QuorumStore.Wire.Lines

/-!
# The Network

How a call travels: over a connection of its own.

The caller dials the endpoint, writes the request as one line and reads one
response. If the endpoint cannot be reached the request was never sent. If it
can, the call may still bring nothing of use: the connection may be closed
without a response, what comes back may not be a response, or the response may
report an error.

Whether an endpoint can be reached is for the network to say. To a session a
network is therefore one more source of plans for its calls.

## Main definitions

* `DialError`: Why an endpoint cannot be reached.
* `Network`: Which endpoints can be.
* `Network.plan`: The plan of a call over a network.
* `Plan.ofResult`: The plan of a call that has been made.
* `Wire.receive`: The response that comes back, or why there is none.
* `Wire.receiveSoFar?`: The same while the connection is open.
* `CallCounts`: How many calls were made, and how many failed.
-/

namespace QuorumStore

/-- Why an endpoint cannot be reached. -/
inductive DialError where
  /-- Nobody listens there. -/
  | refused
  /-- No way leads there. -/
  | unreachable
  /-- Nobody answered for so many milliseconds. -/
  | timedOut (limit : Nat)
  /-- Something else. -/
  | other (reason : String)
  deriving DecidableEq, Repr, Inhabited

namespace DialError

/-- The error that a host reports under a number, with its text. -/
def ofNumber (number : Nat) (text : String) : DialError :=
  if number = 111 then refused else if number = 101 then unreachable else other text

/-- The error as part of a sentence. -/
def message : DialError → String
  | refused => "failed: Connection refused (os error 111)"
  | unreachable => "failed: Network is unreachable (os error 101)"
  | timedOut limit => "timed out after " ++ Duration.spell limit
  | other reason => "failed: " ++ reason

/-- The error of a call to an endpoint that cannot be reached. -/
def callError (d : DialError) (e : Endpoint) : CallError :=
  .connection ("connect to " ++ e.text ++ " " ++ d.message)

end DialError

/-- Which endpoints can be reached: why not, if they cannot. -/
def Network := Endpoint → Option DialError

namespace Network

/-- The network of a host that has none. -/
def offline : Network := fun _ => some .unreachable

/-- The plan of a call over a network. -/
def plan (n : Network) (e : Endpoint) : Plan :=
  match n e with
  | none => ⟨some 0, .served⟩
  | some d => ⟨some 0, .failed (d.callError e)⟩

end Network

/-- The plan of a call that has ended so after so many milliseconds. -/
def Plan.ofResult (elapsed : Nat) : Except CallError Response → Plan
  | .ok r => ⟨some elapsed, .answered r⟩
  | .error e => ⟨some elapsed, .failed e⟩

/-- The plan of a call that does not end. -/
def Plan.unended : Plan := ⟨none, .broken⟩

namespace Wire

/-- The response that comes back on a connection, or why there is none. -/
def receive (bs : List UInt8) : Except CallError Response :=
  match readMessages Response.parse bs with
  | (.error message :: _, _) => .error (.remote message)
  | (r :: _, _) => .ok r
  | ([], some e) => .error (.protocol ("bad reply: " ++ e.message))
  | ([], none) => .error Cluster.unheard

/-- The complete lines of a stream of bytes that may go on, and the beginning of
    the next. -/
def completeLines (bs : List UInt8) : List UInt8 × List UInt8 :=
  let isInside := fun b : UInt8 => b != lineFeed
  ((bs.reverse.dropWhile isInside).reverse, (bs.reverse.takeWhile isInside).reverse)

/-- The response on a connection that may bring more, or why there is none; not
    yet known as long as there have been nothing but blank lines. -/
def receiveSoFar? (bs : List UInt8) : Option (Except CallError Response) :=
  let lines := (completeLines bs).1
  match readMessages Response.parse lines with
  | ([], none) => none
  | _ => some (receive lines)

end Wire

/-- How many calls were made, and how many of them failed. -/
structure CallCounts where
  sent : Nat
  failed : Nat
  deriving DecidableEq, Repr

/-- The counts of one call. -/
def CallCounts.ofResult {α : Type} (r : Except CallError α) : CallCounts :=
  match r with
  | .ok _ => ⟨1, 0⟩
  | .error _ => ⟨1, 1⟩

end QuorumStore
