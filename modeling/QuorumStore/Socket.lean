import QuorumStore.Endpoint.Address
import QuorumStore.Network
import QuorumStore.Replica.Connection
import Std.Async.DNS
import Std.Async.Signal
import Std.Async.TCP
import Std.Async.Timer

/-!
# Sockets

Calls and connections over a real network.

Nothing is decided here. A call dials, sends and listens, and what comes back
is for `Wire` to understand; a connection hands each line to `Store.takeLine`
and sends what that answers.

## Main definitions

* `Socket.call`: One call to an endpoint.
* `Socket.follow`: Calls to some replicas at once, as far as they are needed.
* `Socket.listen`: A replica that answers until it is interrupted.
-/

namespace QuorumStore

namespace Socket

open Std.Async Std.Net

/-- The socket address at a numeric address. -/
def ofAddress? : Address → Option SocketAddress
  | .four [a, b, c, d] p =>
    some (.v4 ⟨.ofParts (.ofNat a) (.ofNat b) (.ofNat c) (.ofNat d), p⟩)
  | .six [a, b, c, d, e, f, g, h] _ p =>
    some (.v6 ⟨.ofParts (.ofNat a) (.ofNat b) (.ofNat c) (.ofNat d) (.ofNat e) (.ofNat f)
      (.ofNat g) (.ofNat h), p⟩)
  | _ => none

/-- A host's address with a port. -/
def withPort (p : UInt16) : IPAddr → SocketAddress
  | .v4 a => .v4 ⟨a, p⟩
  | .v6 a => .v6 ⟨a, p⟩

/-- The socket addresses of an endpoint: the one that it writes out, or those
    under which its host is known. -/
def addresses (e : Endpoint) : Async (List SocketAddress) := do
  match (Address.parse? e.text).bind ofAddress? with
  | some a => return [a]
  | none =>
    let found ← DNS.getAddrInfo e.host (toString e.port.toNat)
    return found.toList.eraseDups.map (withPort e.port)

/-- The number and the text of what went wrong. -/
def fault (e : IO.Error) : Nat × String :=
  let positive (code : UInt32) : Nat := if code < 0x80000000 then code.toNat else (-code).toNat
  match e with
  | .otherError code text | .resourceBusy code text | .resourceVanished code text
  | .unsupportedOperation code text | .hardwareFault code text
  | .unsatisfiedConstraints code text | .illegalOperation code text
  | .protocolError code text | .timeExpired code text | .interrupted _ code text
  | .noFileOrDirectory _ code text | .alreadyExists _ code text
  | .invalidArgument _ code text | .permissionDenied _ code text
  | .resourceExhausted _ code text | .inappropriateType _ code text
  | .noSuchThing _ code text => (positive code, text)
  | .unexpectedEof | .userError _ => (0, toString e)

/-- Why an attempt to dial has failed. -/
def dialError (e : IO.Error) : DialError :=
  let (number, text) := fault e
  DialError.ofNumber number text

/-- A connection to the first of some addresses that can be reached. -/
def connectAny : List SocketAddress → Async (Except DialError TCP.Socket.Client)
  | [] => return .error (.other "could not resolve to any addresses")
  | a :: more => do
    let client ← TCP.Socket.Client.mk
    try
      client.connect a
      client.noDelay
      return .ok client
    catch e => if more.isEmpty then return .error (dialError e) else connectAny more

/-- A connection to an endpoint, which has so many milliseconds to come about. -/
def dial (e : Endpoint) (limit : Nat) : Async (Except DialError TCP.Socket.Client) :=
  Async.race
    (do
      try connectAny (← addresses e)
      catch err => return .error (dialError err))
    (do
      sleep (.ofNat limit)
      return .error (.timedOut limit))

/-- How much is read at once. -/
def chunk : UInt64 := 65536

/-- The response on a connection, after what has come so far. -/
partial def hear (client : TCP.Socket.Client) (before : List UInt8) :
    Async (Except CallError Response) := do
  match ← client.recv? chunk with
  | none => return Wire.receive before
  | some bytes =>
    let soFar := before ++ bytes.toList
    match Wire.receiveSoFar? soFar with
    | some result => return result
    | none => hear client soFar

/-- One call to an endpoint, which has so many milliseconds to connect. -/
def call (limit : Nat) (request : Request) (e : Endpoint) :
    Async (Except CallError Response) := do
  match ← dial e limit with
  | .error d => return .error (d.callError e)
  | .ok client =>
    let sent : Except CallError Unit ← try
        client.send (ByteArray.mk (Wire.writeMessage request.toJson).toArray)
        pure (.ok ())
      catch err => pure (.error (.connection ("send failed: " ++ (fault err).2)))
    match sent with
    | .error e => return .error e
    | .ok () =>
      try hear client []
      catch err => return .error (.protocol ("bad reply: " ++ (fault err).2))

/-- Wait until what has ended decides how long everything takes, and say how
    the calls have gone until then. -/
partial def await (started : Nat) (ended : IO.Ref (Table Endpoint Plan))
    (elapsed : (Endpoint → Plan) → Nat) : IO (Endpoint → Plan) := do
  let now := (← IO.monoMsNow) - started
  let plans ← ended.get
  let plan := fun e => (plans.get? e).getD Plan.unended
  if elapsed plan ≤ now then return plan
  IO.sleep 1
  await started ended elapsed

/-- Call some replicas at once, and say how the calls have gone as soon as that
    decides how long the whole takes. The others are not waited for. -/
def follow (limit : Nat) (outgoing : Option (Request × ReplicaSet))
    (elapsed : (Endpoint → Plan) → Nat) : IO (Endpoint → Plan) := do
  let started ← IO.monoMsNow
  let ended ← IO.mkRef (Table.empty : Table Endpoint Plan)
  match outgoing with
  | none => pure ()
  | some (request, replicas) =>
    for e in replicas.endpoints do
      let exchange : Async Unit := do
        let result ← call limit request e
        let now ← IO.monoMsNow
        ended.modify fun plans => plans.insert e (Plan.ofResult (now - started) result)
      discard exchange.asTask
  await started ended elapsed

/-- Answer some lines on a connection; it goes on if none of them was bad. -/
def answer (store : IO.Ref Store) (client : TCP.Socket.Client) :
    List (List UInt8) → Async Bool
  | [] => return true
  | line :: lines => do
    let turn ← store.modifyGet fun s =>
      let turn := s.takeLine line
      (turn, turn.store)
    if let some response := turn.response then
      client.send (ByteArray.mk response.line.toArray)
    if turn.readsOn then answer store client lines else return false

/-- Answer what comes on a connection, after the beginning of a line. -/
partial def serve (store : IO.Ref Store) (client : TCP.Socket.Client) (before : List UInt8) :
    Async Unit := do
  match ← client.recv? chunk with
  | none =>
    discard (answer store client (Wire.splitLines before))
    client.shutdown
  | some bytes =>
    let (lines, rest) := Wire.completeLines (before ++ bytes.toList)
    if ← answer store client (Wire.splitLines lines) then serve store client rest
    else client.shutdown

/-- Take in one connection after another. -/
partial def acceptAll (store : IO.Ref Store) (server : TCP.Socket.Server) : Async Unit := do
  let client ← server.accept
  discard (serve store client []).asTask
  acceptAll store server

/-- A replica that answers at an address until it is interrupted. -/
def listen (address : SocketAddress) : IO Unit := do
  let server ← TCP.Socket.Server.mk
  server.bind address
  server.listen 1024
  let interrupt ← (← Signal.Waiter.mk .sigint false).wait
  discard (acceptAll (← IO.mkRef Store.empty) server).asTask
  discard interrupt.block

end Socket

end QuorumStore
