import QuorumStore.Replica
import QuorumStore.Wire.Lines

/-!
# Connections

A replica's side of one connection.

The replica answers the requests that come in, one after another, until the
other side has no more. A line that is no request is answered with an error,
and that is the last thing said on the connection: whatever follows it is not
read.

## Main definitions

* `Response.line`: The line that a response goes out as.
* `Store.takeLine`: What comes of one line.
* `Store.serveLines`: The responses to some lines, and the store behind them.
* `Store.serve`: The same for a stream of bytes.
* `Store.output`: The bytes that go out in answer to a stream.
* `Store.serveAll`: The same for one connection after another.
-/

namespace QuorumStore

/-- The line that a response goes out as, with its line feed. -/
def Response.line (r : Response) : List UInt8 := Wire.writeMessage r.toJson

namespace Store

/-- The response to a line that is no request. -/
def refusal (e : Wire.LineError) : Response := .error ("malformed request: " ++ e.message)

/-- What comes of one line: the response, if there is one, whether the replica
    reads on, and the store behind it. -/
structure Turn where
  response : Option Response
  readsOn : Bool
  store : Store

/-- Take in one line. -/
def takeLine (s : Store) (line : List UInt8) : Turn :=
  match Wire.readLine Request.parse line with
  | .error e => ⟨some (refusal e), false, s⟩
  | .ok none => ⟨none, true, s⟩
  | .ok (some request) =>
    let (response, s) := s.handle request
    ⟨some response, true, s⟩

/-- The responses to some lines up to the first that is no request, and the
    store behind them. -/
def serveLines : Store → List (List UInt8) → List Response × Store
  | s, [] => ([], s)
  | s, line :: lines =>
    let turn := s.takeLine line
    if turn.readsOn then
      let (more, s) := serveLines turn.store lines
      (turn.response.toList ++ more, s)
    else (turn.response.toList, turn.store)

/-- The responses to a stream of bytes, and the store behind it. -/
def serve (s : Store) (bs : List UInt8) : List Response × Store :=
  s.serveLines (Wire.splitLines bs)

/-- The bytes that go out in answer to a stream: the responses, line after
    line. -/
def output (s : Store) (bs : List UInt8) : List UInt8 :=
  (s.serve bs).1.flatMap Response.line

/-- The responses on one connection after another, and the store in the end. -/
def serveAll (s : Store) : List (List UInt8) → List (List Response) × Store
  | [] => ([], s)
  | bs :: more =>
    let (responses, s) := s.serve bs
    let (others, s) := serveAll s more
    (responses :: others, s)

end Store

end QuorumStore
