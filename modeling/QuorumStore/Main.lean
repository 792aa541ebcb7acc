import QuorumStore.Console
import QuorumStore.Identifier
import QuorumStore.Socket
import Std.Time.DateTime.Timestamp

/-!
# The Programs

The client, and with `replica` as the first argument the replica.

What the programs say and do is settled in `Console` and `Shell`; here it is
read from and written to the world.

## Main definitions

* `main`: The programs.
-/

namespace QuorumStore

namespace Program

open Console

/-- Say something to those who run the program. -/
def tell (text : String) : IO Unit := do
  (← IO.getStderr).putStr text

/-- Print something at once. -/
def say (text : String) : IO Unit := do
  let out ← IO.getStdout
  out.putStr text
  out.flush

/-- What is found under a path, if a path is given. -/
def readFile (path : Option String) : IO (String → File) := do
  let found ← match path with
    | none => pure File.missing
    | some path =>
      try pure (File.bytes (← IO.FS.readBinFile path).toList)
      catch e => pure (if (Socket.fault e).1 = 21 then File.directory else File.missing)
  return fun _ => found

/-- Sixteen random bytes. -/
def random : IO (List UInt8) := do
  return (← IO.getRandomBytes 16).toList

/-- The ticket of an operation that starts now. -/
def newTicket : IO Ticket := do
  let now ← Std.Time.Timestamp.now
  let d := now.toDurationSinceUnixEpoch
  return ⟨⟨d.second.val.toNat, d.nano.val.toNat⟩, Identifier.ofBytes (← random)⟩

/-- What a program says that does not get ready. -/
def refusalText (usage : String) : Refusal → String
  | .flags .help => usage
  | .flags .version => "quorum store 1\n"
  | .flags _ => "error: the command line makes no sense\n\n" ++ usage
  | .config e => "error: " ++ e.message ++ "\n"

/-- Say why a program does not get ready, and end it. -/
def refuse (usage : String) (r : Refusal) : IO UInt32 := do
  let text := refusalText usage r
  if r.exit = success then say text else tell text
  return .ofNat r.exit

/-- A line of the input with its line feed; empty if there are no more. -/
partial def readLine (input : IO.FS.Stream) (before : ByteArray) : IO ByteArray := do
  let next ← input.read 1
  let line := before ++ next
  if next.isEmpty || next.toList == [Wire.lineFeed] then return line
  readLine input line

/-- Carry out an operation's calls, and say how they have gone. -/
def follow (p : Prepared) (x : Client) (ticket : Ticket) (op : Operation) :
    IO (Endpoint → Plan) :=
  Socket.follow p.config.connectTimeout (x.session.outgoing? ticket op) fun plan =>
    (x.session.perform x.cluster plan ticket op).elapsed

/-- Read lines and carry them out until the client stops. -/
partial def converse (p : Prepared) (input : IO.FS.Stream) (x : Client) : IO UInt32 := do
  say prompt
  let line ← readLine input .empty
  if line.isEmpty then
    tell (x.farewell p success)
    return .ofNat success
  let line := line.toList.takeWhile (· != Wire.lineFeed)
  let ticket ← newTicket
  let plan ← match Client.operation? line with
    | some op => follow p x ticket op
    | none => pure fun _ => Plan.unended
  match x.take plan ticket line with
  | .goesOn output x =>
    say output
    converse p input x
  | .stops exit =>
    tell (x.farewell p exit)
    return .ofNat exit

/-- How the client is called. -/
def clientUsage : String :=
  "usage: [--host HOST] [--port PORT] [--rl LEVEL] [--wl LEVEL] [--config FILE]\n" ++
  "       [--replica HOST:PORT]... [--dump-metrics]\n" ++
  "\nA level is ONE, QUORUM or ALL.\n"

/-- The client. -/
def client (args : List String) : IO UInt32 := do
  let path := match ClientFlags.read args with
    | .ok flags => flags.config
    | .error _ => none
  match prepare (Identifier.node (← random)) (← readFile path) args with
  | .error r => refuse clientUsage r
  | .ok p =>
    let ticket ← newTicket
    let start := Client.start p (Cluster.fresh [])
    let plan ← follow p start ticket .connect
    match start.connect? plan ticket with
    | none =>
      say (cannotConnect p.config)
      return .ofNat success
    | some x =>
      say (hasConnected p.config)
      converse p (← IO.getStdin) x

/-- How the replica is called. -/
def replicaUsage : String := "usage: replica [--listen ADDRESS:PORT] [--config FILE]\n"

/-- The replica. -/
def replica (args : List String) : IO UInt32 := do
  let path := match ReplicaFlags.read args with
    | .ok flags => flags.config
    | .error _ => none
  match Console.replica (← readFile path) args with
  | .error r => refuse replicaUsage r
  | .ok c =>
    match Socket.ofAddress? c.listen with
    | none => return .ofNat failure
    | some address =>
      try
        Socket.listen address
        return .ofNat success
      catch e =>
        tell ("error: failed to bind " ++ c.listen.text ++ ": " ++ (Socket.fault e).2 ++ "\n")
        return .ofNat failure

end Program

end QuorumStore

/-- The programs. -/
def main : List String → IO UInt32
  | "replica" :: args => QuorumStore.Program.replica args
  | args => QuorumStore.Program.client args
