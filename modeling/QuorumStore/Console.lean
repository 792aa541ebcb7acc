import QuorumStore.Flags.Programs
import QuorumStore.Metrics.Exposition
import QuorumStore.Network
import QuorumStore.Shell

/-!
# Consoles

The two programs, as far as they can be told without the world around them.

The client takes its flags and its configuration, connects, says where it is
connected to, and then reads a line, carries it out and prints the reply, until
it is told to stop or there are no more lines. If it cannot connect it says so
and stops, which is not a failure. It fails if it has no configuration or a
line is not text. If it ends well it may hand over what has been counted.

The replica takes its flags and its configuration and then listens.

## Main definitions

* `ExitCode`: How a program ends.
* `Console.prepare`: The client up to where it connects.
* `Console.Client`: A client at work.
* `Console.Client.connect?`: The client after it has connected.
* `Console.Client.take`: What comes of one line.
* `Console.Client.converse`: What comes of all lines.
* `Console.client`: A run of the client.
* `Console.replica`: The replica up to where it listens.
-/

namespace QuorumStore

namespace Console

/-- The number with which a program ends. -/
abbrev ExitCode := Nat

/-- It ends well. -/
def success : ExitCode := 0

/-- It fails. -/
def failure : ExitCode := 1

/-- Its command line makes no sense. -/
def misuse : ExitCode := 2

/-- How a program ends that cannot make use of its command line. -/
def exitOf : FlagError → ExitCode
  | .help | .version => success
  | _ => misuse

/-- A client that is ready to connect. -/
structure Prepared where
  config : ClientConfig
  /-- What has been counted is wanted in the end. -/
  dumpMetrics : Bool

/-- Why a program does not get ready. -/
inductive Refusal where
  | flags (e : FlagError)
  | config (e : ConfigError)
  deriving DecidableEq, Repr

/-- How a program ends that does not get ready. -/
def Refusal.exit : Refusal → ExitCode
  | flags e => exitOf e
  | config _ => failure

/-- The client up to where it connects. If nobody gives it a name it is called
    `node`. -/
def prepare (node : String) (files : String → File) (args : List String) :
    Except Refusal Prepared := do
  let flags ← (ClientFlags.read args).mapError .flags
  let config ← (flags.configuration node files).mapError .config
  .ok ⟨config, flags.dumpMetrics⟩

/-- Where a client is connected to. -/
def target (c : ClientConfig) : String := ",".intercalate (c.replicaSet.map Endpoint.text)

/-- What a client says that could not connect. -/
def cannotConnect (c : ClientConfig) : String :=
  "error: unable to connect to " ++ target c ++ "\n"

/-- What a client says that has connected. -/
def hasConnected (c : ClientConfig) : String := "connected to " ++ target c ++ "\n"

/-- What stands before every line that is typed. -/
def prompt : String := "> "

/-- A reply as it is printed; an empty one is not. -/
def printed (text : String) : String := if text.isEmpty then "" else text ++ "\n"

/-- A client at work. -/
structure Client where
  session : Session
  cluster : Cluster
  /-- What has been counted so far. -/
  record : Record

/-- What comes of a line: the client goes on, having printed something, or
    stops. -/
inductive Turn where
  | goesOn (output : String) (x : Client)
  | stops (exit : ExitCode)

namespace Client

/-- The client after an operation. -/
def after {α : Type} (x : Client) (plan : Endpoint → Plan) (ticket : Ticket) (op : Operation)
    (e : Effect α) : Client :=
  ⟨e.session, e.cluster,
    x.record.append (Record.ofEffect x.session x.cluster plan ticket op e)⟩

/-- A client that has not connected yet. -/
def start (p : Prepared) (c : Cluster) : Client := ⟨p.config.session, c, {}⟩

/-- The client after it has connected; none if it cannot. -/
def connect? (x : Client) (plan : Endpoint → Plan) (ticket : Ticket) : Option Client :=
  let e := x.session.perform x.cluster plan ticket .connect
  match e.result with
  | .ok _ => some (x.after plan ticket .connect e)
  | .error _ => none

/-- The operation that a line asks for, if it asks for one. -/
def operation? (line : List UInt8) : Option Operation :=
  match (Text.decode? line).map Shell.read with
  | some (.operation op) => some op
  | _ => none

/-- What comes of one line, when calls of every kind have this plan. -/
def take (x : Client) (plan : Endpoint → Plan) (ticket : Ticket) (line : List UInt8) : Turn :=
  match Text.decode? line with
  | none => .stops failure
  | some text =>
    match Shell.execute x.session x.cluster (fun _ => plan) ticket text with
    | (.exit, _) => .stops success
    | (.output reply, effect) =>
      match operation? line, effect with
      | some op, some e => .goesOn (printed reply) (x.after plan ticket op e)
      | _, _ => .goesOn (printed reply) x

/-- What comes of all lines, one after another: what is printed, how the client
    ends and how it is then. -/
def converse (plan : Endpoint → Plan) (ticket : Ticket) :
    Client → List (List UInt8) → String × ExitCode × Client
  | x, [] => (prompt, success, x)
  | x, line :: lines =>
    match x.take plan ticket line with
    | .stops exit => (prompt, exit, x)
    | .goesOn output x =>
      let (more, exit, x) := converse plan ticket x lines
      (prompt ++ output ++ more, exit, x)

/-- What a client hands over that ends so. -/
def farewell (p : Prepared) (exit : ExitCode) (x : Client) : String :=
  if p.dumpMetrics && exit == success then x.record.exposition else ""

end Client

/-- A run of a program: what it prints, what it prints for those who run it,
    and how it ends. -/
structure Run where
  output : String
  aside : String
  exit : ExitCode
  deriving DecidableEq, Repr

/-- A run of the client. -/
def client (network : Network) (cluster : Cluster) (ticket : Ticket) (node : String)
    (files : String → File) (args : List String) (input : List UInt8) : Run :=
  match prepare node files args with
  | .error r => ⟨"", "", r.exit⟩
  | .ok p =>
    match (Client.start p cluster).connect? network.plan ticket with
    | none => ⟨cannotConnect p.config, "", success⟩
    | some x =>
      let (more, exit, x) := x.converse network.plan ticket (Wire.splitLines input)
      ⟨hasConnected p.config ++ more, x.farewell p exit, exit⟩

/-- The replica up to where it listens. -/
def replica (files : String → File) (args : List String) : Except Refusal ReplicaConfig := do
  let flags ← (ReplicaFlags.read args).mapError .flags
  (flags.configuration files).mapError .config

end Console

end QuorumStore
