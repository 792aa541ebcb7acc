import QuorumStore.Configuration.File
import QuorumStore.Flags
import QuorumStore.ParseError

/-!
# The Flags of the Programs

What the client and the replica can be told on their command lines.

A flag goes before the configuration file, and the file before the standard
values. The file has to be sound by itself, even where a flag would set it
right; afterwards the whole has to be.

## Main definitions

* `ClientFlags`: What the client's command line says.
* `ClientFlags.read`: The same, from the arguments.
* `ClientFlags.configuration`: The configuration that comes of it.
* `ReplicaFlags`, `ReplicaFlags.read`, `ReplicaFlags.configuration`: The same
  for the replica.
-/

namespace QuorumStore

namespace Flags

/-- A value that a reader has to understand. -/
def parsed {σ α : Type} (parse : String → Option α) (put : α → σ → σ) :
    String → σ → Except FlagError σ :=
  fun v x => match parse v with
    | some a => .ok (put a x)
    | none => .error .badValue

/-- A path, which is not empty. -/
def path {σ : Type} (put : String → σ → σ) : String → σ → Except FlagError σ :=
  fun v x => if v.isEmpty then .error .noValue else .ok (put v x)

/-- A port, which may have a sign. -/
def port? (s : String) : Option UInt16 :=
  match s.toList with
  | '-' :: cs => (Numeral.readDigits? 10 cs).bind fun n => if n = 0 then some 0 else none
  | cs => Endpoint.readPort? cs

end Flags

/-- What the client's command line says. -/
structure ClientFlags where
  host : Option String := none
  port : Option UInt16 := none
  readLevel : Option Level := none
  writeLevel : Option Level := none
  /-- The path of the configuration file. -/
  config : Option String := none
  replicas : List Endpoint := []
  /-- The counts are wanted in the end. -/
  dumpMetrics : Bool := false
  deriving Repr

namespace ClientFlags

open Flags

/-- The client's flags. -/
def flags : List (Flag ClientFlags) :=
  [⟨"host", .option false (parsed some fun v x => { x with host := some v })⟩,
   ⟨"port", .option false (parsed Flags.port? fun v x => { x with port := some v })⟩,
   ⟨"rl", .option false (parsed Level.ofLenientName? fun v x => { x with readLevel := some v })⟩,
   ⟨"wl", .option false (parsed Level.ofLenientName? fun v x => { x with writeLevel := some v })⟩,
   ⟨"config", .option false (path fun v x => { x with config := some v })⟩,
   ⟨"replica", .option true (parsed Endpoint.parse? fun v x =>
      { x with replicas := x.replicas ++ [v] })⟩,
   ⟨"dump-metrics", .switch fun x => { x with dumpMetrics := true }⟩]

/-- What a command line says. -/
def read (args : List String) : Except FlagError ClientFlags := Flags.read flags {} args

/-- The configuration with the flags in the place of what it says. -/
def override (x : ClientFlags) (c : ClientConfig) : ClientConfig :=
  { c with
    host := x.host.getD c.host
    port := x.port.getD c.port
    readLevel := x.readLevel.getD c.readLevel
    writeLevel := x.writeLevel.getD c.writeLevel
    replicas := if x.replicas.isEmpty then c.replicas else x.replicas }

/-- The configuration that comes of the flags and the files. A client that is
    given no name is called `node`. -/
def configuration (x : ClientFlags) (node : String) (files : String → File) :
    Except ConfigError ClientConfig := do
  let c ← match x.config with
    | some path => ClientConfig.ofFile node (files path)
    | none => .ok (ClientConfig.standard node)
  (x.override c).check

end ClientFlags

/-- What the replica's command line says. -/
structure ReplicaFlags where
  listen : Option Address := none
  config : Option String := none
  deriving Repr

namespace ReplicaFlags

open Flags

/-- The replica's flags. -/
def flags : List (Flag ReplicaFlags) :=
  [⟨"listen", .option false (parsed Address.parse? fun v x => { x with listen := some v })⟩,
   ⟨"config", .option false (path fun v x => { x with config := some v })⟩]

/-- What a command line says. -/
def read (args : List String) : Except FlagError ReplicaFlags := Flags.read flags {} args

/-- The configuration that comes of the flags and the files. -/
def configuration (x : ReplicaFlags) (files : String → File) :
    Except ConfigError ReplicaConfig := do
  let c ← match x.config with
    | some path => ReplicaConfig.ofFile (files path)
    | none => .ok ReplicaConfig.standard
  .ok ⟨x.listen.getD c.listen⟩

end ReplicaFlags

end QuorumStore
