import QuorumStore.Configuration.Client

/-!
# Configuration Files

Configurations as files hold them.

A file can fail to be a configuration at three points: it cannot be read as a
text, the text is no document of the right shape, or the configuration that it
writes is not sound. A replica's file holds no more than the address to listen
on, and nothing of that can be unsound.

## Main definitions

* `ConfigError`: Why there is no configuration.
* `File`: What is found under a path.
* `ClientConfig.check`: A configuration, if it is sound.
* `ClientConfig.ofText`, `ClientConfig.ofFile`: A client's configuration.
* `ReplicaConfig.ofFile`: A replica's configuration.
-/

open QuorumStore.Configuration

namespace QuorumStore

/-- Why there is no configuration. -/
inductive ConfigError where
  /-- There is nothing under the path. -/
  | missing
  /-- There is a directory under the path. -/
  | directory
  /-- The file is not text. -/
  | notText
  /-- The text is no document of the right shape. -/
  | shape
  | flaw (f : ClientConfig.Flaw)
  deriving DecidableEq, Repr

/-- An error as a text. -/
def ConfigError.message : ConfigError → String
  | missing => "failed to read config file: No such file or directory (os error 2)"
  | directory => "failed to read config file: Is a directory (os error 21)"
  | notText => "failed to read config file: stream did not contain valid UTF-8"
  | shape => "failed to parse YAML"
  | flaw f => "invalid config: " ++ f.message

/-- What is found under a path. -/
inductive File where
  | missing
  | directory
  | bytes (content : List UInt8)
  deriving DecidableEq, Repr, Inhabited

/-- The text of a file. -/
def File.text : File → Except ConfigError String
  | missing => .error .missing
  | directory => .error .directory
  | bytes content =>
    match Text.decode? content with
    | some s => .ok s
    | none => .error .notText

namespace ClientConfig

/-- A configuration, if it is sound. -/
def check (x : ClientConfig) : Except ConfigError ClientConfig :=
  match x.flaw? with
  | some f => .error (.flaw f)
  | none => .ok x

/-- The configuration that a text writes. -/
def ofText (node text : String) : Except ConfigError ClientConfig :=
  match (Yaml.parse? text).bind (ofYaml? node) with
  | some x => x.check
  | none => .error .shape

/-- The configuration that a file holds. -/
def ofFile (node : String) (f : File) : Except ConfigError ClientConfig := do
  ofText node (← f.text)

end ClientConfig

/-- What a replica is told. -/
structure ReplicaConfig where
  /-- Where it listens. -/
  listen : Address
  deriving DecidableEq, Repr

namespace ReplicaConfig

/-- A replica that listens where a client looks for it. -/
def standard : ReplicaConfig := ⟨.four [127, 0, 0, 1] 7000⟩

/-- The configuration that a document is. -/
def ofYaml? (d : Yaml.Document) : Option ReplicaConfig := do
  some ⟨← field? (← d.members? d.root) "listen" (yamlSource d).address? standard.listen⟩

/-- The configuration that a file holds. -/
def ofFile (f : File) : Except ConfigError ReplicaConfig := do
  match (Yaml.parse? (← f.text)).bind ofYaml? with
  | some x => .ok x
  | none => .error .shape

end ReplicaConfig

end QuorumStore
