import QuorumStore.Endpoint.Address
import QuorumStore.Json.Shape
import QuorumStore.Level
import QuorumStore.Policy
import QuorumStore.Yaml.Shape

/-!
# Where Configurations Come From

Records of named fields, in one format or another.

A configuration is read from a YAML document or from a JSON value. The two
differ in what passes for a text, a number, a name or a list, and in nothing
else; `Source` holds those four differences, so what fields there are and what
they may hold is said once for both. A field that is not there keeps its
standard value, one that is there twice is refused, and fields that nobody
knows are passed over.

## Main definitions

* `Configuration.Source`: How the values of a format are read.
* `Configuration.yamlSource`, `Configuration.jsonSource`: The two formats.
* `Configuration.Source.field?`: The value of a field.
-/

namespace QuorumStore

namespace Configuration

/-- How the values of a format are read. -/
structure Source (ν : Type) where
  string? : ν → Option String
  /-- A number below a limit. -/
  natural? : Nat → ν → Option Nat
  /-- A name out of a list. -/
  choice? : ν → Option String
  items? : ν → Option (List ν)

/-- The nodes of a document. -/
def yamlSource (d : Yaml.Document) : Source Yaml.Node :=
  ⟨d.string?, d.natural?, d.choice?, d.items?⟩

/-- The items of an array. -/
def jsonItems? : Json → Option (List Json)
  | .array items => some items
  | _ => none

/-- JSON values. -/
def jsonSource : Source Json :=
  ⟨Json.string?, Json.natural?, Json.choice? Json.isNull, jsonItems?⟩

/-- The value of a field, which may be missing and may not be repeated. -/
def field? {ν α : Type} (ms : List (String × ν)) (name : String) (read : ν → Option α)
    (standard : α) : Option α :=
  match ms.filter (·.1 == name) with
  | [] => some standard
  | [m] => read m.2
  | _ => none

namespace Source

variable {ν : Type} (s : Source ν)

/-- A level by its name. -/
def level? (v : ν) : Option Level := (s.choice? v).bind Level.ofFileName?

/-- A policy by its name. -/
def policy? (v : ν) : Option Policy := (s.choice? v).bind Policy.ofFileName?

/-- A port. -/
def port? (v : ν) : Option UInt16 := (s.natural? 65536 v).map UInt16.ofNat

/-- A number of milliseconds. -/
def duration? (v : ν) : Option Nat := s.natural? Json.naturalLimit v

/-- A list of endpoints. -/
def endpoints? (v : ν) : Option (List Endpoint) := do
  (← s.items? v).mapM fun item => (s.string? item).bind Endpoint.parse?

/-- An address. -/
def address? (v : ν) : Option Address := (s.string? v).bind Address.parse?

end Source

end Configuration

end QuorumStore
