import QuorumStore.Json

/-!
# Shapes of JSON Values

The few ways in which a message's parts are laid out in JSON.

A record is an object with a member for each field, or an array with an item
for each, in order. In an object unknown members are ignored, but a known one
may occur only once. In an array nothing may be left over.

## Main definitions

* `Json.field?`: The member of an object that may occur once.
* `Json.string?`, `Json.bool?`, `Json.natural?`: A value of that kind.
* `Json.choice?`: One of a list of names.
-/

namespace QuorumStore

namespace Json

/-- The string a value is. -/
def string? : Json → Option String
  | string s => some s
  | _ => none

/-- The truth value a value is. -/
def bool? : Json → Option Bool
  | bool b => some b
  | _ => none

/-- The natural number below a limit that a value is. -/
def natural? (limit : Nat) : Json → Option Nat
  | natural n => if n < limit then some n else none
  | _ => none

/-- The member of that name, if there is one: none where it occurs twice. -/
def field? (name : String) (ms : List (String × Json)) : Option (Option Json) :=
  match ms.filter (fun m => m.1 == name) with
  | [] => some none
  | [m] => some (some m.2)
  | _ => none

/-- The member of that name, which has to be there once. -/
def member? (name : String) (ms : List (String × Json)) : Option Json :=
  match field? name ms with
  | some (some j) => some j
  | _ => none

/-- The name that a value chooses: a string, or an object whose one member is
    named so and holds nothing, which `isNothing` decides. -/
def choice? (isNothing : Json → Bool) : Json → Option String
  | string s => some s
  | object [(s, j)] => if isNothing j then some s else none
  | _ => none

/-- The value is null. -/
def isNull : Json → Bool
  | null => true
  | _ => false

/-- The value is null or an object without members. -/
def isVoid : Json → Bool
  | null => true
  | object [] => true
  | _ => false

end Json

end QuorumStore
