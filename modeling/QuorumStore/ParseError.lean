import QuorumStore.Endpoint
import QuorumStore.Level
import QuorumStore.Policy

/-!
# Names That Name Nothing

The error for a text that was to name an endpoint, a level or a policy.

The three readers say no more than that they cannot read a text. Where the text
came from somebody who typed it, the refusal quotes it as it was typed, blanks
included, and says what was expected.

## Main definitions

* `ParseError`: A text that names nothing of its kind.
* `ParseError.message`: The refusal as a text.
* `Endpoint.parse`, `Level.parse`, `Policy.parse`: The readers, with their
  refusals.
-/

namespace QuorumStore

/-- A text that names nothing of its kind. -/
inductive ParseError where
  | endpoint (typed : String)
  | level (typed : String)
  | policy (typed : String)
  deriving DecidableEq, Repr

/-- The refusal as a text. -/
def ParseError.message : ParseError → String
  | endpoint typed => "invalid endpoint '" ++ typed ++ "', expected host:port"
  | level typed => "invalid consistency level '" ++ typed ++ "', expected ONE, QUORUM or ALL"
  | policy typed =>
    "invalid conflict policy '" ++ typed ++ "', expected surface or highest_node"

/-- The endpoint that a text writes, or the refusal. -/
def Endpoint.parse (typed : String) : Except ParseError Endpoint :=
  match parse? typed with
  | some e => .ok e
  | none => .error (.endpoint typed)

/-- The level that a text names, or the refusal. -/
def Level.parse (typed : String) : Except ParseError Level :=
  match ofLenientName? typed with
  | some l => .ok l
  | none => .error (.level typed)

/-- The policy that a text names, or the refusal. -/
def Policy.parse (typed : String) : Except ParseError Policy :=
  match ofLenientName? typed with
  | some p => .ok p
  | none => .error (.policy typed)

end QuorumStore
