import QuorumStore.Text.Blank

/-!
# Conflict Policies

What a read does when it meets versions that no write has seen together.

Either the conflict is handed to the caller, or one of the versions is taken
by a fixed rule. As with levels, the command line's reader is lenient about a
name and the configuration file's is not.

## Main definitions

* `Policy`: Surface the conflict, or take the version of the highest node.
* `Policy.name`: The canonical name.
* `Policy.ofLenientName?`: The policy a command line names.
* `Policy.ofFileName?`: The policy a configuration file names.
-/

namespace QuorumStore

/-- What a read does with concurrent versions. -/
inductive Policy where
  /-- Report them all to the caller. -/
  | surface
  /-- Take the version that has seen the highest node. -/
  | highestNode
  deriving DecidableEq, Repr, Inhabited

namespace Policy

/-- The canonical name of a policy. -/
def name : Policy → String
  | surface => "surface"
  | highestNode => "highest_node"

/-- The name of a policy in a listing of settings. -/
def listing : Policy → String
  | surface => "Surface"
  | highestNode => "HighestNode"

/-- The policy a configuration file names, which is the one of that exact
    name. -/
def ofFileName? (s : String) : Option Policy :=
  if s = "surface" then some surface
  else if s = "highest_node" then some highestNode
  else none

/-- The policy a command line names: in any case, with blanks around it, and
    with hyphens for underscores. -/
def ofLenientName? (s : String) : Option Policy :=
  ofFileName? (String.ofList ((Text.trim s.toList).map fun c =>
    if c = '-' then '_' else c.toLower))

end Policy

end QuorumStore
