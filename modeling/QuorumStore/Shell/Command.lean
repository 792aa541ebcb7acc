import QuorumStore.Operation
import QuorumStore.Shell.Tokens

/-!
# Shell Commands

What the arguments of a line ask for.

There are five commands. The three on a key want exactly their arguments; the
other two ignore whatever follows their name.

## Main definitions

* `Shell.Command`: An operation of the session, or the end of the shell.
* `Shell.UsageError`: Why arguments are no command.
* `Shell.Command.parse`: The command that arguments give.
-/

namespace QuorumStore

namespace Shell

/-- What a line asks for. -/
inductive Command where
  | operation (op : Operation)
  | exit
  deriving DecidableEq, Repr

/-- Why arguments are no command. -/
inductive UsageError where
  | unknownCommand (name : String)
  | usage (reminder : String)
  deriving DecidableEq, Repr

/-- The text of an error. -/
def UsageError.message : UsageError → String
  | unknownCommand _ => "unknown command"
  | usage reminder => reminder

namespace Command

/-- The command of a name with its arguments. -/
def ofName (name : String) (args : List String) : Except UsageError Command :=
  if name = "get" then
    match args with
    | [key] => .ok (operation (.get key))
    | _ => .error (.usage "usage: get <key>")
  else if name = "put" then
    match args with
    | [key, value] => .ok (operation (.put key value))
    | _ => .error (.usage "usage: put <key> <value>")
  else if name = "del" then
    match args with
    | [key] => .ok (operation (.delete key))
    | _ => .error (.usage "usage: del <key>")
  else if name = "stat" then .ok (operation .stat)
  else if name = "exit" then .ok exit
  else .error (.unknownCommand name)

/-- The command that arguments give. -/
def parse : List String → Except UsageError Command
  | [] => .error (.unknownCommand "")
  | name :: args => ofName name args

end Command

end Shell

end QuorumStore
