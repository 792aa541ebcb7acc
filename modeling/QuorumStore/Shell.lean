import QuorumStore.Shell.Command
import QuorumStore.Shell.StatTable

/-!
# The Shell

Lines in, replies out.

A line is freed of the spaces and line ends around it and split into
arguments. Nothing is answered to a blank line; a line that is no command is
told so; the end of the shell has no text. Every other line is an operation of
the session, and its answer is shown as a text.

## Main definitions

* `Shell.Line`: What a line comes to before anything is done.
* `Shell.read`: What a line comes to.
* `Shell.answerText`: An answer, or its error, as a text.
* `Shell.Reply`: What the shell says to a line.
* `Shell.execute`: A line carried out.
-/

namespace QuorumStore

namespace Shell

/-- What a line comes to before anything is done. -/
inductive Line where
  | blank
  | mistake (e : UsageError)
  | operation (op : Operation)
  | exit
  deriving DecidableEq, Repr

/-- The characters that are dropped at the ends of a line. -/
def isLineMargin (c : Char) : Bool := c == ' ' || c == '\r' || c == '\n'

/-- A line without its margins. -/
def trimLine (cs : List Char) : List Char :=
  ((cs.dropWhile isLineMargin).reverse.dropWhile isLineMargin).reverse

/-- What a line comes to. -/
def read (line : String) : Line :=
  match (tokenize (trimLine line.toList)).map String.ofList with
  | [] => .blank
  | tokens =>
    match Command.parse tokens with
    | .error e => .mistake e
    | .ok (.operation op) => .operation op
    | .ok .exit => .exit

/-- An error as a text; a conflict lists its siblings. -/
def showError (e : OpError) : String :=
  match e with
  | .conflict _ siblings => "error: " ++ e.message ++ "\n" ++ Version.siblingLines siblings
  | e => "error: " ++ e.message

/-- An answer as a text. -/
def showAnswer : Answer → String
  | .reached n => listNat n
  | .found f => f.value
  | .written _ => "ok"
  | .report r => statTable r

/-- An answer, or its error, as a text. -/
def answerText : Except OpError Answer → String
  | .ok a => showAnswer a
  | .error e => showError e

/-- What the shell says to a line. -/
inductive Reply where
  /-- A text, which may be empty. -/
  | output (text : String)
  | exit
  deriving DecidableEq, Repr

/-- A line carried out by a session, whose calls of each kind have a plan: the
    reply, and the effect if there is one. -/
def execute (s : Session) (c : Cluster) (plan : Kind → Endpoint → Plan) (ticket : Ticket)
    (line : String) : Reply × Option (Effect Answer) :=
  match read line with
  | .operation op =>
    let effect := s.perform c (plan op.kind) ticket op
    (.output (answerText effect.result), some effect)
  | .blank => (.output "", none)
  | .mistake e => (.output e.message, none)
  | .exit => (.exit, none)

end Shell

end QuorumStore
