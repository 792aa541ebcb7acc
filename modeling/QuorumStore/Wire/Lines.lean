import QuorumStore.Text.Utf8
import QuorumStore.Wire.Message

/-!
# Lines of Messages

How messages follow one another on a connection: one to a line.

Whoever writes ends each message with a line feed. Whoever reads is more
generous: it drops any carriage returns before the line feed, takes no notice
of lines that are empty then, and does without the last line feed. A line that
is not text or not a message ends the reading.

## Main definitions

* `splitLines`: The lines of a stream of bytes, without their line feeds.
* `LineError`: Why a line is no message.
* `writeMessage`: A message as a line.
* `readLine`: What a line holds; nothing if it is blank.
* `readMessages`: The messages of a stream, up to the first bad line.
-/

namespace QuorumStore

namespace Wire

/-- The byte that ends a line. -/
def lineFeed : UInt8 := 10

/-- The lines of a stream of bytes, without the line feeds that end them. -/
def splitLines : List UInt8 → List (List UInt8)
  | [] => []
  | b :: bs =>
    if b = lineFeed then [] :: splitLines bs
    else match splitLines bs with
      | [] => [[b]]
      | l :: ls => (b :: l) :: ls

/-- Why a line is no message. -/
inductive LineError where
  /-- Its bytes are not UTF-8. -/
  | notText
  /-- Its text is not a message. -/
  | fault (f : Json.Fault)
  deriving DecidableEq, Repr

/-- What is wrong with a line that is no message, in an error reply. The words
    are this library's own and not those of a JSON reader: they say which of
    three kinds of fault it is, and nothing of what was met where. -/
def LineError.message : LineError → String
  | notText => "line is not UTF-8"
  | fault .malformed => "line is not JSON"
  | fault .shape => "line is not a message"

/-- A text without the line ends behind it. -/
def dropLineEnds (cs : List Char) : List Char :=
  (cs.reverse.dropWhile fun c => c == '\n' || c == '\r').reverse

/-- A message as a line. -/
def writeMessage (j : Json) : List UInt8 := Text.encode (String.ofList (j.write ++ ['\n']))

/-- What a line holds: nothing if it is blank. -/
def readLine {α : Type} (parse : List Char → Except Json.Fault α) (line : List UInt8) :
    Except LineError (Option α) :=
  match Text.decode? line with
  | none => .error .notText
  | some s =>
    match dropLineEnds s.toList with
    | [] => .ok none
    | cs =>
      match parse cs with
      | .ok a => .ok (some a)
      | .error f => .error (.fault f)

/-- The messages of some lines up to the first that is none, and why it is
    none. -/
def readAll {α : Type} (parse : List Char → Except Json.Fault α) :
    List (List UInt8) → List α × Option LineError
  | [] => ([], none)
  | line :: lines =>
    match readLine parse line with
    | .error e => ([], some e)
    | .ok none => readAll parse lines
    | .ok (some a) =>
      let (as, e) := readAll parse lines
      (a :: as, e)

/-- The messages of a stream up to the first bad line. -/
def readMessages {α : Type} (parse : List Char → Except Json.Fault α) (bs : List UInt8) :
    List α × Option LineError :=
  readAll parse (splitLines bs)

end Wire

end QuorumStore
