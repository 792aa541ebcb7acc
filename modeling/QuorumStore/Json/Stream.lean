import QuorumStore.Json.Reader

/-!
# Reading Values in Passing

Reading a value of a known shape straight off a text, without building the
JSON value in between.

A text can have two things wrong with it: it can fail to be JSON, and it can
be JSON of another shape. A reader that builds the whole value first always
notices the former first. The readers here go through the text once and report
whatever they meet first, so which fault a text has depends on where its
faults are.

What is skipped over is held to the grammar only, at any depth.

## Main definitions

* `Json.mismatch`: The fault of a text that holds some other kind of value.
* `Json.expectString`, `Json.expectNatural`: A value of that kind.
* `Json.skipValue`: A value that nobody needs.
* `Json.expectFields`: The members of an object, one at a time.
* `Json.expectItem`, `Json.expectEnd`: The items of an array, one at a time.
-/

namespace QuorumStore

namespace Json

/-- What was read, or a malformed text when nothing could be. -/
def orMalformed {α : Type} : Option α → Except Fault α
  | some a => .ok a
  | none => .error .malformed

/-- The fault of a text that was to hold another kind of value than it does.
    A scalar is read to its end first; an array or an object is not entered. -/
def mismatch (cs : List Char) : Fault :=
  match cs with
  | '[' :: _ => .shape
  | '{' :: _ => .shape
  | cs => if (readScalar? true cs).isSome then .shape else .malformed

/-- A string. -/
def expectString (cs : List Char) : Except Fault (String × List Char) :=
  match skipBlanks cs with
  | '"' :: cs => do
    let (s, rest) ← orMalformed (readString? true .plain cs)
    .ok (String.ofList s, rest)
  | cs => .error (mismatch cs)

/-- A natural number below a limit. -/
def expectNatural (limit : Nat) (cs : List Char) : Except Fault (Nat × List Char) := do
  let cs := skipBlanks cs
  if cs.head?.any (fun c => c == '-' || isDigit c) then
    match ← orMalformed (readNumber? true cs) with
    | (natural n, rest) => if n < limit then .ok (n, rest) else .error .shape
    | _ => .error .shape
  else .error (mismatch cs)

/-- A value that nobody needs. -/
def skipValue (cs : List Char) : Except Fault (List Char) := do
  let (_, rest) ← orMalformed (readValue? false cs.length cs)
  .ok rest

/-- The colon between a key and its value. -/
def expectColon (cs : List Char) : Except Fault (List Char) :=
  match skipBlanks cs with
  | ':' :: rest => .ok rest
  | _ => .error .malformed

/-- The members of an object from a key on. Each key is handed to `field` with
    the text behind it, where the colon stands, and what `field` makes of the
    state is carried along. -/
def fieldsFrom {σ : Type} (field : String → σ → List Char → Except Fault (σ × List Char)) :
    Nat → σ → List Char → Except Fault (σ × List Char)
  | 0, _, _ => .error .malformed
  | room + 1, st, cs =>
    match cs with
    | '"' :: cs => do
      let (key, cs) ← orMalformed (readString? true .plain cs)
      let (st, cs) ← field (String.ofList key) st cs
      match skipBlanks cs with
      | '}' :: rest => .ok (st, rest)
      | ',' :: cs => fieldsFrom field room st (skipBlanks cs)
      | _ => .error .malformed
    | _ => .error .malformed

/-- The members of an object behind its brace. -/
def expectFields {σ : Type} (field : String → σ → List Char → Except Fault (σ × List Char))
    (st : σ) (cs : List Char) : Except Fault (σ × List Char) :=
  match skipBlanks cs with
  | '}' :: rest => .ok (st, rest)
  | cs => fieldsFrom field cs.length st cs

/-- The text of the next item of an array, none at the closing bracket. -/
def nextItem (first : Bool) (cs : List Char) : Except Fault (Option (List Char)) :=
  match skipBlanks cs with
  | [] => .error .malformed
  | ']' :: _ => .ok none
  | c :: cs =>
    if first then .ok (some (c :: cs))
    else if c = ',' then
      match skipBlanks cs with
      | [] => .error .malformed
      | ']' :: _ => .error .malformed
      | cs => .ok (some cs)
    else .error .malformed

/-- An item that an array has to have. -/
def expectItem {α : Type} (first : Bool) (read : List Char → Except Fault (α × List Char))
    (cs : List Char) : Except Fault (α × List Char) := do
  match ← nextItem first cs with
  | some cs => read cs
  | none => .error .shape

/-- The end of an array that may have no more items. -/
def expectEnd (cs : List Char) : Except Fault (List Char) :=
  match skipBlanks cs with
  | ']' :: rest => .ok rest
  | _ => .error .malformed

end Json

end QuorumStore
