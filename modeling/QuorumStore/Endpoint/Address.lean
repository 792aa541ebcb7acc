import QuorumStore.Endpoint

/-!
# Socket Addresses

The numeric addresses a replica can listen on.

A replica is told its address as four numbers with dots, or as eight groups
between brackets with at most one run of zeros left out, and a port behind
either. There is no name resolution here, so a host name is not an address.

Each reader takes its piece off the front of a text and returns what follows,
so that the two forms are concatenations of the same few pieces.

## Main definitions

* `Address`: An address of four numbers or of eight groups, with its port.
* `Address.parse?`: The address a text writes.
* `Address.text`: The written form, with the longest run of zeros left out.
* `Address.endpoint`: The endpoint at an address.
-/

namespace QuorumStore

/-- Four numbers, or eight groups and a zone, with a port. -/
inductive Address where
  | four (numbers : List Nat) (port : UInt16)
  | six (groups : List Nat) (zone : Nat) (port : UInt16)
  deriving DecidableEq, Repr

namespace Address

/-- Take one given character off the front. -/
def take? (c : Char) : List Char → Option (List Char)
  | c' :: cs => if c' = c then some cs else none
  | [] => none

/-- The longest run of digits at the front, as a number below `limit`. The run
    has at most `width` digits where a width is given. -/
def number? (base limit : Nat) (width : Option Nat) (cs : List Char) : Option (Nat × List Char) :=
  let isDigit := fun c => (Numeral.digit? base c).isSome
  let run := cs.takeWhile isDigit
  let tooWide := match width with
    | some w => decide (w < run.length)
    | none => false
  if tooWide then none
  else match Numeral.readDigits? base run with
    | some n => if n < limit then some (n, cs.dropWhile isDigit) else none
    | none => none

/-- A number of a dotted address: at most 255, with no zero in front of other
    digits. -/
def octet? (cs : List Char) : Option (Nat × List Char) :=
  match number? 10 256 (some 3) cs with
  | some (n, rest) =>
    if cs.head? = some '0' ∧ n ≠ 0 ∨ cs.take 2 = ['0', '0'] then none
    else some (n, rest)
  | none => none

/-- Four numbers with dots between them. -/
def dotted? (cs : List Char) : Option (List Nat × List Char) := do
  let (a, cs) ← octet? cs
  let (b, cs) ← octet? (← take? '.' cs)
  let (c, cs) ← octet? (← take? '.' cs)
  let (d, cs) ← octet? (← take? '.' cs)
  some ([a, b, c, d], cs)

/-- A port behind its colon, which ends the text. -/
def port? (cs : List Char) : Option UInt16 := do
  let (n, rest) ← number? 10 65536 none (← take? ':' cs)
  if rest.isEmpty then some (UInt16.ofNat n) else none

/-- Up to `room` groups with colons between them, the last two of which may
    be written as four numbers with dots. `first` tells that no group has been
    read yet. The flag of the result tells that a dotted address ended them. -/
def groups (first : Bool) : Nat → List Char → List Nat × Bool × List Char
  | 0, cs => ([], false, cs)
  | room + 1, cs =>
    match if first then some cs else take? ':' cs with
    | none => ([], false, cs)
    | some body =>
      match if 0 < room then dotted? body else none with
      | some (numbers, rest) =>
        match numbers with
        | [a, b, c, d] => ([a * 256 + b, c * 256 + d], true, rest)
        | _ => ([], false, cs)
      | none =>
        match number? 16 65536 (some 4) body with
        | none => ([], false, cs)
        | some (g, rest) =>
          let (more, ended, rest) := groups false room rest
          (g :: more, ended, rest)

/-- Eight groups; or fewer around a double colon, which stands for a run of
    one zero or more. -/
def grouped? (cs : List Char) : Option (List Nat × List Char) :=
  let (head, ended, rest) := groups true 8 cs
  if head.length = 8 then some (head, rest)
  else if ended then none
  else do
    let rest ← take? ':' (← take? ':' rest)
    let (tail, _, rest) := groups true (7 - head.length) rest
    some (head ++ List.replicate (8 - head.length - tail.length) 0 ++ tail, rest)

/-- The zone behind a percent sign, zero when there is none. -/
def zone (cs : List Char) : Nat × List Char :=
  match (take? '%' cs).bind (number? 10 (Nat.pow 2 32) none) with
  | some (n, rest) => (n, rest)
  | none => (0, cs)

/-- The address that a text writes. -/
def parse? (s : String) : Option Address :=
  match dotted? s.toList with
  | some (numbers, rest) => (port? rest).map (four numbers)
  | none => do
    let (gs, rest) ← grouped? (← take? '[' s.toList)
    let (z, rest) := zone rest
    let p ← port? (← take? ']' rest)
    some (six gs z p)

/-- Texts with a separator between each two. -/
def joinWith (sep : String) (parts : List String) : String := sep.intercalate parts

/-- Four numbers with dots between them. -/
def dottedText (numbers : List Nat) : String :=
  joinWith "." (numbers.map fun n => String.ofList (Numeral.digits n))

/-- Groups with colons between them. -/
def groupsText (gs : List Nat) : String :=
  joinWith ":" (gs.map fun g => String.ofList (Nat.toDigits 16 g))

/-- Where the longest run of zeros starts and how long it is; of two that are
    equally long the first counts. -/
def longestZeros (gs : List Nat) : Nat × Nat :=
  (List.range gs.length).foldl (fun best i =>
    let len := ((gs.drop i).takeWhile (· == 0)).length
    if best.2 < len then (i, len) else best) (0, 0)

/-- Eight groups, with the longest run of two zeros or more left out. An
    address that embeds four numbers shows them with dots. -/
def groupedText (gs : List Nat) : String :=
  match gs with
  | [0, 0, 0, 0, 0, 0xffff, a, b] =>
    "::ffff:" ++ dottedText [a / 256, a % 256, b / 256, b % 256]
  | _ =>
    let (start, len) := longestZeros gs
    if len < 2 then groupsText gs
    else groupsText (gs.take start) ++ "::" ++ groupsText (gs.drop (start + len))

/-- The host part of an address, in which a zone is not named. -/
def host : Address → String
  | four numbers _ => dottedText numbers
  | six gs _ _ => "[" ++ groupedText gs ++ "]"

/-- The port of an address. -/
def port : Address → UInt16
  | four _ p => p
  | six _ _ p => p

/-- The endpoint at an address. -/
def endpoint (a : Address) : Endpoint := ⟨a.host, a.port⟩

/-- The written form of an address, in which a zone other than zero is named. -/
def text : Address → String
  | four numbers p => (four numbers p).endpoint.text
  | six gs z p =>
    let zoneText := if z = 0 then "" else "%" ++ String.ofList (Numeral.digits z)
    "[" ++ groupedText gs ++ zoneText ++ "]:" ++ String.ofList (Numeral.digits p.toNat)

end Address

end QuorumStore
