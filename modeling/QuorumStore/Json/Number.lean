import QuorumStore.Json

/-!
# JSON Numbers

Number literals, and which of them are too large to be numbers at all.

The grammar is that of the format: an optional minus sign, digits without a
zero in front, a fraction, an exponent. A literal whose value exceeds what a
double can hold is refused even where nobody will look at it, so the reader
has to find out. It keeps the leading digits of the literal as long as they
fit in 64 bits, counts the rest as a power of ten, and multiplies the two as
doubles. `tooLarge` carries that out in exact arithmetic: a product of two
doubles overflows when it reaches the middle between the largest double and
the next power of two.

## Main definitions

* `Json.Literal`: The parts of a number literal.
* `Json.scanNumber?`: The literal at the front of a text.
* `Json.Literal.tooLarge`: The literal exceeds every double.
* `Json.readNumber?`: The number at the front of a text.
-/

namespace QuorumStore

namespace Json

/-- The parts of a number literal, as they are written. -/
structure Literal where
  negative : Bool
  whole : List Char
  fraction : List Char
  /-- Whether there is an exponent with a minus sign, and its digits. -/
  exponent : Option (Bool × List Char)
  deriving DecidableEq, Repr

/-- An ASCII digit. -/
def isDigit (c : Char) : Bool := decide ('0' ≤ c) && decide (c ≤ '9')

/-- The run of digits at the front of a text, if there is one. -/
def scanDigits? (cs : List Char) : Option (List Char × List Char) :=
  match cs.takeWhile isDigit with
  | [] => none
  | run => some (run, cs.dropWhile isDigit)

/-- The digits behind a point; none without a point. -/
def scanFraction? : List Char → Option (List Char × List Char)
  | '.' :: cs => scanDigits? cs
  | cs => some ([], cs)

/-- The exponent, if there is one. -/
def scanExponent? : List Char → Option (Option (Bool × List Char) × List Char)
  | c :: cs =>
    if c = 'e' ∨ c = 'E' then
      let (minus, cs) := match cs with
        | '-' :: cs => (true, cs)
        | '+' :: cs => (false, cs)
        | cs => (false, cs)
      (scanDigits? cs).map fun (run, rest) => (some (minus, run), rest)
    else some (none, c :: cs)
  | [] => some (none, [])

/-- The number literal at the front of a text. -/
def scanNumber? (cs : List Char) : Option (Literal × List Char) := do
  let (negative, cs) := match cs with
    | '-' :: cs => (true, cs)
    | cs => (false, cs)
  let (whole, cs) ← scanDigits? cs
  if whole.length ≠ 1 ∧ whole.head? = some '0' then none
  else
    let (fraction, cs) ← scanFraction? cs
    let (exponent, cs) ← scanExponent? cs
    some (⟨negative, whole, fraction, exponent⟩, cs)

namespace Literal

/-- The digits of the whole part that fit in 64 bits, as a number, and how
    many were left over. -/
def leading (lit : Literal) : Nat × Nat :=
  lit.whole.foldl (fun (sig, dropped) c =>
    let next := sig * 10 + (c.toNat - '0'.toNat)
    if 0 < dropped ∨ naturalLimit ≤ next then (sig, dropped + 1) else (next, 0)) (0, 0)

/-- Add the digits of a fraction as long as they fit: the number so far, and
    how many digits were added. -/
def addFraction (sig : Nat) : List Char → Nat × Nat
  | [] => (sig, 0)
  | c :: cs =>
    let next := sig * 10 + (c.toNat - '0'.toNat)
    if naturalLimit ≤ next then (sig, 0)
    else
      let (sig, added) := addFraction next cs
      (sig, added + 1)

/-- The literal as a number of at most 64 bits times a power of ten, up to
    digits that no longer matter. -/
def scaled (lit : Literal) : Nat × Int :=
  let (sig, dropped) := lit.leading
  let (sig, added) := addFraction sig lit.fraction
  let shift : Int := dropped - added
  match lit.exponent with
  | none => (sig, shift)
  | some (minus, run) =>
    let e : Int := (Numeral.readDigits? 10 run).getD 0
    (sig, if minus then shift - e else shift + e)

/-- The nearest number with 53 significant binary digits; of two equally near
    the even one. -/
def nearestDouble (n : Nat) : Nat :=
  let bits := n.log2 + 1
  if bits ≤ 53 then n
  else
    let unit := Nat.pow 2 (bits - 53)
    let q := n / unit
    let r := n % unit
    if unit < 2 * r ∨ unit = 2 * r ∧ q % 2 = 1 then (q + 1) * unit else q * unit

/-- The least number that rounds to more than the largest double. -/
def overflowBound : Nat := Nat.pow 2 1024 - Nat.pow 2 970

/-- The literal exceeds every double. -/
def tooLarge (lit : Literal) : Bool :=
  let (sig, e) := lit.scaled
  if sig = 0 ∨ e < 0 then false
  else if 308 < e then true
  else decide (overflowBound ≤ nearestDouble sig * nearestDouble (Nat.pow 10 e.toNat))

/-- What is kept of a literal. -/
def value (lit : Literal) : Json :=
  if lit.negative ∨ lit.fraction ≠ [] ∨ lit.exponent ≠ none then number
  else
    let n := (Numeral.readDigits? 10 lit.whole).getD 0
    if n < naturalLimit then natural n else number

end Literal

/-- The number at the front of a text. Checking refuses one that is too
    large. -/
def readNumber? (checked : Bool) (cs : List Char) : Option (Json × List Char) :=
  match scanNumber? cs with
  | some (lit, rest) => if checked && lit.tooLarge then none else some (lit.value, rest)
  | none => none

example : (readNumber? true "18446744073709551615,".toList).map (·.1.text)
    = some "18446744073709551615" := by decide +kernel
example : (readNumber? true "1.5e400".toList).isNone ∧ (readNumber? true "0e400".toList).isSome ∧
    (readNumber? true "01".toList).isNone ∧ (readNumber? true "1.".toList).isNone := by
  decide +kernel

end Json

end QuorumStore
