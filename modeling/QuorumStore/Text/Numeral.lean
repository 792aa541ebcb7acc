/-!
# Numerals

Natural numbers as they are written down: one or more digits of a base, at
times behind a sign.

The readers of ports, counters and configuration values differ in which signs
and which base they take, and in nothing else, so the digits are read in one
place. There is no grouping and no upper limit here; a reader that has a limit
checks it on the number it gets.

## Main definitions

* `digit?`: The value of a digit in a base.
* `readDigits?`: The number that a text of digits writes.
* `readPlus?`: The same behind an optional plus sign.
* `digits`: A number in decimal digits.
-/

namespace QuorumStore

namespace Numeral

/-- The value of a character as a digit: the ten decimal digits, then the
    letters of either case. -/
def digit? (base : Nat) (c : Char) : Option Nat :=
  let v? :=
    if '0' ≤ c ∧ c ≤ '9' then some (c.toNat - '0'.toNat)
    else if 'a' ≤ c ∧ c ≤ 'z' then some (c.toNat - 'a'.toNat + 10)
    else if 'A' ≤ c ∧ c ≤ 'Z' then some (c.toNat - 'A'.toNat + 10)
    else none
  v?.filter (· < base)

/-- The number that digits write behind a number already read. -/
def readFrom? (base acc : Nat) : List Char → Option Nat
  | [] => some acc
  | c :: cs =>
    match digit? base c with
    | some d => readFrom? base (acc * base + d) cs
    | none => none

/-- The number that a text writes which holds digits only, and one at least. -/
def readDigits? (base : Nat) : List Char → Option Nat
  | [] => none
  | cs => readFrom? base 0 cs

/-- The number of digits behind an optional plus sign. -/
def readPlus? (base : Nat) : List Char → Option Nat
  | '+' :: cs => readDigits? base cs
  | cs => readDigits? base cs

/-- A number in decimal digits, without leading zeros. -/
def digits (n : Nat) : List Char := Nat.toDigits 10 n

example : readDigits? 10 "0080".toList = some 80 := by decide +kernel
example : readPlus? 10 "+7".toList = some 7 := by decide +kernel
example : readPlus? 10 "+".toList = none := by decide +kernel
example : readPlus? 10 "1_0".toList = none := by decide +kernel
example : readDigits? 16 "1bF".toList = some 447 := by decide +kernel

end Numeral

end QuorumStore
