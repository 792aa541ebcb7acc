import QuorumStore.Text.Numeral

/-!
# Durations

Lengths of time in milliseconds, and how a message spells one.

Every deadline of a session is a whole number of milliseconds, and so is every
delay. Nothing is spelled as nothing of the smallest unit; a duration below a
second is spelled in milliseconds, and a longer one in seconds with as many
decimals as it needs.

## Main definitions

* `Duration.spell`: The text of a duration in a message.
-/

namespace QuorumStore

namespace Duration

/-- The last digits of a text without the zeros at its end. -/
def dropTrailingZeros (cs : List Char) : List Char :=
  (cs.reverse.dropWhile (· == '0')).reverse

/-- So many milliseconds in seconds, with as many decimals as it takes. -/
def seconds (ms : Nat) : String :=
  let decimals := dropTrailingZeros (Numeral.digits (1000 + ms % 1000)).tail
  let point := if decimals.isEmpty then [] else '.' :: decimals
  String.ofList (Numeral.digits (ms / 1000) ++ point)

/-- The text of a duration of so many milliseconds. -/
def spell (ms : Nat) : String :=
  if ms = 0 then "0ns"
  else if ms < 1000 then String.ofList (Numeral.digits ms) ++ "ms"
  else seconds ms ++ "s"

example : [0, 250, 1000, 1500, 61001, 86400000].map spell
    = ["0ns", "250ms", "1s", "1.5s", "61.001s", "86400s"] := by decide +kernel

end Duration

end QuorumStore
