/-!
# Identifiers

Names that nobody else has made up.

An identifier is sixteen random bytes in hexadecimal, in groups of four, two,
two, two and six. Six of its bits are not random: four say that the rest are,
and two say which kind of identifier it is.

## Main definitions

* `Identifier.ofBytes`: The identifier made of some bytes.
* `Identifier.node`: The name of a client that was given none.
-/

namespace QuorumStore

namespace Identifier

/-- A byte as two digits. -/
def byteText (b : UInt8) : List Char := (Nat.toDigits 16 (256 + b.toNat)).tail

/-- The bytes with the bits in them that are not random. -/
def mark (bs : List UInt8) : List UInt8 :=
  (bs.modify 6 fun b => b &&& 0x0f ||| 0x40).modify 8 fun b => b &&& 0x3f ||| 0x80

/-- Texts in groups of some sizes, with dashes between them. -/
def group : List Nat → List (List Char) → List Char
  | [], _ => []
  | [n], ts => (ts.take n).flatten
  | n :: ns, ts => (ts.take n).flatten ++ '-' :: group ns (ts.drop n)

/-- The identifier made of some bytes. -/
def ofBytes (bs : List UInt8) : String :=
  String.ofList (group [4, 2, 2, 2, 6] ((mark bs).map byteText))

example : ofBytes (List.replicate 16 0xff) = "ffffffff-ffff-4fff-bfff-ffffffffffff" := by
  decide +kernel

/-- The name of a client that was given none. -/
def node (bs : List UInt8) : String := "client-" ++ ofBytes bs

end Identifier

end QuorumStore
