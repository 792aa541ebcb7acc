/-!
# Bytes of a Text

Text as it is stored and sent: in UTF-8.

## Main definitions

* `encode`: The bytes of a text.
* `decode?`: The text that bytes encode, if they encode one.
* `byteCount`: How many bytes characters take.

## Theorems

* `utf8ByteSize_ofList`: The count is the size of the text that the characters
  make up.
-/

namespace QuorumStore

namespace Text

/-- The bytes of a text. -/
def encode (s : String) : List UInt8 := s.toUTF8.data.toList

/-- The text that bytes encode. -/
def decode? (bs : List UInt8) : Option String := String.fromUTF8? ⟨bs.toArray⟩

/-- How many bytes characters take: from one to four each. -/
def byteCount : List Char → Nat
  | [] => 0
  | c :: cs => c.utf8Size + byteCount cs

/-- The bytes of a text are those of its characters. -/
theorem utf8ByteSize_ofList (cs : List Char) : (String.ofList cs).utf8ByteSize = byteCount cs := by
  induction cs with
  | nil => rfl
  | cons c cs ih => simp [String.ofList_cons, String.utf8ByteSize_append, byteCount, ih]

example : byteCount ['a', 'é', '日', '😀'] = 10 := by decide +kernel

end Text

end QuorumStore
