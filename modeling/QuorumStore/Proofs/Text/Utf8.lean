import Mathlib.Data.List.Basic
import QuorumStore.Text.Utf8

/-!
# Texts and Their Bytes

What can be said of the bytes of a text without a look at the whole of it.

Bytes are decoded to the text that they encode, and the bytes of a text are
those of its characters one after another. So texts are in the same order
whether they are compared by their characters or by their bytes.

A byte below 128 is a character of its own wherever it turns up: in the code of
any other character the high bit of every byte is set. So a stream can be cut at
the line feeds before it is decoded, and no character is cut in two.

## Theorems

* `Text.decode?_encode`: A text is decoded from its bytes.
* `Text.decode?_eq_some_iff`: Nothing else is decoded to it.
* `Text.encode_append`: The bytes of a text come one part after another.
* `Text.compare_eq_lt_iff`: Texts are in the order of their bytes.
* `Text.mem_encode_iff`: A byte below 128 is a character.
-/

namespace QuorumStore

namespace Text

theorem decode?_encode (s : String) : decode? (encode s) = some s := by
  rw [decode?, encode, String.fromUTF8?, Array.toArray_toList,
    dif_pos (show ByteArray.IsValidUTF8 ⟨s.toUTF8.data⟩ from s.isValidUTF8)]
  rfl

/-- Bytes that are decoded are those of the text. -/
theorem decode?_eq_some_iff {bs : List UInt8} {s : String} :
    decode? bs = some s ↔ bs = encode s := by
  constructor
  · intro h
    rw [decode?, String.fromUTF8?] at h
    split at h
    · rw [Option.some.injEq] at h
      rw [← h]
      rfl
    · cases h
  · rintro rfl
    exact decode?_encode s

theorem encode_ofList (cs : List Char) :
    encode (String.ofList cs) = cs.flatMap String.utf8EncodeChar := by
  rw [encode, String.toUTF8_eq_toByteArray, String.toByteArray_ofList, List.utf8Encode]
  simp

theorem encode_append (cs ds : List Char) :
    encode (String.ofList (cs ++ ds)) = encode (String.ofList cs) ++ encode (String.ofList ds) := by
  rw [encode_ofList, encode_ofList, encode_ofList, List.flatMap_append]

/-- The first byte that is lesser decides. -/
theorem ofNat_cons_lt {m n : Nat} {bs bs' : List UInt8} (hn : n < 256) (hle : m ≤ n)
    (heq : m = n → bs < bs') : UInt8.ofNat m :: bs < UInt8.ofNat n :: bs' := by
  rw [List.cons_lt_cons_iff, UInt8.lt_iff_toNat_lt, UInt8.toNat_ofNat_of_lt' hn,
    UInt8.toNat_ofNat_of_lt' (Nat.lt_of_le_of_lt hle hn)]
  rcases Nat.lt_or_eq_of_le hle with hlt | rfl
  · exact .inl hlt
  · exact .inr ⟨rfl, heq rfl⟩

/-- A lesser character has a lesser code, whatever follows. A longer code begins
    with a greater byte, and codes of one length write the code point in digits
    of base 64. -/
theorem utf8EncodeChar_append_lt {c d : Char} (h : c < d) (bs bs' : List UInt8) :
    String.utf8EncodeChar c ++ bs < String.utf8EncodeChar d ++ bs' := by
  have hlt : c.val.toNat < d.val.toNat := h
  have hmax : d.val.toNat < 0x110000 := by
    rcases d.valid with h | h
    · exact Nat.lt_trans h (by decide)
    · exact h.2
  unfold String.utf8EncodeChar
  dsimp only
  generalize c.val.toNat = v at *
  generalize d.val.toNat = w at *
  split_ifs <;> simp only [List.cons_append, List.nil_append]
  all_goals repeat refine ofNat_cons_lt (by omega) (by omega) fun _ => ?_
  all_goals omega

/-- A lesser text has lesser bytes. -/
theorem encode_lt_encode {cs ds : List Char} (h : cs < ds) :
    encode (String.ofList cs) < encode (String.ofList ds) := by
  rw [encode_ofList, encode_ofList]
  induction cs generalizing ds with
  | nil =>
    cases ds with
    | nil => exact absurd h (List.not_lt_nil _)
    | cons d ds =>
      rw [List.flatMap_nil, List.flatMap_cons]
      exact List.not_le.mp fun hle => String.utf8EncodeChar_ne_nil
        (List.append_eq_nil_iff.mp (List.le_nil.mp hle)).1
  | cons c cs ih =>
    cases ds with
    | nil => exact absurd h (List.not_lt_nil _)
    | cons d ds =>
      rw [List.flatMap_cons, List.flatMap_cons]
      rcases List.cons_lt_cons_iff.mp h with hhead | ⟨rfl, htail⟩
      · exact utf8EncodeChar_append_lt hhead _ _
      · exact List.append_left_lt (ih htail)

/-- Texts are in the order of their bytes. -/
theorem compare_eq_lt_iff {s t : String} : compare s t = .lt ↔ encode s < encode t := by
  have hless : ∀ {s t : String}, compare s t = .lt → encode s < encode t := by
    intro s t h
    have hchars : s < t := compareOfLessAndEq_eq_lt.mp h
    have hbytes := encode_lt_encode (show s.toList < t.toList from hchars)
    rwa [String.ofList_toList, String.ofList_toList] at hbytes
  refine ⟨hless, fun h => ?_⟩
  cases hcompare : compare s t with
  | lt => rfl
  | eq =>
    rw [Std.LawfulEqOrd.eq_of_compare hcompare] at h
    exact absurd h (List.lt_irrefl _)
  | gt => exact absurd (hless (Std.OrientedCmp.gt_iff_lt.mp hcompare)) (List.lt_asymm h)

/-- A byte below 128 is in the code of one character, and alone there. -/
theorem mem_utf8EncodeChar_iff {b : UInt8} (hb : b.toNat < 128) {c : Char} :
    b ∈ String.utf8EncodeChar c ↔ c.toNat = b.toNat := by
  have hhigh : ∀ n, 128 ≤ n → n < 256 → b ≠ UInt8.ofNat n := by
    rintro n hn hlt rfl
    rw [UInt8.toNat_ofNat'] at hb
    omega
  rw [Char.toNat]
  unfold String.utf8EncodeChar
  dsimp only
  generalize c.val.toNat = v
  by_cases hone : v ≤ 0x7f
  · rw [if_pos hone, List.mem_singleton, ← UInt8.toNat_inj, UInt8.toNat_ofNat']
    omega
  · -- Every byte of a longer code has its high bit set.
    refine iff_of_false (fun hmem => ?_) (by omega)
    rw [if_neg hone] at hmem
    split at hmem
    · simp only [List.mem_cons, List.not_mem_nil, or_false] at hmem
      rcases hmem with h | h <;> exact hhigh _ (by omega) (by omega) h
    split at hmem
    · simp only [List.mem_cons, List.not_mem_nil, or_false] at hmem
      rcases hmem with h | h | h <;> exact hhigh _ (by omega) (by omega) h
    · simp only [List.mem_cons, List.not_mem_nil, or_false] at hmem
      rcases hmem with h | h | h | h <;> exact hhigh _ (by omega) (by omega) h

/-- A byte below 128 is in the bytes of a text as the character that it is. -/
theorem mem_encode_iff {b : UInt8} (hb : b.toNat < 128) {cs : List Char} :
    b ∈ encode (String.ofList cs) ↔ ∃ c ∈ cs, c.toNat = b.toNat := by
  rw [encode_ofList, List.mem_flatMap]
  simp only [mem_utf8EncodeChar_iff hb]

end Text

end QuorumStore
