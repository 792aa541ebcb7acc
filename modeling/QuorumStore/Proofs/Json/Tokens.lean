import Mathlib.Data.List.Basic
import QuorumStore.Json.Reader
import QuorumStore.Proofs.Text.Numeral

/-!
# Tokens Read Back

What the reader makes of the strings and numbers that the writer puts down.

A string is written character by character, and the reader goes through it
with a small automaton. It leaves the middle of a string only for the length of
an escape, and every escape that the writer makes leads it back there with the
character that was escaped; so a string can be read back one character at a
time, whatever follows it.

A number is written as its digits. The reader wants to know where they end,
that there is no zero in front, and that they do not come to more than a
double can hold. The first is up to what follows the number. The second is a
fact about digits, and so is the third, proved along the way in which they are
written: a digit of its own, or one more behind those of a tenth.

## Main definitions

* `Json.Closes`: What may follow a value.

## Theorems

* `Json.readString?_escape`: An escaped character is read back.
* `Json.readString?_written`: So is a string.
* `Json.tooLarge_digits`: No number of 64 bits is too large.
* `Json.readNumber?_digits`: A number is read back.
-/

namespace QuorumStore

namespace Json

/-- What follows a value that is written: nothing, or a comma or what closes
    an array or an object. -/
def Closes (rest : List Char) : Prop :=
  rest = [] ∨ ∃ c more, rest = c :: more ∧ (c = ',' ∨ c = ']' ∨ c = '\x7d')

theorem isDigit_of_mem_digits {n : Nat} {c : Char} (h : c ∈ Numeral.digits n) :
    isDigit c = true := Numeral.isDigit_of_mem_digits h

/-- A numeral has a digit in front. -/
theorem digits_eq_cons (n : Nat) :
    ∃ d ds, Numeral.digits n = d :: ds ∧ isDigit d = true := by
  rcases List.exists_cons_of_ne_nil (Numeral.digits_ne_nil n) with ⟨d, ds, h⟩
  have hmem : d ∈ Numeral.digits n := by
    rw [h]
    exact List.mem_cons_self
  exact ⟨d, ds, h, isDigit_of_mem_digits hmem⟩

/-- The digits at the front are those of the number. -/
theorem scanDigits?_digits (n : Nat) {rest : List Char} (hrest : Closes rest) :
    scanDigits? (Numeral.digits n ++ rest) = some (Numeral.digits n, rest) := by
  have hstop : rest.takeWhile isDigit = [] ∧ rest.dropWhile isDigit = rest := by
    rcases hrest with rfl | ⟨c, more, rfl, rfl | rfl | rfl⟩ <;> exact ⟨rfl, rfl⟩
  unfold scanDigits?
  rw [List.takeWhile_append_of_pos fun c hc => isDigit_of_mem_digits hc,
    List.dropWhile_append_of_pos fun c hc => isDigit_of_mem_digits hc, hstop.1, hstop.2,
    List.append_nil]
  split
  · rename_i hnil
    exact absurd hnil (Numeral.digits_ne_nil n)
  · rfl

/-- The literal of a number that is written. -/
def Literal.ofNat (n : Nat) : Literal := ⟨false, Numeral.digits n, [], none⟩

theorem scanNumber?_digits (n : Nat) {rest : List Char} (hrest : Closes rest) :
    scanNumber? (Numeral.digits n ++ rest) = some (Literal.ofNat n, rest) := by
  have hfraction : scanFraction? rest = some ([], rest) := by
    rcases hrest with rfl | ⟨c, more, rfl, rfl | rfl | rfl⟩ <;> rfl
  have hexponent : scanExponent? rest = some (none, rest) := by
    rcases hrest with rfl | ⟨c, more, rfl, rfl | rfl | rfl⟩ <;> rfl
  have hzero : ¬ ((Numeral.digits n).length ≠ 1 ∧ (Numeral.digits n).head? = some '0') := by
    rintro ⟨hlen, hhead⟩
    exact (Numeral.head?_digits n).elim hlen fun h => h hhead
  have hscan := scanDigits?_digits n hrest
  rcases digits_eq_cons n with ⟨d, ds, hdigits, hd⟩
  rw [Literal.ofNat]
  rw [hdigits] at hscan hzero ⊢
  unfold scanNumber?
  split
  rename_i hsign
  split at hsign
  · -- There is no sign in front.
    rename_i heq
    rw [(List.cons.inj heq).1] at hd
    exact absurd hd (by decide)
  · cases hsign
    rw [hscan]
    simp only [Option.bind_eq_bind, Option.bind_some, if_neg hzero, hfraction, hexponent]

/-- The digits of a number of 64 bits all count. -/
theorem leading_digits {n : Nat} (h : n < naturalLimit) : (Literal.ofNat n).leading = (n, 0) := by
  revert h
  refine Numeral.digits_induction
    (P := fun n cs => n < naturalLimit → Literal.leading ⟨false, cs, [], none⟩ = (n, 0)) ?_ ?_ n
  · intro d hd hlimit
    rw [Literal.leading, List.foldl_cons, List.foldl_nil]
    simp only [Nat.zero_mul, Nat.zero_add, show '0'.toNat = 48 from rfl,
      Nat.toNat_digitChar_sub_48_of_lt_ten hd]
    rw [if_neg (by omega)]
  · intro n d _ hd ih hlimit
    -- The number so far is smaller, so it has all counted up to here.
    have hbefore := ih (by omega)
    rw [Literal.leading] at hbefore ⊢
    rw [List.foldl_append, hbefore, List.foldl_cons, List.foldl_nil]
    simp only [show '0'.toNat = 48 from rfl, Nat.toNat_digitChar_sub_48_of_lt_ten hd]
    rw [if_neg (by omega)]

/-- Rounding does not double a number. -/
theorem nearestDouble_le (n : Nat) : Literal.nearestDouble n ≤ 2 * n := by
  unfold Literal.nearestDouble
  by_cases hbits : n.log2 + 1 ≤ 53
  · rw [if_pos hbits]
    omega
  · rw [if_neg hbits]
    have hn : n ≠ 0 := by
      rintro rfl
      exact hbits (by decide)
    -- The unit is a power of two that the number reaches.
    have hunit : Nat.pow 2 (n.log2 + 1 - 53) ≤ n :=
      Nat.le_trans (Nat.pow_le_pow_right (by decide) (by omega)) (Nat.log2_self_le hn)
    have hfloor : n / Nat.pow 2 (n.log2 + 1 - 53) * Nat.pow 2 (n.log2 + 1 - 53) ≤ n :=
      Nat.div_mul_le_self _ _
    generalize Nat.pow 2 (n.log2 + 1 - 53) = unit at hunit hfloor
    dsimp only
    split
    · rw [Nat.add_mul, Nat.one_mul]
      omega
    · omega

/-- No number of 64 bits is too large. -/
theorem tooLarge_digits {n : Nat} (h : n < naturalLimit) :
    (Literal.ofNat n).tooLarge = false := by
  have hscaled : (Literal.ofNat n).scaled = (n, 0) := by
    rw [Literal.scaled, leading_digits h]
    rfl
  have hbound : naturalLimit * 4 ≤ Literal.overflowBound := by decide +kernel
  have hone : Literal.nearestDouble (Nat.pow 10 0) = 1 := by decide
  have hnearest := nearestDouble_le n
  unfold Literal.tooLarge
  rw [hscaled]
  simp only [Int.toNat_zero, hone, Nat.mul_one]
  by_cases hn : n = 0 ∨ (0 : Int) < 0
  · rw [if_pos hn]
  · rw [if_neg hn, if_neg (by decide)]
    exact decide_eq_false (by omega)

/-- A number of 64 bits is read back. -/
theorem readNumber?_digits {n : Nat} (h : n < naturalLimit) {rest : List Char}
    (hrest : Closes rest) :
    readNumber? true (Numeral.digits n ++ rest) = some (natural n, rest) := by
  have hvalue : (Literal.ofNat n).value = natural n := by
    rw [Literal.value, if_neg (by simp [Literal.ofNat])]
    simp only [Literal.ofNat, Numeral.readDigits?_digits, Option.getD_some, if_pos h]
  rw [readNumber?, scanNumber?_digits n hrest]
  simp only [tooLarge_digits h, hvalue, Bool.and_false, Bool.false_eq_true, if_false]

theorem digit?_hexDigit : ∀ n < 16, Numeral.digit? 16 (hexDigit n) = some n := by decide

/-- A character that does not close the string takes the reader one step on. -/
theorem readString?_step {st next : Escape} {c : Char} {out : List Char}
    (hopen : ¬ (c = '"' ∧ st = .plain)) (hstep : st.step? true c = some (next, out))
    (cs : List Char) :
    readString? true st (c :: cs) =
      (readString? true next cs).map fun p => (out ++ p.1, p.2) := by
  rw [readString?, if_neg hopen, hstep]
  dsimp only
  cases readString? true next cs <;> rfl

/-- A character that adds nothing takes the reader to another state. -/
theorem readString?_silent {st next : Escape} {c : Char} (hopen : ¬ (c = '"' ∧ st = .plain))
    (hstep : st.step? true c = some (next, [])) (cs : List Char) :
    readString? true st (c :: cs) = readString? true next cs := by
  rw [readString?_step hopen hstep]
  cases readString? true next cs <;> rfl

theorem readString?_backslash (cs : List Char) :
    readString? true .plain ('\\' :: cs) = readString? true .opened cs :=
  readString?_silent (by decide) rfl cs

/-- A digit that is not the last of an escape. -/
theorem readString?_hexDigit {d : Nat} (hd : d < 16) (owed acc : Nat) (cs : List Char) :
    readString? true (.hex (owed + 1) acc none) (hexDigit d :: cs) =
      readString? true (.hex owed (acc * 16 + d) none) cs := by
  refine readString?_silent (by simp) ?_ cs
  rw [Escape.step?, digit?_hexDigit d hd]

/-- An escape of two characters. -/
theorem readString?_letter {c d : Char} (hletter : Escape.letter? d = some c) (hu : d ≠ 'u')
    (cs : List Char) :
    readString? true .plain ('\\' :: d :: cs) =
      (readString? true .plain cs).map fun p => (c :: p.1, p.2) := by
  have hstep : Escape.step? true d .opened = some (.plain, [c]) := by
    rw [Escape.step?, if_neg hu, hletter]
    rfl
  rw [readString?_backslash, readString?_step (by simp) hstep]
  rfl

/-- An escape of a control character by its number. -/
theorem readString?_unit {c : Char} (hc : c.toNat < 32) (cs : List Char) :
    readString? true .plain ('\\' :: 'u' :: '0' :: '0' :: hexDigit (c.toNat / 16) ::
      hexDigit (c.toNat % 16) :: cs) =
      (readString? true .plain cs).map fun p => (c :: p.1, p.2) := by
  have hunit : Escape.unit? true none c.toNat = some (.plain, [c]) := by
    rw [Escape.unit?]
    simp only [Bool.not_true, Bool.false_eq_true, if_false]
    rw [if_neg (by omega), if_neg (by omega), Char.ofNat_toNat]
  have hlast : Escape.step? true (hexDigit (c.toNat % 16)) (.hex 0 (c.toNat / 16) none) =
      some (.plain, [c]) := by
    rw [Escape.step?, digit?_hexDigit _ (by omega)]
    dsimp only
    rw [show c.toNat / 16 * 16 + c.toNat % 16 = c.toNat by omega, hunit]
  have hu : Escape.step? true 'u' .opened = some (.hex 3 0 none, []) := rfl
  -- The zeros are digits like the others.
  rw [show '0' = hexDigit 0 from rfl, readString?_backslash, readString?_silent (by decide) hu,
    readString?_hexDigit (by decide), readString?_hexDigit (by decide),
    readString?_hexDigit (by omega)]
  simp only [Nat.zero_mul, Nat.zero_add]
  rw [readString?_step (by simp) hlast]
  rfl

/-- The three ways in which a character is written: behind a backslash as a
    letter or as a number, or as itself. -/
theorem escape_cases (c : Char) :
    (∃ d, Escape.letter? d = some c ∧ d ≠ 'u' ∧ ¬ d < ' ' ∧ escape c = ['\\', d]) ∨
    (c.toNat < 32 ∧ escape c =
      ['\\', 'u', '0', '0', hexDigit (c.toNat / 16), hexDigit (c.toNat % 16)]) ∨
    (c ≠ '"' ∧ c ≠ '\\' ∧ ¬ c < ' ' ∧ escape c = [c]) := by
  unfold escape
  split
  · rename_i h
    rcases h with rfl | rfl
    · exact .inl ⟨'"', rfl, by decide, by decide, rfl⟩
    · exact .inl ⟨'\\', rfl, by decide, by decide, rfl⟩
  rename_i hquote
  split
  · rename_i h
    exact .inl ⟨'b', by rw [h]; rfl, by decide, by decide, rfl⟩
  split
  · rename_i h
    exact .inl ⟨'f', by rw [h]; rfl, by decide, by decide, rfl⟩
  split
  · rename_i h
    exact .inl ⟨'n', by rw [h]; rfl, by decide, by decide, rfl⟩
  split
  · rename_i h
    exact .inl ⟨'r', by rw [h]; rfl, by decide, by decide, rfl⟩
  split
  · rename_i h
    exact .inl ⟨'t', by rw [h]; rfl, by decide, by decide, rfl⟩
  split
  · rename_i h
    exact .inr (.inl ⟨h, rfl⟩)
  · rename_i h
    exact .inr (.inr ⟨fun hc => hquote (.inl hc), fun hc => hquote (.inr hc), h, rfl⟩)

/-- An escaped character is read back, and the reader goes on behind it. -/
theorem readString?_escape (c : Char) (cs : List Char) :
    readString? true .plain (escape c ++ cs) =
      (readString? true .plain cs).map fun p => (c :: p.1, p.2) := by
  rcases escape_cases c with ⟨d, hletter, hu, -, h⟩ | ⟨hc, h⟩ | ⟨hquote, hslash, hcontrol, h⟩
  · rw [h]
    exact readString?_letter hletter hu cs
  · rw [h]
    exact readString?_unit hc cs
  · have hstep : Escape.step? true c .plain = some (.plain, [c]) := by
      rw [Escape.step?, if_neg hslash, if_neg hcontrol]
    rw [h]
    exact readString?_step (fun hc => hquote hc.1) hstep cs

/-- A string is read back, up to the quote that closes it. -/
theorem readString?_written (cs rest : List Char) :
    readString? true .plain (cs.flatMap escape ++ '"' :: rest) = some (cs, rest) := by
  induction cs with
  | nil => rfl
  | cons c cs ih =>
    rw [List.flatMap_cons, List.append_assoc, readString?_escape, ih]
    rfl

/-- No written character is a control character, nor part of it one. -/
theorem not_control_of_mem_escape {c d : Char} (h : d ∈ escape c) : ¬ d < ' ' := by
  have hhex : ∀ n < 16, ¬ hexDigit n < ' ' := by decide
  rcases escape_cases c with ⟨e, -, -, he, heq⟩ | ⟨hc, heq⟩ | ⟨-, -, hc, heq⟩
  · rw [heq, List.mem_pair] at h
    rcases h with rfl | rfl
    · decide
    · exact he
  · rw [heq] at h
    simp only [List.mem_cons, List.not_mem_nil, or_false] at h
    rcases h with rfl | rfl | rfl | rfl | rfl | rfl
    · decide
    · decide
    · decide
    · decide
    · exact hhex _ (by omega)
    · exact hhex _ (by omega)
  · rw [heq, List.mem_singleton] at h
    rw [h]
    exact hc

end Json

end QuorumStore
