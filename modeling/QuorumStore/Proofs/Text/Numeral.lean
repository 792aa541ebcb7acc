import Mathlib.Data.List.Basic
import QuorumStore.Text.Numeral

/-!
# Numerals Read Back

Which texts are numerals, and which numbers they write.

In base ten the reader takes the ten digits and nothing else, and works out what
they write from the front, tenfold and one more at every step. That is how
core's `Nat.ofDigitChars` reads digits, so what is read is said through it:
`Writes` asks for digits, one at least, and for the number that they come to.
Zeros in front are no obstacle. The digits of a number write it, and have no
zero in front.

What holds of all numerals is proved along the way in which they are written: a
digit of its own, or one more behind those of a tenth.

## Main definitions

* `Numeral.Writes`: Digits write a number.

## Theorems

* `Numeral.readDigits?_eq_some_iff`, `Numeral.readPlus?_eq_some_iff`: What is
  read, and as which number.
* `Numeral.readDigits?_digits`: Digits are read back.
* `Numeral.digits_injective`: Different numbers have different digits.
* `Numeral.digits_induction`: Numerals digit by digit.
* `Numeral.head?_digits`: There is no zero in front of other digits.
-/

namespace QuorumStore

namespace Numeral

/-- The ten decimal digits have a value in base ten, and no other character
    has. -/
theorem digit?_ten (c : Char) :
    digit? 10 c = if c.isDigit then some (c.toNat - '0'.toNat) else none := by
  have hdigit : c.isDigit = true ↔ '0' ≤ c ∧ c ≤ '9' := by
    rw [Char.isDigit, Bool.and_eq_true, decide_eq_true_eq, decide_eq_true_eq]
    rfl
  unfold digit?
  by_cases hc : '0' ≤ c ∧ c ≤ '9'
  · have hle : c.toNat ≤ 57 := hc.2
    have hlt : c.toNat - '0'.toNat < 10 := by
      rw [show '0'.toNat = 48 from rfl]
      omega
    rw [if_pos (hdigit.mpr hc), if_pos hc, Option.filter_some, if_pos (decide_eq_true hlt)]
  · -- A letter of either case counts ten at least.
    have hletter : ∀ n, Option.filter (fun d => decide (d < 10)) (some (n + 10)) = none :=
      fun n => by rw [Option.filter_some, if_neg (by simp)]
    rw [if_neg fun h => hc (hdigit.mp h), if_neg hc]
    split
    · exact hletter _
    · split
      · exact hletter _
      · rfl

theorem readFrom?_eq_some_iff {acc n : Nat} {cs : List Char} :
    readFrom? 10 acc cs = some n ↔
      (∀ c ∈ cs, c.isDigit = true) ∧ Nat.ofDigitChars 10 cs acc = n := by
  induction cs generalizing acc with
  | nil => simp [readFrom?, Nat.ofDigitChars]
  | cons c cs ih =>
    rw [readFrom?, digit?_ten, List.forall_mem_cons, Nat.ofDigitChars_cons]
    cases hc : c.isDigit with
    | false => simp
    | true =>
      rw [if_pos rfl]
      simp only [true_and]
      rw [ih, Nat.mul_comm acc 10]

/-- The characters are decimal digits, one at least, and come to the number. -/
def Writes (cs : List Char) (n : Nat) : Prop :=
  cs ≠ [] ∧ (∀ c ∈ cs, c.isDigit = true) ∧ Nat.ofDigitChars 10 cs 0 = n

/-- What is read are digits that write the number. -/
theorem readDigits?_eq_some_iff {n : Nat} {cs : List Char} :
    readDigits? 10 cs = some n ↔ Writes cs n := by
  cases cs with
  | nil => simp [readDigits?, Writes]
  | cons c cs =>
    rw [readDigits?, readFrom?_eq_some_iff, Writes, and_iff_right (List.cons_ne_nil c cs)]
    exact nofun

theorem isDigit_of_mem_digits {n : Nat} {c : Char} (h : c ∈ digits n) : c.isDigit = true :=
  Nat.isDigit_of_mem_toDigits (by decide) (by decide) h

theorem digits_ne_nil (n : Nat) : digits n ≠ [] := Nat.toDigits_ne_nil

/-- The digits of a number write it. -/
theorem writes_digits (n : Nat) : Writes (digits n) n :=
  ⟨digits_ne_nil n, fun _ hc => isDigit_of_mem_digits hc, Nat.ofDigitChars_ten_toDigits⟩

/-- Different numbers have different digits. -/
theorem digits_injective {m n : Nat} (h : digits m = digits n) : m = n :=
  (writes_digits m).2.2.symm.trans (h ▸ (writes_digits n).2.2)

/-- Digits are read back. -/
theorem readDigits?_digits (n : Nat) : readDigits? 10 (digits n) = some n :=
  readDigits?_eq_some_iff.mpr (writes_digits n)

/-- Behind a plus sign there is the same to read. -/
theorem readPlus?_eq_some_iff {n : Nat} {cs : List Char} :
    readPlus? 10 cs = some n ↔ ∃ ds, (cs = ds ∨ cs = '+' :: ds) ∧ Writes ds n := by
  unfold readPlus?
  split
  · rename_i ds
    constructor
    · exact fun h => ⟨ds, .inr rfl, readDigits?_eq_some_iff.mp h⟩
    · rintro ⟨es, rfl | h, hes⟩
      · -- A plus sign is no digit.
        exact absurd (hes.2.1 '+' List.mem_cons_self) (by decide)
      · cases h
        exact readDigits?_eq_some_iff.mpr hes
  · rename_i hplus
    constructor
    · exact fun h => ⟨cs, .inl rfl, readDigits?_eq_some_iff.mp h⟩
    · rintro ⟨es, rfl | rfl, hes⟩
      · exact readDigits?_eq_some_iff.mpr hes
      · exact absurd rfl (hplus es)

theorem digits_of_lt {n : Nat} (h : n < 10) : digits n = [n.digitChar] :=
  Nat.toDigits_of_lt_base h

theorem digits_of_le {n : Nat} (h : 10 ≤ n) :
    digits n = digits (n / 10) ++ [(n % 10).digitChar] :=
  Nat.toDigits_of_base_le (by decide) h

/-- What holds of the single digits and goes on to hold with one more digit
    behind holds of all numerals. -/
theorem digits_induction {P : Nat → List Char → Prop}
    (single : ∀ d < 10, P d [d.digitChar])
    (behind : ∀ n d, 0 < n → d < 10 → P n (digits n) → P (n * 10 + d) (digits n ++ [d.digitChar]))
    (n : Nat) : P n (digits n) := by
  induction n using Nat.strongRecOn with
  | _ n ih =>
    by_cases h : n < 10
    · rw [digits_of_lt h]
      exact single n h
    · have hsplit := behind (n / 10) (n % 10) (by omega) (by omega) (ih (n / 10) (by omega))
      rw [show n / 10 * 10 + n % 10 = n by omega] at hsplit
      rw [digits_of_le (by omega)]
      exact hsplit

/-- There is no zero in front of other digits. -/
theorem head?_digits (n : Nat) : (digits n).length = 1 ∨ (digits n).head? ≠ some '0' := by
  have hhead : 0 < n → (digits n).head? ≠ some '0' := by
    refine digits_induction (P := fun n cs => 0 < n → cs.head? ≠ some '0') ?_ ?_ n
    · intro d _ hpos h
      rw [List.head?_cons, Option.some.injEq, Nat.digitChar_eq_zero] at h
      omega
    · intro n d hpos _ ih _
      rw [List.head?_append_of_ne_nil _ (digits_ne_nil n)]
      exact ih hpos
  rcases Nat.eq_zero_or_pos n with rfl | hpos
  · exact .inl rfl
  · exact .inr (hhead hpos)

end Numeral

end QuorumStore
