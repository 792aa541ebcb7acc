import QuorumStore.Proofs.Text.Numeral
import QuorumStore.VersionVector

/-!
# Reading a Listing Back

When the text of a vector says which vector it is.

A listing writes `node:count` for every entry, with a space between each two.
Nothing in a name is escaped, so a name that itself looks like an entry and
the beginning of another can be taken for the two: `a:1 b` with the count `1`
reads like `a` and `b` with a count of `1` each. That takes a colon, digits and
a space in a row. A name in which these three never follow one another is
`Plain`, and among plain names the listing can be read back entry by entry: the
name ends at the first colon behind which there are digits and then a space or
the end.

## Main definitions

* `VersionVector.Plain`: No part of the name looks like the end of an entry.

## Theorems

* `VersionVector.plain_of_no_space`, `VersionVector.plain_of_no_colon`: What is
  enough for a name to be plain.
* `VersionVector.entry_unique`: An entry is read off the front of a listing.
* `VersionVector.eq_of_listing_eq`: A listing of plain names is of one list.
-/

namespace QuorumStore

namespace VersionVector

/-- Nowhere in the name do a colon, digits and a space follow one another. -/
def Plain (name : String) : Prop :=
  ∀ before digits behind, digits ≠ [] → (∀ c ∈ digits, c.isDigit = true) →
    name.toList ≠ before ++ ':' :: (digits ++ ' ' :: behind)

theorem plain_of_no_space {name : String} (h : ' ' ∉ name.toList) : Plain name := by
  intro before digits behind _ _ heq
  exact h (by simp [heq])

theorem plain_of_no_colon {name : String} (h : ':' ∉ name.toList) : Plain name := by
  intro before digits behind _ _ heq
  exact h (by simp [heq])

/-- What stands behind an entry of a listing: nothing, or a space and the rest. -/
def Behind (rest : List Char) : Prop := rest = [] ∨ ∃ more, rest = ' ' :: more

/-- The digits of a count are all the digits at the front. -/
theorem takeWhile_digits (n : Nat) {rest : List Char} (hrest : Behind rest) :
    (Numeral.digits n ++ rest).takeWhile Char.isDigit = Numeral.digits n := by
  rw [List.takeWhile_append_of_pos fun c hc => Numeral.isDigit_of_mem_digits hc]
  rcases hrest with rfl | ⟨more, rfl⟩
  · simp
  · rw [List.takeWhile_cons_of_neg (by decide), List.append_nil]

/-- A plain name does not go on behind a place where an entry could end. -/
theorem eq_nil_of_plain {name : String} {front more : List Char}
    (hplain : Plain name) (hname : name.toList = front ++ more) {m n : Nat}
    {rest rest' : List Char} (hrest : Behind rest)
    (h : ':' :: (Numeral.digits m ++ rest) = more ++ ':' :: (Numeral.digits n ++ rest')) :
    more = [] := by
  cases more with
  | nil => rfl
  | cons c more =>
    rw [List.cons_append, List.cons.injEq] at h
    rcases h with ⟨rfl, h⟩
    rcases List.append_eq_append_iff.mp h with ⟨gap, rfl, hgap⟩ | ⟨gap, hdigits, hgap⟩
    · -- The name goes on behind the digits, so it does with the space.
      rcases hrest with rfl | ⟨tail, rfl⟩
      · simp at hgap
      · cases gap with
        | nil => simp at hgap
        | cons c gap =>
          rw [List.cons_append, List.cons.injEq] at hgap
          rw [← hgap.1] at hname
          exact absurd hname
            (hplain front _ gap (Nat.toDigits_ne_nil) fun c hc => Numeral.isDigit_of_mem_digits hc)
    · -- The colon behind the name would be among the digits or after them.
      cases gap with
      | nil =>
        rcases hrest with rfl | ⟨tail, rfl⟩ <;> simp at hgap
      | cons c gap =>
        rw [List.cons_append, List.cons.injEq] at hgap
        have hcolon : ':' ∈ Numeral.digits m := by
          rw [hdigits, hgap.1]
          simp
        exact absurd (Numeral.isDigit_of_mem_digits hcolon) (by decide)

/-- An entry with a plain name is read off the front of a listing. -/
theorem entry_unique {a b : String} (ha : Plain a) (hb : Plain b) {m n : Nat}
    {rest rest' : List Char} (hrest : Behind rest) (hrest' : Behind rest')
    (h : a.toList ++ ':' :: (Numeral.digits m ++ rest) =
      b.toList ++ ':' :: (Numeral.digits n ++ rest')) :
    a = b ∧ m = n ∧ rest = rest' := by
  -- Neither name goes on behind the end of the other.
  have hname : a.toList = b.toList ∧
      Numeral.digits m ++ rest = Numeral.digits n ++ rest' := by
    rcases List.append_eq_append_iff.mp h with ⟨more, hmore, htail⟩ | ⟨more, hmore, htail⟩
    · have hnil := eq_nil_of_plain hb hmore hrest htail
      subst hnil
      simp only [List.append_nil, List.nil_append, List.cons.injEq, true_and] at hmore htail
      exact ⟨hmore.symm, htail⟩
    · have hnil := eq_nil_of_plain ha hmore hrest' htail
      subst hnil
      simp only [List.append_nil, List.nil_append, List.cons.injEq, true_and] at hmore htail
      exact ⟨hmore, htail.symm⟩
  have hdigits := congrArg (List.takeWhile Char.isDigit) hname.2
  rw [takeWhile_digits m hrest, takeWhile_digits n hrest'] at hdigits
  have hrests := hname.2
  rw [hdigits, List.append_cancel_left_eq] at hrests
  exact ⟨String.toList_injective hname.1, Numeral.digits_injective hdigits, hrests⟩

/-- A listing begins with its first entry. -/
theorem listing_cons (p : String × Nat) (l : List (String × Nat)) :
    ∃ rest, Behind rest ∧
      (" ".intercalate ((p :: l).map countText)).toList =
        p.1.toList ++ ':' :: (Numeral.digits p.2 ++ rest) ∧
      ((l = [] ∧ rest = []) ∨
        l ≠ [] ∧ rest = ' ' :: (" ".intercalate (l.map countText)).toList) := by
  cases l with
  | nil => exact ⟨[], .inl rfl, by simp [countText], .inl ⟨rfl, rfl⟩⟩
  | cons q l =>
    refine ⟨_, .inr ⟨_, rfl⟩, ?_, .inr ⟨by simp, rfl⟩⟩
    rw [List.map_cons, List.map_cons, String.intercalate_cons_cons, ← List.map_cons]
    simp [countText]

/-- A listing of plain names is the listing of one list of counts. -/
theorem eq_of_listing_eq {l m : List (String × Nat)} (hl : ∀ p ∈ l, Plain p.1)
    (hm : ∀ p ∈ m, Plain p.1)
    (h : " ".intercalate (l.map countText) = " ".intercalate (m.map countText)) : l = m := by
  induction l generalizing m with
  | nil =>
    cases m with
    | nil => rfl
    | cons q m =>
      rcases listing_cons q m with ⟨rest, -, hq, -⟩
      rw [← h] at hq
      simp at hq
  | cons p l ih =>
    rcases listing_cons p l with ⟨rest, hrest, hp, hcase⟩
    cases m with
    | nil =>
      rw [h] at hp
      simp at hp
    | cons q m =>
      rcases listing_cons q m with ⟨rest', hrest', hq, hcase'⟩
      rw [h, hq] at hp
      rcases entry_unique (hm q List.mem_cons_self) (hl p List.mem_cons_self) hrest' hrest hp
        with ⟨hname, hcount, hrests⟩
      have hpq : p = q := Prod.ext hname.symm hcount.symm
      -- Behind equal entries both listings end, or both go on.
      rcases hcase with ⟨rfl, rfl⟩ | ⟨-, rfl⟩ <;> rcases hcase' with ⟨rfl, rfl⟩ | ⟨-, rfl⟩
      · rw [hpq]
      · simp at hrests
      · simp at hrests
      · rw [List.cons.injEq] at hrests
        rw [hpq, ih (fun r hr => hl r (List.mem_cons_of_mem _ hr))
          (fun r hr => hm r (List.mem_cons_of_mem _ hr))
          (String.toList_injective hrests.2.symm)]

end VersionVector

end QuorumStore
