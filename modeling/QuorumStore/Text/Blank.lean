/-!
# Blank Characters

What counts as white space around a name, and how a name is freed of it.

The class is the Unicode property `White_Space`, not the handful of ASCII
blanks: a no-break space around an endpoint is dropped with the rest, while a
zero-width space or a byte order mark, which only look empty, stay.

## Main definitions

* `isBlank`: The character has the property `White_Space`.
* `trim`: A text without the blanks at its two ends.

## Theorems

* `trim_eq_iff`: Trimming takes blanks off both ends, and leaves none there.
-/

namespace QuorumStore

namespace Text

/-- The code points with the property `White_Space`, as closed ranges in
    increasing order. -/
def blankRanges : List (Nat × Nat) :=
  [(0x9, 0xd), (0x20, 0x20), (0x85, 0x85), (0xa0, 0xa0), (0x1680, 0x1680),
   (0x2000, 0x200a), (0x2028, 0x2029), (0x202f, 0x202f), (0x205f, 0x205f),
   (0x3000, 0x3000)]

/-- The character has the property `White_Space`. -/
def isBlank (c : Char) : Bool :=
  blankRanges.any fun r => decide (r.1 ≤ c.toNat) && decide (c.toNat ≤ r.2)

/-- The characters of a text, less the blank ones at either end. -/
def trim (cs : List Char) : List Char :=
  ((cs.dropWhile isBlank).reverse.dropWhile isBlank).reverse

/-- Nothing is left of a text of blanks. -/
def isBlankText (s : String) : Bool := (trim s.toList).isEmpty

/-- A digit is not blank. -/
theorem isBlank_of_isDigit {c : Char} (h : c.isDigit = true) : isBlank c = false := by
  rw [Char.isDigit, Bool.and_eq_true, decide_eq_true_eq, decide_eq_true_eq] at h
  have hrange : 48 ≤ c.toNat ∧ c.toNat ≤ 57 := h
  simp [isBlank, blankRanges]
  omega

/-- Behind blanks, what does not begin with one is left. -/
theorem dropWhile_blank_append {left core : List Char} (hleft : ∀ c ∈ left, isBlank c = true)
    (hcore : ∀ c ∈ core.head?, isBlank c = false) :
    (left ++ core).dropWhile isBlank = core := by
  rw [List.dropWhile_append_of_pos hleft]
  cases core with
  | nil => rfl
  | cons c core => rw [List.dropWhile_cons_of_neg (by simp [hcore c rfl])]

theorem isBlank_head_dropWhile (cs : List Char) :
    ∀ c ∈ (cs.dropWhile isBlank).head?, isBlank c = false := by
  intro c hc
  have h := List.head?_dropWhile_not isBlank cs
  rw [hc] at h
  exact h

/-- Trimming takes blanks off both ends, and leaves what begins and ends with
    none. -/
theorem trim_eq_iff {cs core : List Char} :
    trim cs = core ↔ (∃ left right, cs = left ++ core ++ right ∧
      (∀ c ∈ left, isBlank c = true) ∧ ∀ c ∈ right, isBlank c = true) ∧
      (∀ c ∈ core.head?, isBlank c = false) ∧ ∀ c ∈ core.getLast?, isBlank c = false := by
  constructor
  · rintro rfl
    let right := ((cs.dropWhile isBlank).reverse.takeWhile isBlank).reverse
    have hsplit : trim cs ++ right = cs.dropWhile isBlank := by
      rw [trim, ← List.reverse_append, List.takeWhile_append_dropWhile, List.reverse_reverse]
    have htakes : ∀ ds : List Char, ∀ c ∈ ds.takeWhile isBlank, isBlank c = true :=
      fun ds => List.all_eq_true.mp List.all_takeWhile
    refine ⟨⟨cs.takeWhile isBlank, right, ?_, htakes cs, ?_⟩, ?_, ?_⟩
    · rw [List.append_assoc, hsplit, List.takeWhile_append_dropWhile]
    · exact fun c hc => htakes _ c (List.mem_reverse.mp hc)
    · intro c hc
      refine isBlank_head_dropWhile cs c ?_
      rw [← hsplit, List.head?_append, hc]
      rfl
    · intro c hc
      rw [trim, List.getLast?_reverse] at hc
      exact isBlank_head_dropWhile _ c hc
  · rintro ⟨⟨left, right, rfl, hleft, hright⟩, hhead, hlast⟩
    have hmiddle : (core ++ right).reverse.dropWhile isBlank = core.reverse := by
      rw [List.reverse_append]
      exact dropWhile_blank_append (fun c hc => hright c (List.mem_reverse.mp hc))
        (by rwa [List.head?_reverse])
    rw [trim, List.append_assoc]
    cases core with
    | nil =>
      -- There is nothing but blanks.
      have hnone : (left ++ right).dropWhile isBlank = [] := by
        rw [← List.append_nil (left ++ right)]
        exact dropWhile_blank_append
          (fun c hc => (List.mem_append.mp hc).elim (hleft c) (hright c)) nofun
      rw [List.nil_append, hnone]
      rfl
    | cons c core =>
      have hfront : (left ++ (c :: core ++ right)).dropWhile isBlank = c :: core ++ right :=
        dropWhile_blank_append hleft hhead
      rw [hfront, hmiddle, List.reverse_reverse]

/-- Ten ranges, each after the one before it. -/
example : blankRanges.Pairwise (fun a b => a.2 < b.1) := by decide

/-- The zero-width space, the byte order mark and the file separator are not
    white space. -/
example : ['\u200b', '\ufeff', '\x1c'].any isBlank = false := by decide

end Text

end QuorumStore
