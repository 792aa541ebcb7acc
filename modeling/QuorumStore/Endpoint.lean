import QuorumStore.Text.Blank
import QuorumStore.Text.Numeral

/-!
# Endpoints

Where a replica listens: a host and a port.

An endpoint is written `host:port`. The port stands behind the last colon, so
a host may hold colons itself, as a bracketed address does. Reading drops the
blanks around the whole text and nothing else; in particular a host may hold
blanks inside or before the colon.

Endpoints are ordered by host and then by port, the port as a number: port 9
comes before port 10.

## Main definitions

* `Endpoint`: A host and a port.
* `Endpoint.text`: The written form.
* `Endpoint.parse?`: The endpoint a text writes.

## Theorems

* `Endpoint.splitLast?_eq_some_iff`: A text is split at its last separator.
-/

namespace QuorumStore

/-- Where a replica listens. -/
structure Endpoint where
  /-- A name or an address. -/
  host : String
  port : UInt16
  deriving DecidableEq, Repr, Inhabited

namespace Endpoint

/-- By host, then by port. -/
instance : Ord Endpoint where
  compare a b := (compare a.host b.host).then (compare a.port b.port)

private theorem compare_def (a b : Endpoint) :
    compare a b = (compare a.host b.host).then (compare a.port b.port) := rfl

instance : Std.OrientedOrd Endpoint where
  eq_swap {a b} := by
    rw [compare_def, compare_def, Ordering.swap_then,
      ← Std.OrientedOrd.eq_swap, ← Std.OrientedOrd.eq_swap]

instance : Std.TransOrd Endpoint where
  isLE_trans {a b c} hab hbc := by
    rw [compare_def, Ordering.isLE_then_iff_or] at *
    rcases hab with hab | ⟨hab, pab⟩ <;> rcases hbc with hbc | ⟨hbc, pbc⟩
    · exact .inl (Std.TransCmp.lt_trans hab hbc)
    · exact .inl (Std.TransCmp.lt_of_lt_of_eq hab hbc)
    · exact .inl (Std.TransCmp.lt_of_eq_of_lt hab hbc)
    · exact .inr ⟨Std.TransCmp.eq_trans hab hbc, Std.TransCmp.isLE_trans pab pbc⟩

instance : Std.LawfulEqOrd Endpoint where
  eq_of_compare {a b} h := by
    rw [compare_def, Ordering.then_eq_eq] at h
    have hhost := Std.LawfulEqOrd.eq_of_compare h.1
    have hport := Std.LawfulEqOrd.eq_of_compare h.2
    cases a
    cases b
    cases hhost
    cases hport
    rfl

/-- The written form. -/
def text (e : Endpoint) : String :=
  e.host ++ String.ofList (':' :: Numeral.digits e.port.toNat)

/-- The form in a listing of values. -/
def listing (e : Endpoint) : String := "Endpoint(" ++ e.text ++ ")"

/-- The parts of a text before and behind its last separator. -/
def splitLast? (sep : Char) : List Char → Option (List Char × List Char)
  | [] => none
  | c :: cs =>
    match splitLast? sep cs with
    | some (before, behind) => some (c :: before, behind)
    | none => if c = sep then some ([], cs) else none

/-- The port that a text writes: a number below 65536, at times behind a
    plus sign. -/
def readPort? (cs : List Char) : Option UInt16 :=
  match Numeral.readPlus? 10 cs with
  | some n => if n < 65536 then some (UInt16.ofNat n) else none
  | none => none

/-- The endpoint that a text writes. -/
def parse? (s : String) : Option Endpoint :=
  match splitLast? ':' (Text.trim s.toList) with
  | some (host, port) =>
    if host.isEmpty then none
    else (readPort? port).map fun p => ⟨String.ofList host, p⟩
  | none => none

/-- A text without the separator is not split. -/
theorem splitLast?_eq_none_iff {sep : Char} {cs : List Char} :
    splitLast? sep cs = none ↔ sep ∉ cs := by
  induction cs with
  | nil => simp [splitLast?]
  | cons c cs ih =>
    simp only [splitLast?, List.mem_cons, not_or]
    split
    · rename_i h
      have : splitLast? sep cs ≠ none := by simp [h]
      simp_all
    · rename_i h
      have hn := ih.mp h
      by_cases hc : c = sep
      · simp [hc]
      · simp [hc, hn, Ne.symm hc]

/-- A text is split at the separator behind which there is none. -/
theorem splitLast?_eq_some_iff {sep : Char} {cs a b : List Char} :
    splitLast? sep cs = some (a, b) ↔ cs = a ++ sep :: b ∧ sep ∉ b := by
  induction cs generalizing a b with
  | nil => simp [splitLast?]
  | cons c cs ih =>
    simp only [splitLast?]
    split
    · rename_i x y h
      have hsplit := ih.mp h
      constructor
      · intro e
        cases e
        exact ⟨by rw [hsplit.1, List.cons_append], hsplit.2⟩
      · rintro ⟨e, hb⟩
        cases a with
        | nil =>
          -- The separator would stand behind the point of the split.
          rw [List.nil_append, List.cons.injEq] at e
          exact absurd (e.2 ▸ hsplit.1 ▸ List.mem_append_right _ List.mem_cons_self) hb
        | cons a₀ a =>
          rw [List.cons_append, List.cons.injEq] at e
          have := ih.mpr ⟨e.2, hb⟩
          rw [h, Option.some.injEq, Prod.mk.injEq] at this
          rw [e.1, this.1, this.2]
    · rename_i h
      have hn := splitLast?_eq_none_iff.mp h
      by_cases hc : c = sep
      · rw [if_pos hc]
        constructor
        · intro e
          cases e
          exact ⟨by rw [hc, List.nil_append], hn⟩
        · rintro ⟨e, -⟩
          cases a with
          | nil =>
            rw [List.nil_append, List.cons.injEq] at e
            rw [e.2]
          | cons a₀ a =>
            rw [List.cons_append, List.cons.injEq] at e
            exact absurd (e.2 ▸ List.mem_append_right _ List.mem_cons_self) hn
      · rw [if_neg hc]
        constructor
        · intro e
          cases e
        · rintro ⟨e, -⟩
          cases a with
          | nil =>
            rw [List.nil_append, List.cons.injEq] at e
            exact absurd e.1 hc
          | cons a₀ a =>
            rw [List.cons_append, List.cons.injEq] at e
            exact absurd (e.2 ▸ List.mem_append_right _ List.mem_cons_self) hn

end Endpoint

end QuorumStore
