/-!
# Sorted Tables

A finite map that is listed in the order of its keys.

Almost everything this library keeps by name is kept in one of these: the
counters of a version vector, the versions a replica stores, the vectors a
session remembers, the replicas of a cluster. Each of them is printed or
serialised in key order, so the order is part of the value and not of the
printer: a table is the list of its bindings, with the keys strictly
increasing.

The order lives in the type. A list of bindings that is out of order is not a
table, so no operation has to ask whether it was handed one, and two tables
that answer every lookup alike are the same table.

## Main definitions

* `insertSorted`: Put a binding into an ordered list of bindings.
* `lookupSorted`: The value bound to a key in a list of bindings.
* `Table`: A list of bindings with strictly increasing keys.
* `Table.mergeWith`: Two tables in one, with a rule for the keys they share.

## Theorems

* `Table.get?_empty`: The empty table binds nothing.
* `Table.get?_insert`: Inserting changes the answer for one key only.
* `Table.get?_ofList`: Of two bindings of one key the later counts.
* `Table.ext_get?`: Tables that answer every lookup alike are equal.
* `Table.get?_mergeWith`: A merge is decided key by key.
-/

namespace QuorumStore

variable {κ α β : Type} [Ord κ]

/-- Put a binding into a key-ordered list, in place of any binding the key
    has there. -/
def insertSorted (k : κ) (v : α) : List (κ × α) → List (κ × α)
  | [] => [(k, v)]
  | (k', v') :: rest =>
    match compare k k' with
    | .lt => (k, v) :: (k', v') :: rest
    | .eq => (k, v) :: rest
    | .gt => (k', v') :: insertSorted k v rest

/-- The value bound to a key in a list of bindings. -/
def lookupSorted (k : κ) : List (κ × α) → Option α
  | [] => none
  | (k', v') :: rest =>
    match compare k k' with
    | .eq => some v'
    | _ => lookupSorted k rest

/-- The keys of a list of bindings are strictly increasing. -/
def KeysIncrease (l : List (κ × α)) : Prop :=
  l.Pairwise fun a b => compare a.1 b.1 = .lt

/-- A binding of a list after an insertion is the new one or an old one. -/
theorem mem_insertSorted {k : κ} {v : α} {p : κ × α} {l : List (κ × α)}
    (h : p ∈ insertSorted k v l) : p = (k, v) ∨ p ∈ l := by
  induction l with
  | nil => simpa [insertSorted] using h
  | cons hd tl ih =>
    obtain ⟨k', v'⟩ := hd
    simp only [insertSorted] at h
    split at h
    · simpa using h
    · rcases List.mem_cons.mp h with h | h
      · exact .inl h
      · exact .inr (List.mem_cons_of_mem _ h)
    · rcases List.mem_cons.mp h with h | h
      · exact .inr (h ▸ List.mem_cons_self)
      · exact (ih h).imp_right (List.mem_cons_of_mem _)

/-- An insertion adds one binding at most. -/
theorem length_insertSorted_le (k : κ) (v : α) (l : List (κ × α)) :
    (insertSorted k v l).length ≤ l.length + 1 := by
  induction l with
  | nil => exact Nat.le_refl _
  | cons hd tl ih =>
    obtain ⟨k', v'⟩ := hd
    simp only [insertSorted]
    split
    · exact Nat.le_refl _
    · exact Nat.le_succ _
    · exact Nat.succ_le_succ ih

variable [Std.TransOrd κ]

omit [Std.TransOrd κ] in
/-- No key precedes itself. -/
theorem compare_self_ne_lt [Std.ReflOrd κ] (k : κ) : compare k k ≠ .lt := by
  rw [Std.ReflOrd.compare_self]
  exact Ordering.noConfusion

/-- Inserting keeps the keys increasing. -/
theorem keysIncrease_insertSorted (k : κ) (v : α) {l : List (κ × α)}
    (h : KeysIncrease l) : KeysIncrease (insertSorted k v l) := by
  induction l with
  | nil => exact List.pairwise_singleton _ _
  | cons hd tl ih =>
    obtain ⟨k', v'⟩ := hd
    have htl := List.pairwise_cons.mp h
    simp only [insertSorted]
    split
    · rename_i hlt
      refine List.pairwise_cons.mpr ⟨fun p hp => ?_, h⟩
      rcases List.mem_cons.mp hp with rfl | hp
      · exact hlt
      · exact Std.TransCmp.lt_trans hlt (htl.1 p hp)
    · rename_i heq
      refine List.pairwise_cons.mpr ⟨fun p hp => ?_, htl.2⟩
      exact Std.TransCmp.lt_of_eq_of_lt heq (htl.1 p hp)
    · rename_i hgt
      refine List.pairwise_cons.mpr ⟨fun p hp => ?_, ih htl.2⟩
      rcases mem_insertSorted hp with rfl | hp
      · exact Std.OrientedCmp.lt_of_gt hgt
      · exact htl.1 p hp

/-- A list of bindings in which the keys strictly increase. -/
structure Table (κ : Type) (α : Type) [Ord κ] where
  /-- The bindings, in the order of their keys. -/
  toList : List (κ × α)
  /-- No key occurs twice, and none before a smaller one. -/
  increasing : KeysIncrease toList

namespace Table

/-- The table that binds nothing. -/
def empty : Table κ α := ⟨[], .nil⟩

instance : Inhabited (Table κ α) := ⟨empty⟩

instance [Repr κ] [Repr α] : Repr (Table κ α) := ⟨fun t n => reprPrec t.toList n⟩

instance [DecidableEq κ] [DecidableEq α] : DecidableEq (Table κ α) := fun a b =>
  if h : a.toList = b.toList then
    .isTrue (by cases a; cases b; cases h; rfl)
  else .isFalse (fun e => h (e ▸ rfl))

/-- The value bound to a key. -/
def get? (t : Table κ α) (k : κ) : Option α := lookupSorted k t.toList

/-- Whether a key is bound. -/
def contains (t : Table κ α) (k : κ) : Bool := (t.get? k).isSome

/-- The keys, in increasing order. -/
def keys (t : Table κ α) : List κ := t.toList.map (·.1)

/-- The values, in the order of their keys. -/
def values (t : Table κ α) : List α := t.toList.map (·.2)

/-- How many keys are bound. -/
def size (t : Table κ α) : Nat := t.toList.length

/-- Whether no key is bound. -/
def isEmpty (t : Table κ α) : Bool := t.toList.isEmpty

/-- Bind a key, in place of what it was bound to. -/
def insert (t : Table κ α) (k : κ) (v : α) : Table κ α :=
  ⟨insertSorted k v t.toList, keysIncrease_insertSorted k v t.increasing⟩

/-- The table of a list of bindings; of two with one key the later counts. -/
def ofList (l : List (κ × α)) : Table κ α :=
  l.foldl (fun t p => t.insert p.1 p.2) empty

/-- Insert bindings one after another, letting `join` decide what becomes of
    a key that is bound already: it is given the old value and the new. -/
def insertAllWith (join : α → α → α) (t : Table κ α) (l : List (κ × α)) : Table κ α :=
  l.foldl (fun t p =>
    t.insert p.1 (match t.get? p.1 with
      | some old => join old p.2
      | none => p.2)) t

/-- Two tables in one. A key that both bind takes the joined value. -/
def mergeWith (join : α → α → α) (a b : Table κ α) : Table κ α :=
  a.insertAllWith join b.toList

omit [Std.TransOrd κ] in
/-- The empty table binds nothing. -/
@[simp]
theorem get?_empty (k : κ) : (empty : Table κ α).get? k = none := rfl

variable [Std.LawfulEqOrd κ] [DecidableEq κ]

omit [Std.TransOrd κ] in
private theorem lookupSorted_cons (k k' : κ) (v : α) (l : List (κ × α)) :
    lookupSorted k ((k', v) :: l) = if k = k' then some v else lookupSorted k l := by
  simp only [lookupSorted]
  split
  · rename_i h
    rw [if_pos (Std.LawfulEqCmp.eq_of_compare h)]
  · rename_i h
    rw [if_neg]
    rintro rfl
    exact h Std.ReflOrd.compare_self

omit [Std.TransOrd κ] in
private theorem lookupSorted_insertSorted (k k' : κ) (v : α) (l : List (κ × α)) :
    lookupSorted k (insertSorted k' v l)
      = if k = k' then some v else lookupSorted k l := by
  induction l with
  | nil => simp only [insertSorted, lookupSorted_cons]
  | cons hd tl ih =>
    obtain ⟨k'', v''⟩ := hd
    simp only [insertSorted]
    split
    · simp only [lookupSorted_cons]
    · rename_i h
      obtain rfl := Std.LawfulEqCmp.eq_of_compare h
      simp only [lookupSorted_cons]
      split <;> rfl
    · rename_i h
      -- The new key lies further on, so it is not the one at the head.
      have hne : k' ≠ k'' := fun e => by
        subst e
        rw [Std.ReflOrd.compare_self] at h
        cases h
      simp only [lookupSorted_cons, ih]
      by_cases hk : k = k'
      · subst hk
        rw [if_neg hne, if_pos rfl, if_pos rfl]
      · rw [if_neg hk, if_neg hk]

/-- Inserting a binding changes the answer for its key, and for no other. -/
@[simp, grind =]
theorem get?_insert (t : Table κ α) (k k' : κ) (v : α) :
    (t.insert k' v).get? k = if k = k' then some v else t.get? k :=
  lookupSorted_insertSorted k k' v t.toList

omit [DecidableEq κ] [Std.TransOrd κ] in
private theorem lookupSorted_of_mem {k : κ} {v : α} {l : List (κ × α)}
    (h : KeysIncrease l) (hm : (k, v) ∈ l) : lookupSorted k l = some v := by
  classical
  induction l with
  | nil => cases hm
  | cons hd tl ih =>
    obtain ⟨k', v'⟩ := hd
    have htl := List.pairwise_cons.mp h
    rw [lookupSorted_cons]
    rcases List.mem_cons.mp hm with e | htail
    · cases e
      rw [if_pos rfl]
    · rw [if_neg, ih htl.2 htail]
      rintro rfl
      exact compare_self_ne_lt k (htl.1 (k, v) htail)

omit [DecidableEq κ] [Std.TransOrd κ] in
private theorem mem_of_lookupSorted {k : κ} {v : α} {l : List (κ × α)}
    (h : lookupSorted k l = some v) : (k, v) ∈ l := by
  classical
  induction l with
  | nil => cases h
  | cons hd tl ih =>
    obtain ⟨k', v'⟩ := hd
    rw [lookupSorted_cons] at h
    split at h
    · rename_i e
      cases h
      rw [e]
      exact List.mem_cons_self
    · exact List.mem_cons_of_mem _ (ih h)

omit [DecidableEq κ] [Std.TransOrd κ] in
/-- A key is bound to a value exactly when the pair is listed. -/
theorem get?_eq_some_iff {t : Table κ α} {k : κ} {v : α} :
    t.get? k = some v ↔ (k, v) ∈ t.toList :=
  ⟨mem_of_lookupSorted, lookupSorted_of_mem t.increasing⟩

/-- The table of a list binds a key to the last value that the list gives it. -/
theorem get?_ofList (l : List (κ × α)) (k : κ) :
    (ofList l).get? k = ((l.filter fun p => decide (p.1 = k)).getLast?).map (·.2) := by
  -- What the rest of the list says of the key goes before what was said so far.
  have hfold : ∀ t : Table κ α, (l.foldl (fun t p => t.insert p.1 p.2) t).get? k =
      (((l.filter fun p => decide (p.1 = k)).getLast?).map (·.2)).or (t.get? k) := by
    induction l with
    | nil => exact fun t => rfl
    | cons p l ih =>
      intro t
      rw [List.foldl_cons, ih, get?_insert, List.filter_cons]
      by_cases h : p.1 = k
      · rw [if_pos h.symm, if_pos (decide_eq_true h), List.getLast?_cons]
        cases (l.filter fun p => decide (p.1 = k)).getLast? <;> rfl
      · rw [if_neg (Ne.symm h), if_neg (by simp [h])]
  exact (hfold empty).trans Option.or_none

/-- What the table of a list binds was in the list. -/
theorem mem_of_mem_ofList {l : List (κ × α)} {p : κ × α} (h : p ∈ (ofList l).toList) : p ∈ l := by
  have hbound := get?_eq_some_iff.mpr (show (p.1, p.2) ∈ (ofList l).toList from h)
  rw [get?_ofList, Option.map_eq_some_iff] at hbound
  rcases hbound with ⟨q, hq, hvalue⟩
  rcases List.mem_filter.mp (List.mem_of_getLast? hq) with ⟨hmem, hkey⟩
  rw [← show q = p from Prod.ext (of_decide_eq_true hkey) hvalue]
  exact hmem

omit [DecidableEq κ] in
private theorem eq_of_mem_iff {l₁ l₂ : List (κ × α)} (h₁ : KeysIncrease l₁)
    (h₂ : KeysIncrease l₂) (h : ∀ p, p ∈ l₁ ↔ p ∈ l₂) : l₁ = l₂ := by
  induction l₁ generalizing l₂ with
  | nil =>
    cases l₂ with
    | nil => rfl
    | cons p l₂ => exact absurd ((h p).mpr List.mem_cons_self) (by simp)
  | cons p l₁ ih =>
    cases l₂ with
    | nil => exact absurd ((h p).mp List.mem_cons_self) (by simp)
    | cons q l₂ =>
      have i₁ := List.pairwise_cons.mp h₁
      have i₂ := List.pairwise_cons.mp h₂
      -- Each head is listed on the other side, so neither precedes the other.
      have hpq : p = q := by
        rcases List.mem_cons.mp ((h p).mp List.mem_cons_self) with e | hp
        · exact e
        rcases List.mem_cons.mp ((h q).mpr List.mem_cons_self) with e | hq
        · exact e.symm
        exact absurd (Std.TransCmp.lt_trans (i₁.1 q hq) (i₂.1 p hp)) (compare_self_ne_lt _)
      subst hpq
      have fresh : ∀ {l : List (κ × α)},
          (∀ r ∈ l, compare p.1 r.1 = .lt) → p ∉ l := fun hl hp =>
        compare_self_ne_lt _ (hl p hp)
      rw [ih i₁.2 i₂.2 fun r => ?_]
      constructor
      · intro hr
        rcases List.mem_cons.mp ((h r).mp (List.mem_cons_of_mem _ hr)) with rfl | hr'
        · exact absurd hr (fresh i₁.1)
        · exact hr'
      · intro hr
        rcases List.mem_cons.mp ((h r).mpr (List.mem_cons_of_mem _ hr)) with rfl | hr'
        · exact absurd hr (fresh i₂.1)
        · exact hr'

omit [DecidableEq κ] in
/-- Tables that answer every lookup alike are equal: the order of the keys
    leaves only one way to list them. -/
theorem ext_get? {a b : Table κ α} (h : ∀ k, a.get? k = b.get? k) : a = b := by
  cases a with
  | mk la ia =>
  cases b with
  | mk lb ib =>
  have : la = lb := eq_of_mem_iff ia ib fun p => by
    have e := h p.1
    constructor
    · intro hp
      exact mem_of_lookupSorted (e.symm.trans (lookupSorted_of_mem ia hp))
    · intro hp
      exact mem_of_lookupSorted (e.trans (lookupSorted_of_mem ib hp))
  subst this
  rfl

private theorem get?_insertAllWith (join : α → α → α) (t : Table κ α)
    {l : List (κ × α)} (hl : KeysIncrease l) (k : κ) :
    (t.insertAllWith join l).get? k
      = match t.get? k, lookupSorted k l with
        | some old, some new => some (join old new)
        | none, some new => some new
        | old, none => old := by
  induction l generalizing t with
  | nil => cases h : t.get? k <;> simp only [insertAllWith, List.foldl_nil, lookupSorted, h]
  | cons p l ih =>
    obtain ⟨k', v'⟩ := p
    have i := List.pairwise_cons.mp hl
    rw [insertAllWith, List.foldl_cons]
    rw [show List.foldl _ _ l = insertAllWith join _ l from rfl, ih _ i.2,
      get?_insert, lookupSorted_cons]
    by_cases hk : k = k'
    · subst hk
      -- The keys increase, so the tail does not bind this one again.
      have hn : lookupSorted k l = none := by
        rcases hc : lookupSorted k l with _ | w
        · rfl
        · exact absurd (i.1 _ (mem_of_lookupSorted hc)) (compare_self_ne_lt _)
      simp only [if_pos, hn]
      cases t.get? k <;> rfl
    · simp only [if_neg hk]

/-- A merge is decided key by key: a key bound on one side keeps its value,
    and one bound on both takes the joined value. -/
@[grind =]
theorem get?_mergeWith (join : α → α → α) (a b : Table κ α) (k : κ) :
    (a.mergeWith join b).get? k
      = match a.get? k, b.get? k with
        | some old, some new => some (join old new)
        | none, some new => some new
        | old, none => old :=
  get?_insertAllWith join a b.increasing k

end Table

end QuorumStore
