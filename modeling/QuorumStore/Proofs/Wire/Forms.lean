import QuorumStore.Proofs.Json.Values
import QuorumStore.Wire.Message

/-!
# JSON Forms and What They Hold

A version is what its JSON form holds, and so are the parts that it is made of.

Not every version has a form that can be read again. A count has to fit into
64 bits, and a moment has to be one that exists: seconds that fit a signed
number of 64 bits, and less than a second of nanoseconds, since whole ones
would be carried. Nothing else matters. A count may be zero, and an entry may
be kept under a key that is not its node's.

The entries of a vector come out in the order of their keys, and are put in
again one by one. That gives the same table, because a table is determined by
what it has under each key.

Whatever has been read can be sent on. The reader refuses a count that does
not fit and a moment that does not exist, so nothing else ever comes in.

## Main definitions

* `Instant.Proper`: A moment that can be represented.
* `VersionVector.Sendable`, `Version.Sendable`: What can be read again.

## Theorems

* `Table.ofList_toList`: A table is the table of its bindings.
* `VersionVector.ofJson?_toJson`, `Version.ofJson?_toJson`: A form holds what
  it is the form of.
* `Version.fits_toJson`: The form of a version nests five deep.
* `VersionVector.sendable_of_ofJson?`, `Version.sendable_of_ofJson?`: What has
  been read can be sent.
-/

namespace QuorumStore

/-- A table is the table of its bindings. -/
theorem Table.ofList_toList {κ α : Type} [Ord κ] [Std.TransOrd κ] [Std.LawfulEqOrd κ]
    [DecidableEq κ] (t : Table κ α) : ofList t.toList = t := by
  have hmerge : ofList t.toList = (empty : Table κ α).mergeWith (fun _ new => new) t := by
    unfold ofList mergeWith insertAllWith
    congr
    funext s p
    cases s.get? p.1 <;> rfl
  rw [hmerge]
  refine ext_get? fun k => ?_
  rw [get?_mergeWith, get?_empty]
  cases t.get? k <;> rfl

/-- A number that is read lies below the limit of its reader. -/
theorem Json.lt_of_natural? {limit n : Nat} {j : Json} (h : j.natural? limit = some n) :
    n < limit := by
  cases j with
  | natural m =>
    rw [natural?, Option.ite_none_right_eq_some] at h
    cases h.2
    exact h.1
  | _ => cases h

namespace Instant

/-- The moment can be represented, and its nanoseconds are less than one
    second. -/
def Proper (t : Instant) : Prop := t.seconds < secondsLimit ∧ t.nanos < 1000000000

theorem ofJson?_toJson {t : Instant} (h : t.Proper) : ofJson? t.toJson = some t := by
  have hlimit : secondsLimit ≤ Json.naturalLimit := by decide
  have hcarried : carried t.seconds t.nanos = t := by
    rw [carried, Nat.div_eq_of_lt h.2, Nat.mod_eq_of_lt h.2, Nat.add_zero]
  have hseconds : (Json.natural t.seconds).natural? Json.naturalLimit = some t.seconds :=
    if_pos (Nat.lt_of_lt_of_le h.1 hlimit)
  have hnanos : (Json.natural t.nanos).natural? (Nat.pow 2 32) = some t.nanos :=
    if_pos (Nat.lt_trans h.2 (by decide))
  have hrange : t.inRange = true := decide_eq_true h.1
  have hcounts : ofCounts? (.natural t.seconds) (.natural t.nanos) = some t := by
    simp [ofCounts?, hseconds, hnanos, hcarried, hrange]
  simpa [toJson, ofJson?, Json.member?, Json.field?] using hcounts

theorem fits_toJson {t : Instant} (h : t.Proper) (depth : Nat) : t.toJson.Fits (depth + 1) := by
  have hlimit : secondsLimit ≤ Json.naturalLimit := by decide
  intro m hm
  simp only [List.mem_cons, List.not_mem_nil, or_false] at hm
  rcases hm with rfl | rfl
  · exact Json.fits_natural (Nat.lt_of_lt_of_le h.1 hlimit) depth
  · exact Json.fits_natural (Nat.lt_trans h.2 (by decide)) depth

theorem proper_of_ofCounts? {seconds nanos : Json} {t : Instant}
    (h : ofCounts? seconds nanos = some t) : t.Proper := by
  rcases Option.bind_eq_some_iff.mp h with ⟨s, -, h⟩
  rcases Option.bind_eq_some_iff.mp h with ⟨n, -, h⟩
  rcases Option.ite_none_right_eq_some.mp h with ⟨hrange, h⟩
  cases h
  exact ⟨of_decide_eq_true hrange, Nat.mod_lt _ (by decide)⟩

theorem proper_of_ofJson? {j : Json} {t : Instant} (h : ofJson? j = some t) : t.Proper := by
  unfold ofJson? at h
  split at h
  · rcases Option.bind_eq_some_iff.mp h with ⟨s, -, h⟩
    rcases Option.bind_eq_some_iff.mp h with ⟨n, -, h⟩
    exact proper_of_ofCounts? (Option.ite_none_right_eq_some.mp h).2
  · exact proper_of_ofCounts? h
  · cases h

end Instant

namespace VersionVector

/-- The entry's count fits into 64 bits, and its moment is proper. -/
def Entry.Sendable (e : Entry) : Prop := e.counter < Json.naturalLimit ∧ e.updatedAt.Proper

/-- All entries of the vector can be sent, whatever keys they are under. -/
def Sendable (v : VersionVector) : Prop := ∀ p ∈ v.entries.toList, p.2.Sendable

theorem Entry.ofJson?_toJson {e : Entry} (h : e.Sendable) : ofJson? e.toJson = some e := by
  have hcounter : (Json.natural e.counter).natural? Json.naturalLimit = some e.counter :=
    if_pos h.1
  simp [toJson, ofJson?, ofFields?, Json.member?, Json.field?, Json.string?, hcounter,
    Instant.ofJson?_toJson h.2]

theorem Entry.fits_toJson {e : Entry} (h : e.Sendable) (depth : Nat) :
    e.toJson.Fits (depth + 2) := by
  intro m hm
  simp only [List.mem_cons, List.not_mem_nil, or_false] at hm
  rcases hm with rfl | rfl | rfl
  · exact Json.fits_string _ _
  · exact Json.fits_natural h.1 _
  · exact Instant.fits_toJson h.2 depth

/-- Entries are read one after another into the table. -/
theorem entriesOfJson?_map {l : List (String × Entry)} (h : ∀ p ∈ l, p.2.Sendable) :
    entriesOfJson? (l.map fun p => (p.1, p.2.toJson)) = some (Table.ofList l) := by
  unfold entriesOfJson? Table.ofList
  generalize (Table.empty : Table String Entry) = t
  induction l generalizing t with
  | nil => rfl
  | cons p l ih =>
    have hp := Entry.ofJson?_toJson (h p List.mem_cons_self)
    rw [List.map_cons, List.foldl_cons, List.foldl_cons]
    simp only [hp, Option.bind_eq_bind, Option.bind_some]
    exact ih (fun q hq => h q (List.mem_cons_of_mem _ hq)) _

/-- The form of a vector holds the vector. -/
theorem ofJson?_toJson {v : VersionVector} (h : v.Sendable) : ofJson? v.toJson = some v := by
  have hentries : ofField? (.object (v.entries.toList.map fun p => (p.1, p.2.toJson))) =
      some v := by
    rw [ofField?, entriesOfJson?_map h, Table.ofList_toList]
    rfl
  simpa [toJson, ofJson?, Json.member?, Json.field?] using hentries

theorem fits_toJson {v : VersionVector} (h : v.Sendable) (depth : Nat) :
    v.toJson.Fits (depth + 4) := by
  intro m hm
  rw [List.mem_singleton] at hm
  subst hm
  intro m hm
  rcases List.mem_map.mp hm with ⟨p, hp, rfl⟩
  exact Entry.fits_toJson (h p hp) depth

theorem Entry.sendable_of_ofFields? {node counter updatedAt : Json} {e : Entry}
    (h : ofFields? node counter updatedAt = some e) : e.Sendable := by
  rcases Option.bind_eq_some_iff.mp h with ⟨n, -, h⟩
  rcases Option.bind_eq_some_iff.mp h with ⟨c, hc, h⟩
  rcases Option.bind_eq_some_iff.mp h with ⟨t, ht, h⟩
  cases h
  exact ⟨Json.lt_of_natural? hc, Instant.proper_of_ofJson? ht⟩

theorem Entry.sendable_of_ofJson? {j : Json} {e : Entry} (h : ofJson? j = some e) :
    e.Sendable := by
  unfold ofJson? at h
  split at h
  · rcases Option.bind_eq_some_iff.mp h with ⟨n, -, h⟩
    rcases Option.bind_eq_some_iff.mp h with ⟨c, -, h⟩
    rcases Option.bind_eq_some_iff.mp h with ⟨t, -, h⟩
    exact sendable_of_ofFields? h
  · exact sendable_of_ofFields? h
  · cases h

theorem sendable_of_entriesOfJson? {ms : List (String × Json)} {t : Table String Entry}
    (h : entriesOfJson? ms = some t) : Sendable ⟨t⟩ := by
  -- The table grows by one entry after another, and each of them can be sent.
  suffices hall : ∀ t? : Option (Table String Entry), (∀ t, t? = some t → Sendable ⟨t⟩) →
      ∀ t, ms.foldl (fun t? m => do
        let t ← t?
        some (t.insert m.1 (← Entry.ofJson? m.2))) t? = some t → Sendable ⟨t⟩ from
    hall (some Table.empty) (by rintro t ⟨⟩; exact nofun) t h
  clear h t
  induction ms with
  | nil => exact fun t? ht? => ht?
  | cons m ms ih =>
    intro t? ht?
    refine ih _ fun t ht => ?_
    rcases Option.bind_eq_some_iff.mp ht with ⟨old, hold, ht⟩
    rcases Option.bind_eq_some_iff.mp ht with ⟨e, he, ht⟩
    cases ht
    intro p hp
    rcases mem_insertSorted hp with rfl | hp
    · exact Entry.sendable_of_ofJson? he
    · exact ht? old hold p hp

theorem sendable_of_ofField? {j : Json} {v : VersionVector} (h : ofField? j = some v) :
    v.Sendable := by
  cases j with
  | object ms =>
    rcases Option.map_eq_some_iff.mp h with ⟨t, ht, rfl⟩
    exact sendable_of_entriesOfJson? ht
  | _ => cases h

/-- A vector that has been read can be sent. -/
theorem sendable_of_ofJson? {j : Json} {v : VersionVector} (h : ofJson? j = some v) :
    v.Sendable := by
  unfold ofJson? at h
  split at h
  · rcases Option.bind_eq_some_iff.mp h with ⟨field, -, h⟩
    exact sendable_of_ofField? h
  · exact sendable_of_ofField? h
  · cases h

end VersionVector

namespace Version

/-- The vector of the version can be sent. -/
def Sendable (v : Version) : Prop := v.vector.Sendable

/-- The form of a version holds the version. -/
theorem ofJson?_toJson {v : Version} (h : v.Sendable) : ofJson? v.toJson = some v := by
  simp [toJson, ofJson?, ofFields?, Json.member?, Json.field?, Json.string?, Json.bool?,
    VersionVector.ofJson?_toJson h]

/-- The form of a version nests five deep. -/
theorem fits_toJson {v : Version} (h : v.Sendable) (depth : Nat) :
    v.toJson.Fits (depth + 5) := by
  intro m hm
  simp only [List.mem_cons, List.not_mem_nil, or_false] at hm
  rcases hm with rfl | rfl | rfl
  · exact Json.fits_string _ _
  · exact VersionVector.fits_toJson h depth
  · exact Json.fits_bool _ _

theorem sendable_of_ofFields? {value vector tombstone : Json} {v : Version}
    (h : ofFields? value vector tombstone = some v) : v.Sendable := by
  rcases Option.bind_eq_some_iff.mp h with ⟨x, -, h⟩
  rcases Option.bind_eq_some_iff.mp h with ⟨vec, hvec, h⟩
  rcases Option.bind_eq_some_iff.mp h with ⟨b, -, h⟩
  cases h
  exact VersionVector.sendable_of_ofJson? hvec

/-- A version that has been read can be sent. -/
theorem sendable_of_ofJson? {j : Json} {v : Version} (h : ofJson? j = some v) : v.Sendable := by
  unfold ofJson? at h
  split at h
  · rcases Option.bind_eq_some_iff.mp h with ⟨value, -, h⟩
    rcases Option.bind_eq_some_iff.mp h with ⟨vector, -, h⟩
    rcases Option.bind_eq_some_iff.mp h with ⟨tombstone, -, h⟩
    exact sendable_of_ofFields? h
  · exact sendable_of_ofFields? h
  · exact sendable_of_ofFields? h
  · cases h

end Version

end QuorumStore
