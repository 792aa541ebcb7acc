import QuorumStore.Proofs.System.Run

/-!
# Causal Pasts

Which writes of a key a write has seen.

The past of a write is defined by what its session did: it has seen itself,
what the session wrote before it, and the pasts of all versions that the
session took in before it by a read. No vector is mentioned, so what vectors
say about pasts is a theorem and not a convention.

`Known` is the same for a session that has not written yet. The past of its
next write is what it knows, and the write itself (`past_iff_known`). It grows
by what happens at one place of a run, which `known_succ` says in full.

## Main definitions

* `Wrote`: The move at a place sends out a version.
* `Took`: The move at a place takes in a version.
* `Past`: One write is in the causal past of another.
* `Known`: A write is known to a session at a place.

## Theorems

* `wrote_at`, `took_at`: What is said of a place is said of its move.
* `Wrote.unique`: One move sends out one version.
* `Past.le`: What is in the past comes before.
* `Past.trans`: Pasts are closed.
* `past_iff_known`: The past of a write is what its session knows.
* `known_succ`: What a move adds to what a session knows.
-/

namespace QuorumStore

variable {H : List Moment} {key : String}

/-- The move at a place of the run is a write by this session, and it sends
    out this version of the key. -/
def Wrote (H : List Moment) (key : String) (who i : Nat) (v : Version) : Prop :=
  ∃ m, H[i]? = some m ∧ m.move.who = who ∧ m.stamp? key = some v

/-- The move at a place of the run is a read by this session, and this version
    of the key is among the replies that it has gathered. -/
def Took (H : List Moment) (key : String) (who g : Nat) (v : Version) : Prop :=
  ∃ m replies, H[g]? = some m ∧ m.move.who = who ∧ m.read? key = some replies ∧
    v ∈ versions replies

/-- The write of a key at the first place is in the causal past of the one at
    the second. -/
inductive Past (H : List Moment) (key : String) : Nat → Nat → Prop where
  /-- A write has seen itself. -/
  | self {who i : Nat} {v : Version} : Wrote H key who i v → Past H key i i
  /-- A write has seen those that its session has made before it. -/
  | earlier {who i j : Nat} {v w : Version} :
    Wrote H key who i v → Wrote H key who j w → i < j → Past H key i j
  /-- A write has seen what a version has seen that its session took in before
      it. -/
  | taken {who j g other l i : Nat} {w v : Version} :
    Wrote H key who j w → Took H key who g v → g < j →
    Wrote H key other l v → l < g → Past H key i l → Past H key i j

/-- The write at a place is known to a session before its move at another
    place: it has made it, or has taken in a version that has seen it. -/
def Known (H : List Moment) (key : String) (who k i : Nat) : Prop :=
  (i < k ∧ ∃ v, Wrote H key who i v) ∨
  ∃ g v other l, g < k ∧ Took H key who g v ∧ Wrote H key other l v ∧ l < g ∧ Past H key i l

theorem wrote_at {k : Nat} {m : Moment} (hm : H[k]? = some m) {who : Nat} {v : Version} :
    Wrote H key who k v ↔ m.move.who = who ∧ m.stamp? key = some v := by
  constructor
  · rintro ⟨n, hn, h⟩
    rw [hm, Option.some.injEq] at hn
    rw [hn]
    exact h
  · intro h
    exact ⟨m, hm, h⟩

theorem took_at {k : Nat} {m : Moment} (hm : H[k]? = some m) {who : Nat} {v : Version} :
    Took H key who k v ↔
      m.move.who = who ∧ ∃ replies, m.read? key = some replies ∧ v ∈ versions replies := by
  constructor
  · rintro ⟨n, replies, hn, hwho, h⟩
    rw [hm, Option.some.injEq] at hn
    rw [hn]
    exact ⟨hwho, replies, h⟩
  · rintro ⟨hwho, replies, h⟩
    exact ⟨m, replies, hm, hwho, h⟩

/-- A place of a run can be looked up to see what was written there. -/
theorem wrote_iff {who i : Nat} {v : Version} :
    Wrote H key who i v ↔
      (H[i]?.bind fun m => (m.stamp? key).map fun v => (m.move.who, v)) = some (who, v) := by
  cases hm : H[i]? with
  | none => simp [Wrote, hm]
  | some m =>
    rw [wrote_at hm]
    simp [and_comm]

theorem Wrote.lt_length {who i : Nat} {v : Version} (h : Wrote H key who i v) :
    i < H.length := by
  rcases h with ⟨m, hm, -⟩
  exact (List.getElem?_eq_some_iff.mp hm).1

theorem Wrote.unique {a b i : Nat} {v w : Version} (h : Wrote H key a i v)
    (h' : Wrote H key b i w) : a = b ∧ v = w := by
  rcases h with ⟨m, hm, rfl, hv⟩
  rw [wrote_at hm, hv, Option.some.injEq] at h'
  exact h'

theorem Past.le {i j : Nat} (h : Past H key i j) : i ≤ j := by
  induction h with
  | self _ => exact Nat.le_refl _
  | earlier _ _ hlt => exact Nat.le_of_lt hlt
  | taken _ _ hgj _ hlg _ ih => omega

/-- The past of a write is what its session knows, and the write itself. -/
theorem past_iff_known {who i j : Nat} {w : Version} (hj : Wrote H key who j w) :
    Past H key i j ↔ i = j ∨ Known H key who j i := by
  constructor
  · intro h
    cases h with
    | self _ => exact .inl rfl
    | earlier hi hj' hlt =>
      rw [(hj'.unique hj).1] at hi
      exact .inr (.inl ⟨hlt, _, hi⟩)
    | taken hj' htook hgj hl hlg hpast =>
      rw [(hj'.unique hj).1] at htook
      exact .inr (.inr ⟨_, _, _, _, hgj, htook, hl, hlg, hpast⟩)
  · rintro (rfl | ⟨hlt, v, hi⟩ | ⟨g, v, other, l, hgj, htook, hl, hlg, hpast⟩)
    · exact .self hj
    · exact .earlier hi hj hlt
    · exact .taken hj htook hgj hl hlg hpast

theorem Past.trans {i j k : Nat} (hij : Past H key i j) (hjk : Past H key j k) :
    Past H key i k := by
  induction hjk with
  | self _ => exact hij
  | earlier hj hk hlt =>
    -- What the earlier write has seen, its session knew before it.
    rcases (past_iff_known hj).mp hij with rfl | ⟨hij, v, hi⟩ | h
    · exact .earlier hj hk hlt
    · exact .earlier hi hk (Nat.lt_trans hij hlt)
    · rcases h with ⟨g, v, other, l, hgj, htook, hl, hlg, hpast⟩
      exact .taken hk htook (Nat.lt_trans hgj hlt) hl hlg hpast
  | taken hk htook hgk hl hlg _ ih => exact .taken hk htook hgk hl hlg (ih hij)

theorem Known.lt {who k i : Nat} (h : Known H key who k i) : i < k := by
  rcases h with ⟨hlt, -⟩ | ⟨g, v, other, l, hgk, -, -, hlg, hpast⟩
  · exact hlt
  · have hle := hpast.le
    omega

/-- What a session knows grows with its own moves only: by the write that it
    makes, or by the pasts of the versions that it takes in. -/
theorem known_succ {k : Nat} {m : Moment} (hm : H[k]? = some m) (who i : Nat) :
    Known H key who (k + 1) i ↔ Known H key who k i ∨ (m.move.who = who ∧
      ((i = k ∧ ∃ v, m.stamp? key = some v) ∨
      ∃ replies, m.read? key = some replies ∧ ∃ v ∈ versions replies,
        ∃ other l, Wrote H key other l v ∧ l < k ∧ Past H key i l)) := by
  constructor
  -- What is known now was written or taken in before this place, or here.
  · rintro (⟨hlt, v, hi⟩ | ⟨g, v, other, l, hgk, htook, hl, hlg, hpast⟩)
    · by_cases hik : i = k
      · subst hik
        rcases (wrote_at hm).mp hi with ⟨hwho, hv⟩
        exact .inr ⟨hwho, .inl ⟨rfl, v, hv⟩⟩
      · exact .inl (.inl ⟨by omega, v, hi⟩)
    · by_cases hg : g = k
      · subst hg
        rcases (took_at hm).mp htook with ⟨hwho, replies, hread, hv⟩
        exact .inr ⟨hwho, .inr ⟨replies, hread, v, hv, other, l, hl, hlg, hpast⟩⟩
      · exact .inl (.inr ⟨g, v, other, l, by omega, htook, hl, hlg, hpast⟩)
  · rintro ((⟨hlt, v, hi⟩ | ⟨g, v, other, l, hgk, htook, h⟩) | ⟨hwho, h⟩)
    · exact .inl ⟨Nat.lt_succ_of_lt hlt, v, hi⟩
    · exact .inr ⟨g, v, other, l, Nat.lt_succ_of_lt hgk, htook, h⟩
    · rcases h with ⟨rfl, v, hv⟩ | ⟨replies, hread, v, hv, other, l, hl, hlk, hpast⟩
      · exact .inl ⟨Nat.lt_succ_self _, v, (wrote_at hm).mpr ⟨hwho, hv⟩⟩
      · exact .inr ⟨k, v, other, l, Nat.lt_succ_self k,
          (took_at hm).mpr ⟨hwho, replies, hread, hv⟩, hl, hlk, hpast⟩

/-- By a read a session comes to know the pasts of all that it takes in. -/
theorem known_succ_read {k i : Nat} {m : Moment} (hm : H[k]? = some m)
    (hstamp : m.stamp? key = none) {replies : List (Endpoint × Option Version)}
    (hread : m.read? key = some replies) :
    Known H key m.move.who (k + 1) i ↔ Known H key m.move.who k i ∨ ∃ v ∈ versions replies,
      ∃ other l, Wrote H key other l v ∧ l < k ∧ Past H key i l := by
  rw [known_succ hm, hread, hstamp]
  simp

end QuorumStore
