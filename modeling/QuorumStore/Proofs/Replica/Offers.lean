import Mathlib.Data.List.Induction
import QuorumStore.Proofs.Cluster.Calls

/-!
# Offers to a Replica

What a replica keeps of the versions that it is offered, one after another.

A single offer never takes a replica back: what it holds afterwards is not
older than what it held, nor than what it was offered. A sequence of offers
can. A concurrent version takes the place of the one that is held, and with
that the replica has forgotten what it had; an old version that comes once
more, late, is now concurrent too and takes the place in its turn.

That is the only way back. `not_older_iff` says so of every version that is
offered: from then on the replica holds nothing older exactly if no older
version has taken the place of one concurrent with it. A step sideways and one
back sideways make two, so a replica that has stepped aside once at most is
safe (`not_lt_of_sidesteps`).

## Main definitions

* `Store.putAll`: The store after a sequence of offers.
* `Store.sidesteps`: How many offers take the place of a concurrent version.

## Theorems

* `Store.putAll_append`: A sequence of offers in two parts.
* `Store.put_cases`: What one offer makes of the version of a key.
* `Store.not_lt_of_sidesteps`: One step aside does not lead back.
* `Store.not_lt_iff`: When a replica goes back behind a vector.
* `Store.not_older_iff`: When it goes back behind what it was offered.
* `Store.put_stale`: It can.
-/

namespace QuorumStore

namespace Store

variable {s : Store} {key : String} {current : Version}

/-- The store after a sequence of offers, each of a version of a key. -/
def putAll (s : Store) (offers : List (String × Version)) : Store :=
  offers.foldl (fun s o => s.put o.1 o.2) s

theorem putAll_cons (s : Store) (o : String × Version) (os : List (String × Version)) :
    s.putAll (o :: os) = (s.put o.1 o.2).putAll os := rfl

theorem putAll_append (s : Store) (os ps : List (String × Version)) :
    s.putAll (os ++ ps) = (s.putAll os).putAll ps := List.foldl_append

/-- An offer takes the place of a concurrent version of the key. -/
def sidestep (s : Store) (key : String) (o : String × Version) : Bool :=
  o.1 == key && (s.get? key).any fun current => o.2.vector.compare current.vector == .concurrent

/-- How many of some offers take the place of a concurrent version of the
    key. -/
def sidesteps (s : Store) (key : String) : List (String × Version) → Nat
  | [] => 0
  | o :: os => (if s.sidestep key o then 1 else 0) + (s.put o.1 o.2).sidesteps key os

theorem sidestep_iff (hheld : s.get? key = some current) (o : String × Version) :
    s.sidestep key o = true ↔
      o.1 = key ∧ ¬ o.2.vector ≤ current.vector ∧ ¬ current.vector ≤ o.2.vector := by
  rw [sidestep, hheld, Option.any_some, Bool.and_eq_true, beq_iff_eq, beq_iff_eq,
    VersionVector.compare_eq_concurrent_iff]

/-- An offer leaves the version of a key as it is, or takes its place: as a
    newer version, or as a concurrent one. -/
theorem put_cases (hheld : s.get? key = some current) (o : String × Version) :
    ((s.put o.1 o.2).get? key = some current ∧ s.sidestep key o = false) ∨
    (o.1 = key ∧ (s.put o.1 o.2).get? key = some o.2 ∧ current.vector < o.2.vector ∧
      s.sidestep key o = false) ∨
    ((s.put o.1 o.2).get? key = some o.2 ∧ s.sidestep key o = true) := by
  have hside := sidestep_iff hheld o
  rcases o with ⟨k, v⟩
  by_cases hk : k = key
  · subst hk
    have hself := s.get?_put_self k v
    cases haccepts : s.accepts k v with
    | false =>
      -- It is refused for lying below what is held.
      rcases accepts_eq_false_iff.mp haccepts with ⟨u, hu, hle⟩
      rw [hheld, Option.some.injEq] at hu
      rw [← hu] at hle
      rw [haccepts, if_neg Bool.false_ne_true, hheld] at hself
      exact .inl ⟨hself, Bool.eq_false_iff.mpr fun h => (hside.mp h).2.1 hle⟩
    | true =>
      have hnews : ¬ v.vector ≤ current.vector := fun hle =>
        absurd haccepts (Bool.eq_false_iff.mp (accepts_eq_false_iff.mpr ⟨current, hheld, hle⟩))
      rw [haccepts, if_pos rfl] at hself
      by_cases hle : current.vector ≤ v.vector
      · exact .inr (.inl ⟨rfl, hself, lt_of_le_not_ge hle hnews,
          Bool.eq_false_iff.mpr fun h => (hside.mp h).2.2 hle⟩)
      · exact .inr (.inr ⟨hself, hside.mpr ⟨rfl, hnews, hle⟩⟩)
  · refine .inl ⟨?_, Bool.eq_false_iff.mpr fun h => hk (hside.mp h).1⟩
    rw [get?_put_other s v (Ne.symm hk), hheld]

/-- Under a key that has a version there is one after any offers. -/
theorem exists_putAll (hheld : s.get? key = some current) (os : List (String × Version)) :
    ∃ u, (s.putAll os).get? key = some u := by
  induction os generalizing s current with
  | nil => exact ⟨current, hheld⟩
  | cons o os ih =>
    rw [putAll_cons]
    rcases put_cases hheld o with ⟨hput, -⟩ | ⟨-, hput, -⟩ | ⟨hput, -⟩ <;> exact ih hput

/-- Offers none of which steps aside take a key up. -/
theorem le_of_sidesteps_eq_zero (hheld : s.get? key = some current)
    {os : List (String × Version)} (hnone : s.sidesteps key os = 0) {u : Version}
    (hu : (s.putAll os).get? key = some u) : current.vector ≤ u.vector := by
  induction os generalizing s current with
  | nil =>
    rw [putAll, List.foldl_nil, hheld, Option.some.injEq] at hu
    rw [hu]
  | cons o os ih =>
    rw [putAll_cons] at hu
    rw [sidesteps] at hnone
    have hrest : (s.put o.1 o.2).sidesteps key os = 0 := by omega
    rcases put_cases hheld o with ⟨hput, -⟩ | ⟨-, hput, hlt, -⟩ | ⟨-, hside⟩
    · exact ih hput hrest hu
    · exact le_trans (le_of_lt hlt) (ih hput hrest hu)
    · rw [hside, if_pos rfl] at hnone
      omega

/-- Offers of which at most one steps aside do not take a key back. -/
theorem not_lt_of_sidesteps (hheld : s.get? key = some current)
    {os : List (String × Version)} (hone : s.sidesteps key os ≤ 1) {u : Version}
    (hu : (s.putAll os).get? key = some u) : ¬ u.vector < current.vector := by
  induction os generalizing s current with
  | nil =>
    rw [putAll, List.foldl_nil, hheld, Option.some.injEq] at hu
    rw [hu]
    exact lt_irrefl _
  | cons o os ih =>
    have hu' := hu
    rw [putAll_cons] at hu
    rw [sidesteps] at hone
    rcases put_cases hheld o with ⟨hput, hside⟩ | ⟨-, hput, hlt, hside⟩ | ⟨hput, hside⟩
    · exact ih hput (by omega) hu
    · exact fun hback => ih hput (by omega) hu (lt_trans hback hlt)
    · -- From the concurrent version on it only goes up, so it stays off to the side.
      rw [hside, if_pos rfl] at hone
      intro hback
      have hup := le_of_sidesteps_eq_zero hput (by omega) hu
      exact ((sidestep_iff hheld o).mp hside).2.1 (le_trans hup (le_of_lt hback))

/-- A replica that was offered a version holds nothing older from then on,
    exactly if no older version takes the place of a concurrent one. -/
theorem not_lt_iff (hheld : s.get? key = some current) {v : VersionVector}
    (hstart : ¬ current.vector < v) (os : List (String × Version)) :
    (∀ front, front <+: os → ∀ u, (s.putAll front).get? key = some u → ¬ u.vector < v) ↔
      ∀ front w back, os = front ++ (key, w) :: back → w.vector < v →
        (s.putAll front).sidestep key (key, w) = false := by
  constructor
  · rintro hnever front w back rfl hw
    rw [Bool.eq_false_iff]
    intro hside
    -- Right after that offer the older version is held.
    rcases exists_putAll hheld front with ⟨u, hu⟩
    have hput : (s.putAll (front ++ [(key, w)])).get? key = some w := by
      rw [putAll_append, putAll_cons]
      rcases put_cases hu (key, w) with ⟨-, hno⟩ | ⟨-, -, -, hno⟩ | ⟨hput, -⟩
      · rw [hside] at hno
        cases hno
      · rw [hside] at hno
        cases hno
      · exact hput
    exact hnever (front ++ [(key, w)]) ⟨back, by rw [← List.append_cons]⟩ w hput hw
  · intro hnone front hfront
    -- Going on by one offer at a time, each from a version that is not older.
    induction front using List.reverseRecOn with
    | nil =>
      intro u hu
      rw [putAll, List.foldl_nil, hheld, Option.some.injEq] at hu
      rw [← hu]
      exact hstart
    | append_singleton front o ih =>
      intro u hu
      have hbefore := ih ((List.prefix_append front [o]).trans hfront)
      rcases exists_putAll hheld front with ⟨x, hx⟩
      rw [putAll_append, putAll_cons, putAll, List.foldl_nil] at hu
      rcases put_cases hx o with ⟨hput, -⟩ | ⟨-, hput, hlt, -⟩ | ⟨hput, hside⟩
      · rw [hput] at hu
        cases hu
        exact hbefore _ hx
      · rw [hput] at hu
        cases hu
        exact fun hold => hbefore x hx (lt_trans hlt hold)
      · rw [hput] at hu
        cases hu
        intro hold
        rcases hfront with ⟨back, hback⟩
        have hkey := ((sidestep_iff hx o).mp hside).1
        have hno := hnone front o.2 back (by rw [← hback, ← hkey, List.append_assoc]; rfl) hold
        rw [← hkey] at hno hside
        rw [hside] at hno
        cases hno

/-- A replica that starts with nothing and is offered a version of a key has a
    version of it from then on. That one is never older than what was offered,
    exactly if no offer of an older version finds a concurrent one and takes
    its place. So it is not older while at most one offer has stepped aside. -/
theorem not_older_iff (before after : List (String × Version)) (key : String) (v : Version) :
    let s := empty.putAll (before ++ [(key, v)])
    (∀ front, front <+: after → ∃ u, (s.putAll front).get? key = some u) ∧
    ((∀ front, front <+: after → ∀ u, (s.putAll front).get? key = some u →
        u.vector.compare v.vector ≠ .older) ↔
      ∀ front w back, after = front ++ (key, w) :: back → w.vector.compare v.vector = .older →
        ∀ u, (s.putAll front).get? key = some u → w.vector.compare u.vector ≠ .concurrent) ∧
    (s.sidesteps key after ≤ 1 → ∀ u, (s.putAll after).get? key = some u →
      u.vector.compare v.vector ≠ .older) := by
  intro s
  -- Whether it takes the version or not, the replica has something that covers it.
  have hcovers : ∃ current, s.get? key = some current ∧ v.vector ≤ current.vector := by
    rcases (empty.putAll before).covers_put key v with ⟨current, hcurrent, hle, -⟩
    exact ⟨current, by rw [show s = _ from putAll_append _ _ _]; exact hcurrent, hle⟩
  rcases hcovers with ⟨current, hheld, hle⟩
  refine ⟨fun front _ => exists_putAll hheld front, ?_, fun hone u hu => ?_⟩
  · simp only [ne_eq, VersionVector.compare_eq_older_iff]
    rw [not_lt_iff hheld (not_lt_of_ge hle) after]
    refine forall_congr' fun front => forall_congr' fun w => forall_congr' fun back =>
      forall_congr' fun _ => forall_congr' fun _ => ?_
    rcases exists_putAll hheld front with ⟨x, hx⟩
    simp [sidestep, hx]
  · rw [ne_eq, VersionVector.compare_eq_older_iff]
    exact fun hback => not_lt_of_sidesteps hheld hone hu (lt_of_lt_of_le hback hle)

/-- Two versions of one node with a stranger between them: the older one comes
    last, finds the stranger, and takes its place. -/
theorem put_stale :
    let version (node : String) (count : Nat) : Version :=
      .live node (VersionVector.ofCounters ⟨0, 0⟩ [(node, count)])
    (empty.putAll [("k", version "a" 2), ("k", version "b" 1), ("k", version "a" 1)]).get? "k" =
        some (version "a" 1) ∧
      (version "a" 1).vector.compare (version "a" 2).vector = .older :=
  ⟨by decide +kernel, by decide +kernel⟩

end Store

end QuorumStore
