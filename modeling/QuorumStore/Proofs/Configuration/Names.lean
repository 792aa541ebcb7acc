import Mathlib
import QuorumStore.Configuration.File
import QuorumStore.Flags.Programs

/-!
# Names of Levels and Policies

Which texts name a level or a policy, in a file and on a command line.

A command line is lenient. Blanks around a name are dropped, a letter may stand
in either case, and a hyphen in a policy's name passes for the underscore. So
there is a relation between the characters of a text and those of a name, and a
text is understood when it spells the name in that relation (`Spells`). Both
readers fold the text and compare it with the names. `spells_iff` says once for
both that this decides the relation; all it takes is that folding leaves blanks
alone and that no name has any.

A file is not lenient at all. It takes the names as they stand, and those of
levels in small letters besides. So whatever a file understands the command
line understands alike, but not the other way round: of the texts that the
command line understands, the two agree on these few only.

## Main definitions

* `Text.SameLetter`: Two characters are the same but for their case.
* `Text.Spells`: A text spells a name, blanks around it aside.
* `Level.smallName`: The name of a level in small letters.
* `Policy.Passes`: What a character in a policy's name may be written as.

## Theorems

* `Text.spells_iff`: Trimming and folding decides what is spelled.
* `Level.ofFileName?_eq_some_iff`, `Policy.ofFileName?_eq_some_iff`: What names
  them in a file.
* `Level.parse_eq_ok_iff`, `Policy.parse_eq_ok_iff`: What names them on a
  command line.
* `Configuration.names_agree_iff`: When a file and a command line agree.
-/

namespace QuorumStore

namespace Text

/-- Two characters are the same, or one letter in two cases. -/
def SameLetter (c d : Char) : Prop := c = d ∨ c.toUpper = d ∨ c.toLower = d

/-- A text spells a name: between blanks it has the characters of the name,
    each written as one that passes for it. -/
def Spells (passes : Char → Char → Prop) (s name : String) : Prop :=
  ∃ left core right, s.toList = left ++ core ++ right ∧ (∀ c ∈ left, isBlank c = true) ∧
    (∀ c ∈ right, isBlank c = true) ∧ List.Forall₂ passes core name.toList

/-- What is folded to a capital is that letter, in either case. -/
theorem toUpper_eq_iff {c d : Char} (hd : d.toUpper = d) : c.toUpper = d ↔ SameLetter c d := by
  constructor
  · exact fun h => .inr (.inl h)
  · rintro (rfl | h | h)
    · exact hd
    · exact h
    · rw [← hd, ← h, Char.toUpper_toLower_eq_toUpper]

/-- What is folded to a small letter is that letter, in either case. -/
theorem toLower_eq_iff {c d : Char} (hd : d.toLower = d) : c.toLower = d ↔ SameLetter c d := by
  constructor
  · exact fun h => .inr (.inr h)
  · rintro (rfl | h | h)
    · exact hd
    · rw [← hd, ← h, Char.toLower_toUpper_eq_toLower]
    · exact h

/-- No letter is blank. -/
theorem isAlpha_of_isBlank {c : Char} (h : isBlank c = true) : c.isAlpha = false := by
  rw [Bool.eq_false_iff]
  intro halpha
  simp only [Char.isAlpha, Char.isUpper, Char.isLower, Bool.or_eq_true, Bool.and_eq_true,
    decide_eq_true_eq, ge_iff_le, UInt32.le_iff_toNat_le] at halpha
  simp [isBlank, blankRanges] at h
  change (65 ≤ c.toNat ∧ c.toNat ≤ 90) ∨ (97 ≤ c.toNat ∧ c.toNat ≤ 122) at halpha
  omega

/-- A blank has one case only. -/
theorem toUpper_of_isBlank {c : Char} (h : isBlank c = true) : c.toUpper = c := by
  refine Char.toUpper_eq_of_not_isLower fun hlower => ?_
  have halpha := isAlpha_of_isBlank h
  rw [Char.isAlpha, hlower, Bool.or_true] at halpha
  cases halpha

theorem toLower_of_isBlank {c : Char} (h : isBlank c = true) : c.toLower = c := by
  refine Char.toLower_eq_of_not_isUpper fun hupper => ?_
  have halpha := isAlpha_of_isBlank h
  rw [Char.isAlpha, hupper, Bool.true_or] at halpha
  cases halpha

/-- A list has another as its image where each character is sent to its
    counterpart. -/
theorem map_eq_iff_forall₂ {passes : Char → Char → Prop} {fold : Char → Char}
    {cs ds : List Char} (h : ∀ c, ∀ d ∈ ds, fold c = d ↔ passes c d) :
    cs.map fold = ds ↔ List.Forall₂ passes cs ds := by
  rw [← List.forall₂_eq_eq_eq, List.forall₂_map_left_iff, List.forall₂_iff_zip,
    List.forall₂_iff_zip]
  refine and_congr_right fun _ => ⟨fun hall c d hmem => ?_, fun hall c d hmem => ?_⟩
  · exact (h c d (List.of_mem_zip hmem).2).mp (hall hmem)
  · exact (h c d (List.of_mem_zip hmem).2).mpr (hall hmem)

/-- Trimming a text and folding its characters decides whether it spells a
    name, if the name has no blank and folding leaves blanks as they are. -/
theorem spells_iff {passes : Char → Char → Prop} {fold : Char → Char} {s name : String}
    (hfold : ∀ c, ∀ d ∈ name.toList, fold c = d ↔ passes c d)
    (hblank : ∀ c, isBlank c = true → fold c = c)
    (hname : ∀ d ∈ name.toList, isBlank d = false) :
    String.ofList ((trim s.toList).map fold) = name ↔ Spells passes s name := by
  rw [← String.toList_inj, String.toList_ofList, map_eq_iff_forall₂ hfold]
  constructor
  · intro hcore
    rcases (trim_eq_iff.mp rfl).1 with ⟨left, right, hs, hleft, hright⟩
    exact ⟨left, trim s.toList, right, hs, hleft, hright, hcore⟩
  · rintro ⟨left, core, right, hs, hleft, hright, hcore⟩
    -- A blank would stand for itself in the name.
    have hsolid : ∀ c ∈ core, isBlank c = false := by
      intro c hc
      rw [Bool.eq_false_iff]
      intro hb
      have hmem := List.mem_map_of_mem (f := fold) hc
      rw [(map_eq_iff_forall₂ hfold).mpr hcore, hblank c hb] at hmem
      exact Bool.eq_false_iff.mp (hname c hmem) hb
    have htrim : trim s.toList = core := trim_eq_iff.mpr
      ⟨⟨left, right, hs, hleft, hright⟩, fun c hc => hsolid c (List.mem_of_mem_head? hc),
        fun c hc => hsolid c (List.mem_of_mem_getLast? hc)⟩
    rwa [htrim]

end Text

namespace Level

/-- The name of a level in small letters. -/
def smallName (l : Level) : String := String.ofList (l.name.toList.map Char.toLower)

theorem ofName?_eq_some_iff {s : String} {l : Level} : ofName? s = some l ↔ s = l.name := by
  unfold ofName?
  cases l <;> simp only [name] <;> split_ifs <;> simp_all

/-- A file names a level in capitals or in small letters. -/
theorem ofFileName?_eq_some_iff {s : String} {l : Level} :
    ofFileName? s = some l ↔ s = l.name ∨ s = l.smallName := by
  have hone : one.smallName = "one" := rfl
  have hquorum : quorum.smallName = "quorum" := rfl
  have hall : all.smallName = "all" := rfl
  unfold ofFileName?
  cases l <;> split_ifs <;> simp_all [ofName?_eq_some_iff, name]

/-- A command line names a level by spelling its name in any case. -/
theorem ofLenientName?_eq_some_iff {s : String} {l : Level} :
    ofLenientName? s = some l ↔ Text.Spells Text.SameLetter s l.name := by
  have hname : (l.name.toList.all fun d => d.toUpper == d && !Text.isBlank d) = true := by
    cases l <;> decide +kernel
  simp only [List.all_eq_true, Bool.and_eq_true, beq_iff_eq, Bool.not_eq_true'] at hname
  rw [ofLenientName?, ofName?_eq_some_iff, Text.spells_iff]
  · exact fun c d hd => Text.toUpper_eq_iff (hname d hd).1
  · exact fun c => Text.toUpper_of_isBlank
  · exact fun d hd => (hname d hd).2

theorem parse_eq_ok_iff {s : String} {l : Level} :
    parse s = .ok l ↔ Text.Spells Text.SameLetter s l.name := by
  rw [← ofLenientName?_eq_some_iff, parse]
  cases ofLenientName? s <;> simp

theorem parse_name (l : Level) : parse l.name = .ok l := by
  cases l <;> decide +kernel

theorem parse_smallName (l : Level) : parse l.smallName = .ok l := by
  cases l <;> decide +kernel

end Level

namespace Policy

/-- A character of a policy's name is written as itself, in either case; for
    an underscore a hyphen will do. -/
def Passes (c d : Char) : Prop := Text.SameLetter c d ∨ c = '-' ∧ d = '_'

/-- A file names a policy by its name. -/
theorem ofFileName?_eq_some_iff {s : String} {p : Policy} :
    ofFileName? s = some p ↔ s = p.name := by
  unfold ofFileName?
  cases p <;> simp only [name] <;> split_ifs <;> simp_all

/-- A command line names a policy by spelling its name in any case, with
    hyphens for underscores if it likes. -/
theorem ofLenientName?_eq_some_iff {s : String} {p : Policy} :
    ofLenientName? s = some p ↔ Text.Spells Passes s p.name := by
  have hname : (p.name.toList.all fun d =>
      d.toLower == d && !Text.isBlank d && d != '-') = true := by
    cases p <;> decide +kernel
  simp only [List.all_eq_true, Bool.and_eq_true, beq_iff_eq, Bool.not_eq_true', bne_iff_ne] at hname
  rw [ofLenientName?, ofFileName?_eq_some_iff, Text.spells_iff]
  · intro c d hd
    rw [Passes, ← Text.toLower_eq_iff (hname d hd).1.1]
    by_cases hc : c = '-'
    · -- A hyphen is no letter, and stands in no name.
      have hother : ¬ Char.toLower '-' = d := Ne.symm (hname d hd).2
      rw [hc, if_pos rfl, or_iff_right hother, eq_comm]
      exact (and_iff_right rfl).symm
    · rw [if_neg hc, or_iff_left fun h => hc h.1]
  · intro c hc
    rw [if_neg, Text.toLower_of_isBlank hc]
    rintro rfl
    cases hc
  · exact fun d hd => (hname d hd).1.2

theorem parse_eq_ok_iff {s : String} {p : Policy} :
    parse s = .ok p ↔ Text.Spells Passes s p.name := by
  rw [← ofLenientName?_eq_some_iff, parse]
  cases ofLenientName? s <;> simp

theorem parse_name (p : Policy) : parse p.name = .ok p := by
  cases p <;> decide +kernel

end Policy

namespace Configuration

/-- What a file understands and what the command line understands, for levels
    and for policies. Whatever the file understands the command line does too,
    and as the same. They agree on a text as the name of a level exactly if it
    does not spell that name or is the name in capitals or in small letters, and
    as the name of a policy exactly if it does not spell that name or is the
    name itself. The names that are written out are understood by both. -/
theorem names_agree_iff (s : String) (l : Level) (p : Policy) :
    ((jsonSource.level? (.string s) = some l ↔ s = l.name ∨ s = l.smallName) ∧
      (∀ document style, (yamlSource document).level? (.scalar s style none) =
        jsonSource.level? (.string s)) ∧
      (Level.parse s = .ok l ↔ Text.Spells Text.SameLetter s l.name) ∧
      (jsonSource.level? (.string s) = some l → Level.parse s = .ok l) ∧
      ((jsonSource.level? (.string s) = some l ↔ Level.parse s = .ok l) ↔
        (Text.Spells Text.SameLetter s l.name → s = l.name ∨ s = l.smallName)) ∧
      jsonSource.level? (.string l.name) = some l ∧ Level.parse l.name = .ok l) ∧
    (jsonSource.policy? (.string s) = some p ↔ s = p.name) ∧
    (∀ document style, (yamlSource document).policy? (.scalar s style none) =
      jsonSource.policy? (.string s)) ∧
    (Policy.parse s = .ok p ↔ Text.Spells Policy.Passes s p.name) ∧
    (jsonSource.policy? (.string s) = some p → Policy.parse s = .ok p) ∧
    ((jsonSource.policy? (.string s) = some p ↔ Policy.parse s = .ok p) ↔
      (Text.Spells Policy.Passes s p.name → s = p.name)) ∧
    jsonSource.policy? (.string p.name) = some p ∧ Policy.parse p.name = .ok p := by
  have hlevel : ∀ t, jsonSource.level? (.string t) = some l ↔ t = l.name ∨ t = l.smallName :=
    fun t => Level.ofFileName?_eq_some_iff
  have hpolicy : ∀ t, jsonSource.policy? (.string t) = some p ↔ t = p.name :=
    fun t => Policy.ofFileName?_eq_some_iff
  -- The names that a file takes are among those that flags take.
  have hlevelsub : s = l.name ∨ s = l.smallName → Level.parse s = .ok l := by
    rintro (rfl | rfl)
    · exact l.parse_name
    · exact l.parse_smallName
  have hpolicysub : s = p.name → Policy.parse s = .ok p := by
    rintro rfl
    exact p.parse_name
  refine ⟨⟨hlevel s, fun document style => rfl, Level.parse_eq_ok_iff,
    fun h => hlevelsub ((hlevel s).mp h), ?_, (hlevel _).mpr (.inl rfl), l.parse_name⟩,
    hpolicy s, fun document style => rfl, Policy.parse_eq_ok_iff,
    fun h => hpolicysub ((hpolicy s).mp h), ?_, (hpolicy _).mpr rfl, p.parse_name⟩
  · rw [hlevel, ← Level.parse_eq_ok_iff]
    exact ⟨fun h => h.mpr, fun h => ⟨hlevelsub, h⟩⟩
  · rw [hpolicy, ← Policy.parse_eq_ok_iff]
    exact ⟨fun h => h.mpr, fun h => ⟨hpolicysub, h⟩⟩

/-- A level with a capital in front, and a policy with a hyphen. Flags take
    both, and a file with either is refused. -/
theorem names_disagree :
    (ClientFlags.read ["--rl=Quorum"]).toOption.map (·.readLevel) = some (some .quorum) ∧
    ClientConfig.ofText "n" "read_level: Quorum" = .error .shape ∧
    Policy.parse "highest-node" = .ok .highestNode ∧
    ClientConfig.ofText "n" "conflict_policy: highest-node" = .error .shape ∧
    ¬ (∀ (s : String) (l : Level),
      jsonSource.level? (.string s) = some l ↔ Level.parse s = .ok l) ∧
    ¬ ∀ (s : String) (p : Policy),
      jsonSource.policy? (.string s) = some p ↔ Policy.parse s = .ok p := by
  have hpolicy : Policy.parse "highest-node" = .ok .highestNode := by decide +kernel
  refine ⟨by decide +kernel, by decide +kernel, hpolicy, by decide +kernel, fun h => ?_,
    fun h => ?_⟩
  · have hlevel : Level.parse "Quorum" = .ok .quorum := by decide +kernel
    exact absurd ((h "Quorum" .quorum).mpr hlevel) (by decide +kernel)
  · exact absurd ((h "highest-node" .highestNode).mpr hpolicy) (by decide +kernel)

end Configuration

end QuorumStore
