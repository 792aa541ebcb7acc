import QuorumStore.Proofs.Json.Tokens

/-!
# Values Read Back

Reading a value undoes writing it.

The reader takes a value off the front of a text and leaves the rest, so the
rest goes along in every statement here. All that matters about it is that it
does not go on with the value: nothing, a comma or a closing bracket may
follow, and in what the writer puts down nothing else does.

The reader nests to a depth that it is given, and so does the induction: what
can be read of the items of an array is known at one level less. At one level
the items are read one after another, each with the rest of the array behind
it. How much room the reader has for them is the length of the text, which is
always enough, since every item takes a character at least.

## Main definitions

* `Json.Fits`: A value that nests at most so deep, of numbers that have a
  value here.

## Theorems

* `Json.write_head`: What a written value starts with.
* `Json.readItems?_write`, `Json.readMembers?_write`: Items and members are
  read back.
* `Json.readValue?_write`, `Json.parse?_write`: Values are.
* `Json.printable_write`: A written value has no control characters.
-/

namespace QuorumStore

namespace Json

/-- The value nests at most so deep, and all of its numbers are naturals below
    2^64. -/
def Fits : Nat → Json → Prop
  | _, natural n => n < naturalLimit
  | _, number => False
  | 0, array _ => False
  | 0, object _ => False
  | depth + 1, array js => ∀ j ∈ js, Fits depth j
  | depth + 1, object ms => ∀ m ∈ ms, Fits depth m.2
  | _, _ => True

theorem fits_null (depth : Nat) : Fits depth null := by
  cases depth <;> trivial

theorem fits_bool (b : Bool) (depth : Nat) : Fits depth (bool b) := by
  cases depth <;> trivial

theorem fits_string (s : String) (depth : Nat) : Fits depth (string s) := by
  cases depth <;> trivial

theorem fits_natural {n : Nat} (h : n < naturalLimit) (depth : Nat) : Fits depth (natural n) := by
  cases depth <;> exact h

theorem closes_writeItems (js : List Json) (rest : List Char) :
    Closes (writeItems js ++ rest) := by
  cases js with
  | nil => exact .inr ⟨']', rest, rfl, .inr (.inl rfl)⟩
  | cons j js =>
    rw [writeItems, List.cons_append]
    exact .inr ⟨',', _, rfl, .inl rfl⟩

theorem closes_writeMembers (ms : List (String × Json)) (rest : List Char) :
    Closes (writeMembers ms ++ rest) := by
  cases ms with
  | nil => exact .inr ⟨'\x7d', rest, rfl, .inr (.inr rfl)⟩
  | cons m ms =>
    rw [writeMembers, List.cons_append]
    exact .inr ⟨',', _, rfl, .inl rfl⟩

/-- A written value starts with a character of its own: neither a blank nor
    one that closes something, nor, unless it is an array or an object, one that
    opens something. -/
theorem write_head (j : Json) : ∃ c cs, write j = c :: cs ∧ isSpace c = false ∧
    c ≠ ']' ∧ c ≠ '\x7d' ∧ (Fits 0 j → c ≠ '[' ∧ c ≠ '\x7b') := by
  cases j with
  | null => exact ⟨'n', _, rfl, by decide, by decide, by decide, fun _ => by decide⟩
  | bool b =>
    cases b <;> exact ⟨_, _, rfl, by decide, by decide, by decide, fun _ => by decide⟩
  | natural n =>
    rcases digits_eq_cons n with ⟨d, ds, hdigits, hd⟩
    have hother : ∀ c, isDigit c = false → d ≠ c := by
      rintro c hc rfl
      rw [hd] at hc
      cases hc
    refine ⟨d, ds, hdigits, ?_, hother _ rfl, hother _ rfl, fun _ => ⟨hother _ rfl, hother _ rfl⟩⟩
    simp [isSpace, hother ' ' rfl, hother '\n' rfl, hother '\t' rfl, hother '\r' rfl]
  | number => exact ⟨_, _, rfl, by decide, by decide, by decide, fun _ => by decide⟩
  | string s => exact ⟨'"', _, rfl, by decide, by decide, by decide, fun _ => by decide⟩
  | array js => cases js <;> exact ⟨'[', _, rfl, by decide, by decide, by decide, False.elim⟩
  | object ms =>
    rcases ms with _ | ⟨⟨k, j⟩, ms⟩ <;>
      exact ⟨_, _, rfl, by decide, by decide, by decide, False.elim⟩

theorem skipBlanks_write (j : Json) (rest : List Char) :
    skipBlanks (write j ++ rest) = write j ++ rest := by
  rcases write_head j with ⟨c, cs, hj, hc, -⟩
  rw [hj, List.cons_append, skipBlanks, List.dropWhile_cons_of_neg (by simp [hc])]

/-- There are at least as many characters as items. -/
theorem length_lt_writeItems (js : List Json) : js.length < (writeItems js).length := by
  induction js with
  | nil => decide
  | cons j js ih =>
    rw [writeItems, List.length_cons, List.length_cons, List.length_append]
    omega

theorem length_lt_writeMembers (ms : List (String × Json)) :
    ms.length < (writeMembers ms).length := by
  induction ms with
  | nil => decide
  | cons m ms ih =>
    rw [writeMembers, List.length_cons, List.length_cons, List.length_append, List.length_cons,
      List.length_append]
    omega

section Reading

variable {item : List Char → Option (Json × List Char)}

/-- Items that can be read back one by one can be read back in a row. -/
theorem readItems?_write {js : List Json} {j : Json} {room : Nat} (hroom : js.length < room)
    (hitem : ∀ x ∈ j :: js, ∀ rest, Closes rest → item (write x ++ rest) = some (x, rest))
    (rest : List Char) :
    readItems? item room (write j ++ (writeItems js ++ rest)) = some (j :: js, rest) := by
  induction js generalizing j room with
  | nil =>
    cases room with
    | zero => exact absurd hroom (Nat.not_lt_zero _)
    | succ room =>
      rw [readItems?, skipBlanks_write,
        hitem j List.mem_cons_self _ (closes_writeItems [] rest)]
      rfl
  | cons x js ih =>
    cases room with
    | zero => exact absurd hroom (Nat.not_lt_zero _)
    | succ room =>
      have hrest := ih (j := x) (Nat.lt_of_succ_lt_succ hroom)
        fun y hy => hitem y (List.mem_cons_of_mem _ hy)
      rw [readItems?, skipBlanks_write,
        hitem j List.mem_cons_self _ (closes_writeItems (x :: js) rest)]
      rw [writeItems, List.cons_append, List.append_assoc]
      simp only [show ∀ cs, skipBlanks (',' :: cs) = ',' :: cs from fun cs => rfl, hrest,
        Option.map_some]

/-- A key that is written, up to the value behind it. -/
theorem readMember?_write {key : String} {j : Json} {rest : List Char}
    (hitem : item (write j ++ rest) = some (j, rest)) :
    readMember? true item (writeString key ++ ':' :: (write j ++ rest)) =
      some ((key, j), rest) := by
  rw [readMember?, writeString, List.cons_append, List.append_assoc, List.singleton_append]
  simp only [show ∀ cs, skipBlanks ('"' :: cs) = '"' :: cs from fun cs => rfl,
    readString?_written, show ∀ cs, skipBlanks (':' :: cs) = ':' :: cs from fun cs => rfl,
    skipBlanks_write, hitem, Option.map_some, String.ofList_toList]

/-- Members that can be read back one by one can be read back in a row. -/
theorem readMembers?_write {ms : List (String × Json)} {m : String × Json} {room : Nat}
    (hroom : ms.length < room)
    (hitem : ∀ x ∈ m :: ms, ∀ rest, Closes rest → item (write x.2 ++ rest) = some (x.2, rest))
    (rest : List Char) :
    readMembers? true item room
      (writeString m.1 ++ ':' :: (write m.2 ++ (writeMembers ms ++ rest))) =
      some (m :: ms, rest) := by
  induction ms generalizing m room with
  | nil =>
    cases room with
    | zero => exact absurd hroom (Nat.not_lt_zero _)
    | succ room =>
      rw [readMembers?,
        readMember?_write (hitem m List.mem_cons_self _ (closes_writeMembers [] rest))]
      rfl
  | cons x ms ih =>
    cases room with
    | zero => exact absurd hroom (Nat.not_lt_zero _)
    | succ room =>
      have hrest := ih (m := x) (Nat.lt_of_succ_lt_succ hroom)
        fun y hy => hitem y (List.mem_cons_of_mem _ hy)
      rw [readMembers?,
        readMember?_write (hitem m List.mem_cons_self _ (closes_writeMembers (x :: ms) rest)),
        writeMembers]
      simp only [List.cons_append, List.append_assoc,
        show ∀ cs, skipBlanks (',' :: cs) = ',' :: cs from fun cs => rfl, hrest, Option.map_some]

/-- An array is read back behind its bracket. -/
theorem readArray?_write {js : List Json}
    (hitem : ∀ x ∈ js, ∀ rest, Closes rest → item (write x ++ rest) = some (x, rest))
    {rest cs : List Char} (h : write (array js) ++ rest = '[' :: cs) :
    readArray? item cs = some (js, rest) := by
  cases js with
  | nil =>
    cases h
    rfl
  | cons j js =>
    rw [write, List.cons_append, List.append_assoc, List.cons.injEq] at h
    rcases h with ⟨-, rfl⟩
    have hroom : js.length < (write j ++ (writeItems js ++ rest)).length := by
      have hlength := length_lt_writeItems js
      rw [List.length_append, List.length_append]
      omega
    have hitems := readItems?_write hroom hitem rest
    rcases write_head j with ⟨c, cs, hj, -, hclose, -⟩
    rw [readArray?, skipBlanks_write]
    rw [hj] at hitems ⊢
    split
    · rename_i heq
      exact absurd (List.cons.inj heq).1 hclose
    · exact hitems

/-- An object is read back behind its brace. -/
theorem readObject?_write {ms : List (String × Json)}
    (hitem : ∀ x ∈ ms, ∀ rest, Closes rest → item (write x.2 ++ rest) = some (x.2, rest))
    {rest cs : List Char} (h : write (object ms) ++ rest = '\x7b' :: cs) :
    readObject? true item cs = some (ms, rest) := by
  rcases ms with _ | ⟨⟨key, j⟩, ms⟩
  · cases h
    rfl
  · have hlength := length_lt_writeMembers ms
    rw [write, List.cons_append, List.append_assoc, List.cons_append, List.append_assoc,
      List.cons.injEq] at h
    rcases h with ⟨-, rfl⟩
    have hroom : ms.length <
        (writeString key ++ ':' :: (write j ++ (writeMembers ms ++ rest))).length := by
      rw [List.length_append, List.length_cons, List.length_append, List.length_append]
      omega
    exact readMembers?_write (m := (key, j)) hroom hitem rest

end Reading

/-- A value that is neither array nor object is read back. -/
theorem readScalar?_write {j : Json} (hfits : Fits 0 j) {rest : List Char} (hrest : Closes rest) :
    readScalar? true (write j ++ rest) = some (j, rest) := by
  cases j with
  | null => rfl
  | bool b => cases b <;> rfl
  | natural n =>
    have hnumber := readNumber?_digits hfits hrest
    rcases digits_eq_cons n with ⟨d, ds, hdigits, hd⟩
    rw [write]
    rw [hdigits] at hnumber ⊢
    have hother : ∀ c cs, d :: ds ++ rest = c :: cs → isDigit c = true := by
      intro c cs heq
      rw [← (List.cons.inj heq).1]
      exact hd
    -- None of the characters that the reader looks for is a digit.
    unfold readScalar?
    split
    · rename_i heq
      cases heq
    · rename_i heq
      exact absurd (hother _ _ heq) (by decide)
    · rename_i heq
      exact absurd (hother _ _ heq) (by decide)
    · rename_i heq
      exact absurd (hother _ _ heq) (by decide)
    · rename_i heq
      exact absurd (hother _ _ heq) (by decide)
    · exact hnumber
  | number => exact hfits.elim
  | string s =>
    rw [write, writeString, List.cons_append, List.append_assoc, List.singleton_append, readScalar?,
      readString?_written]
    simp
  | array js => exact hfits.elim
  | object ms => exact hfits.elim

/-- A value is read back, as deep as it nests. -/
theorem readValue?_write {depth : Nat} {j : Json} (hfits : Fits depth j) {rest : List Char}
    (hrest : Closes rest) : readValue? true depth (write j ++ rest) = some (j, rest) := by
  induction depth generalizing j rest with
  | zero =>
    rw [readValue?, skipBlanks_write]
    exact readScalar?_write hfits hrest
  | succ depth ih =>
    have hscalar : Fits 0 j →
        readValue? true (depth + 1) (write j ++ rest) = some (j, rest) := by
      intro hflat
      have hread := readScalar?_write hflat hrest
      rcases write_head j with ⟨c, cs, hj, -, -, -, hopens⟩
      rw [readValue?, skipBlanks_write]
      rw [hj] at hread ⊢
      split
      · rename_i heq
        exact absurd (List.cons.inj heq).1 (hopens hflat).1
      · rename_i heq
        exact absurd (List.cons.inj heq).1 (hopens hflat).2
      · exact hread
    cases j with
    | null => exact hscalar trivial
    | bool b => exact hscalar trivial
    | natural n => exact hscalar hfits
    | number => exact hfits.elim
    | string s => exact hscalar trivial
    | array js =>
      rw [readValue?, skipBlanks_write]
      have harray : ∃ cs, write (array js) ++ rest = '[' :: cs := by
        cases js <;> exact ⟨_, rfl⟩
      rcases harray with ⟨cs, hcs⟩
      rw [hcs]
      exact congrArg (Option.map fun p => (array p.1, p.2))
        (readArray?_write (fun x hx r hr => ih (hfits x hx) hr) hcs)
    | object ms =>
      rw [readValue?, skipBlanks_write]
      have hobject : ∃ cs, write (object ms) ++ rest = '\x7b' :: cs := by
        rcases ms with _ | ⟨⟨k, j⟩, ms⟩ <;> exact ⟨_, rfl⟩
      rcases hobject with ⟨cs, hcs⟩
      rw [hcs]
      exact congrArg (Option.map fun p => (object p.1, p.2))
        (readObject?_write (fun x hx r hr => ih (hfits x hx) hr) hcs)

/-- A text that is a written value is read back. -/
theorem parse?_write {j : Json} (hfits : Fits depthLimit j) : parse? (write j) = some j := by
  have hread := readValue?_write hfits (.inl rfl : Closes [])
  rw [List.append_nil] at hread
  rw [parse?, hread]
  rfl

/-- A text without control characters. -/
def Printable (cs : List Char) : Prop := ∀ c ∈ cs, ¬ c < ' '

theorem Printable.append {cs ds : List Char} (hcs : Printable cs) (hds : Printable ds) :
    Printable (cs ++ ds) := by
  intro c hc
  exact (List.mem_append.mp hc).elim (hcs c) (hds c)

theorem Printable.cons {c : Char} {cs : List Char} (hc : ¬ c < ' ') (hcs : Printable cs) :
    Printable (c :: cs) := by
  intro d hd
  rcases List.mem_cons.mp hd with rfl | hd
  · exact hc
  · exact hcs d hd

theorem printable_digits (n : Nat) : Printable (Numeral.digits n) := by
  intro c hc hcontrol
  have hdigit := isDigit_of_mem_digits hc
  rw [isDigit, Bool.and_eq_true, decide_eq_true_eq] at hdigit
  exact absurd (Nat.le_trans hdigit.1 (Nat.le_of_lt hcontrol)) (by decide)

theorem printable_writeString (s : String) : Printable (writeString s) := by
  refine .cons (by decide) (.append ?_ (.cons (by decide) nofun))
  intro c hc
  rcases List.mem_flatMap.mp hc with ⟨d, -, hd⟩
  exact not_control_of_mem_escape hd

theorem printable_of_all {cs : List Char} (h : cs.all (fun c => !decide (c < ' ')) = true) :
    Printable cs := by
  intro c hc
  have hall := List.all_eq_true.mp h c hc
  rwa [Bool.not_eq_true', decide_eq_false_iff_not] at hall

mutual

/-- A written value has no control characters in it. -/
theorem printable_write : ∀ j : Json, Printable (write j)
  | null => @printable_of_all "null".toList (by decide +kernel)
  | bool true => @printable_of_all "true".toList (by decide +kernel)
  | bool false => @printable_of_all "false".toList (by decide +kernel)
  | natural n => printable_digits n
  | number => .cons (by decide) nofun
  | string s => printable_writeString s
  | array [] => .cons (by decide) (.cons (by decide) nofun)
  | array (j :: js) => .cons (by decide) ((printable_write j).append (printable_writeItems js))
  | object [] => .cons (by decide) (.cons (by decide) nofun)
  | object ((k, j) :: ms) => .cons (by decide) ((printable_writeString k).append
      (.cons (by decide) ((printable_write j).append (printable_writeMembers ms))))

theorem printable_writeItems : ∀ js : List Json, Printable (writeItems js)
  | [] => .cons (by decide) nofun
  | j :: js => .cons (by decide) ((printable_write j).append (printable_writeItems js))

theorem printable_writeMembers : ∀ ms : List (String × Json), Printable (writeMembers ms)
  | [] => .cons (by decide) nofun
  | (k, j) :: ms => .cons (by decide) ((printable_writeString k).append
      (.cons (by decide) ((printable_write j).append (printable_writeMembers ms))))

end

end Json

end QuorumStore
