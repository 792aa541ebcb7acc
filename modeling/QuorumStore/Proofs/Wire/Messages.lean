import QuorumStore.Proofs.Wire.Forms

/-!
# Messages Read Back

Parsing a written message gives the message.

The reader looks for the tag of a message in passing and takes in every other
member whole. The writer puts the tag first, so the reader knows it from the
first member on, and what comes after is kept in the order in which it was
written. What is left then is a record of members, and each message is what its
own members hold.

## Main definitions

* `Request.Sendable`, `Response.Sendable`: Messages that can be read again.

## Theorems

* `Json.fieldsFrom_last`, `Json.fieldsFrom_cons`: The members of an object, one
  at a time.
* `Tagged.read_write`: A tagged object is read back.
* `Request.parse_write`, `Response.parse_write`: Messages are.
* `Request.sendable_of_parse`: A request that has been read can be sent.
-/

namespace QuorumStore

namespace Json

section Fields

variable {σ : Type} {field : String → σ → List Char → Except Fault (σ × List Char)} {st st' : σ}
  {key : String} {j : Json} {rest : List Char}

theorem expectColon_write (cs : List Char) : expectColon (':' :: cs) = .ok cs := rfl

theorem expectString_write (s : String) (rest : List Char) :
    expectString (write (string s) ++ rest) = .ok (s, rest) := by
  rw [expectString, skipBlanks_write, write, writeString, List.cons_append, List.append_assoc,
    List.singleton_append]
  simp only [readString?_written, orMalformed, bind, Except.bind, String.ofList_toList]

theorem expectFields_write (st : σ) (cs : List Char) :
    expectFields field st (writeString key ++ cs) =
      fieldsFrom field (writeString key ++ cs).length st (writeString key ++ cs) := rfl

/-- The last member of an object, and the brace behind it. -/
theorem fieldsFrom_last {room : Nat} {cs : List Char}
    (hfield : field key st cs = .ok (st', writeMembers [] ++ rest)) :
    fieldsFrom field (room + 1) st (writeString key ++ cs) = .ok (st', rest) := by
  rw [writeString, List.cons_append, List.append_assoc, List.singleton_append, fieldsFrom]
  simp only [readString?_written, orMalformed, bind, Except.bind, String.ofList_toList, hfield]
  rfl

/-- A member of an object, and the comma and the members behind it. -/
theorem fieldsFrom_cons {room : Nat} {cs : List Char} {k : String} {ms : List (String × Json)}
    (hfield : field key st cs = .ok (st', writeMembers ((k, j) :: ms) ++ rest)) :
    fieldsFrom field (room + 1) st (writeString key ++ cs) =
      fieldsFrom field room st'
        (writeString k ++ ':' :: (write j ++ (writeMembers ms ++ rest))) := by
  have htext : writeMembers ((k, j) :: ms) ++ rest =
      ',' :: (writeString k ++ ':' :: (write j ++ (writeMembers ms ++ rest))) := by
    rw [writeMembers, List.cons_append, List.append_assoc, List.cons_append, List.append_assoc]
  rw [writeString, List.cons_append, List.append_assoc, List.singleton_append, fieldsFrom]
  simp only [readString?_written, orMalformed, bind, Except.bind, String.ofList_toList, hfield,
    htext]
  rfl

end Fields

end Json

namespace Tagged

open Json (write writeString writeMembers Closes Fits)

variable {tagName tag : String} {known : String → Bool} {ms : List (String × Json)}

/-- The tag is read. -/
theorem readField_tag (hknown : known tag = true) (kept : List (String × Json))
    (rest : List Char) :
    readField tagName known tagName (none, kept) (':' :: (write (.string tag) ++ rest)) =
      .ok ((some tag, kept), rest) := by
  simp [readField, readTag, Json.expectColon_write, Json.expectString_write, bind, Except.bind,
    hknown]

/-- Any other member is kept. -/
theorem readField_other {key : String} {j : Json} (hkey : key ≠ tagName)
    (hfits : Fits (Json.depthLimit - 1) j) (st : Option String × List (String × Json))
    {rest : List Char} (hrest : Closes rest) :
    readField tagName known key st (':' :: (write j ++ rest)) =
      .ok ((st.1, st.2 ++ [(key, j)]), rest) := by
  simp [readField, hkey, Json.expectColon_write, Json.orMalformed, bind, Except.bind,
    Json.readValue?_write hfits hrest]

/-- Members without the tag are kept in the order in which they are written. -/
theorem fieldsFrom_kept {m : String × Json} {room : Nat} (hroom : ms.length < room)
    (hkeys : ∀ x ∈ m :: ms, x.1 ≠ tagName)
    (hfits : ∀ x ∈ m :: ms, Fits (Json.depthLimit - 1) x.2)
    (st : Option String × List (String × Json)) (rest : List Char) :
    Json.fieldsFrom (readField tagName known) room st
      (writeString m.1 ++ ':' :: (write m.2 ++ (writeMembers ms ++ rest))) =
      .ok ((st.1, st.2 ++ m :: ms), rest) := by
  induction ms generalizing m room st with
  | nil =>
    cases room with
    | zero => exact absurd hroom (Nat.not_lt_zero _)
    | succ room =>
      exact Json.fieldsFrom_last (readField_other (hkeys m List.mem_cons_self)
        (hfits m List.mem_cons_self) st (Json.closes_writeMembers [] rest))
  | cons x ms ih =>
    cases room with
    | zero => exact absurd hroom (Nat.not_lt_zero _)
    | succ room =>
      rw [Json.fieldsFrom_cons (readField_other (hkeys m List.mem_cons_self)
          (hfits m List.mem_cons_self) st (Json.closes_writeMembers (x :: ms) rest)),
        ih (Nat.lt_of_succ_lt_succ hroom) (fun y hy => hkeys y (List.mem_cons_of_mem _ hy))
          (fun y hy => hfits y (List.mem_cons_of_mem _ hy)), List.append_assoc]
      rfl

/-- An object with its tag in front is read back. -/
theorem read_write (hknown : known tag = true) (hkeys : ∀ m ∈ ms, m.1 ≠ tagName)
    (hfits : ∀ m ∈ ms, Fits (Json.depthLimit - 1) m.2) (rest : List Char) :
    read tagName known (write (.object ((tagName, .string tag) :: ms)) ++ rest) =
      .ok (⟨tag, .members ms⟩, rest) := by
  have hfields : Json.expectFields (readField tagName known) (none, [])
      (writeString tagName ++ ':' :: (write (.string tag) ++ (writeMembers ms ++ rest))) =
      .ok ((some tag, ms), rest) := by
    have hroom : ms.length < (writeString tagName ++
        ':' :: (write (.string tag) ++ (writeMembers ms ++ rest))).length := by
      have hlength := Json.length_lt_writeMembers ms
      rw [List.length_append, List.length_cons, List.length_append, List.length_append]
      omega
    rw [Json.expectFields_write]
    rcases Nat.exists_eq_add_of_lt hroom with ⟨extra, hextra⟩
    rw [hextra]
    rcases ms with _ | ⟨m, ms⟩
    · exact Json.fieldsFrom_last (readField_tag hknown [] _)
    · rw [Json.fieldsFrom_cons (readField_tag hknown [] _),
        fieldsFrom_kept (by rw [List.length_cons]; omega) hkeys hfits]
      rfl
  rw [read, Json.skipBlanks_write, write, List.cons_append, List.append_assoc, List.cons_append,
    List.append_assoc]
  simp only [hfields, bind, Except.bind]

/-- The message of a tagged object is parsed from what is written of it. -/
theorem parseAs_write {α : Type} {ofTagged? : Tagged → Option α} {a : α}
    (hknown : known tag = true) (hkeys : ∀ m ∈ ms, m.1 ≠ tagName)
    (hfits : ∀ m ∈ ms, Fits (Json.depthLimit - 1) m.2)
    (hmessage : ofTagged? ⟨tag, .members ms⟩ = some a) :
    parseAs tagName known ofTagged? (write (.object ((tagName, .string tag) :: ms))) = .ok a := by
  have hread := read_write hknown hkeys hfits []
  rw [List.append_nil] at hread
  rw [parseAs, hread]
  simp only [bind, Except.bind, hmessage]
  rfl

/-- A message that is parsed is one that a tagged record holds. -/
theorem exists_of_parseAs {α : Type} {ofTagged? : Tagged → Option α} {cs : List Char} {a : α}
    (h : parseAs tagName known ofTagged? cs = .ok a) : ∃ t, ofTagged? t = some a := by
  unfold parseAs at h
  cases hread : read tagName known cs with
  | error f =>
    rw [hread] at h
    cases h
  | ok p =>
    simp only [hread, bind, Except.bind] at h
    refine ⟨p.1, ?_⟩
    split at h
    · cases h
    · rename_i b hb
      by_cases hrest : (Json.skipBlanks p.2).isEmpty = true
      · rw [if_pos hrest] at h
        cases h
        exact hb
      · rw [if_neg hrest] at h
        cases h

theorem eq_of_unit? {α : Type} {a b : α} {body : Body} (h : unit? a body = some b) : b = a := by
  cases body with
  | members ms =>
    cases h
    rfl
  | items js =>
    cases (Option.ite_none_right_eq_some.mp h).2
    rfl

end Tagged

/-- What a request carries can be read again. -/
def Request.Sendable : Request → Prop
  | put _ version _ => version.Sendable
  | _ => True

/-- What a response carries can be read again. -/
def Response.Sendable : Response → Prop
  | value (some version) => version.Sendable
  | stat _ keyCount => keyCount < Json.naturalLimit
  | _ => True

/-- A version is not too deep for a member of a message. -/
theorem Version.fits_member {v : Version} (h : v.Sendable) :
    v.toJson.Fits (Json.depthLimit - 1) := fits_toJson h 121

theorem Request.sendable_of_putOfFields? {key version writeId : Json} {r : Request}
    (h : putOfFields? key version writeId = some r) : r.Sendable := by
  rcases Option.bind_eq_some_iff.mp h with ⟨k, -, h⟩
  rcases Option.bind_eq_some_iff.mp h with ⟨v, hv, h⟩
  rcases Option.bind_eq_some_iff.mp h with ⟨w, -, h⟩
  cases h
  exact Version.sendable_of_ofJson? hv

theorem Request.sendable_of_ofTagged? {t : Tagged} {r : Request} (h : ofTagged? t = some r) :
    r.Sendable := by
  -- One case for each tag. Only a put carries anything that could be out of bounds.
  unfold ofTagged? at h
  split at h
  · rw [Tagged.eq_of_unit? h]
    trivial
  split at h
  · rw [Tagged.eq_of_unit? h]
    trivial
  split at h
  · split at h
    · rcases Option.bind_eq_some_iff.mp h with ⟨j, -, h⟩
      rcases Option.bind_eq_some_iff.mp h with ⟨key, -, h⟩
      cases h
      trivial
    · rcases Option.map_eq_some_iff.mp h with ⟨key, -, rfl⟩
      trivial
    · cases h
  split at h
  · split at h
    · rcases Option.bind_eq_some_iff.mp h with ⟨key, -, h⟩
      rcases Option.bind_eq_some_iff.mp h with ⟨version, -, h⟩
      rcases Option.bind_eq_some_iff.mp h with ⟨writeId, -, h⟩
      exact sendable_of_putOfFields? h
    · exact sendable_of_putOfFields? h
    · cases h
  · cases h

/-- A request that has been read can be sent. -/
theorem Request.sendable_of_parse {cs : List Char} {r : Request} (h : parse cs = .ok r) :
    r.Sendable := by
  rcases Tagged.exists_of_parseAs h with ⟨t, ht⟩
  exact sendable_of_ofTagged? ht

/-- A written request is read back. -/
theorem Request.parse_write {r : Request} (h : r.Sendable) : parse r.toJson.write = .ok r := by
  cases r with
  | ping => exact Tagged.parseAs_write (by decide) nofun nofun rfl
  | stat => exact Tagged.parseAs_write (by decide) nofun nofun rfl
  | get key =>
    refine Tagged.parseAs_write (by decide) (by simp) (by simp [Json.fits_string]) ?_
    simp [ofTagged?, Json.member?, Json.field?, Json.string?]
  | put key version writeId =>
    refine Tagged.parseAs_write (by decide) (by simp)
      (by simp [Json.fits_string, Version.fits_member h]) ?_
    simp [ofTagged?, putOfFields?, Json.member?, Json.field?, Json.string?,
      Version.ofJson?_toJson h]

theorem Status.ofName?_name (s : Status) : ofName? s.name = some s := by
  cases s <;> decide

/-- A version is not taken for the null that stands for none. -/
theorem Response.version?_toJson {v : Version} (h : v.Sendable) :
    version? v.toJson = some (some v) := by
  rw [version?, Version.ofJson?_toJson h]
  · rfl
  · nofun

/-- A written response is read back. -/
theorem Response.parse_write {r : Response} (h : r.Sendable) : parse r.toJson.write = .ok r := by
  cases r with
  | pong => exact Tagged.parseAs_write (by decide) nofun nofun rfl
  | ack => exact Tagged.parseAs_write (by decide) nofun nofun rfl
  | value version =>
    cases version with
    | none =>
      refine Tagged.parseAs_write (by decide) (by simp) (by simp [Json.fits_null]) ?_
      simp [ofTagged?, version?, Json.field?]
    | some v =>
      refine Tagged.parseAs_write (by decide) (by simp) (by simp [Version.fits_member h]) ?_
      simp [ofTagged?, Json.field?, version?_toJson h]
  | stat status n =>
    have hcount : (Json.natural n).natural? Json.naturalLimit = some n := if_pos h
    refine Tagged.parseAs_write (by decide) (by simp)
      (by simp [Json.fits_string, Json.fits_natural h]) ?_
    simp [ofTagged?, statOfFields?, Json.member?, Json.field?, Json.choice?, hcount,
      Status.ofName?_name]
  | error message =>
    refine Tagged.parseAs_write (by decide) (by simp) (by simp [Json.fits_string]) ?_
    simp [ofTagged?, Json.member?, Json.field?, Json.string?]

end QuorumStore
