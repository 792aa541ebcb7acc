import QuorumStore.Configuration.Source
import QuorumStore.ParseError
import QuorumStore.Proofs.Json.Values

/-!
# Endpoints Read Back

Which texts write an endpoint, and that its own text is one of them.

A text writes an endpoint when it is the host, a colon and the port in digits,
behind a plus sign if it likes. The host must not be empty, and that is all
that is asked of it: the colons in it are no obstacle, since a numeral holds
none and so the colon in front of the port is the last. What is read is said by
that relation and by trimming, with nothing of the reader left in it.

The written form is such a text. Its last character is a digit, so trimming
takes nothing off its end; it takes nothing off its front either unless the
host begins with a blank, and a host that has been read does not. Two endpoints
are never written the same, whatever their hosts.

## Main definitions

* `Endpoint.Written`: The characters write the endpoint.
* `Endpoint.json`: The value that stands for an endpoint in a document.

## Theorems

* `Endpoint.written_iff`: A text is split where it was put together.
* `Endpoint.parse?_eq_some_iff`: What is read is what is written, but for blanks
  around it.
* `Endpoint.parse?_text`: The written form is read back.
* `Endpoint.text_injective`: Different endpoints are written differently.
* `Endpoint.endpoints?_write`: A list of endpoints in a document is read back.
* `Endpoint.parse_faithful`: Reading and writing endpoints is a codec.
-/

namespace QuorumStore

namespace Endpoint

/-- The characters are a host, a colon and a port. -/
def Written (cs : List Char) (e : Endpoint) : Prop :=
  e.host ≠ "" ∧ ∃ ds, (cs = e.host.toList ++ ':' :: ds ∨ cs = e.host.toList ++ ':' :: '+' :: ds) ∧
    Numeral.Writes ds e.port.toNat

/-- The value that stands for an endpoint in a document. -/
def json (e : Endpoint) : Json := .string e.text

/-- A port is a numeral below 65536, at times behind a plus sign. -/
theorem readPort?_eq_some_iff {cs : List Char} {p : UInt16} :
    readPort? cs = some p ↔ ∃ ds, (cs = ds ∨ cs = '+' :: ds) ∧ Numeral.Writes ds p.toNat := by
  rw [← Numeral.readPlus?_eq_some_iff, readPort?]
  cases Numeral.readPlus? 10 cs with
  | none => simp
  | some n =>
    have hp := p.toNat_lt
    by_cases hn : n < 65536
    · simp only [if_pos hn, Option.some.injEq]
      constructor
      · rintro rfl
        exact (Nat.mod_eq_of_lt hn).symm
      · rintro rfl
        exact UInt16.ofNat_toNat
    · simp only [if_neg hn, Option.some.injEq, reduceCtorEq, false_iff]
      omega

/-- There is no colon in a numeral. -/
theorem colon_notMem {ds : List Char} {n : Nat} (h : Numeral.Writes ds n) : ':' ∉ ds :=
  fun hmem => absurd (h.2.1 ':' hmem) (by decide)

/-- The last colon is the one in front of the port. -/
theorem written_iff {cs : List Char} {e : Endpoint} :
    Written cs e ↔ e.host ≠ "" ∧ ∃ port, splitLast? ':' cs = some (e.host.toList, port) ∧
      readPort? port = some e.port := by
  simp only [Written, splitLast?_eq_some_iff, readPort?_eq_some_iff]
  refine and_congr_right fun _ => ⟨?_, ?_⟩
  · rintro ⟨ds, rfl | rfl, hwrites⟩
    · exact ⟨ds, ⟨rfl, colon_notMem hwrites⟩, ds, .inl rfl, hwrites⟩
    · refine ⟨'+' :: ds, ⟨rfl, ?_⟩, ds, .inr rfl, hwrites⟩
      rw [List.mem_cons, not_or]
      exact ⟨by decide, colon_notMem hwrites⟩
  · rintro ⟨port, ⟨rfl, -⟩, ds, rfl | rfl, hwrites⟩
    · exact ⟨port, .inl rfl, hwrites⟩
    · exact ⟨ds, .inr rfl, hwrites⟩

/-- What is read is what is written, but for blanks around it. -/
theorem parse?_eq_some_iff {s : String} {e : Endpoint} :
    parse? s = some e ↔ Written (Text.trim s.toList) e := by
  rw [written_iff, parse?]
  constructor
  · intro h
    split at h
    · rename_i host port hsplit
      split at h
      · cases h
      · rename_i hhost
        obtain ⟨p, hport, rfl⟩ := Option.map_eq_some_iff.mp h
        rw [hsplit, String.toList_ofList]
        refine ⟨fun hempty => hhost ?_, port, rfl, hport⟩
        simpa [← String.toList_inj] using hempty
    · cases h
  · rintro ⟨hhost, port, hsplit, hport⟩
    have hne : ¬ e.host.toList.isEmpty = true := by
      rw [List.isEmpty_iff, String.toList_eq_nil_iff]
      exact hhost
    rw [hsplit]
    simp only [if_neg hne]
    rw [hport, Option.map_some, String.ofList_toList]

theorem toList_text (e : Endpoint) :
    e.text.toList = e.host.toList ++ ':' :: Numeral.digits e.port.toNat := by
  rw [text, String.toList_append, String.toList_ofList]

/-- Different endpoints are written differently. -/
theorem text_injective {e f : Endpoint} (h : e.text = f.text) : e = f := by
  -- Both texts are split at the same colon.
  have hsplit : ∀ g : Endpoint, splitLast? ':' g.text.toList =
      some (g.host.toList, Numeral.digits g.port.toNat) := fun g =>
    splitLast?_eq_some_iff.mpr ⟨toList_text g, colon_notMem (Numeral.writes_digits _)⟩
  have hparts := (hsplit e).symm.trans ((congrArg _ (congrArg _ h)).trans (hsplit f))
  rw [Option.some.injEq, Prod.mk.injEq] at hparts
  have hhost := String.toList_inj.mp hparts.1
  have hport := UInt16.toNat.inj (Numeral.digits_injective hparts.2)
  cases e
  cases f
  cases hhost
  cases hport
  rfl

/-- Trimming leaves a text that begins with no blank and ends in a digit. -/
theorem trim_text {e : Endpoint} (hhost : e.host ≠ "")
    (hhead : ∀ c ∈ e.host.toList.head?, Text.isBlank c = false) :
    Text.trim e.text.toList = e.text.toList := by
  rw [Text.trim_eq_iff]
  refine ⟨⟨[], [], by simp, nofun, nofun⟩, ?_, ?_⟩
  · intro c hc
    cases hchars : e.host.toList with
    | nil => exact absurd (String.toList_eq_nil_iff.mp hchars) hhost
    | cons d ds =>
      rw [toList_text, hchars] at hc
      exact hhead c (hchars ▸ hc)
  · -- The last character is one of the port's.
    intro c hc
    have hne := Numeral.digits_ne_nil e.port.toNat
    rw [toList_text, ← List.singleton_append, ← List.append_assoc, List.getLast?_append,
      List.getLast?_eq_some_getLast hne, Option.some_or, Option.mem_some_iff] at hc
    exact Text.isBlank_of_isDigit (Numeral.isDigit_of_mem_digits (hc ▸ List.getLast_mem hne))

/-- The written form is read back, unless its host is empty or begins with a
    blank. -/
theorem parse?_text {e : Endpoint} (hhost : e.host ≠ "")
    (hhead : ∀ c ∈ e.host.toList.head?, Text.isBlank c = false) : parse? e.text = some e := by
  rw [parse?_eq_some_iff, trim_text hhost hhead]
  exact ⟨hhost, _, .inl (toList_text e), Numeral.writes_digits _⟩

/-- What has been read is written in a form that can be read again. -/
theorem parse?_text_of_parse? {s : String} {e : Endpoint} (h : parse? s = some e) :
    parse? e.text = some e := by
  obtain ⟨hhost, ds, htrim, -⟩ := parse?_eq_some_iff.mp h
  have hfront := Text.trim_eq_iff.mp (rfl : Text.trim s.toList = Text.trim s.toList)
  refine parse?_text hhost fun c hc => hfront.2.1 c ?_
  -- The trimmed text began with the host.
  rcases htrim with htrim | htrim <;> rw [htrim, List.head?_append, hc] <;> rfl

theorem parse_eq_ok_iff {s : String} {e : Endpoint} : parse s = .ok e ↔ parse? s = some e := by
  unfold parse
  cases parse? s <;> simp

/-- A value of a document that stands for an endpoint is read back. -/
theorem parse?_json {e : Endpoint} (h : parse? e.text = some e) :
    ((Json.parse? (Json.write e.json)).bind Json.string?).bind parse? = some e := by
  have hread : Json.parse? (Json.write e.json) = some e.json :=
    Json.parse?_write (Json.fits_string _ _)
  rw [hread]
  exact h

/-- A list of endpoints in a document is read back. -/
theorem endpoints?_write {es : List Endpoint} (h : ∀ e ∈ es, parse? e.text = some e) :
    (Json.parse? (Json.write (.array (es.map json)))).bind Configuration.jsonSource.endpoints? =
      some es := by
  have hfits : (Json.array (es.map json)).Fits Json.depthLimit := by
    intro j hj
    obtain ⟨e, -, rfl⟩ := List.mem_map.mp hj
    exact Json.fits_string _ _
  rw [Json.parse?_write hfits]
  change (es.map json).mapM (fun item => item.string?.bind parse?) = some es
  clear hfits
  induction es with
  | nil => rfl
  | cons e es ih =>
    rw [List.map_cons, List.mapM_cons, ih fun f hf => h f (List.mem_cons_of_mem e hf)]
    rw [show e.json.string?.bind parse? = some e from h e List.mem_cons_self]
    rfl

/-- Reading takes the texts that write an endpoint and refuses all others, which
    it quotes as they were. What has been written is read again if the host is
    not empty and begins with no blank, and then endpoints that have been read
    come through a document unchanged as well. Different endpoints are written
    differently. -/
theorem parse_faithful :
    (∀ s e, parse s = .ok e ↔ Written (Text.trim s.toList) e) ∧
    (∀ s, (∀ e, ¬ Written (Text.trim s.toList) e) → parse s = .error (.endpoint s) ∧
      (ParseError.endpoint s).message = "invalid endpoint '" ++ s ++ "', expected host:port") ∧
    (∀ host port, host ≠ "" → (∀ c ∈ host.toList.head?, Text.isBlank c = false) →
      parse (text ⟨host, port⟩) = .ok ⟨host, port⟩) ∧
    (∀ s e, parse s = .ok e → parse e.text = .ok e ∧
      ((Json.parse? (Json.write e.json)).bind Json.string?).bind parse? = some e) ∧
    (∀ es : List Endpoint, (∀ e ∈ es, ∃ s, parse s = .ok e) →
      (Json.parse? (Json.write (.array (es.map json)))).bind Configuration.jsonSource.endpoints? =
        some es) ∧
    ∀ e f : Endpoint, e.text = f.text ↔ e = f := by
  refine ⟨fun s e => parse_eq_ok_iff.trans parse?_eq_some_iff, ?_, ?_, ?_, ?_, ?_⟩
  · intro s hs
    have hnone : parse? s = none :=
      Option.eq_none_iff_forall_ne_some.mpr fun e h => hs e (parse?_eq_some_iff.mp h)
    exact ⟨by rw [parse, hnone], rfl⟩
  · exact fun host port hhost hhead => parse_eq_ok_iff.mpr (parse?_text hhost hhead)
  · intro s e h
    have htext := parse?_text_of_parse? (parse_eq_ok_iff.mp h)
    exact ⟨parse_eq_ok_iff.mpr htext, parse?_json htext⟩
  · intro es h
    refine endpoints?_write fun e he => ?_
    obtain ⟨s, hs⟩ := h e he
    exact parse?_text_of_parse? (parse_eq_ok_iff.mp hs)
  · exact fun e f => ⟨text_injective, congrArg text⟩

/-- A bracketed host is full of colons, its port may have a sign and zeros in
    front, and a no-break space is a blank. -/
theorem parse_faithful_bracketed :
    parse "\u00a0[::1]:+080\n" = .ok ⟨"[::1]", 80⟩ ∧
    parse (text ⟨"[::1]", 80⟩) = .ok ⟨"[::1]", 80⟩ ∧
    parse (text ⟨"db 1 ", 7001⟩) = .ok ⟨"db 1 ", 7001⟩ ∧
    text ⟨"a:1", 1⟩ ≠ text ⟨"a", 11⟩ := by
  obtain ⟨haccepted, -, htext, hagain, -, hdistinct⟩ := parse_faithful
  have hread : parse "\u00a0[::1]:+080\n" = .ok ⟨"[::1]", 80⟩ := by
    rw [haccepted]
    refine ⟨by decide, ['0', '8', '0'], .inr (by decide +kernel), nofun, ?_, ?_⟩
    · simp
    · decide +kernel
  have hfront : ∀ c ∈ "db 1 ".toList.head?, Text.isBlank c = false := by
    intro c hc
    cases hc
    rfl
  refine ⟨hread, (hagain _ _ hread).1, htext _ _ (by decide) hfront, ?_⟩
  rw [ne_eq, hdistinct]
  decide

end Endpoint

end QuorumStore
