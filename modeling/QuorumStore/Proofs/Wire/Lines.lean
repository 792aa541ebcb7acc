import QuorumStore.Proofs.Text.Utf8
import QuorumStore.Proofs.Wire.Messages
import QuorumStore.Wire.Lines

/-!
# Streams of Messages

What arrives of a stream of messages is what was sent.

Every line of a stream is a message or blank, and a line feed ends it. Lines
can be told apart before anything else is known about them, because no message
has a line feed in it: the writer escapes control characters, and in the bytes
of a text a line feed is a line feed. So the reader finds the lines that were
sent, makes a text of each, drops the carriage returns behind it, and parses
what the writer has put down. A line of which nothing is left is blank.

A stream is read in one piece with whatever comes after it, and the line feed
at its end is the only part of it that may be missing.

## Main definitions

* `Sent`: A line of a stream: a message or blank, before carriage returns.
* `Sent.bytes`: The bytes of a line.
* `stream`: The bytes of one line after another.

## Theorems

* `splitLines_append`: The first line feed ends the first line.
* `Sent.readLine_text`: A line is read back.
* `readMessages_append`: A stream is read in front of what comes after it.
* `readMessages_written`: Messages that are written are read back.
* `stream_received`: What arrives is what was sent.
-/

namespace QuorumStore

namespace Wire

/-- The byte that may stand before the end of a line. -/
def carriageReturn : UInt8 := 13

/-- A line of a stream: a message, or none, before so many carriage returns. -/
inductive Sent (α : Type) where
  | blank (returns : Nat)
  | message (a : α) (returns : Nat)

/-- The message of a line, if it has one. -/
def Sent.message? {α : Type} : Sent α → Option α
  | blank _ => none
  | message a _ => some a

/-- The bytes of a line. The carriage returns of a message go in front of the
    line feed that it is written with. -/
def Sent.bytes {α : Type} (toJson : α → Json) : Sent α → List UInt8
  | blank n => List.replicate n carriageReturn ++ [lineFeed]
  | message a n =>
    (writeMessage (toJson a)).dropLast ++ List.replicate n carriageReturn ++ [lineFeed]

/-- The bytes of one line after another. -/
def stream {α : Type} (toJson : α → Json) (lines : List (Sent α)) : List UInt8 :=
  lines.flatMap (Sent.bytes toJson)

/-- The first line feed ends the first line. -/
theorem splitLines_append {line : List UInt8} (h : lineFeed ∉ line) (rest : List UInt8) :
    splitLines (line ++ lineFeed :: rest) = line :: splitLines rest := by
  induction line with
  | nil => rw [List.nil_append, splitLines, if_pos rfl]
  | cons b bs ih =>
    rw [List.mem_cons, not_or] at h
    rw [List.cons_append, splitLines, if_neg (Ne.symm h.1), ih h.2]

/-- Bytes without a line feed are one line, or none if there are none. -/
theorem splitLines_of_not_mem {line : List UInt8} (h : lineFeed ∉ line) :
    splitLines line = if line = [] then [] else [line] := by
  induction line with
  | nil => rfl
  | cons b bs ih =>
    rw [List.mem_cons, not_or] at h
    rw [splitLines, if_neg (Ne.symm h.1), ih h.2, if_neg (List.cons_ne_nil b bs)]
    by_cases hbs : bs = [] <;> simp [hbs]

/-- The bytes of a message are those of its form, and a line feed. -/
theorem writeMessage_eq (j : Json) :
    writeMessage j = Text.encode (String.ofList j.write) ++ [lineFeed] := by
  rw [writeMessage, Text.encode_append]
  rfl

theorem encode_replicate (n : Nat) :
    Text.encode (String.ofList (List.replicate n '\r')) = List.replicate n carriageReturn := by
  rw [Text.encode_ofList]
  induction n with
  | zero => rfl
  | succ n ih =>
    rw [List.replicate_succ, List.flatMap_cons, ih]
    rfl

/-- A text that does not end in a line end keeps its end where carriage returns
    are dropped. -/
theorem dropLineEnds_of_getLast? {cs : List Char}
    (h : ∀ c, cs.getLast? = some c → c ≠ '\n' ∧ c ≠ '\r') (n : Nat) :
    dropLineEnds (cs ++ List.replicate n '\r') = cs := by
  have hkeep : cs.reverse.dropWhile (fun c => c == '\n' || c == '\r') = cs.reverse := by
    cases hcs : cs.reverse with
    | nil => rfl
    | cons c rest =>
      have hc := h c (by rw [← List.head?_reverse, hcs]; rfl)
      refine List.dropWhile_cons_of_neg ?_
      rw [Bool.or_eq_true, beq_iff_eq, beq_iff_eq, not_or]
      exact hc
  rw [dropLineEnds, List.reverse_append, List.dropWhile_append_of_pos, hkeep, List.reverse_reverse]
  intro c hc
  rw [List.mem_reverse] at hc
  rw [List.eq_of_mem_replicate hc]
  rfl

/-- A printable text keeps its end where carriage returns are dropped. -/
theorem dropLineEnds_append {cs : List Char} (h : Json.Printable cs) (n : Nat) :
    dropLineEnds (cs ++ List.replicate n '\r') = cs := by
  refine dropLineEnds_of_getLast? (fun c hc => ?_) n
  have hprint : ¬ c < ' ' := h c (List.mem_of_getLast? hc)
  constructor <;> rintro rfl <;> exact hprint (by decide)

namespace Sent

variable {α : Type} {toJson : α → Json} {parse : List Char → Except Json.Fault α}

/-- The text of a line. -/
def text (toJson : α → Json) : Sent α → List Char
  | blank n => List.replicate n '\r'
  | message a n => (toJson a).write ++ List.replicate n '\r'

theorem bytes_eq (x : Sent α) :
    x.bytes toJson = Text.encode (String.ofList (x.text toJson)) ++ [lineFeed] := by
  cases x with
  | blank n => rw [bytes, text, encode_replicate]
  | message a n =>
    rw [bytes, text, Text.encode_append, encode_replicate, writeMessage_eq, List.dropLast_concat]

/-- No line has a line feed in it but the one at its end. -/
theorem lineFeed_not_mem (x : Sent α) :
    lineFeed ∉ Text.encode (String.ofList (x.text toJson)) := by
  rw [Text.mem_encode_iff (by decide)]
  rintro ⟨c, hc, heq⟩
  have hfeed : c = '\n' := Char.toNat_inj.mp heq
  have hreturn : ∀ n, c ∉ List.replicate n '\r' := by
    intro n hmem
    rw [hfeed] at hmem
    exact absurd (List.eq_of_mem_replicate hmem) (by decide)
  cases x with
  | blank n => exact hreturn n hc
  | message a n =>
    rcases List.mem_append.mp hc with hc | hc
    · rw [hfeed] at hc
      exact Json.printable_write _ _ hc (by decide)
    · exact hreturn n hc

/-- A line is read back, if its message is parsed from what is written of
    it. -/
theorem readLine_text (x : Sent α)
    (hparse : ∀ a, x.message? = some a → parse (toJson a).write = .ok a) :
    readLine parse (Text.encode (String.ofList (x.text toJson))) = .ok x.message? := by
  rw [readLine, Text.decode?_encode]
  simp only [String.toList_ofList]
  cases x with
  | blank n =>
    have hnothing : Json.Printable [] := fun c hc => absurd hc List.not_mem_nil
    rw [text, ← List.nil_append (List.replicate n '\r'), dropLineEnds_append hnothing n]
    rfl
  | message a n =>
    rw [text, dropLineEnds_append (Json.printable_write _) n]
    rcases Json.write_head (toJson a) with ⟨c, cs, hwrite, -⟩
    have hok := hparse a rfl
    rw [hwrite] at hok ⊢
    simp only [hok]
    rfl

end Sent

section Streams

variable {α : Type} {toJson : α → Json} {parse : List Char → Except Json.Fault α}

/-- A line is read in front of what comes after it. -/
theorem readMessages_bytes (x : Sent α)
    (hparse : ∀ a, x.message? = some a → parse (toJson a).write = .ok a) (rest : List UInt8) :
    readMessages parse (x.bytes toJson ++ rest) =
      (x.message?.toList ++ (readMessages parse rest).1, (readMessages parse rest).2) := by
  rw [readMessages, x.bytes_eq, List.append_assoc, List.singleton_append,
    splitLines_append x.lineFeed_not_mem, readAll, x.readLine_text hparse]
  cases x.message? <;> rfl

/-- A stream is read in front of what comes after it. -/
theorem readMessages_append {lines : List (Sent α)}
    (hparse : ∀ a ∈ lines.filterMap Sent.message?, parse (toJson a).write = .ok a)
    (rest : List UInt8) :
    readMessages parse (stream toJson lines ++ rest) =
      (lines.filterMap Sent.message? ++ (readMessages parse rest).1,
        (readMessages parse rest).2) := by
  induction lines with
  | nil => rfl
  | cons x lines ih =>
    have hx : ∀ a, x.message? = some a → parse (toJson a).write = .ok a := fun a ha =>
      hparse a (List.mem_filterMap.mpr ⟨x, List.mem_cons_self, ha⟩)
    have hrest := ih fun a ha => by
      rcases List.mem_filterMap.mp ha with ⟨y, hy, hya⟩
      exact hparse a (List.mem_filterMap.mpr ⟨y, List.mem_cons_of_mem _ hy, hya⟩)
    rw [stream, List.flatMap_cons, List.append_assoc, readMessages_bytes x hx, ← stream, hrest]
    cases hm : x.message? <;> simp [hm]

/-- A line is read without its line feed. -/
theorem readMessages_dropLast (x : Sent α)
    (hparse : ∀ a, x.message? = some a → parse (toJson a).write = .ok a) :
    readMessages parse (x.bytes toJson).dropLast = (x.message?.toList, none) := by
  rw [x.bytes_eq, List.dropLast_concat, readMessages, splitLines_of_not_mem x.lineFeed_not_mem]
  have hline := x.readLine_text hparse
  generalize Text.encode (String.ofList (x.text toJson)) = line at hline
  by_cases hempty : line = []
  · -- Nothing is left of a blank line without carriage returns, and nothing is read.
    have hblank : readLine parse [] = .ok none :=
      @Sent.readLine_text α toJson parse (.blank 0) nofun
    rw [hempty, hblank, Except.ok.injEq] at hline
    rw [if_pos hempty, ← hline]
    rfl
  · rw [if_neg hempty, readAll, hline]
    cases x.message? <;> rfl

/-- A stream of messages that can be parsed from what is written of them is
    read back, with the line feed at its end or without it. -/
theorem readMessages_stream {lines : List (Sent α)}
    (hparse : ∀ a ∈ lines.filterMap Sent.message?, parse (toJson a).write = .ok a) :
    readMessages parse (stream toJson lines) = (lines.filterMap Sent.message?, none) ∧
    readMessages parse (stream toJson lines).dropLast = (lines.filterMap Sent.message?, none) := by
  constructor
  · have hread := readMessages_append hparse []
    rw [List.append_nil] at hread
    rw [hread]
    exact congrArg (·, none) (List.append_nil _)
  · rcases List.eq_nil_or_concat lines with rfl | ⟨front, x, rfl⟩
    · rfl
    · rw [List.concat_eq_append, List.filterMap_append] at hparse ⊢
      have hlast : x.bytes toJson ≠ [] := by
        rw [x.bytes_eq]
        exact List.append_ne_nil_of_right_ne_nil _ (List.cons_ne_nil _ _)
      have hx : ∀ a, x.message? = some a → parse (toJson a).write = .ok a := fun a ha =>
        hparse a (List.mem_append_right _ (List.mem_filterMap.mpr ⟨x, List.mem_cons_self, ha⟩))
      rw [stream, List.flatMap_append, List.flatMap_singleton,
        List.dropLast_append_of_ne_nil hlast, ← stream,
        readMessages_append (fun a ha => hparse a (List.mem_append_left _ ha)),
        readMessages_dropLast x hx]
      cases hm : x.message? <;> simp [hm]

/-- A message is one line of a stream. -/
theorem stream_messages (as : List α) :
    stream toJson (as.map (Sent.message · 0)) = as.flatMap fun a => writeMessage (toJson a) := by
  rw [stream, List.flatMap_map]
  refine List.flatMap_congr fun a _ => ?_
  rw [Sent.bytes_eq, writeMessage_eq, Sent.text, List.replicate_zero, List.append_nil]

/-- Messages that are written one after another are read back. -/
theorem readMessages_written {as : List α} (hparse : ∀ a ∈ as, parse (toJson a).write = .ok a) :
    readMessages parse (as.flatMap fun a => writeMessage (toJson a)) = (as, none) := by
  have hmessages : (as.map (Sent.message · 0)).filterMap Sent.message? = as := by
    rw [List.filterMap_map]
    exact List.filterMap_some
  have hread := (@readMessages_stream α toJson parse (as.map (Sent.message · 0))
    (by rwa [hmessages])).1
  rwa [hmessages, stream_messages] at hread

end Streams

/-- What arrives of a stream of requests is what was sent, and so of responses.
    Any blank lines may stand between the messages, any carriage returns before
    the end of a line, and the line feed at the end of the stream may be
    missing. The messages are read to the last, every field as it was, and then
    the stream ends without an error. -/
theorem stream_received (requests : List (Sent Request)) (responses : List (Sent Response))
    (hrequests : ∀ r ∈ requests.filterMap Sent.message?, r.Sendable)
    (hresponses : ∀ r ∈ responses.filterMap Sent.message?, r.Sendable) :
    (readMessages Request.parse (stream Request.toJson requests) =
        (requests.filterMap Sent.message?, none) ∧
      readMessages Request.parse (stream Request.toJson requests).dropLast =
        (requests.filterMap Sent.message?, none)) ∧
    (readMessages Response.parse (stream Response.toJson responses) =
        (responses.filterMap Sent.message?, none) ∧
      readMessages Response.parse (stream Response.toJson responses).dropLast =
        (responses.filterMap Sent.message?, none)) :=
  ⟨readMessages_stream fun r hr => Request.parse_write (hrequests r hr),
    readMessages_stream fun r hr => Response.parse_write (hresponses r hr)⟩

/-- Two requests and a response of all that is unusual: controls, quotes and
    emoji in a text, a zero count under a key of another name, a last moment. -/
theorem stream_received_unusual :
    let vector : VersionVector :=
      ⟨Table.ofList [("key\n", ⟨"node\"", 0, ⟨Nat.pow 2 63 - 1, 999999999⟩⟩),
        ("😀", ⟨"", Nat.pow 2 64 - 1, ⟨0, 0⟩⟩)]⟩
    let put : Request := .put "k\r\n" (.live "\x01\u2028" vector) ""
    let requests : List (Sent Request) :=
      [.blank 0, .blank 2, .message put 1, .message .ping 0, .blank 1]
    let responses : List (Sent Response) :=
      [.message (.value (some (.deleted vector))) 0, .message (.stat .suspect 7) 3]
    (readMessages Request.parse (stream Request.toJson requests)).1 = [put, .ping] ∧
    (readMessages Response.parse (stream Response.toJson responses).dropLast).1 =
      [.value (some (.deleted vector)), .stat .suspect 7] := by
  intro vector put requests responses
  have hvector : vector.Sendable := by
    unfold VersionVector.Sendable VersionVector.Entry.Sendable Instant.Proper
    decide +kernel
  have hreceived := stream_received requests responses ?_ ?_
  · exact ⟨congrArg Prod.fst hreceived.1.1, congrArg Prod.fst hreceived.2.2⟩
  · intro r hr
    rcases List.mem_pair.mp (show r ∈ [put, .ping] from hr) with rfl | rfl
    · exact hvector
    · trivial
  · intro r hr
    rcases List.mem_pair.mp (show r ∈ [.value (some (.deleted vector)), .stat .suspect 7] from hr)
      with rfl | rfl
    · exact hvector
    · exact show 7 < Json.naturalLimit by decide

end Wire

end QuorumStore
