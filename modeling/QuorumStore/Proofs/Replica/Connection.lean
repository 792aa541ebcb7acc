import Mathlib.Data.List.DropRight
import QuorumStore.Proofs.Wire.Lines
import QuorumStore.Replica.Connection

/-!
# Conversations

What a replica says on a connection, whatever is sent to it.

The bytes that arrive on a connection are lines, each ended by a line feed, and
what has come of one more line when the other side stops. A line is blank, it
asks for something, or it is malformed: no text, or the text of no request.
These three are told apart without the reader (`Blank`, `Asks`, `Malformed`),
and `readLine` turns out to tell them apart in the same way.

The replica takes one line after another. Over lines that are blank or ask for
something it does what it does for the requests alone: it answers each in its
turn and goes on with the store that the last one left (`serveLines_append`).
At a malformed line it says so once, leaves its store as it is and looks at
nothing that follows. So every conversation is answered up to its first
malformed line, if it has one, and otherwise to its end (`serve_answers`).

What goes out is a line for each response, and whoever reads these lines has
the responses back, as long as their counts fit into the 64 bits of the wire.
A request that has come in carries nothing that does not fit, so a store that
can be sent stays one whatever is put into it (`Sendable.handle`). Only the
number of its keys grows, by one with each line at most.

## Main definitions

* `Wire.Says`: The text of a line, before carriage returns.
* `Wire.Blank`, `Wire.Asks`, `Wire.Malformed`: The three kinds of line.
* `Wire.Asking`: Lines that are blank or ask for requests, one after another.
* `Wire.unlines`: Lines, each with its line feed.
* `Wire.Behind`: What can follow the bytes of a line.
* `Store.handleAll`: The responses to requests one after another.
* `Store.Sendable`: What a store answers can be read, for so many requests.

## Theorems

* `Wire.exists_unlines`: Every stream is whole lines and the beginning of one.
* `Wire.readLine_of_blank`, `Wire.readLine_of_asks`,
  `Wire.readLine_of_malformed`: What a line is read as.
* `Wire.asking_or_malformed`: Lines up to the first malformed one.
* `Store.takeLine_blank`, `Store.takeLine_asks`, `Store.takeLine_malformed`: What
  comes of a line.
* `Store.serveLines_append`: What comes of well-formed lines.
* `Store.serve_of_asking`, `Store.serve_of_malformed`: What comes of a
  conversation without a malformed line, and with one.
* `Store.output_eq_unlines`: What goes out is lines.
* `Store.readMessages_output`: The lines are read back.
* `Store.serve_answers`: What comes of a conversation.
* `Store.serve_answers_get`: A read, and a line that is no request.
-/

namespace QuorumStore

namespace Wire

/-- A line says a text if it has the text's characters, and at its end maybe
    carriage returns, which do not count. -/
def Says (line : List UInt8) (cs : List Char) : Prop :=
  cs.getLast? ≠ some '\r' ∧
    ∃ n, line = Text.encode (String.ofList (cs ++ List.replicate n '\r'))

/-- A line that says nothing. -/
def Blank (line : List UInt8) : Prop := Says line []

/-- A line that asks for something. -/
def Asks (line : List UInt8) (request : Request) : Prop :=
  ∃ cs, cs ≠ [] ∧ Says line cs ∧ Request.parse cs = .ok request

/-- A line that is no text, or says something that is no request. -/
def Malformed (line : List UInt8) : Prop :=
  (∀ s, line ≠ Text.encode s) ∨
    ∃ cs fault, cs ≠ [] ∧ Says line cs ∧ Request.parse cs = .error fault

/-- Lines that are blank or ask for something, and all that they ask for. -/
inductive Asking : List (List UInt8) → List Request → Prop where
  | nil : Asking [] []
  | blank {line : List UInt8} {lines : List (List UInt8)} {requests : List Request}
    (h : Blank line) (rest : Asking lines requests) : Asking (line :: lines) requests
  | request {line : List UInt8} {lines : List (List UInt8)} {request : Request}
    {requests : List Request} (h : Asks line request) (rest : Asking lines requests) :
    Asking (line :: lines) (request :: requests)

/-- Lines, each with the line feed that ends it. -/
def unlines (lines : List (List UInt8)) : List UInt8 := lines.flatMap (· ++ [lineFeed])

/-- A text without line feeds is what is left of it where the line ends behind
    it are dropped, and carriage returns. -/
theorem dropLineEnds_spec {cs : List Char} (h : '\n' ∉ cs) :
    (dropLineEnds cs).getLast? ≠ some '\r' ∧
      ∃ n, cs = dropLineEnds cs ++ List.replicate n '\r' := by
  induction cs using List.reverseRecOn with
  | nil => exact ⟨nofun, 0, rfl⟩
  | append_singleton cs c ih =>
    rw [List.mem_append, List.mem_singleton, not_or] at h
    by_cases hc : c = '\r'
    · -- One more carriage return is dropped with the others.
      have hdrop : dropLineEnds (cs ++ [c]) = dropLineEnds cs :=
        List.rdropWhile_concat_pos _ _ c (by rw [hc]; rfl)
      rcases ih h.1 with ⟨hlast, n, hn⟩
      rw [hdrop]
      refine ⟨hlast, n + 1, ?_⟩
      rw [List.replicate_succ', ← List.append_assoc, ← hn, hc]
    · have hdrop : dropLineEnds (cs ++ [c]) = cs ++ [c] :=
        List.rdropWhile_concat_neg _ _ c (by simp [hc, Ne.symm h.2])
      rw [hdrop]
      exact ⟨by simpa using hc, 0, (List.append_nil _).symm⟩

section Reading

variable {line : List UInt8}

/-- A line that is a text says something. -/
theorem says_dropLineEnds (hline : lineFeed ∉ line) {s : String} (h : line = Text.encode s) :
    Says line (dropLineEnds s.toList) := by
  have hfeed : '\n' ∉ s.toList := by
    intro hmem
    refine hline ?_
    rw [h, ← String.ofList_toList (s := s), Text.mem_encode_iff (by decide)]
    exact ⟨'\n', hmem, rfl⟩
  rcases dropLineEnds_spec hfeed with ⟨hlast, n, hn⟩
  refine ⟨hlast, n, ?_⟩
  rw [← hn, String.ofList_toList]
  exact h

/-- A line that says something is read by it. -/
theorem readLine_said (hline : lineFeed ∉ line) {cs : List Char} (h : Says line cs)
    (hcs : cs ≠ []) :
    readLine Request.parse line =
      match Request.parse cs with
      | .ok request => .ok (some request)
      | .error fault => .error (.fault fault) := by
  rcases h with ⟨hlast, n, rfl⟩
  have hends : ∀ c, cs.getLast? = some c → c ≠ '\n' ∧ c ≠ '\r' := by
    intro c hc
    refine ⟨?_, fun hreturn => hlast (hreturn ▸ hc)⟩
    rintro rfl
    refine hline ((Text.mem_encode_iff (by decide)).mpr ⟨'\n', ?_, rfl⟩)
    exact List.mem_append_left _ (List.mem_of_getLast? hc)
  rw [readLine, Text.decode?_encode]
  simp only [String.toList_ofList, dropLineEnds_of_getLast? hends]
  cases cs with
  | nil => exact absurd rfl hcs
  | cons c cs => cases Request.parse (c :: cs) <;> rfl

theorem readLine_of_blank (h : Blank line) : readLine Request.parse line = .ok none := by
  rcases h with ⟨-, n, rfl⟩
  rw [readLine, Text.decode?_encode]
  simp only [String.toList_ofList, @dropLineEnds_of_getLast? [] (by simp)]

theorem readLine_of_asks (hline : lineFeed ∉ line) {request : Request} (h : Asks line request) :
    readLine Request.parse line = .ok (some request) := by
  rcases h with ⟨cs, hcs, hsaid, hparse⟩
  rw [readLine_said hline hsaid hcs, hparse]

theorem readLine_of_malformed (hline : lineFeed ∉ line) (h : Malformed line) :
    ∃ e, readLine Request.parse line = .error e := by
  rcases h with hnone | ⟨cs, fault, hcs, hsaid, hparse⟩
  · refine ⟨.notText, ?_⟩
    have hdecode : Text.decode? line = none :=
      Option.eq_none_iff_forall_ne_some.mpr fun s hs => hnone s (Text.decode?_eq_some_iff.mp hs)
    rw [readLine, hdecode]
  · exact ⟨.fault fault, by rw [readLine_said hline hsaid hcs, hparse]⟩

/-- Every line is of one of the three kinds. -/
theorem blank_or_asks_or_malformed (hline : lineFeed ∉ line) :
    Blank line ∨ (∃ request, Asks line request) ∨ Malformed line := by
  by_cases htext : ∃ s, line = Text.encode s
  · rcases htext with ⟨s, hs⟩
    have hsaid := says_dropLineEnds hline hs
    by_cases hcs : dropLineEnds s.toList = []
    · rw [hcs] at hsaid
      exact .inl hsaid
    · cases hparse : Request.parse (dropLineEnds s.toList) with
      | ok request => exact .inr (.inl ⟨request, _, hcs, hsaid, hparse⟩)
      | error fault => exact .inr (.inr (.inr ⟨_, fault, hcs, hsaid, hparse⟩))
  · exact .inr (.inr (.inl (not_exists.mp htext)))

/-- A line that is blank or asks for something is not malformed. -/
theorem Asking.not_malformed {lines : List (List UInt8)} {requests : List Request}
    (h : Asking lines requests) (hline : lineFeed ∉ line) (hmem : line ∈ lines) :
    ¬ Malformed line := by
  intro hbad
  rcases readLine_of_malformed hline hbad with ⟨e, he⟩
  induction h with
  | nil => cases hmem
  | blank hblank _ ih =>
    rcases List.mem_cons.mp hmem with rfl | hmem
    · rw [readLine_of_blank hblank] at he
      cases he
    · exact ih hmem
  | request hasks _ ih =>
    rcases List.mem_cons.mp hmem with rfl | hmem
    · rw [readLine_of_asks hline hasks] at he
      cases he
    · exact ih hmem

/-- What is read in a line is parsed from its text. -/
theorem exists_of_readLine {request : Request}
    (h : readLine Request.parse line = .ok (some request)) :
    ∃ cs, Request.parse cs = .ok request := by
  unfold readLine at h
  split at h
  · cases h
  split at h
  · cases h
  split at h
  · rename_i hparse
    cases h
    exact ⟨_, hparse⟩
  · cases h

end Reading

/-- Bytes have no more lines than there are of them. -/
theorem length_splitLines_le (bs : List UInt8) : (splitLines bs).length ≤ bs.length := by
  induction bs with
  | nil => exact Nat.le_refl _
  | cons b bs ih =>
    rw [splitLines]
    by_cases hb : b = lineFeed
    · rw [if_pos hb]
      exact Nat.succ_le_succ ih
    · rw [if_neg hb]
      split
      · exact Nat.succ_le_succ (Nat.zero_le _)
      · rename_i hlines
        rw [hlines] at ih
        exact Nat.le_succ_of_le ih

/-- Every stream is whole lines, and what has come of one more. -/
theorem exists_unlines (bs : List UInt8) : ∃ lines tail, bs = unlines lines ++ tail ∧
    (∀ line ∈ lines, lineFeed ∉ line) ∧ lineFeed ∉ tail := by
  induction bs with
  | nil => exact ⟨[], [], rfl, nofun, nofun⟩
  | cons b bs ih =>
    rcases ih with ⟨lines, tail, rfl, hlines, htail⟩
    by_cases hb : b = lineFeed
    · -- A line feed ends a line that is empty so far.
      refine ⟨[] :: lines, tail, by rw [hb]; rfl, ?_, htail⟩
      exact List.forall_mem_cons.mpr ⟨nofun, hlines⟩
    · -- Another byte goes to the front of the first line, or of the last one.
      have hfront : ∀ {l : List UInt8}, lineFeed ∉ l → lineFeed ∉ b :: l := fun hl hmem =>
        (List.mem_cons.mp hmem).elim (fun h => hb h.symm) hl
      cases lines with
      | nil => exact ⟨[], b :: tail, rfl, nofun, hfront htail⟩
      | cons line lines =>
        rw [List.forall_mem_cons] at hlines
        refine ⟨(b :: line) :: lines, tail, rfl, ?_, htail⟩
        exact List.forall_mem_cons.mpr ⟨hfront hlines.1, hlines.2⟩

/-- What can stand behind the bytes of a line: the end of the stream, or a line
    feed and anything. -/
def Behind (rest : List UInt8) : Prop := rest = [] ∨ ∃ more, rest = lineFeed :: more

/-- Lines are blank or ask for something up to the first that is malformed. -/
theorem asking_or_malformed {lines : List (List UInt8)} (h : ∀ line ∈ lines, lineFeed ∉ line) :
    (∃ requests, Asking lines requests) ∨ ∃ front bad later requests,
      lines = front ++ bad :: later ∧ Asking front requests ∧ Malformed bad := by
  induction lines with
  | nil => exact .inl ⟨[], .nil⟩
  | cons line lines ih =>
    rw [List.forall_mem_cons] at h
    rcases blank_or_asks_or_malformed h.1 with hblank | ⟨request, hasks⟩ | hbad
    · rcases ih h.2 with ⟨requests, hall⟩ | ⟨front, bad, later, requests, rfl, hfront, hbad⟩
      · exact .inl ⟨requests, .blank hblank hall⟩
      · exact .inr ⟨line :: front, bad, later, requests, rfl, .blank hblank hfront, hbad⟩
    · rcases ih h.2 with ⟨requests, hall⟩ | ⟨front, bad, later, requests, rfl, hfront, hbad⟩
      · exact .inl ⟨request :: requests, .request hasks hall⟩
      · exact .inr ⟨line :: front, bad, later, request :: requests, rfl,
          .request hasks hfront, hbad⟩
    · exact .inr ⟨[], line, lines, [], rfl, .nil, hbad⟩

/-- No bytes are a blank line. -/
theorem blank_nil : Blank [] := ⟨nofun, 0, rfl⟩

/-- A malformed line is the first of the lines that begin with it. -/
theorem splitLines_malformed {bad : List UInt8} (hbad : Malformed bad)
    (hline : lineFeed ∉ bad) {other : List UInt8} (hother : Behind other) :
    ∃ later, splitLines (bad ++ other) = bad :: later := by
  rcases hother with rfl | ⟨more, rfl⟩
  · refine ⟨[], ?_⟩
    rw [List.append_nil, splitLines_of_not_mem hline, if_neg]
    rintro rfl
    exact (Asking.blank blank_nil .nil).not_malformed hline List.mem_cons_self hbad
  · exact ⟨splitLines more, splitLines_append hline more⟩

/-- Whole lines are told apart in front of anything. -/
theorem splitLines_unlines {lines : List (List UInt8)} (h : ∀ line ∈ lines, lineFeed ∉ line)
    (rest : List UInt8) : splitLines (unlines lines ++ rest) = lines ++ splitLines rest := by
  induction lines with
  | nil => rfl
  | cons line lines ih =>
    rw [List.forall_mem_cons] at h
    rw [unlines, List.flatMap_cons, List.append_assoc, List.append_assoc, List.singleton_append,
      splitLines_append h.1, ← unlines, ih h.2, List.cons_append]

end Wire

namespace Store

/-- The responses to requests one after another, and the store behind them. -/
def handleAll : Store → List Request → List Response × Store
  | s, [] => ([], s)
  | s, request :: requests =>
    let (response, s) := s.handle request
    let (more, s) := handleAll s requests
    (response :: more, s)

theorem handleAll_append (s : Store) (front back : List Request) :
    s.handleAll (front ++ back) =
      ((s.handleAll front).1 ++ ((s.handleAll front).2.handleAll back).1,
        ((s.handleAll front).2.handleAll back).2) := by
  induction front generalizing s with
  | nil => rfl
  | cons request front ih =>
    simp only [List.cons_append, handleAll, ih]

section Lines

variable {line : List UInt8}

theorem takeLine_blank (s : Store) (h : Wire.Blank line) :
    s.takeLine line = ⟨none, true, s⟩ := by
  rw [takeLine, Wire.readLine_of_blank h]

theorem takeLine_asks (s : Store) (hline : Wire.lineFeed ∉ line) {request : Request}
    (h : Wire.Asks line request) :
    s.takeLine line = ⟨some (s.handle request).1, true, (s.handle request).2⟩ := by
  rw [takeLine, Wire.readLine_of_asks hline h]

/-- A malformed line is refused for a reason that does not depend on the
    store, which stays as it is. -/
theorem takeLine_malformed (hline : Wire.lineFeed ∉ line) (h : Wire.Malformed line) :
    ∃ reason, ∀ s : Store,
      s.takeLine line = ⟨some (.error ("malformed request: " ++ reason)), false, s⟩ := by
  rcases Wire.readLine_of_malformed hline h with ⟨e, he⟩
  refine ⟨e.message, fun s => ?_⟩
  rw [takeLine, he]
  rfl

/-- Lines that are blank or ask for something are answered as their requests
    are, and then come the lines behind them. -/
theorem serveLines_append (s : Store) {lines : List (List UInt8)} {requests : List Request}
    (hlines : ∀ line ∈ lines, Wire.lineFeed ∉ line) (h : Wire.Asking lines requests)
    (rest : List (List UInt8)) :
    s.serveLines (lines ++ rest) =
      ((s.handleAll requests).1 ++ ((s.handleAll requests).2.serveLines rest).1,
        ((s.handleAll requests).2.serveLines rest).2) := by
  induction h generalizing s with
  | nil => rfl
  | blank hblank _ ih =>
    rw [List.forall_mem_cons] at hlines
    rw [List.cons_append, serveLines, takeLine_blank s hblank]
    exact ih s hlines.2
  | request hasks _ ih =>
    rw [List.forall_mem_cons] at hlines
    rw [List.cons_append, serveLines, takeLine_asks s hlines.1 hasks]
    simp only [if_true, ih _ hlines.2, handleAll]
    rfl

end Lines

section Serve

variable {front : List (List UInt8)} {requests : List Request}

/-- A conversation without a malformed line is answered to its end. -/
theorem serve_of_asking (s : Store) (hfront : ∀ line ∈ front, Wire.lineFeed ∉ line)
    (h : Wire.Asking front requests) {tail : List UInt8} (htail : Wire.lineFeed ∉ tail)
    {last : List Request} (hlast : Wire.Asking [tail] last) :
    s.serve (Wire.unlines front ++ tail) = s.handleAll (requests ++ last) := by
  rw [serve, Wire.splitLines_unlines hfront, serveLines_append s hfront h, handleAll_append,
    Wire.splitLines_of_not_mem htail]
  by_cases hnil : tail = []
  · -- Nothing has come of the last line, and nothing is asked for in it.
    subst hnil
    cases hlast with
    | blank hblank hrest =>
      cases hrest
      rfl
    | request hasks hrest =>
      have hread := Wire.readLine_of_asks htail hasks
      rw [Wire.readLine_of_blank Wire.blank_nil] at hread
      cases hread
  · have hmem : ∀ line ∈ [tail], Wire.lineFeed ∉ line := by simpa using htail
    have hserve : ∀ t : Store, t.serveLines [tail] = t.handleAll last := by
      intro t
      rw [← List.append_nil [tail], serveLines_append t hmem hlast, serveLines, List.append_nil]
    rw [if_neg hnil, hserve]

/-- A conversation with a malformed line is answered up to it. What follows the
    line makes no difference. -/
theorem serve_of_malformed (s : Store) (hfront : ∀ line ∈ front, Wire.lineFeed ∉ line)
    (h : Wire.Asking front requests) {bad : List UInt8} (hline : Wire.lineFeed ∉ bad)
    (hbad : Wire.Malformed bad) :
    ∃ reason, ∀ other, Wire.Behind other → s.serve (Wire.unlines front ++ bad ++ other) =
      ((s.handleAll requests).1 ++ [.error ("malformed request: " ++ reason)],
        (s.handleAll requests).2) := by
  rcases takeLine_malformed hline hbad with ⟨reason, htake⟩
  refine ⟨reason, fun other hother => ?_⟩
  rcases Wire.splitLines_malformed hbad hline hother with ⟨later, hsplit⟩
  rw [serve, List.append_assoc, Wire.splitLines_unlines hfront, hsplit,
    serveLines_append s hfront h, serveLines, htake]
  rfl

end Serve

section Output

/-- The bytes that go out are a line for each response, with its JSON form. -/
theorem output_eq_unlines (s : Store) (bs : List UInt8) :
    s.output bs = Wire.unlines
      ((s.serve bs).1.map fun r => Text.encode (String.ofList r.toJson.write)) := by
  rw [output, Wire.unlines, List.flatMap_map]
  exact List.flatMap_congr fun r _ => Wire.writeMessage_eq r.toJson

/-- The form of a response has no line feed in it. -/
theorem lineFeed_notMem_response (r : Response) :
    Wire.lineFeed ∉ Text.encode (String.ofList r.toJson.write) := by
  have hline := @Wire.Sent.lineFeed_not_mem Response Response.toJson (.message r 0)
  rwa [Wire.Sent.text, List.replicate_zero, List.append_nil] at hline

/-- All versions of the store can be sent, and after so many more puts it has
    not run out of numbers for its keys. -/
structure Sendable (s : Store) (more : Nat) : Prop where
  versions : ∀ key v, s.get? key = some v → v.Sendable
  keys : s.versions.size + more < Json.naturalLimit

theorem Sendable.put {s : Store} {more : Nat} (h : s.Sendable (more + 1)) {key : String}
    {v : Version} (hv : v.Sendable) : (s.put key v).Sendable more := by
  constructor
  · intro k u hu
    by_cases hk : k = key
    · rw [hk, get?_put_self] at hu
      by_cases haccepts : s.accepts key v = true
      · rw [if_pos haccepts, Option.some.injEq] at hu
        rwa [← hu]
      · rw [if_neg haccepts] at hu
        exact h.versions key u hu
    · rw [get?_put_other s v hk] at hu
      exact h.versions k u hu
  · have hsize : (s.put key v).versions.size ≤ s.versions.size + 1 := by
      unfold Store.put
      split
      · exact length_insertSorted_le key v s.versions.toList
      · exact Nat.le_succ _
    have hkeys := h.keys
    omega

/-- A store that can be sent answers a request with what can be read, and can be
    sent afterwards. -/
theorem Sendable.handle {s : Store} {more : Nat} (h : s.Sendable (more + 1)) {request : Request}
    (hrequest : request.Sendable) :
    (s.handle request).1.Sendable ∧ (s.handle request).2.Sendable more := by
  have hkeys := h.keys
  have hsame : s.Sendable more := ⟨h.versions, by omega⟩
  cases request with
  | ping => exact ⟨trivial, hsame⟩
  | get key =>
    refine ⟨?_, hsame⟩
    cases hv : s.get? key with
    | none => simp only [Store.handle, hv, Response.Sendable]
    | some v =>
      simp only [Store.handle, hv, Response.Sendable]
      exact h.versions key v hv
  | put key v writeId => exact ⟨trivial, h.put hrequest⟩
  | stat =>
    refine ⟨?_, hsame⟩
    have hlive : s.liveKeys ≤ s.versions.size :=
      Nat.le_trans (List.length_filter_le _ _) (Nat.le_of_eq (List.length_map _))
    exact show s.liveKeys < Json.naturalLimit by omega

/-- So does it answer lines, one request in each at most. -/
theorem Sendable.serveLines {s : Store} {lines : List (List UInt8)}
    (h : s.Sendable lines.length) : ∀ r ∈ (s.serveLines lines).1, r.Sendable := by
  induction lines generalizing s with
  | nil => exact nofun
  | cons line lines ih =>
    rw [List.length_cons] at h
    rw [Store.serveLines, takeLine]
    cases hline : Wire.readLine Request.parse line with
    | error e =>
      -- An error carries no number.
      intro r hr
      cases List.mem_singleton.mp hr
      trivial
    | ok request? =>
      cases request? with
      | none => exact ih ⟨h.versions, Nat.lt_of_succ_lt h.keys⟩
      | some request =>
        rcases Wire.exists_of_readLine hline with ⟨cs, hcs⟩
        rcases h.handle (Request.sendable_of_parse hcs) with ⟨hresponse, hstore⟩
        exact List.forall_mem_cons.mpr ⟨hresponse, ih hstore⟩

/-- What goes out is read back as the responses. -/
theorem readMessages_output {s : Store} {bs : List UInt8} (h : s.Sendable bs.length) :
    Wire.readMessages Response.parse (s.output bs) = ((s.serve bs).1, none) := by
  have hkeys : s.versions.size + (Wire.splitLines bs).length < Json.naturalLimit :=
    Nat.lt_of_le_of_lt (Nat.add_le_add_left (Wire.length_splitLines_le bs) _) h.keys
  have hlines : s.Sendable (Wire.splitLines bs).length := ⟨h.versions, hkeys⟩
  exact Wire.readMessages_written fun r hr => Response.parse_write (hlines.serveLines r hr)

end Output

/-- Whatever bytes arrive on a connection, they are whole lines that are blank
    or ask for something, and a rest. Either the rest is the beginning of one
    more such line, and then all requests are handled one after another, and
    their responses are all that is answered. Or the rest begins with a
    malformed line; then the requests before it are handled, one error comes
    behind their responses, and neither that line nor anything after it has an
    effect. The bytes that go out are one line for each response, in the same
    order, with its JSON form and nothing else; if all counts fit into 64 bits,
    they are read back as just these responses. -/
theorem serve_answers (s : Store) (bs : List UInt8) :
    (s.output bs = Wire.unlines
        ((s.serve bs).1.map fun r => Text.encode (String.ofList r.toJson.write)) ∧
      (∀ r ∈ (s.serve bs).1,
        Wire.lineFeed ∉ Text.encode (String.ofList r.toJson.write)) ∧
      (s.Sendable bs.length →
        Wire.readMessages Response.parse (s.output bs) = ((s.serve bs).1, none))) ∧
    ∃ (front : List (List UInt8)) (rest : List UInt8) (requests : List Request),
      bs = Wire.unlines front ++ rest ∧
      (∀ line ∈ front, Wire.lineFeed ∉ line ∧ ¬ Wire.Malformed line) ∧
      Wire.Asking front requests ∧
      ((Wire.lineFeed ∉ rest ∧ ∃ last, Wire.Asking [rest] last ∧
          s.serve bs = s.handleAll (requests ++ last)) ∨
        ∃ bad later reason, rest = bad ++ later ∧ Wire.lineFeed ∉ bad ∧ Wire.Behind later ∧
          Wire.Malformed bad ∧
          ∀ other, Wire.Behind other → s.serve (Wire.unlines front ++ bad ++ other) =
            ((s.handleAll requests).1 ++ [.error ("malformed request: " ++ reason)],
              (s.handleAll requests).2)) := by
  refine ⟨⟨output_eq_unlines s bs, fun r _ => lineFeed_notMem_response r,
    readMessages_output⟩, ?_⟩
  rcases Wire.exists_unlines bs with ⟨lines, tail, rfl, hlines, htail⟩
  have hsound : ∀ {front : List (List UInt8)} {requests : List Request},
      (∀ line ∈ front, Wire.lineFeed ∉ line) → Wire.Asking front requests →
      ∀ line ∈ front, Wire.lineFeed ∉ line ∧ ¬ Wire.Malformed line := fun hfront h line hmem =>
    ⟨hfront line hmem, h.not_malformed (hfront line hmem) hmem⟩
  rcases Wire.asking_or_malformed hlines with
    ⟨requests, h⟩ | ⟨front, bad, later, requests, rfl, h, hbad⟩
  · refine ⟨lines, tail, requests, rfl, hsound hlines h, h, ?_⟩
    -- The unfinished line is of one of the three kinds as well.
    rcases Wire.blank_or_asks_or_malformed htail with hblank | ⟨request, hasks⟩ | hbad
    · have hlast := Wire.Asking.blank hblank .nil
      exact .inl ⟨htail, [], hlast, serve_of_asking s hlines h htail hlast⟩
    · have hlast := Wire.Asking.request hasks .nil
      exact .inl ⟨htail, [request], hlast, serve_of_asking s hlines h htail hlast⟩
    · rcases serve_of_malformed s hlines h htail hbad with ⟨reason, hserve⟩
      exact .inr ⟨tail, [], reason, (List.append_nil tail).symm, htail, .inl rfl, hbad, hserve⟩
  · have hfront : ∀ line ∈ front, Wire.lineFeed ∉ line := fun line hmem =>
      hlines line (List.mem_append_left _ hmem)
    have hline : Wire.lineFeed ∉ bad :=
      hlines bad (List.mem_append_right _ List.mem_cons_self)
    rcases serve_of_malformed s hfront h hline hbad with ⟨reason, hserve⟩
    refine ⟨front, bad ++ Wire.lineFeed :: (Wire.unlines later ++ tail), requests, ?_,
      hsound hfront h, h, .inr ⟨bad, _, reason, rfl, hline, .inr ⟨_, rfl⟩, hbad, hserve⟩⟩
    simp [Wire.unlines]

/-- A replica is asked for the version that it holds, and then there is a line
    that is no request, in front of one that is. What goes out is read back as
    that version and one error. -/
theorem serve_answers_get :
    let v : Version := .live "x" ⟨Table.ofList [("ann", ⟨"ann", 1, ⟨7, 0⟩⟩)]⟩
    let s : Store := ⟨Table.ofList [("k", v)]⟩
    let bs := Text.encode
      "\r\n\x7b\"op\":\"get\",\"key\":\"k\"\x7d\r\n\x7b\x7d\n\x7b\"op\":\"ping\"\x7d"
    s.Sendable bs.length ∧ Wire.readMessages Response.parse (s.output bs) =
      ([.value (some v), .error "malformed request: line is not a message"], none) := by
  intro v s bs
  have hv : v.Sendable := by
    unfold Version.Sendable VersionVector.Sendable VersionVector.Entry.Sendable Instant.Proper
    decide +kernel
  have hsendable : s.Sendable bs.length := by
    refine ⟨fun key u hu => ?_, by decide +kernel⟩
    cases List.mem_singleton.mp (Table.get?_eq_some_iff.mp hu)
    exact hv
  have hserve : (s.serve bs).1 =
      [.value (some v), .error "malformed request: line is not a message"] := by
    decide +kernel
  have hread := (serve_answers s bs).1.2.2 hsendable
  rw [hserve] at hread
  exact ⟨hsendable, hread⟩

end Store

end QuorumStore
