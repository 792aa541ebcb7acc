import Mathlib.Data.List.Basic
import QuorumStore.Shell.Tokens

/-!
# The Grammar of a Line

Which lines there are, and what their arguments are, said without the reader.

A line is a sequence of pieces with single spaces in between. A piece is a bare
word, or a text between two quotes, or, at the end of the line, a text behind a
quote that is never closed. A quoted text may hold spaces, so a piece may be
several words long; what tells where it ends is that no earlier word of it ends
with its quote.

`tokenize` keeps only what the pieces contain. `pieces` goes through the words
in the same way and keeps the pieces themselves, and so can be compared with the
grammar from both sides. What it makes of any words is spelled as the grammar
says and has these words (`makes_pieces`), and where words come from pieces that
are spelled so it finds these again (`pieces_of_spelled`). The first says that
every line has a spelling, the second that it has no other.

An argument that lacks one of the two quotes can be put between two of it
without a closer look: no word of it ends with a quote that it does not hold.

## Main definitions

* `Shell.Piece`: A bare word, a quoted text, or one that is left open.
* `Shell.Piece.written`, `Shell.Piece.content`: What stands in the line, and
  what is taken from it.
* `Shell.Piece.Sound`: A piece is what its kind says.
* `Shell.Spelled`: Pieces in a row, of which only the last may be open.
* `Shell.joined`: The line that pieces make up.
* `Shell.pieces`: The pieces that words make up.

## Theorems

* `Shell.splitSpaces_eq_splitOn`: What stands between single spaces.
* `Shell.collect_eq_content`: The arguments are the contents of the pieces.
* `Shell.splitOn_joined`: A line has the words of its pieces.
* `Shell.pieces_of_spelled`, `Shell.makes_pieces`: Pieces and words.
* `Shell.exists_spelled`, `Shell.spelled_unique`: A line has one spelling.
* `Shell.tokenize_joined`: A spelled line has the contents as arguments.
* `Shell.tokenize_pieces`: All of this of any line, and quoting is undone.
-/

namespace QuorumStore

namespace Shell

/-- The character is one of the two quotes. -/
def IsQuote (c : Char) : Prop := c = '\'' ∨ c = '"'

instance : DecidablePred IsQuote := fun _ => inferInstanceAs (Decidable (_ ∨ _))

/-- A piece of a line. -/
inductive Piece where
  | bare (word : List Char)
  | quoted (quote : Char) (text : List Char)
  /-- The quote is not closed. -/
  | unclosed (quote : Char) (text : List Char)
  deriving DecidableEq, Repr

namespace Piece

/-- What stands in the line. -/
def written : Piece → List Char
  | bare word => word
  | quoted q text => q :: (text ++ [q])
  | unclosed q text => q :: text

/-- What is taken from it as an argument. -/
def content : Piece → List Char
  | bare word => word
  | quoted _ text => text
  | unclosed _ text => text

/-- The words of a piece, between single spaces. -/
def words (p : Piece) : List (List Char) := p.written.splitOn ' '

/-- The piece is left open. -/
def isOpen : Piece → Bool
  | unclosed _ _ => true
  | _ => false

/-- A piece is what its kind says. A bare word has no space in it and no quote
    in front. Of the words behind a quote only the last ends with it if it is
    closed, and none if it is not. -/
def Sound : Piece → Prop
  | bare word => ' ' ∉ word ∧ ∀ c ∈ word.head?, ¬ IsQuote c
  | quoted q text =>
    IsQuote q ∧ ∀ w ∈ ((text ++ [q]).splitOn ' ').dropLast, w.getLast? ≠ some q
  | unclosed q text => IsQuote q ∧ ∀ w ∈ text.splitOn ' ', w.getLast? ≠ some q

instance : DecidablePred Sound
  | bare word =>
    decidable_of_iff (' ' ∉ word ∧ (word.head?.all fun c => !decide (IsQuote c)) = true)
      (by cases word <;> simp [Sound])
  | quoted _ _ => inferInstanceAs (Decidable (_ ∧ _))
  | unclosed _ _ => inferInstanceAs (Decidable (_ ∧ _))

end Piece

/-- Pieces of which each is what it should be, and only the last may be open. -/
def Spelled (ps : List Piece) : Prop :=
  (∀ p ∈ ps, p.Sound) ∧ ∀ p ∈ ps.dropLast, p.isOpen = false

instance : DecidablePred Spelled := fun _ => inferInstanceAs (Decidable (_ ∧ _))

/-- The line that pieces make up, with single spaces between them. -/
def joined (ps : List Piece) : List Char := [' '].intercalate (ps.map Piece.written)

/-- The pieces that words make up. `pending` is the quoted text that is still
    open: its quote and its text so far. -/
def pieces (pending : Option (Char × List Char)) : List (List Char) → List Piece
  | [] =>
    match pending with
    | none => []
    | some (q, text) => [.unclosed q text]
  | w :: ws =>
    match pending with
    | none =>
      match openingQuote? w with
      | none => .bare w :: pieces none ws
      | some (q, rest) =>
        match dropClosing? q rest with
        | some text => .quoted q text :: pieces none ws
        | none => pieces (some (q, rest)) ws
    | some (q, text) =>
      match dropClosing? q w with
      | some last => .quoted q (text ++ ' ' :: last) :: pieces none ws
      | none => pieces (some (q, text ++ ' ' :: w)) ws

section Words

/-- The words between single spaces are what a list is split into at them. -/
theorem splitSpaces_eq_splitOn (cs : List Char) : splitSpaces cs = cs.splitOn ' ' := by
  induction cs with
  | nil => rfl
  | cons c cs ih =>
    rw [splitSpaces, List.splitOn_cons_eq_if_modifyHead, ih]
    by_cases hc : c = ' '
    · rw [if_pos hc, if_pos (beq_iff_eq.mpr hc)]
    · rw [if_neg hc, if_neg (fun h => hc (beq_iff_eq.mp h))]
      -- A text always has a first word.
      rcases List.exists_cons_of_ne_nil (List.splitOn_ne_nil ' ' cs) with ⟨w, ws, hws⟩
      rw [hws]
      rfl

/-- A word is a part of its text without a space in it. -/
theorem of_mem_splitOn {w cs : List Char} (h : w ∈ cs.splitOn ' ') : ' ' ∉ w ∧ w ⊆ cs := by
  induction cs generalizing w with
  | nil =>
    rw [List.splitOn_nil, List.mem_singleton] at h
    rw [h]
    exact ⟨List.not_mem_nil, List.nil_subset _⟩
  | cons c cs ih =>
    rw [List.splitOn_cons_eq_if_modifyHead] at h
    by_cases hc : c = ' '
    · rw [if_pos (beq_iff_eq.mpr hc), List.mem_cons] at h
      rcases h with rfl | h
      · exact ⟨List.not_mem_nil, List.nil_subset _⟩
      · exact ⟨(ih h).1, List.subset_cons_of_subset _ (ih h).2⟩
    · rw [if_neg (fun h => hc (beq_iff_eq.mp h))] at h
      rcases List.exists_cons_of_ne_nil (List.splitOn_ne_nil ' ' cs) with ⟨v, ws, hws⟩
      rw [hws, List.modifyHead_cons, List.mem_cons] at h
      have hmem : ∀ u ∈ v :: ws, ' ' ∉ u ∧ u ⊆ cs := fun u hu => ih (hws ▸ hu)
      rcases h with rfl | h
      · rcases hmem v List.mem_cons_self with ⟨hspace, hsub⟩
        refine ⟨fun hmem => ?_, List.cons_subset_cons c hsub⟩
        rcases List.mem_cons.mp hmem with hspace' | hmem
        · exact hc hspace'.symm
        · exact hspace hmem
      · rcases hmem w (List.mem_cons_of_mem _ h) with ⟨hspace, hsub⟩
        exact ⟨hspace, List.subset_cons_of_subset c hsub⟩

/-- One more word behind others. -/
theorem splitOn_append_word (text : List Char) {w : List Char} (h : ' ' ∉ w) :
    (text ++ ' ' :: w).splitOn ' ' = text.splitOn ' ' ++ [w] := by
  rw [List.splitOn_append_cons_self, List.splitOn_eq_singleton h]

/-- A text is one word, or has a last word behind others. -/
theorem exists_last_word (text : List Char) :
    ' ' ∉ text ∨ ∃ front w, text = front ++ ' ' :: w ∧ ' ' ∉ w := by
  by_cases h : ' ' ∈ text
  · -- The last space is the first from behind.
    rcases List.eq_append_cons_of_mem (List.mem_reverse.mpr h) with ⟨w, front, hsplit, hw⟩
    refine .inr ⟨front.reverse, w.reverse, ?_, fun hmem => hw (List.mem_reverse.mp hmem)⟩
    rw [← List.reverse_reverse text, hsplit]
    simp
  · exact .inl h

theorem IsQuote.ne_space {q : Char} (h : IsQuote q) : ' ' ≠ q := by
  rcases h with rfl | rfl <;> decide

namespace Piece

variable {q : Char} {front w : List Char}

theorem words_eq_singleton {p : Piece} (h : ' ' ∉ p.written) : p.words = [p.written] :=
  List.splitOn_eq_singleton h

/-- One more word in an open piece. -/
theorem words_unclosed_append (q : Char) (front : List Char) (hw : ' ' ∉ w) :
    (unclosed q (front ++ ' ' :: w)).words = (unclosed q front).words ++ [w] :=
  splitOn_append_word (q :: front) hw

theorem sound_unclosed_append (hw : ' ' ∉ w) :
    (unclosed q (front ++ ' ' :: w)).Sound ↔ (unclosed q front).Sound ∧ w.getLast? ≠ some q := by
  rw [Sound, Sound, splitOn_append_word _ hw, List.forall_mem_append, List.forall_mem_singleton,
    and_assoc]

/-- The word that closes an open piece. -/
theorem words_quoted_append (front : List Char) (hw : ' ' ∉ w ++ [q]) :
    (quoted q (front ++ ' ' :: w)).words = (unclosed q front).words ++ [w ++ [q]] := by
  rw [← words_unclosed_append q front hw, words, words, written, written, List.append_assoc,
    List.cons_append]

theorem sound_quoted_append (hw : ' ' ∉ w ++ [q]) :
    (quoted q (front ++ ' ' :: w)).Sound ↔ (unclosed q front).Sound := by
  rw [Sound, Sound, List.append_assoc, List.cons_append, splitOn_append_word _ hw,
    List.dropLast_concat]

/-- A single word between quotes is closed by its last character. -/
theorem sound_quoted_word (hq : IsQuote q) (hw : ' ' ∉ w ++ [q]) : (quoted q w).Sound := by
  rw [Sound, List.splitOn_eq_singleton hw]
  exact ⟨hq, List.forall_mem_nil _⟩

/-- It is left open by any other. -/
theorem sound_unclosed_word (hq : IsQuote q) (hw : ' ' ∉ w) (h : w.getLast? ≠ some q) :
    (unclosed q w).Sound := by
  rw [Sound, List.splitOn_eq_singleton hw]
  exact ⟨hq, List.forall_mem_singleton.mpr h⟩

end Piece

theorem openingQuote?_cons {q : Char} (hq : IsQuote q) (rest : List Char) :
    openingQuote? (q :: rest) = some (q, rest) := if_pos hq

theorem openingQuote?_eq_none {w : List Char} (h : ∀ c ∈ w.head?, ¬ IsQuote c) :
    openingQuote? w = none := by
  cases w with
  | nil => rfl
  | cons c cs => exact if_neg (h c rfl)

theorem dropClosing?_concat (q : Char) (text : List Char) :
    dropClosing? q (text ++ [q]) = some text := by
  rw [dropClosing?, if_pos List.getLast?_concat, List.dropLast_concat]

theorem dropClosing?_eq_none {q : Char} {w : List Char} (h : w.getLast? ≠ some q) :
    dropClosing? q w = none := if_neg h

end Words

section Steps

variable {q : Char} {w : List Char}

theorem pieces_bare (h : ∀ c ∈ w.head?, ¬ IsQuote c) (ws : List (List Char)) :
    pieces none (w :: ws) = .bare w :: pieces none ws := by
  simp only [pieces, openingQuote?_eq_none h]

theorem pieces_quoted (hq : IsQuote q) (text : List Char) (ws : List (List Char)) :
    pieces none ((q :: (text ++ [q])) :: ws) = .quoted q text :: pieces none ws := by
  simp only [pieces, openingQuote?_cons hq, dropClosing?_concat]

theorem pieces_opens (hq : IsQuote q) (h : w.getLast? ≠ some q) (ws : List (List Char)) :
    pieces none ((q :: w) :: ws) = pieces (some (q, w)) ws := by
  simp only [pieces, openingQuote?_cons hq, dropClosing?_eq_none h]

theorem pieces_closes (q : Char) (text last : List Char) (ws : List (List Char)) :
    pieces (some (q, text)) ((last ++ [q]) :: ws) =
      .quoted q (text ++ ' ' :: last) :: pieces none ws := by
  simp only [pieces, dropClosing?_concat]

theorem pieces_goes_on (h : w.getLast? ≠ some q) (text : List Char) (ws : List (List Char)) :
    pieces (some (q, text)) (w :: ws) = pieces (some (q, text ++ ' ' :: w)) ws := by
  simp only [pieces, dropClosing?_eq_none h]

/-- A word has a quote in front or it has not. -/
theorem word_cases (w : List Char) :
    (∀ c ∈ w.head?, ¬ IsQuote c) ∨ ∃ q rest, w = q :: rest ∧ IsQuote q := by
  cases w with
  | nil => exact .inl fun c hc => nomatch hc
  | cons c cs =>
    by_cases hc : IsQuote c
    · exact .inr ⟨c, cs, rfl, hc⟩
    · refine .inl fun d hd => ?_
      cases hd
      exact hc

/-- A text ends with the quote or it does not. -/
theorem closing_cases (q : Char) (w : List Char) :
    (∃ last, w = last ++ [q]) ∨ w.getLast? ≠ some q := by
  by_cases h : w.getLast? = some q
  · exact .inl (List.getLast?_eq_some_iff.mp h)
  · exact .inr h

end Steps

/-- The arguments are the contents of the pieces. -/
theorem collect_eq_content (pending : Option (Char × List Char)) (ws : List (List Char)) :
    collect pending ws = (pieces pending ws).map Piece.content := by
  induction ws generalizing pending with
  | nil => rcases pending with _ | ⟨q, text⟩ <;> rfl
  | cons w ws ih =>
    rcases pending with _ | ⟨q, text⟩
    · rw [collect, pieces]
      rcases openingQuote? w with _ | ⟨q, rest⟩
      · exact congrArg _ (ih none)
      · dsimp only
        cases dropClosing? q rest with
        | none => exact ih _
        | some text => exact congrArg _ (ih none)
    · rw [collect, pieces]
      cases dropClosing? q w with
      | none => exact ih _
      | some last => exact congrArg _ (ih none)

theorem spelled_cons_iff {p : Piece} {ps : List Piece} :
    Spelled (p :: ps) ↔ p.Sound ∧ (p.isOpen = true → ps = []) ∧ Spelled ps := by
  cases ps with
  | nil => simp [Spelled]
  | cons r ps =>
    simp only [Spelled, List.forall_mem_cons, List.dropLast_cons_of_ne_nil (List.cons_ne_nil r ps),
      reduceCtorEq, imp_false, Bool.not_eq_true]
    tauto

/-- A line has the words of its pieces. -/
theorem splitOn_joined {ps : List Piece} (h : ps ≠ []) :
    (joined ps).splitOn ' ' = ps.flatMap Piece.words := by
  induction ps with
  | nil => exact absurd rfl h
  | cons p ps ih =>
    cases ps with
    | nil => simp [joined, List.intercalate_singleton, Piece.words]
    | cons r ps =>
      rw [List.flatMap_cons, ← ih (List.cons_ne_nil r ps), joined, List.map_cons, List.map_cons,
        List.intercalate_cons_cons, List.append_assoc, List.singleton_append,
        List.splitOn_append_cons_self]
      rfl

section Found

variable {q : Char} {text : List Char} {ws : List (List Char)}

/-- Words that do not end with the quote are taken into the open text. -/
theorem pieces_some_append {us : List (List Char)} (h : ∀ u ∈ us, u.getLast? ≠ some q) :
    pieces (some (q, text)) (us ++ ws) =
      pieces (some (q, [' '].intercalate (text :: us))) ws := by
  induction us generalizing text with
  | nil => rw [List.nil_append, List.intercalate_singleton]
  | cons u us ih =>
    rw [List.forall_mem_cons] at h
    have hjoin : [' '].intercalate ((text ++ ' ' :: u) :: us) =
        [' '].intercalate (text :: u :: us) := by
      cases us <;> simp [List.intercalate_cons_cons, List.intercalate_singleton]
    rw [List.cons_append, pieces_goes_on h.1, ih h.2, hjoin]

/-- An open text is found again, and goes on. -/
theorem pieces_unclosed (h : (Piece.unclosed q text).Sound) (ws : List (List Char)) :
    pieces none ((Piece.unclosed q text).words ++ ws) = pieces (some (q, text)) ws := by
  rcases h with ⟨hq, hwords⟩
  rcases List.exists_cons_of_ne_nil (List.splitOn_ne_nil ' ' text) with ⟨u, us, hus⟩
  have hsplit : (Piece.unclosed q text).words = (q :: u) :: us := by
    rw [Piece.words, Piece.written, List.splitOn_cons_eq_if_modifyHead,
      if_neg (fun h => hq.ne_space (beq_iff_eq.mp h).symm), hus, List.modifyHead_cons]
  rw [hus, List.forall_mem_cons] at hwords
  rw [hsplit, List.cons_append, pieces_opens hq hwords.1, pieces_some_append hwords.2, ← hus,
    List.intercalate_splitOn]

/-- A piece that is not open is found again, whatever words follow. -/
theorem pieces_words_append {p : Piece} (hp : p.Sound) (hclosed : p.isOpen = false)
    (ws : List (List Char)) : pieces none (p.words ++ ws) = p :: pieces none ws := by
  cases p with
  | bare word =>
    rw [@Piece.words_eq_singleton (.bare word) hp.1]
    exact pieces_bare hp.2 ws
  | unclosed q text => cases hclosed
  | quoted q text =>
    have hq : IsQuote q := hp.1
    -- What stands behind the last space closes it; what stands before is left open.
    rcases exists_last_word text with htext | ⟨front, w, rfl, hw⟩
    · have hword : ' ' ∉ (Piece.quoted q text).written := by
        simp [Piece.written, htext, hq.ne_space]
      rw [Piece.words_eq_singleton hword]
      exact pieces_quoted hq text ws
    · have hword : ' ' ∉ w ++ [q] := by simp [hw, hq.ne_space]
      rw [Piece.words_quoted_append front hword, List.append_assoc,
        pieces_unclosed ((Piece.sound_quoted_append hword).mp hp)]
      exact pieces_closes q front w ws

/-- Pieces are found again in their words. -/
theorem pieces_of_spelled {ps : List Piece} (h : Spelled ps) :
    pieces none (ps.flatMap Piece.words) = ps := by
  induction ps with
  | nil => rfl
  | cons p ps ih =>
    rcases spelled_cons_iff.mp h with ⟨hp, hlast, hps⟩
    rw [List.flatMap_cons]
    cases hopen : p.isOpen with
    | false => rw [pieces_words_append hp hopen, ih hps]
    | true =>
      -- Nothing follows an open piece.
      rw [hlast hopen]
      cases p with
      | unclosed q text => exact pieces_unclosed hp []
      | bare word => cases hopen
      | quoted q text => cases hopen

end Found

section Made

/-- The words of the text that is still open. -/
def openWords : Option (Char × List Char) → List (List Char)
  | none => []
  | some (q, text) => (Piece.unclosed q text).words

/-- Pieces that are spelled make up these words. -/
def Makes (ps : List Piece) (ws : List (List Char)) : Prop :=
  Spelled ps ∧ ps.flatMap Piece.words = ws

theorem Makes.cons {p : Piece} {ps : List Piece} {us ws : List (List Char)} (hp : p.Sound)
    (hclosed : p.isOpen = false) (hwords : p.words = us) (h : Makes ps ws) :
    Makes (p :: ps) (us ++ ws) := by
  refine ⟨spelled_cons_iff.mpr ⟨hp, fun hopen => ?_, h.1⟩, ?_⟩
  · rw [hclosed] at hopen
    cases hopen
  · rw [List.flatMap_cons, hwords, h.2]

/-- What is made of words makes them up again, behind those of the text that is
    still open. -/
theorem makes_pieces {pending : Option (Char × List Char)} {ws : List (List Char)}
    (hopen : ∀ q text, pending = some (q, text) → (Piece.unclosed q text).Sound)
    (hws : ∀ w ∈ ws, ' ' ∉ w) : Makes (pieces pending ws) (openWords pending ++ ws) := by
  induction ws generalizing pending with
  | nil =>
    rcases pending with _ | ⟨q, text⟩
    · exact ⟨⟨List.forall_mem_nil _, List.forall_mem_nil _⟩, rfl⟩
    · exact ⟨⟨List.forall_mem_singleton.mpr (hopen q text rfl), List.forall_mem_nil _⟩, rfl⟩
  | cons w ws ih =>
    rw [List.forall_mem_cons] at hws
    rcases hws with ⟨hw, hws⟩
    -- Behind a piece that is closed nothing is open; otherwise the text has grown.
    have hnone : Makes (pieces none ws) ws := ih (fun _ _ h => nomatch h) hws
    have hsome : ∀ {q text us}, (Piece.unclosed q text).Sound →
        (Piece.unclosed q text).words = us → Makes (pieces (some (q, text)) ws) (us ++ ws) := by
      rintro q text _ hsound rfl
      refine ih (fun q' text' h => ?_) hws
      cases h
      exact hsound
    rw [List.append_cons]
    rcases pending with _ | ⟨q, text⟩
    · rcases word_cases w with hbare | ⟨q, rest, rfl, hq⟩
      · rw [pieces_bare hbare]
        exact Makes.cons ⟨hw, hbare⟩ rfl (@Piece.words_eq_singleton (.bare w) hw) hnone
      · have hrest : ' ' ∉ rest := fun h => hw (List.mem_cons_of_mem _ h)
        rcases closing_cases q rest with ⟨text, rfl⟩ | hopens
        · rw [pieces_quoted hq]
          exact Makes.cons (Piece.sound_quoted_word hq hrest) rfl
            (@Piece.words_eq_singleton (.quoted q text) hw) hnone
        · rw [pieces_opens hq hopens]
          exact hsome (Piece.sound_unclosed_word hq hrest hopens)
            (@Piece.words_eq_singleton (.unclosed q rest) hw)
    · have hsound := hopen q text rfl
      rcases closing_cases q w with ⟨last, rfl⟩ | hgoes
      · rw [pieces_closes]
        exact Makes.cons ((Piece.sound_quoted_append hw).mpr hsound) rfl
          (Piece.words_quoted_append text hw) hnone
      · rw [pieces_goes_on hgoes]
        exact hsome ((Piece.sound_unclosed_append hw).mpr ⟨hsound, hgoes⟩)
          (Piece.words_unclosed_append q text hw)

end Made

/-- The arguments of a spelled line are the contents of its pieces. A single
    bare word without a character in it makes the empty line, which has no
    arguments. -/
theorem tokenize_joined {ps : List Piece} (h : Spelled ps) (hne : ps ≠ [.bare []]) :
    tokenize (joined ps) = ps.map Piece.content := by
  by_cases hnil : ps = []
  · rw [hnil]
    rfl
  · have hfound := pieces_of_spelled h
    rw [← splitOn_joined hnil] at hfound
    have hline : joined ps ≠ [] := by
      intro hline
      rw [hline] at hfound
      exact hne hfound.symm
    rw [tokenize, if_neg (by simpa using hline), splitSpaces_eq_splitOn, collect_eq_content,
      hfound]

/-- Every line is spelled. -/
theorem exists_spelled (line : List Char) : ∃ ps, Spelled ps ∧ joined ps = line := by
  rcases @makes_pieces none (line.splitOn ' ') (fun _ _ h => nomatch h)
    (fun w hw => (of_mem_splitOn hw).1) with ⟨hspelled, hwords⟩
  refine ⟨_, hspelled, ?_⟩
  have hne : pieces none (line.splitOn ' ') ≠ [] := by
    intro hnil
    rw [hnil] at hwords
    exact List.splitOn_ne_nil ' ' line hwords.symm
  have hsplit : ∀ cs : List Char, [' '].intercalate (cs.splitOn ' ') = cs :=
    fun _ => List.intercalate_splitOn ' '
  rw [← hsplit (joined _), splitOn_joined hne, hwords]
  exact hsplit line

/-- A line has no second spelling. -/
theorem spelled_unique {ps qs : List Piece} (hps : Spelled ps) (hqs : Spelled qs)
    (hps_ne : ps ≠ []) (hqs_ne : qs ≠ []) (h : joined ps = joined qs) : ps = qs := by
  rw [← pieces_of_spelled hps, ← pieces_of_spelled hqs, ← splitOn_joined hps_ne,
    ← splitOn_joined hqs_ne, h]

/-- A text that does not hold a quote can be put between two of it. -/
theorem sound_quoted {q : Char} {text : List Char} (hq : IsQuote q) (h : q ∉ text) :
    (Piece.quoted q text).Sound := by
  rcases exists_last_word text with htext | ⟨front, w, rfl, hw⟩
  · exact Piece.sound_quoted_word hq (by simp [htext, hq.ne_space])
  · refine (Piece.sound_quoted_append (by simp [hw, hq.ne_space])).mpr ⟨hq, fun u hu hlast => ?_⟩
    exact h (List.mem_append_left _ ((of_mem_splitOn hu).2 (List.mem_of_getLast? hlast)))

/-- Every line that is not empty is spelled in exactly one way, and its
    arguments are the contents of the pieces in order. So arguments that each
    lack one of the two quotes are read back, once each has been put between
    quotes that it lacks. -/
theorem tokenize_pieces :
    (∀ line : List Char, line ≠ [] →
      (∃! ps, Spelled ps ∧ joined ps = line) ∧
      ∀ ps, Spelled ps → joined ps = line → tokenize line = ps.map Piece.content) ∧
    ∀ args : List (Char × List Char), (∀ a ∈ args, IsQuote a.1 ∧ a.1 ∉ a.2) →
      tokenize (joined (args.map fun a => .quoted a.1 a.2)) = args.map (·.2) := by
  refine ⟨fun line hline => ⟨?_, ?_⟩, fun args hargs => ?_⟩
  · have hne : ∀ {ps}, joined ps = line → ps ≠ [] := by
      rintro _ hps rfl
      exact hline hps.symm
    rcases exists_spelled line with ⟨ps, hps, hjoined⟩
    refine ⟨ps, ⟨hps, hjoined⟩, fun qs ⟨hqs, hjoined'⟩ => ?_⟩
    exact spelled_unique hqs hps (hne hjoined') (hne hjoined) (hjoined'.trans hjoined.symm)
  · rintro ps hps rfl
    refine tokenize_joined hps fun hempty => hline ?_
    rw [hempty]
    rfl
  · have hspelled : Spelled (args.map fun a => .quoted a.1 a.2) := by
      constructor
      · intro p hp
        rcases List.mem_map.mp hp with ⟨a, ha, rfl⟩
        exact sound_quoted (hargs a ha).1 (hargs a ha).2
      · intro p hp
        rcases List.mem_map.mp (List.dropLast_subset _ hp) with ⟨a, -, rfl⟩
        rfl
    rw [tokenize_joined hspelled, List.map_map]
    · rfl
    · cases args <;> simp

/-- A line with all three kinds of pieces, an empty word among them, and three
    arguments that have to be quoted with different quotes. -/
theorem tokenize_pieces_mixed :
    let line := "put ' it\"s'  'a b' \"left 'open".toList
    let ps : List Piece := [.bare "put".toList, .quoted '\'' " it\"s".toList, .bare [],
      .quoted '\'' "a b".toList, .unclosed '"' "left 'open".toList]
    let args := [('"', "it's ".toList), ('\'', "\"so\"  it is".toList), ('"', [])]
    line ≠ [] ∧ (∃! ps, Spelled ps ∧ joined ps = line) ∧
    Spelled ps ∧ joined ps = line ∧ tokenize line = ps.map Piece.content ∧
    (∀ a ∈ args, IsQuote a.1 ∧ a.1 ∉ a.2) ∧
    tokenize (joined (args.map fun a => .quoted a.1 a.2)) = args.map (·.2) := by
  intro line ps args
  have hline : line ≠ [] := by decide +kernel
  have hps : Spelled ps ∧ joined ps = line := by decide +kernel
  have hargs : ∀ a ∈ args, IsQuote a.1 ∧ a.1 ∉ a.2 := by simp [args, IsQuote]
  exact ⟨hline, (tokenize_pieces.1 line hline).1, hps.1, hps.2,
    (tokenize_pieces.1 line hline).2 ps hps.1 hps.2, hargs, tokenize_pieces.2 args hargs⟩

end Shell

end QuorumStore
