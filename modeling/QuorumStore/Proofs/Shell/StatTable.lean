import Mathlib.Data.List.DropRight
import Mathlib.Data.List.Forall2
import QuorumStore.Proofs.Endpoint.Written
import QuorumStore.Shell.StatTable
import QuorumStore.Text.Utf8

/-!
# Status Tables Read Back

That a status table is a rectangle, and that it holds what it was made of.

A line of a table is a fence: posts with a panel between each two. Where the
posts stand depends on nothing but the lengths of the panels (`posts`), and
whoever knows where they stand can cut the panels out again (`cut_fence`).
Borders and rows are fences of different posts, and they have panels of the
same lengths. This is the one thing that has to be shown of the layout, and it
is not obvious: columns are measured in bytes, and cells are padded by counting
characters. It holds because no text has more characters than bytes, so no cell
is wider than its column and each can be padded to it.

What is in a panel is a cell between spaces. Only one space stands in front of
it, and those behind it come to an end where the cell does, since no cell ends
with a space: an endpoint ends with a digit of its port.

Lines are told apart by line feeds. A host that holds one would make two lines
of its row; no other cell can.

## Main definitions

* `Shell.fence`: Panels between posts.
* `Shell.posts`: Where the posts of a fence stand.
* `Shell.cut`: What is on a line between given positions.
* `Shell.unpad`: A cell without the spaces around it.

## Theorems

* `Shell.cut_fence`: Panels are cut out where they were put in.
* `Shell.fits_columnWidths`: Every cell has room in its column.
* `Shell.unpad_panel`: A cell comes out of its panel.
* `Shell.statTable_readable`: A status table is a rectangle and is read back.
-/

namespace QuorumStore

/-- No text has more characters than bytes. -/
theorem Text.length_le_utf8ByteSize (s : String) : s.length ≤ s.utf8ByteSize := by
  have hcount : ∀ cs : List Char, cs.length ≤ byteCount cs := by
    intro cs
    induction cs with
    | nil => exact Nat.le_refl 0
    | cons c cs ih =>
      have hpos := c.utf8Size_pos
      rw [List.length_cons, byteCount]
      omega
  rw [← String.length_toList, ← String.ofList_toList (s := s), utf8ByteSize_ofList,
    String.toList_ofList]
  exact hcount s.toList

namespace Shell

section Fences

variable {post : Char} {panels : List (List Char)}

/-- Panels with a post between each two and at both ends. -/
def fence (post : Char) : List (List Char) → List Char
  | [] => [post]
  | panel :: panels => post :: (panel ++ fence post panels)

/-- Where the posts stand between panels of these lengths, if the first stands
    at a given position. -/
def posts (p : Nat) : List Nat → List Nat
  | [] => [p]
  | n :: ns => p :: posts (p + n + 1) ns

/-- What is on a line between each position and the next. -/
def cut (line : List Char) : List Nat → List (List Char)
  | p :: q :: ps => (line.take q).drop (p + 1) :: cut line (q :: ps)
  | _ => []

theorem fence_eq (post : Char) (panels : List (List Char)) :
    fence post panels = post :: (panels.map (· ++ [post])).flatten := by
  induction panels with
  | nil => rfl
  | cons panel panels ih => simp [fence, ih]

/-- The length of a fence depends on the lengths of its panels only. -/
theorem length_fence_congr {post' : Char} {panels' : List (List Char)}
    (h : panels.map List.length = panels'.map List.length) :
    (fence post panels).length = (fence post' panels').length := by
  induction panels generalizing panels' with
  | nil =>
    rw [List.map_eq_nil_iff.mp h.symm]
    rfl
  | cons panel panels ih =>
    cases panels' with
    | nil => cases h
    | cons panel' panels' =>
      rw [List.map_cons, List.map_cons, List.cons.injEq] at h
      simp only [fence, List.length_cons, List.length_append, h.1, ih h.2]

theorem mem_fence {c : Char} (h : c ∈ fence post panels) :
    c = post ∨ ∃ panel ∈ panels, c ∈ panel := by
  rw [fence_eq, List.mem_cons, List.mem_flatten] at h
  rcases h with h | ⟨part, hpart, hc⟩
  · exact .inl h
  · rcases List.mem_map.mp hpart with ⟨panel, hpanel, rfl⟩
    rcases List.mem_append.mp hc with hc | hc
    · exact .inr ⟨panel, hpanel, hc⟩
    · exact .inl (List.mem_singleton.mp hc)

theorem length_posts (p : Nat) (ns : List Nat) : (posts p ns).length = ns.length + 1 := by
  induction ns generalizing p with
  | nil => rfl
  | cons n ns ih => simp [posts, ih]

/-- The first post stands where it was told to. -/
theorem posts_eq_cons (p : Nat) (ns : List Nat) : ∃ ps, posts p ns = p :: ps := by
  cases ns with
  | nil => exact ⟨[], rfl⟩
  | cons n ns => exact ⟨_, rfl⟩

/-- There is a post at each of these positions, behind whatever comes first. -/
theorem getElem?_fence (front : List Char) {p : Nat}
    (h : p ∈ posts front.length (panels.map List.length)) :
    (front ++ fence post panels)[p]? = some post := by
  induction panels generalizing front with
  | nil =>
    rw [List.mem_singleton.mp h, fence, List.getElem?_concat_length]
  | cons panel panels ih =>
    rcases List.mem_cons.mp h with rfl | h
    · rw [fence, List.getElem?_append_right (Nat.le_refl _), Nat.sub_self]
      rfl
    · have hlen : (front ++ post :: panel).length = front.length + panel.length + 1 := by
        rw [List.length_append, List.length_cons, Nat.add_assoc]
      have hsplit : front ++ fence post (panel :: panels) =
          (front ++ post :: panel) ++ fence post panels := by
        simp [fence]
      rw [hsplit]
      exact ih _ (hlen ▸ h)

/-- The panels of a fence are cut out between its posts. -/
theorem cut_fence (front : List Char) :
    cut (front ++ fence post panels) (posts front.length (panels.map List.length)) = panels := by
  induction panels generalizing front with
  | nil => rfl
  | cons panel panels ih =>
    have hlen : (front ++ post :: panel).length = front.length + panel.length + 1 := by
      rw [List.length_append, List.length_cons, Nat.add_assoc]
    have hsplit : front ++ fence post (panel :: panels) =
        (front ++ post :: panel) ++ fence post panels := by
      simp [fence]
    have hrest := ih (front ++ post :: panel)
    rcases posts_eq_cons (front.length + panel.length + 1) (panels.map List.length) with ⟨ps, hps⟩
    rw [hlen, hps] at hrest
    rw [List.map_cons, posts, hps, cut, hsplit, hrest, ← hlen, List.take_left]
    -- What comes before the panel is the front and one post.
    rw [List.append_cons, ← List.length_concat, List.concat_eq_append, List.drop_left]

/-- Posts that occur in no panel are found by looking for them. -/
theorem idxsOf_fence (p : Nat) (h : ∀ panel ∈ panels, post ∉ panel) :
    (fence post panels).idxsOf post p = posts p (panels.map List.length) := by
  induction panels generalizing p with
  | nil => simp [fence, posts, List.idxsOf_cons]
  | cons panel panels ih =>
    have hpanel : panel.idxsOf post (p + 1) = [] := by
      rw [List.idxsOf_eq_nil_iff]
      intro c hc
      rw [beq_eq_false_iff_ne]
      rintro rfl
      exact h panel List.mem_cons_self hc
    rw [fence, List.idxsOf_cons, if_pos (beq_self_eq_true post), List.idxsOf_append, hpanel,
      List.nil_append, ih _ fun x hx => h x (List.mem_cons_of_mem panel hx), List.map_cons, posts,
      Nat.add_right_comm]

end Fences

/-- The panel of a cell in a column of some width. -/
def panel (cell : String) (width : Nat) : List Char :=
  ' ' :: (padTo width cell).toList ++ [' ']

/-- A cell without the spaces around it: one in front, and all behind. -/
def unpad : List Char → List Char
  | ' ' :: cs => cs.rdropWhile (· == ' ')
  | cs => cs.rdropWhile (· == ' ')

/-- A panel is as long as its column is wide, and two spaces longer. -/
theorem length_panel {cell : String} {width : Nat} (h : cell.length ≤ width) :
    (panel cell width).length = width + 2 := by
  simp only [panel, padTo, String.toList_append, String.toList_ofList, List.length_append,
    List.length_cons, List.length_replicate, List.length_nil, String.length_toList]
  omega

/-- A cell that does not end with a space comes out of its panel. -/
theorem unpad_panel {cell : String} (width : Nat) (h : ∀ c ∈ cell.toList.getLast?, c ≠ ' ') :
    unpad (panel cell width) = cell.toList := by
  have hspaces : ∀ n, (cell.toList ++ List.replicate n ' ').rdropWhile (· == ' ') =
      cell.toList := by
    intro n
    induction n with
    | zero =>
      rw [List.replicate_zero, List.append_nil, List.rdropWhile_eq_self_iff]
      intro hne hspace
      exact h _ (List.getLast?_eq_some_getLast hne) (eq_of_beq hspace)
    | succ n ih =>
      rw [List.replicate_succ', ← List.append_assoc, List.rdropWhile_concat_pos _ _ _ rfl, ih]
  have hpanel : panel cell width =
      ' ' :: (cell.toList ++ List.replicate (width - cell.length + 1) ' ') := by
    simp [panel, padTo, List.replicate_succ']
  rw [hpanel, unpad, hspaces]

/-- A row is a fence of bars. -/
theorem toList_tableRow (widths : List Nat) (row : List String) :
    (tableRow widths row).toList = fence '|' (List.zipWith panel row widths) := by
  rw [tableRow, fence_eq, String.toList_append, String.toList_join, List.map_zipWith,
    List.flatMap_def, List.map_zipWith]
  simp only [String.toList_append, panel, List.append_assoc, List.cons_append]
  rfl

/-- A border is a fence of plus signs. -/
theorem toList_tableBorder (widths : List Nat) :
    (tableBorder widths).toList =
      fence '+' (widths.map fun w => List.replicate (w + 2) '-') := by
  rw [tableBorder, fence_eq, String.toList_append, String.toList_join, List.flatMap_def,
    List.map_map, List.map_map]
  simp only [Function.comp_def, String.toList_append, String.toList_ofList]
  rfl

/-- The plus signs of a border stand at its posts. -/
theorem idxsOf_tableBorder (widths : List Nat) :
    (tableBorder widths).toList.idxsOf '+' = posts 0 (widths.map (· + 2)) := by
  have hdashes : (widths.map fun w => List.replicate (w + 2) '-').map List.length =
      widths.map (· + 2) := by
    simp [Function.comp_def]
  rw [toList_tableBorder, ← hdashes]
  refine idxsOf_fence 0 fun x hx hplus => ?_
  rcases List.mem_map.mp hx with ⟨w, -, rfl⟩
  cases List.eq_of_mem_replicate hplus

/-- Columns have room for the cells of a row, which take so many bytes. -/
def Fits (row : List String) (widths : List Nat) : Prop :=
  List.Forall₂ (fun (cell : String) w => cell.utf8ByteSize ≤ w) row widths

/-- Making room for another row takes none from a row that fits, and the other
    fits then too. -/
theorem Fits.widen {row other : List String} {widths : List Nat} (h : Fits row widths)
    (hlen : other.length = widths.length) :
    Fits row (widths.zipWith max (other.map String.utf8ByteSize)) ∧
    Fits other (widths.zipWith max (other.map String.utf8ByteSize)) := by
  induction h generalizing other with
  | nil =>
    rw [List.eq_nil_of_length_eq_zero hlen]
    exact ⟨.nil, .nil⟩
  | @cons cell w row widths hcell hrow ih =>
    cases other with
    | nil => cases hlen
    | cons cell' other =>
      have hrest := ih (Nat.succ.inj hlen)
      exact ⟨.cons (Nat.le_trans hcell (Nat.le_max_left _ _)) hrest.1,
        .cons (Nat.le_max_right _ _) hrest.2⟩

/-- Once columns have been widened for all rows, each row fits. -/
theorem fits_foldl {rows : List (List String)} {row : List String} {widths : List Nat}
    (h : Fits row widths) (hrows : ∀ r ∈ rows, r.length = widths.length) :
    ∀ r ∈ row :: rows,
      Fits r (rows.foldl (fun ws r => ws.zipWith max (r.map String.utf8ByteSize)) widths) := by
  induction rows generalizing row widths with
  | nil =>
    intro r hr
    rw [List.mem_singleton.mp hr]
    exact h
  | cons other rows ih =>
    have hlen := hrows other List.mem_cons_self
    have hwiden := h.widen hlen
    have hrest : ∀ r ∈ rows,
        r.length = (widths.zipWith max (other.map String.utf8ByteSize)).length := by
      intro r hr
      rw [List.length_zipWith, List.length_map, hlen, Nat.min_self]
      exact hrows r (List.mem_cons_of_mem other hr)
    intro r hr
    rcases List.mem_cons.mp hr with rfl | hr
    · exact ih hwiden.1 hrest r List.mem_cons_self
    · exact ih hwiden.2 hrest r hr

/-- Every row fits into the columns, the headers included. -/
theorem fits_columnWidths {rows : List (List String)} (h : ∀ row ∈ rows, row.length = 3) :
    ∀ row ∈ statHeaders :: rows, Fits row (columnWidths rows) :=
  fits_foldl (List.forall₂_map_right_iff.mpr (List.forall₂_refl _)) h

/-- The panels of a row that fits are as long as those of a border. -/
theorem Fits.map_length {row : List String} {widths : List Nat} (h : Fits row widths) :
    (List.zipWith panel row widths).map List.length = widths.map (· + 2) := by
  induction h with
  | nil => rfl
  | @cons cell w row widths hcell hrow ih =>
    rw [List.zipWith_cons_cons, List.map_cons, List.map_cons, ih,
      length_panel (Nat.le_trans (Text.length_le_utf8ByteSize cell) hcell)]

/-- What is cut out of a row's panels are its cells, if none ends with a
    space. -/
theorem Fits.map_unpad {row : List String} {widths : List Nat} (h : Fits row widths)
    (hcells : ∀ cell ∈ row, ∀ c ∈ cell.toList.getLast?, c ≠ ' ') :
    (List.zipWith panel row widths).map unpad = row.map String.toList := by
  induction h with
  | nil => rfl
  | @cons cell w row widths hcell hrow ih =>
    rw [List.zipWith_cons_cons, List.map_cons, List.map_cons,
      unpad_panel w (hcells cell List.mem_cons_self),
      ih fun x hx => hcells x (List.mem_cons_of_mem cell hx)]

/-- There is a line feed in a panel only if there is one in its cell. -/
theorem lineFeed_notMem_panel {row : List String} {widths : List Nat}
    (h : ∀ cell ∈ row, '\n' ∉ cell.toList) :
    ∀ x ∈ List.zipWith panel row widths, '\n' ∉ x := by
  intro x hx hfeed
  rw [← List.map_uncurry_zip_eq_zipWith] at hx
  rcases List.mem_map.mp hx with ⟨⟨cell, w⟩, hmem, rfl⟩
  have hcell := h cell (List.of_mem_zip hmem).1
  simp [panel, padTo, hcell] at hfeed

/-- Digits are neither line feeds nor spaces. -/
theorem digit_ne {c : Char} (h : c.isDigit = true) : c ≠ '\n' ∧ c ≠ ' ' := by
  constructor <;> rintro rfl <;> cases h

/-- The cells of a replica hold no line feed, unless its host does, and none of
    them ends with a space. -/
theorem mem_cells {n : NodeReport} (hhost : '\n' ∉ n.endpoint.host.toList) :
    ∀ cell ∈ cells n, '\n' ∉ cell.toList ∧ ∀ c ∈ cell.toList.getLast?, c ≠ ' ' := by
  have hdigits : ∀ k, '\n' ∉ Numeral.digits k ∧ ∀ c ∈ (Numeral.digits k).getLast?, c ≠ ' ' := by
    intro k
    refine ⟨fun h => (digit_ne (Numeral.isDigit_of_mem_digits h)).1 rfl, fun c hc => ?_⟩
    exact (digit_ne (Numeral.isDigit_of_mem_digits (List.mem_of_getLast? hc))).2
  have hendpoint : '\n' ∉ n.endpoint.text.toList ∧
      ∀ c ∈ n.endpoint.text.toList.getLast?, c ≠ ' ' := by
    rw [Endpoint.toList_text, List.append_cons]
    constructor
    · simp [hhost, (hdigits _).1]
    · rw [List.getLast?_append_of_ne_nil _ (Numeral.digits_ne_nil _)]
      exact (hdigits _).2
  have hstatus : '\n' ∉ n.status.name.toList ∧ ∀ c ∈ n.status.name.toList.getLast?, c ≠ ' ' := by
    cases n.status <;> simp [Status.name]
  have hcount : ∀ k, '\n' ∉ (listNat k).toList ∧ ∀ c ∈ (listNat k).toList.getLast?, c ≠ ' ' := by
    intro k
    rw [listNat, String.toList_ofList]
    exact hdigits k
  intro cell hcell
  rw [cells, List.mem_cons, List.mem_cons, List.mem_singleton] at hcell
  rcases hcell with rfl | rfl | rfl
  · exact hendpoint
  · exact hstatus
  · cases n.keyCount with
    | some k => exact hcount k
    | none => simp

/-- A line of a table whose rows fit, as characters. All of them are fences with
    panels of the same lengths, and only a cell can bring in a line feed. -/
theorem mem_tableLines {rows : List (List String)} (hrows : ∀ row ∈ rows, row.length = 3)
    (hfeed : ∀ row ∈ rows, ∀ cell ∈ row, '\n' ∉ cell.toList) :
    ∀ line ∈ tableLines rows, '\n' ∉ line.toList ∧ ∃ post panels,
      line.toList = fence post panels ∧ (post = '+' ∨ post = '|') ∧
      panels.map List.length = (columnWidths rows).map (· + 2) := by
  have hborder : '\n' ∉ (tableBorder (columnWidths rows)).toList ∧ ∃ post panels,
      (tableBorder (columnWidths rows)).toList = fence post panels ∧ (post = '+' ∨ post = '|') ∧
      panels.map List.length = (columnWidths rows).map (· + 2) := by
    rw [toList_tableBorder]
    refine ⟨fun h => ?_, _, _, rfl, .inl rfl, by simp⟩
    rcases mem_fence h with h | ⟨x, hx, hc⟩
    · cases h
    · rcases List.mem_map.mp hx with ⟨w, -, rfl⟩
      cases List.eq_of_mem_replicate hc
  have hrow : ∀ row ∈ statHeaders :: rows, '\n' ∉ (tableRow (columnWidths rows) row).toList ∧
      ∃ post panels, (tableRow (columnWidths rows) row).toList = fence post panels ∧
      (post = '+' ∨ post = '|') ∧ panels.map List.length = (columnWidths rows).map (· + 2) := by
    intro row hmem
    have hcells : ∀ cell ∈ row, '\n' ∉ cell.toList := by
      rcases List.mem_cons.mp hmem with rfl | hmem
      · simp [statHeaders]
      · exact hfeed row hmem
    rw [toList_tableRow]
    refine ⟨fun h => ?_, _, _, rfl, .inr rfl, (fits_columnWidths hrows row hmem).map_length⟩
    rcases mem_fence h with h | ⟨x, hx, hc⟩
    · cases h
    · exact lineFeed_notMem_panel hcells x hx hc
  intro line hline
  simp only [tableLines, List.mem_append, List.mem_cons, List.mem_map, List.not_mem_nil,
    or_false] at hline
  rcases hline with ((rfl | rfl | rfl) | ⟨row, hmem, rfl⟩) | rfl
  · exact hborder
  · exact hrow statHeaders List.mem_cons_self
  · exact hborder
  · exact hrow row (List.mem_cons_of_mem _ hmem)
  · exact hborder

theorem length_of_mem_cells {nodes : List NodeReport} :
    ∀ row ∈ nodes.map cells, row.length = 3 := by
  intro row hrow
  rcases List.mem_map.mp hrow with ⟨n, -, rfl⟩
  rfl

/-- No cell of a table holds a line feed, unless a host does. -/
theorem lineFeed_notMem_cells {nodes : List NodeReport}
    (hhosts : ∀ n ∈ nodes, '\n' ∉ n.endpoint.host.toList) :
    ∀ row ∈ nodes.map cells, ∀ cell ∈ row, '\n' ∉ cell.toList := by
  intro row hrow cell hcell
  rcases List.mem_map.mp hrow with ⟨n, hn, rfl⟩
  exact (mem_cells (hhosts n hn) cell hcell).1

/-- Taken apart at its line feeds, a status table falls into its lines. -/
theorem splitOn_statTable {r : StatReport} (hhosts : ∀ n ∈ r.nodes, '\n' ∉ n.endpoint.host.toList) :
    (statTable r).toList.splitOn '\n' =
      (tableLines (r.nodes.map cells)).map String.toList := by
  have htext : (statTable r).toList =
      ['\n'].intercalate ((tableLines (r.nodes.map cells)).map String.toList) :=
    String.toList_intercalate
  rw [htext]
  refine List.splitOn_intercalate '\n' ?_ (by simp [tableLines])
  intro l hl
  rcases List.mem_map.mp hl with ⟨line, hline, rfl⟩
  exact (mem_tableLines length_of_mem_cells (lineFeed_notMem_cells hhosts) line hline).1

/-- A status table is a rectangle. It has a line for each replica, in the order
    of the report, between a border, the headers and a border above and one
    below. All lines have as many characters as the first, and each has a post
    wherever the first has one; these are four, for three columns. Cut at these
    places and freed of the spaces around the cells, the line of a replica says
    its endpoint, its status, and how many keys it holds or that nobody knows. -/
theorem statTable_readable (r : StatReport)
    (hhosts : ∀ n ∈ r.nodes, '\n' ∉ n.endpoint.host.toList) :
    let lines := (statTable r).toList.splitOn '\n'
    let top := lines.headD []
    let bars := top.idxsOf '+'
    lines.length = r.nodes.length + 4 ∧
    bars.length = 4 ∧
    (∀ row ∈ lines, row.length = top.length ∧
      ∀ p ∈ bars, row[p]? = some '+' ∨ row[p]? = some '|') ∧
    ((lines.drop 3).take r.nodes.length).map
        (fun line => (cut line bars).map fun panel => String.ofList (unpad panel)) =
      r.nodes.map fun n => [n.endpoint.text, n.status.name,
        match n.keyCount with
        | some count => listNat count
        | none => "-"] := by
  intro lines top bars
  let rows := r.nodes.map cells
  let widths := columnWidths rows
  have hfits := fits_columnWidths (@length_of_mem_cells r.nodes)
  have hlines : lines = (tableLines rows).map String.toList := splitOn_statTable hhosts
  have htop : top = (tableBorder widths).toList := congrArg (List.headD · []) hlines
  have hbars : bars = posts 0 (widths.map (· + 2)) :=
    (congrArg (List.idxsOf '+' ·) htop).trans (idxsOf_tableBorder widths)
  have hcut : ∀ (post : Char) (panels : List (List Char)),
      panels.map List.length = widths.map (· + 2) → cut (fence post panels) bars = panels := by
    intro post panels hlen
    rw [hbars, ← hlen]
    exact cut_fence []
  refine ⟨?_, ?_, fun line hline => ?_, ?_⟩
  · simp [hlines, tableLines, rows]
  · have hthree : widths.length = 3 := (hfits statHeaders List.mem_cons_self).length_eq.symm
    rw [hbars, length_posts, List.length_map, hthree]
  · rw [hlines] at hline
    rcases List.mem_map.mp hline with ⟨l, hl, rfl⟩
    rcases (mem_tableLines length_of_mem_cells (lineFeed_notMem_cells hhosts) l hl).2
      with ⟨post, panels, heq, hpost, hlen⟩
    refine ⟨?_, fun p hp => ?_⟩
    · rw [htop, toList_tableBorder, heq]
      exact length_fence_congr (hlen.trans (by simp [widths, rows, Function.comp_def]))
    · have hat : (fence post panels)[p]? = some post := by
        refine getElem?_fence [] ?_
        rw [hlen]
        exact hbars ▸ hp
      rw [heq, hat]
      exact hpost.imp (congrArg some) (congrArg some)
  · have hdata : (lines.drop 3).take r.nodes.length =
        rows.map fun row => (tableRow widths row).toList := by
      simp [hlines, tableLines, rows, widths]
    rw [hdata, List.map_map, List.map_map]
    refine List.map_congr_left fun n hn => ?_
    have hmem : cells n ∈ rows := List.mem_map_of_mem hn
    have hfit := hfits (cells n) (List.mem_cons_of_mem _ hmem)
    have hends : ∀ cell ∈ cells n, ∀ c ∈ cell.toList.getLast?, c ≠ ' ' :=
      fun cell hcell => (mem_cells (hhosts n hn) cell hcell).2
    calc (cut (tableRow widths (cells n)).toList bars).map (fun x => String.ofList (unpad x))
        = ((List.zipWith panel (cells n) widths).map unpad).map String.ofList := by
          rw [toList_tableRow, hcut _ _ hfit.map_length, List.map_map]
          rfl
      _ = cells n := by
          rw [hfit.map_unpad hends, List.map_map]
          simp [Function.comp_def]

/-- A host that looks like a border and a cell, with a space in front, and one
    whose characters take three bytes each. -/
theorem statTable_readable_crooked :
    let r : StatReport := ⟨[⟨⟨" -+- | alive", 7000⟩, .suspect, some 18446744073709551615⟩,
      ⟨⟨"東京", 1⟩, .unreachable, none⟩]⟩
    let lines := (statTable r).toList.splitOn '\n'
    let bars := (lines.headD []).idxsOf '+'
    (∀ n ∈ r.nodes, '\n' ∉ n.endpoint.host.toList) ∧ bars = [0, 20, 34, 57] ∧
    ((lines.drop 3).take 2).map
        (fun line => (cut line bars).map fun panel => String.ofList (unpad panel)) =
      [[" -+- | alive:7000", "suspect", "18446744073709551615"],
        ["東京:1", "unreachable", "-"]] := by
  intro r lines bars
  have hhosts : ∀ n ∈ r.nodes, '\n' ∉ n.endpoint.host.toList := by simp [r]
  have hbars : bars = posts 0 ((columnWidths (r.nodes.map cells)).map (· + 2)) := by
    rw [← idxsOf_tableBorder]
    exact congrArg (fun ls => (ls.headD []).idxsOf '+') (splitOn_statTable hhosts)
  refine ⟨hhosts, hbars.trans (by decide +kernel),
    (statTable_readable r hhosts).2.2.2.trans (by decide +kernel)⟩

end Shell

end QuorumStore
