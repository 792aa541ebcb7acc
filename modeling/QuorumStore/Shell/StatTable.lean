import QuorumStore.Session

/-!
# Status Tables

A status report as a table with borders.

Each column is as wide as its largest cell takes bytes in UTF-8. Cells are
padded to that width by their number of characters, so a cell with characters
of several bytes makes its column wider than it needs to be, for all rows
alike.

## Main definitions

* `Shell.cells`: The cells of a replica's row.
* `Shell.columnWidths`: The widths of the columns.
* `Shell.statTable`: The table of a report.
-/

namespace QuorumStore

namespace Shell

/-- The headers of the columns. -/
def statHeaders : List String := ["Address", "Status", "Key Count"]

/-- The cells of a replica's row. A replica that did not answer has no count
    to show. -/
def cells (n : NodeReport) : List String :=
  [n.endpoint.text, n.status.name,
   match n.keyCount with
   | some count => listNat count
   | none => "-"]

/-- The width of each column: the largest size of a cell in bytes. -/
def columnWidths (rows : List (List String)) : List Nat :=
  rows.foldl (fun widths row => widths.zipWith max (row.map String.utf8ByteSize))
    (statHeaders.map String.utf8ByteSize)

/-- A text with spaces behind it, up to a number of characters. -/
def padTo (width : Nat) (s : String) : String :=
  s ++ String.ofList (List.replicate (width - s.length) ' ')

/-- A row of cells between bars. -/
def tableRow (widths : List Nat) (row : List String) : String :=
  "|" ++ String.join (List.zipWith (fun cell width => " " ++ padTo width cell ++ " |") row widths)

/-- A line between rows. -/
def tableBorder (widths : List Nat) : String :=
  "+" ++ String.join (widths.map fun w => String.ofList (List.replicate (w + 2) '-') ++ "+")

/-- The lines of the table of some rows. -/
def tableLines (rows : List (List String)) : List String :=
  let widths := columnWidths rows
  let border := tableBorder widths
  [border, tableRow widths statHeaders, border] ++ rows.map (tableRow widths) ++ [border]

/-- The table of a report, a row for each replica. -/
def statTable (r : StatReport) : String :=
  "\n".intercalate (tableLines (r.nodes.map cells))

end Shell

end QuorumStore
