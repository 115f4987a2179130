import DexCache.Json.Reader
import DexCache.Paging.Cursor

/-!
# Windows and pages

A window is a stretch of consecutive positions of a list.  It comes from an offset and
a limit, or from cursors and page sizes; a page is the raw answer for a window.
-/

namespace DexCache.Paging

/-- The paging argument of connection queries. -/
structure PageArgs where
  first : Option Nat := none
  after : Option String := none
  last : Option Nat := none
  before : Option String := none
deriving DecidableEq, Repr, Inhabited

/-- Reads a paging argument. -/
def PageArgs.reader : Json.Reader PageArgs :=
  .record "ConnectionArgs" (Json.FieldsReader.pure PageArgs.mk
    |>.andField (.optional "first" .size)
    |>.andField (.optional "after" .string)
    |>.andField (.optional "last" .size)
    |>.andField (.optional "before" .string))

/-- A stretch of a list: where it starts, how long it is, and whether more lies beyond it. -/
structure Window where
  offset : Nat
  limit : Nat
  hasPreviousPage : Bool
  hasNextPage : Bool
deriving DecidableEq, Repr, Inhabited

namespace Window

/-- The window that skips `offset` of `total` items and takes `limit`. -/
def slice (offset limit total : Nat) : Window :=
  let start := min offset total
  let stop := min (start + limit) total
  ⟨start, stop - start, decide (0 < start), decide (stop < total)⟩

/-- The window between two positions, cut to a first and a last page size.  With neither
given, the page is cut to `defaultFirst`. -/
def between (after before first last : Option Nat) (total defaultFirst : Nat) : Window :=
  let lower := (after.map (· + 1)).getD 0
  let upper := min (before.getD total) total
  let start := min lower total
  let stop := max upper start
  let first := if first.isNone && last.isNone then some defaultFirst else first
  let stop := match first with
    | some n => min stop (start + n)
    | none => stop
  let start := match last with
    | some n => max start (stop - n)
    | none => start
  ⟨start, stop - start, last.isSome && decide (lower < start),
    first.isSome && decide (stop < upper)⟩

/-- The window that a paging argument asks for. -/
def ofArgs (args : PageArgs) (total defaultFirst : Nat) :
    Except Query.CursorFault Window := do
  let after ← args.after.mapM position
  let before ← args.before.mapM position
  return between after before args.first args.last total defaultFirst

/-- The items inside a window. -/
def cut (w : Window) (items : List α) : List α :=
  (items.drop w.offset).take w.limit

end Window

/-- One edge of a page. -/
def edge (position : Nat) (node : Json) : Json :=
  .obj [("cursor", .str (cursor position)), ("node", node)]

/-- The cursor of an edge. -/
def edgeCursor (e : Option Json) : Json :=
  (e.bind fun e => e.get? "cursor").getD .null

/-- The raw page of a window that holds `nodes`, out of `total` items. -/
def page (nodes : List Json) (w : Window) (total : Nat) : Json :=
  let edges := nodes.mapIdx fun i node => edge (w.offset + i) node
  .obj [
    ("edges", .arr edges),
    ("pageInfo", .obj [
      ("startCursor", edgeCursor edges.head?),
      ("endCursor", edgeCursor edges.getLast?),
      ("hasPreviousPage", .bool w.hasPreviousPage),
      ("hasNextPage", .bool w.hasNextPage)]),
    ("pageData", .obj [
      ("count", .ofNat total),
      ("limit", .ofNat w.limit),
      ("offset", .ofNat w.offset)])]

end DexCache.Paging
