import DexCache.Proofs.Paging.Cursors
import DexCache.Proofs.Paging.Parts

/-!
# What a page shows

The page of a window shows the items that are asked for, each as the node of an edge whose cursor
leads back to the position of the item in the whole list.  The first and the last of these cursors
are those of the page, and its flags tell whether a page size has left something out.
-/

namespace DexCache.Paging

variable {α : Type}

/-- The items between two positions. -/
def stretch (after before : Option Nat) (items : List α) : List α :=
  (items.take (before.getD items.length)).drop ((after.map (· + 1)).getD 0)

/-- Does the first page size leave items out? -/
def hasMoreBehind (after before first last : Option Nat) (defaultFirst : Nat) (items : List α) :
    Bool :=
  (firstSize first last defaultFirst).any fun size => size < (stretch after before items).length

/-- Does the last page size leave items out that the first has left? -/
def hasMoreInFront (after before first last : Option Nat) (defaultFirst : Nat) (items : List α) :
    Bool :=
  last.any fun size =>
    size < (leading (firstSize first last defaultFirst) (stretch after before items)).length

/-- The raw page of these nodes with their positions, out of `total`, where `offset` are in
front. -/
def rawPage (nodes : List (Json × Nat)) (offset total : Nat) (hasPrevious hasNext : Bool) : Json :=
  let cursorAt (node : Json × Nat) : Json := .str (cursor node.2)
  .obj [
    ("edges", .arr (nodes.map fun node => .obj [("cursor", cursorAt node), ("node", node.1)])),
    ("pageInfo", .obj [
      ("startCursor", .ofOption cursorAt nodes.head?),
      ("endCursor", .ofOption cursorAt nodes.getLast?),
      ("hasPreviousPage", .bool hasPrevious),
      ("hasNextPage", .bool hasNext)]),
    ("pageData", .obj [
      ("count", .ofNat total),
      ("limit", .ofNat nodes.length),
      ("offset", .ofNat offset)])]

theorem length_stretch (after before : Option Nat) (items : List α) :
    (stretch after before items).length =
      min (before.getD items.length) items.length - (after.map (· + 1)).getD 0 := by
  simp [stretch]

theorem length_leading (size : Option Nat) (items : List α) :
    (leading size items).length = size.elim items.length (min · items.length) := by
  cases size <;> simp [leading]

namespace Window

variable (after before first last : Option Nat) (defaultFirst : Nat) (items : List α)

theorem hasNextPage_eq_hasMoreBehind :
    (between after before first last items.length defaultFirst).hasNextPage =
      hasMoreBehind after before first last defaultFirst items := by
  rw [hasNextPage_between, hasMoreBehind, length_stretch]
  cases firstSize first last defaultFirst with
  | none => rfl
  | some size =>
      show decide _ = decide _
      simp only [stopOf, Option.elim_some]
      refine decide_eq_decide.2 ?_
      omega

theorem hasPreviousPage_eq_hasMoreInFront :
    (between after before first last items.length defaultFirst).hasPreviousPage =
      hasMoreInFront after before first last defaultFirst items := by
  obtain ⟨start, stop, hstart, hstop, hle, -, hoffset, -⟩ :=
    between_eq after before first last items.length defaultFirst
  have hflag : (between after before first last items.length defaultFirst).hasPreviousPage =
      (last.isSome && decide ((after.map (· + 1)).getD 0 <
        (between after before first last items.length defaultFirst).offset)) := rfl
  rw [hflag, hoffset, hasMoreInFront, length_leading, length_stretch]
  cases last with
  | none => rfl
  | some n =>
      simp only [Option.isSome_some, Bool.true_and, Option.elim_some, Option.any_some]
      refine decide_eq_decide.2 ?_
      -- the first page size may be missing, and else it ends the window earlier
      cases hsize : firstSize first (some n) defaultFirst with
      | none =>
          simp only [hsize, stopOf, Option.elim_none] at hstop ⊢
          omega
      | some size =>
          simp only [hsize, stopOf, Option.elim_some] at hstop ⊢
          omega

end Window

/-- A page shows the nodes of its window with their positions. -/
theorem page_eq_rawPage (nodes : List α) (toJson : α → Json) {w : Window}
    (hlimit : nodes.length = w.limit) (total : Nat) :
    page (nodes.map toJson) w total =
      rawPage ((nodes.zipIdx w.offset).map (Prod.map toJson id)) w.offset total w.hasPreviousPage
        w.hasNextPage := by
  have hedges : (nodes.map toJson).mapIdx (fun i node => edge (w.offset + i) node) =
      ((nodes.zipIdx w.offset).map (Prod.map toJson id)).map fun node => edge node.2 node.1 := by
    rw [List.mapIdx_eq_zipIdx_map, List.zipIdx_map, List.zipIdx_eq_map_add (i := w.offset),
      List.map_map, List.map_map, List.map_map]
    rfl
  have hcursor (found : Option (Json × Nat)) :
      edgeCursor (found.map fun node => edge node.2 node.1) =
        .ofOption (fun node => .str (cursor node.2)) found := by
    cases found <;> rfl
  rw [page, hedges, List.head?_map, List.getLast?_map, hcursor, hcursor, ← hlimit, rawPage,
    List.length_map, List.length_zipIdx]
  rfl

end DexCache.Paging
