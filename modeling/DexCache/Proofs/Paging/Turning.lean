import DexCache.Proofs.Listing.Listed
import DexCache.Proofs.Paging.Cursors

/-!
# Going through the pages of a listing

A client asks for pages of one size, each from where the one before ended, and stops when there
are no more.  It may begin at either end.  A page answers all that the client needs: the edges,
the cursor at its far end and whether more lies beyond it.

The induction is on what is still to be read.  One page takes a part of it from the end at which
the client reads, and its last cursor is where the rest begins.
-/

namespace DexCache

open Projection (fieldValue_edges fieldValue_of_obj get?_answers project project_of_nodup)
open Query (Field)

namespace Paging

/-- The end of a listing from which a client reads. -/
inductive Direction where
  | forward
  | backward
deriving DecidableEq, Repr

namespace Direction

/-- The entry of a paging argument that gives the page size. -/
def sizeName : Direction → String
  | forward => "first"
  | backward => "last"

/-- The entry of a paging argument that gives the cursor from which a page goes on. -/
def cursorName : Direction → String
  | forward => "after"
  | backward => "before"

/-- The paging argument of a request for a page, from a cursor on if there is one. -/
def argument (d : Direction) (size : Nat) (cursor : Option Json) : Json :=
  .obj ((d.sizeName, .ofNat size) :: cursor.toList.map fun c => (d.cursorName, c))

/-- The entry of a page that gives the cursor at its far end. -/
def farCursor : Direction → String
  | forward => "endCursor"
  | backward => "startCursor"

/-- The entry of a page that tells whether more lies beyond it. -/
def more : Direction → String
  | forward => "hasNextPage"
  | backward => "hasPreviousPage"

/-- The cursor with which a client goes on after an answer, if there is more to read. -/
def next? (d : Direction) (answer : Json) : Option Json := do
  let info ← answer.get? "pageInfo"
  match info.get? d.more with
  | some (.bool true) => info.get? d.farCursor
  | _ => none

/-- Pages in the order of the listing, from the order in which they were read. -/
def arrange {α : Type} : Direction → List α → List α
  | forward, pages => pages
  | backward, pages => pages.reverse

/-- What is left of a list when so many items were read. -/
def rest {α : Type} (d : Direction) (read : Nat) (items : List α) : List α :=
  match d with
  | forward => items.drop read
  | backward => items.take (items.length - read)

/-- The first so many items that are read of a list. -/
def near {α : Type} (d : Direction) (size : Nat) (items : List α) : List α :=
  match d with
  | forward => leading (some size) items
  | backward => trailing (some size) items

end Direction

/-- What a client asks of a page: the cursors of its edges, fields of their nodes, and what lies
beyond it. -/
def asked (fields : List Field) : List Field :=
  [.withSubfields "edges" [.plain "cursor", .withSubfields "node" fields],
    .withSubfields "pageInfo" [.plain "startCursor", .plain "endCursor",
      .plain "hasPreviousPage", .plain "hasNextPage"]]

/-- The two entries of what is asked have different keys. -/
theorem nodup_asked (fields : List Field) : ((asked fields).map Field.responseKey).Nodup := by
  show ["edges", "pageInfo"].Nodup
  decide

/-- The edges of an answer. -/
def edges (answer : Json) : List Json :=
  ((answer.get? "edges").bind Json.items?).getD []

/-- The answers that a client gets: it goes on from each answer that tells it where, and stops at
the first that does not. -/
inductive Turned (ask : Option Json → Except Query.Error Json) (next? : Json → Option Json) :
    Option Json → List Json → Prop
  | stop {cursor : Option Json} {answer : Json} (answered : ask cursor = .ok answer)
      (last : next? answer = none) : Turned ask next? cursor [answer]
  | turn {cursor : Option Json} {answer far : Json} {later : List Json}
      (answered : ask cursor = .ok answer) (more : next? answer = some far)
      (rest : Turned ask next? (some far) later) : Turned ask next? cursor (answer :: later)

section Client

variable {ask : Option Json → Except Query.Error Json} {next? : Json → Option Json}
  {cursor : Option Json} {pages others : List Json}

/-- A client can go through the pages in one way only. -/
theorem Turned.unique (h : Turned ask next? cursor pages) (h' : Turned ask next? cursor others) :
    pages = others := by
  induction h generalizing others with
  | stop answered last =>
      cases h' with
      | stop answered' _ =>
          exact congrArg (fun a => [a]) (Except.ok.inj (answered.symm.trans answered'))
      | turn answered' more' _ =>
          obtain rfl := Except.ok.inj (answered.symm.trans answered')
          rw [last] at more'
          cases more'
  | turn answered more _ ih =>
      cases h' with
      | stop answered' last' =>
          obtain rfl := Except.ok.inj (answered.symm.trans answered')
          rw [last'] at more
          cases more
      | turn answered' more' rest' =>
          obtain rfl := Except.ok.inj (answered.symm.trans answered')
          obtain rfl := Option.some.inj (more.symm.trans more')
          rw [ih rest']

end Client

namespace Direction

/-- What is read first and what is read after it, in the order of the listing. -/
def join {α : Type} (d : Direction) (first later : List α) : List α :=
  match d with
  | forward => first ++ later
  | backward => later ++ first

/-- The part that is read next and what is left after it are what was left. -/
theorem join_near_rest {α : Type} (d : Direction) (read size : Nat) (items : List α) :
    d.join (d.near size (d.rest read items)) (d.rest (read + size) items) = d.rest read items := by
  cases d with
  | forward =>
      show (items.drop read).take size ++ items.drop (read + size) = items.drop read
      rw [← List.drop_drop, List.take_append_drop]
  | backward =>
      have hshorter : items.take (items.length - (read + size)) =
          (items.take (items.length - read)).take (items.length - read - size) := by
        rw [List.take_take]
        congr 1
        omega
      show items.take (items.length - (read + size)) ++ (items.take (items.length - read)).drop
        ((items.take (items.length - read)).length - size) = items.take (items.length - read)
      rw [hshorter, List.length_take_of_le (Nat.sub_le _ _), List.take_append_drop]

theorem flatMap_arrange_cons {α β : Type} (d : Direction) (f : α → List β) (a : α)
    (later : List α) :
    (d.arrange (a :: later)).flatMap f = d.join (f a) ((d.arrange later).flatMap f) := by
  cases d with
  | forward => rfl
  | backward => simp [arrange, join]

theorem map_join {α β : Type} (d : Direction) (f : α → β) (first later : List α) :
    (d.join first later).map f = d.join (first.map f) (later.map f) := by
  cases d with
  | forward => exact List.map_append
  | backward => exact List.map_append

theorem rest_of_length_le {α : Type} (d : Direction) {read : Nat} {items : List α}
    (h : items.length ≤ read) : d.rest read items = [] := by
  cases d with
  | forward => exact List.drop_of_length_le h
  | backward =>
      show items.take (items.length - read) = []
      rw [Nat.sub_eq_zero_of_le h, List.take_zero]

/-- The paging argument as it is read. -/
def pageArgs (d : Direction) (size : Nat) (cursor : Option String) : PageArgs :=
  match d with
  | forward => { first := some size, after := cursor }
  | backward => { last := some size, before := cursor }

theorem reader_argument (d : Direction) {size : Nat} (hsize : size ≤ maxPosition)
    (cursor : Option String) :
    PageArgs.reader (d.argument size (cursor.map .str)) = .ok (d.pageArgs size cursor) := by
  have hread : Json.Reader.optional Json.Reader.size (.ofNat size) = .ok (some size) := by
    have hle : (size : Int) ≤ 18446744073709551615 := by exact_mod_cast hsize
    simp [Json.Reader.optional, Json.Reader.size, Json.Reader.integer, Json.ofNat, hle, Except.map]
  have htext (s : String) : Json.Reader.optional Json.Reader.string (.str s) = .ok (some s) := rfl
  cases d <;> cases cursor
  all_goals
    simp [PageArgs.reader, argument, pageArgs, Json.Reader.record, Json.FieldsReader.ofEntries,
      Json.FieldsReader.andField, Json.FieldsReader.pure, Json.FieldReader.optional, sizeName,
      cursorName, hread, htext, Except.map, bind, Except.bind, pure, Except.pure, Json.Object.get?]

/-- The position of the item that was read last. -/
def reached (d : Direction) (total read : Nat) : Nat :=
  match d with
  | forward => read - 1
  | backward => total - read

/-- The position of the cursor of a client that has read so many of the items, once it has one. -/
def position? (d : Direction) (total read : Nat) : Option Nat :=
  if read = 0 then none else some (d.reached total read)

/-- The cursor of a client that has read so many of the items. -/
def mark? (d : Direction) (total read : Nat) : Option Json :=
  ((d.position? total read).map cursor).map .str

theorem mark?_of_pos (d : Direction) (total : Nat) {read : Nat} (h : 0 < read) :
    d.mark? total read = some (.str (cursor (d.reached total read))) := by
  rw [mark?, position?, if_neg (Nat.ne_of_gt h)]
  rfl

theorem position?_le {d : Direction} {total read : Nat} (h : read ≤ total) :
    ∀ n ∈ d.position? total read, n ≤ total := by
  intro n hn
  unfold position? at hn
  split at hn
  · cases hn
  · obtain rfl := Option.some.inj hn
    cases d with
    | forward => exact (Nat.sub_le _ _).trans h
    | backward => exact Nat.sub_le _ _

/-- The positions of the cursors of a request. -/
def positions (d : Direction) (position : Option Nat) : Option Nat × Option Nat :=
  match d with
  | forward => (position, none)
  | backward => (none, position)

variable (d : Direction) {size read : Nat}

theorem cursors_request {position : Option Nat} (hposition : ∀ n ∈ position, n ≤ maxPosition) :
    (Request.page (d.pageArgs size (position.map cursor))).cursors =
      .ok (d.positions position) := by
  cases position with
  | none => cases d <;> rfl
  | some n =>
      have hread := position_cursor (hposition n rfl)
      cases d <;> simp [Request.cursors, pageArgs, positions, hread, bind, Except.bind, pure,
        Except.pure]

theorem lower_position? (total read : Nat) :
    ((forward.position? total read).map (· + 1)).getD 0 = read := by
  unfold position?
  split
  · next hzero => exact hzero.symm
  · next hsome => exact Nat.sub_add_cancel (Nat.pos_of_ne_zero hsome)

theorem upper_position? (total read : Nat) :
    (backward.position? total read).getD total = total - read := by
  unfold position?
  split
  · next hzero => rw [hzero]; rfl
  · rfl

/-- The window of the next page. -/
def window (d : Direction) (size total read : Nat) : Window :=
  (Request.page (d.pageArgs size ((d.position? total read).map cursor))).window
    (d.positions (d.position? total read)) total

/-- The window of the next page cuts out what is read next. -/
theorem cut_window {α : Type} (items : List α) :
    (d.window size items.length read).cut items = d.near size (d.rest read items) := by
  rw [window, Request.cut_window]
  cases d with
  | forward =>
      show trailing none (leading (some size) ((items.take items.length).drop
        (((forward.position? items.length read).map (· + 1)).getD 0))) = _
      rw [lower_position?, List.take_length]
      rfl
  | backward =>
      show trailing (some size) (leading none ((items.take
        ((backward.position? items.length read).getD items.length)).drop 0)) = _
      rw [upper_position?]
      rfl

/-- Does a window say that more lies beyond it? -/
def hasMore (d : Direction) (w : Window) : Bool :=
  match d with
  | forward => w.hasNextPage
  | backward => w.hasPreviousPage

/-- The position at the far end of a window. -/
def farPosition (d : Direction) (w : Window) : Nat :=
  match d with
  | forward => w.offset + (w.limit - 1)
  | backward => w.offset

/-- The window of the next page knows whether there is more to read after it, and if there is,
its far end is the position that is reached. -/
theorem window_eq {total : Nat} (hsize : 1 ≤ size) (hread : read ≤ total) :
    (d.window size total read).limit = min size (total - read) ∧
      d.hasMore (d.window size total read) = decide (read + size < total) ∧
      (read + size < total →
        d.farPosition (d.window size total read) = d.reached total (read + size)) := by
  cases d with
  | forward =>
      have hwindow : forward.window size total read =
          ⟨read, min size (total - read), false, decide (read + size < total)⟩ := by
        simp only [window, Request.window, pageArgs, positions, Window.between, lower_position?]
        simp
        omega
      rw [hwindow]
      refine ⟨rfl, rfl, fun h => ?_⟩
      simp only [farPosition, reached]
      omega
  | backward =>
      have hwindow : backward.window size total read = ⟨total - (read + size),
          min size (total - read), decide (read + size < total), false⟩ := by
        simp only [window, Request.window, pageArgs, positions, Window.between, upper_position?]
        simp
        omega
      rw [hwindow]
      exact ⟨rfl, rfl, fun _ => rfl⟩

/-- The edge at the far end of a page. -/
def farEdge (d : Direction) (edges : List Json) : Option Json :=
  match d with
  | forward => edges.getLast?
  | backward => edges.head?

end Direction

section Page

variable {nodes : List Json} {w : Window} (total : Nat)

/-- The cursor at the far end of a page that is not empty is that of its far position. -/
theorem edgeCursor_far (d : Direction) (hlength : nodes.length = w.limit) (hlimit : 1 ≤ w.limit) :
    edgeCursor (d.farEdge (nodes.mapIdx fun i node => edge (w.offset + i) node)) =
      .str (cursor (d.farPosition w)) := by
  cases d with
  | forward =>
      show edgeCursor (List.getLast? _) = _
      rw [List.getLast?_eq_getElem?, List.getElem?_mapIdx, List.length_mapIdx, hlength,
        List.getElem?_eq_getElem (by omega)]
      rfl
  | backward =>
      show edgeCursor (List.head? _) = _
      rw [List.head?_eq_getElem?, List.getElem?_mapIdx, List.getElem?_eq_getElem (by omega)]
      rfl

/-- An answer tells a client to go on from the far end of its page, if there is more. -/
theorem next?_page (d : Direction) (hlength : nodes.length = w.limit)
    (hlimit : d.hasMore w = true → 1 ≤ w.limit) (fields : List Field) (type : String) :
    d.next? (project (page nodes w total) (asked fields) type) =
      if d.hasMore w then some (.str (cursor (d.farPosition w))) else none := by
  let edges := nodes.mapIdx fun i node => edge (w.offset + i) node
  let info : Json.Object := [("startCursor", edgeCursor edges.head?),
    ("endCursor", edgeCursor edges.getLast?), ("hasPreviousPage", .bool w.hasPreviousPage),
    ("hasNextPage", .bool w.hasNextPage)]
  have hraw : (page nodes w total).get? "pageInfo" = some (.obj info) := rfl
  have hinfo : (project (page nodes w total) (asked fields) type).get? "pageInfo" =
      some (.obj info) := by
    rw [project_of_nodup (nodup_asked fields)]
    refine (get?_answers (nodup_asked fields) (List.mem_cons_of_mem _ List.mem_cons_self)
      _ _).trans ?_
    rw [fieldValue_of_obj hraw (by decide) (by simp [Field.withSubfields])]
    rfl
  have hnext : d.next? (project (page nodes w total) (asked fields) type) =
      if d.hasMore w then some (edgeCursor (d.farEdge edges)) else none := by
    unfold Direction.next?
    rw [hinfo]
    cases d with
    | forward =>
        show (match some (Json.bool w.hasNextPage) with
          | some (.bool true) => some (edgeCursor edges.getLast?)
          | _ => none) = if w.hasNextPage then some (edgeCursor edges.getLast?) else none
        cases w.hasNextPage <;> rfl
    | backward =>
        show (match some (Json.bool w.hasPreviousPage) with
          | some (.bool true) => some (edgeCursor edges.head?)
          | _ => none) = if w.hasPreviousPage then some (edgeCursor edges.head?) else none
        cases w.hasPreviousPage <;> rfl
  rw [hnext]
  split
  · next hmore => rw [edgeCursor_far d hlength (hlimit hmore)]
  · rfl

end Page

section Run

variable {ask : Option Json → Except Query.Error Json} {α : Type} {items : List α}
  {write : α → Json} {size : Nat}

/-- An answer to a client that has read so many of the items: it has the next of them, and tells
where to go on as long as there are more. -/
structure Continues (d : Direction) (size : Nat) (items : List α) (write : α → Json) (read : Nat)
    (answer : Json) : Prop where
  edges : edges answer = (d.near size (d.rest read items)).map write
  next? : d.next? answer =
    if read + size < items.length then d.mark? items.length (read + size) else none

/-- The answer and those after it have the edges of all that was not read yet. -/
theorem Continues.edges_arrange {d : Direction} {read : Nat} {answer : Json} {later : List Json}
    (h : Continues d size items write read answer)
    (hlater : (d.arrange later).flatMap Paging.edges = (d.rest (read + size) items).map write) :
    (d.arrange (answer :: later)).flatMap Paging.edges = (d.rest read items).map write := by
  rw [Direction.flatMap_arrange_cons, hlater, h.edges, ← Direction.map_join,
    Direction.join_near_rest]

/-- If each answer continues the reading, then the client gets what it has not read yet. -/
theorem exists_turned (d : Direction) (hsize : 1 ≤ size)
    (hask : ∀ read ≤ items.length, ∃ answer, ask (d.mark? items.length read) = .ok answer ∧
      Continues d size items write read answer) (read : Nat) (hread : read ≤ items.length) :
    ∃ pages, Turned ask d.next? (d.mark? items.length read) pages ∧
      (d.arrange pages).flatMap edges = (d.rest read items).map write := by
  obtain ⟨answer, hanswered, hcontinues⟩ := hask read hread
  have hnext := hcontinues.next?
  by_cases hmore : read + size < items.length
  · obtain ⟨later, hlater, hedges⟩ := exists_turned d hsize hask (read + size) hmore.le
    rw [if_pos hmore, Direction.mark?_of_pos d _ (by omega)] at hnext
    rw [Direction.mark?_of_pos d _ (by omega)] at hlater
    exact ⟨answer :: later, .turn hanswered hnext hlater, hcontinues.edges_arrange hedges⟩
  · rw [if_neg hmore] at hnext
    refine ⟨[answer], .stop hanswered hnext, hcontinues.edges_arrange ?_⟩
    rw [Direction.rest_of_length_le d (by omega)]
    cases d <;> rfl
termination_by items.length - read

end Run

end Paging

end DexCache
