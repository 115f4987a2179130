import DexCache.Proofs.Paging.Turning

/-!
# Every entity of a listing is read once

A client that turns the pages of a connection, of any size and from either end, gets the edges of
the whole list that the listing is about, each once and in its order, and their cursors differ.

The list stays the same from page to page: the paging argument takes no part in filtering and
sorting.
-/

namespace DexCache

open Paging (Continues Direction Turned asked)
open Projection (fieldValue_edges fieldValue_of_obj get?_answers project project_of_nodup)
open Query (Field)

namespace Catalogue

variable {α F K : Type}

/-- The node of an entity: what is requested of it, or all of it if nothing is named. -/
def node (c : Catalogue α F K) (fields : List Field) (a : α) : Json :=
  if fields.isEmpty then c.toJson a else project (c.toJson a) fields c.entityType

/-- The edge of the entity at a position. -/
def edge (c : Catalogue α F K) (fields : List Field) (entry : α × Nat) : Json :=
  .obj [("cursor", .str (Paging.cursor entry.2)), ("node", c.node fields entry.1)]

/-- The answer to a request for a page, from a cursor on if there is one. -/
def ask (c : Catalogue α F K) (stored : List α) (name : String) (args : Json.Object)
    (d : Direction) (size : Nat) (fields : List Field) (cursor : Option Json) :
    Except Query.Error Json :=
  c.respond stored name (args.insert "pagination" (d.argument size cursor)) (asked fields)

/-- The paging argument decides the paging, and nothing else. -/
theorem readArgs_insert_pagination {c : Catalogue α F K} {l : Listing} {args : Json.Object}
    {read : ListingArgs F} {value : Json} {page : Paging.PageArgs}
    (hshape : l.shape = .connection) (hread : c.readArgs l args = .ok read)
    (hpage : Paging.PageArgs.reader value = .ok page) (hvalue : value ≠ .null) :
    c.readArgs l (args.insert "pagination" value) = .ok { read with paging := .page page } := by
  have hother {β : Type} (name : String) (reader : Json.Reader β) (hname : name ≠ "pagination") :
      argument l (args.insert "pagination" value) name reader = argument l args name reader := by
    rw [argument, argument, Json.Object.get?_insert_of_ne _ _ hname]
  have hpaging : argument l (args.insert "pagination" value) "pagination" Paging.PageArgs.reader =
      .ok (some page) := by
    rw [argument, Json.Object.get?_insert_self, Option.getD_some, Json.Reader.optional]
    · rw [hpage]
      rfl
    · exact hvalue
  obtain ⟨filters, hfilters, hread⟩ := Outcome.bind_eq_ok_iff.1 hread
  have hfilters' : c.readFilters l (args.insert "pagination" value) = .ok filters := by
    rw [← hfilters]
    simp only [readFilters, hshape, hother "filters" _ (by decide)]
  -- the sorting is read or not, and what follows is the same
  cases hsortable : l.sortable
  all_goals
    simp only [hsortable, if_true, if_false, Bool.false_eq_true, hshape] at hread
    obtain ⟨sorting, hsorting, hread⟩ := Outcome.bind_eq_ok_iff.1 hread
    obtain ⟨paging, -, hread⟩ := Outcome.bind_eq_ok_iff.1 hread
    cases hread
    simp only [readArgs, hfilters', hsortable, hshape, hpaging, hother "sorting" _ (by decide),
      hsorting]
    rfl

/-- Entities are objects, and a node of a page has the type of an entity. -/
structure Typed (c : Catalogue α F K) : Prop where
  object : ∀ a, ∃ o, c.toJson a = .obj o
  nodeType : Schema.childType (Schema.childType c.pageType "edges") "node" = c.entityType

/-- An edge is answered by its cursor and its node. -/
theorem Typed.project_edge {c : Catalogue α F K} (h : c.Typed) (fields : List Field)
    (position : Nat) (a : α) :
    project (Paging.edge position (c.toJson a)) [.plain "cursor", .withSubfields "node" fields]
      (Schema.childType c.pageType "edges") = c.edge fields (a, position) := by
  obtain ⟨o, ho⟩ := h.object a
  have hnodup : (([.plain "cursor", .withSubfields "node" fields] : List Field).map
      Field.responseKey).Nodup := by
    show ["cursor", "node"].Nodup
    decide
  have hnode : Projection.fieldValue (Paging.edge position (c.toJson a))
      (Schema.childType c.pageType "edges") (.withSubfields "node" fields) = c.node fields a := by
    have hraw : (Paging.edge position (c.toJson a)).get? "node" = some (.obj o) := by
      rw [ho]
      rfl
    unfold node
    split
    · next hempty =>
        rw [List.isEmpty_iff.1 hempty]
        rfl
    · next hselected =>
        have hname : (Field.withSubfields "node" fields).name ≠ Projection.typenameField :=
          (show "node" ≠ Projection.typenameField by decide)
        rw [fieldValue_of_obj hraw hname (by simpa [Field.withSubfields] using hselected), ho]
        show project _ _ (Schema.childType _ "node") = _
        rw [h.nodeType]
        rfl
  rw [project_of_nodup hnodup, edge, ← hnode]
  rfl

/-- The edges of the answer to what is asked of a page. -/
theorem Typed.edges_project {c : Catalogue α F K} (h : c.Typed) (fields : List Field)
    (entities : List α) (w : Paging.Window) (total : Nat) :
    Paging.edges (project (Paging.page (entities.map c.toJson) w total) (asked fields) c.pageType) =
      (entities.zipIdx w.offset).map (c.edge fields) := by
  let selection : Field := .withSubfields "edges" [.plain "cursor", .withSubfields "node" fields]
  have hedges := fieldValue_edges selection rfl (List.cons_ne_nil _ _)
    (Paging.page_edges entities c.toJson w total) c.pageType
  have hnumbered : entities.zipIdx w.offset =
      entities.zipIdx.map fun n => (n.1, w.offset + n.2) := List.zipIdx_eq_map_add
  have hget := get?_answers (Paging.nodup_asked fields) (show selection ∈ asked fields from
    List.mem_cons_self) (Paging.page (entities.map c.toJson) w total) c.pageType
  rw [Paging.edges, project_of_nodup (Paging.nodup_asked fields)]
  show ((Json.Object.get? _ selection.responseKey).bind Json.items?).getD [] = _
  rw [hget, hedges, hnumbered, List.map_map]
  refine List.map_congr_left fun n _ => ?_
  exact h.project_edge fields (w.offset + n.2) n.1

section Answer

variable {c : Catalogue α F K} {name : String} {l : Listing} {args : Json.Object}
  {read : ListingArgs F} {size : Nat}

/-- The next page that a client asks for is answered. -/
theorem ask_eq (hlisted : c.listing? name = some l) (hshape : l.shape = .connection)
    (hread : c.readArgs l args = .ok read) (hmax : size ≤ Paging.maxPosition) {stored : List α}
    (htotal : (c.select read stored).length ≤ Paging.maxPosition) (d : Direction)
    (fields : List Field) {n : Nat} (hn : n ≤ (c.select read stored).length) :
    let w := d.window size (c.select read stored).length n
    c.ask stored name args d size fields (d.mark? (c.select read stored).length n) =
      .ok (project (Paging.page ((w.cut (c.select read stored)).map c.toJson) w
        (c.select read stored).length) (asked fields) c.pageType) := by
  let position := d.position? (c.select read stored).length n
  have hposition : ∀ p ∈ position, p ≤ Paging.maxPosition := fun p hp =>
    (Direction.position?_le hn p hp).trans htotal
  have hargs := readArgs_insert_pagination hshape hread
    (Direction.reader_argument d hmax (position.map Paging.cursor)) (by simp [Direction.argument])
  have hcut := cut_eq hlisted hargs (Direction.cursors_request d hposition) stored
  rw [← Paging.Request.cut_window] at hcut
  intro w
  rw [ask, respond_eq]
  unfold Direction.mark?
  rw [hcut]
  simp only [Except.map, Cut.show, hshape]
  rfl

/-- Each answer to a client goes on where it stands. -/
theorem Typed.exists_continues (h : c.Typed) (hlisted : c.listing? name = some l)
    (hshape : l.shape = .connection) (hread : c.readArgs l args = .ok read) (hsize : 1 ≤ size)
    (hmax : size ≤ Paging.maxPosition) {stored : List α}
    (htotal : (c.select read stored).length ≤ Paging.maxPosition) (d : Direction)
    (fields : List Field) {n : Nat} (hn : n ≤ (c.select read stored).length) :
    ∃ answer, c.ask stored name args d size fields
        (d.mark? (c.select read stored).zipIdx.length n) = .ok answer ∧
      Continues d size (c.select read stored).zipIdx (c.edge fields) n answer := by
  let L := c.select read stored
  let w := d.window size L.length n
  have hlength : L.zipIdx.length = L.length := List.length_zipIdx
  have hcut : w.cut L.zipIdx = d.near size (d.rest n L.zipIdx) := by
    rw [← Direction.cut_window, hlength]
  obtain ⟨hlimit, hmore, hfar⟩ : w.limit = min size (L.length - n) ∧
      d.hasMore w = decide (n + size < L.length) ∧
      (n + size < L.length → d.farPosition w = d.reached L.length (n + size)) :=
    Direction.window_eq d hsize hn
  rw [hlength]
  refine ⟨_, ask_eq hlisted hshape hread hmax htotal d fields hn, ?_, ?_⟩
  · rw [h.edges_project, Paging.Window.zipIdx_cut, hcut]
  · have hinside : w.offset + w.limit ≤ L.length := Paging.Request.window_le _ _ _
    have hcount : ((w.cut L).map c.toJson).length = w.limit := by
      rw [List.length_map, Paging.Window.length_cut hinside]
    have hsome : d.hasMore w = true → 1 ≤ w.limit := by
      intro hnext
      rw [hmore, decide_eq_true_eq] at hnext
      omega
    rw [Paging.next?_page _ d hcount hsome, hmore, hlength]
    by_cases hnext : n + size < L.length
    · rw [if_pos (decide_eq_true hnext), if_pos hnext, Direction.mark?_of_pos d _ (by omega),
        hfar hnext]
    · rw [if_neg (by simpa using hnext), if_neg hnext]

end Answer

/-- What a client that turns the pages of a list `L` gets. -/
structure ReadThrough (c : Catalogue α F K) (d : Direction) (fields : List Field) (L : List α)
    (ask : Option Json → Except Query.Error Json) (pages : List Json) : Prop where
  /-- The answers end, each but the last tells where to go on. -/
  turned : Turned ask d.next? none pages
  only : ∀ other, Turned ask d.next? none other → other = pages
  /-- The edges of all pages are those of the whole list, in its order. -/
  edges : (d.arrange pages).flatMap Paging.edges = L.zipIdx.map (c.edge fields)
  nodes : ((d.arrange pages).flatMap Paging.edges).map (·.get? "node") =
    L.map fun a => some (c.node fields a)
  cursors : (((d.arrange pages).flatMap Paging.edges).map (·.get? "cursor")).Nodup

/-- Whoever turns the pages of a connection reads its whole list. -/
theorem Typed.exists_readThrough {c : Catalogue α F K} (h : c.Typed) {name : String} {l : Listing}
    {args : Json.Object} {read : ListingArgs F} {size : Nat} (hlisted : c.listing? name = some l)
    (hshape : l.shape = .connection) (hread : c.readArgs l args = .ok read) (hsize : 1 ≤ size)
    (hmax : size ≤ Paging.maxPosition) {stored : List α}
    (htotal : stored.length ≤ Paging.maxPosition) (d : Direction) (fields : List Field) :
    ∃ pages, c.ReadThrough d fields (c.select read stored) (c.ask stored name args d size fields)
      pages := by
  let L := c.select read stored
  have hlength : L.zipIdx.length = L.length := List.length_zipIdx
  have hle : L.length ≤ Paging.maxPosition := by
    refine Nat.le_trans ?_ htotal
    exact ((perm_sort c read.sorting _).length_eq).trans_le (keep_sublist _ stored).length_le
  have hask (n : Nat) (hn : n ≤ L.zipIdx.length) :=
    h.exists_continues hlisted hshape hread hsize hmax hle d fields (hlength ▸ hn)
  obtain ⟨pages, hturned, hedges⟩ := Paging.exists_turned d hsize hask 0 (Nat.zero_le _)
  have hall : d.rest 0 L.zipIdx = L.zipIdx := by
    cases d with
    | forward => rfl
    | backward => exact List.take_length
  rw [hall] at hedges
  refine ⟨pages, hturned, fun other hother => hother.unique hturned, hedges, ?_, ?_⟩
  · rw [hedges, List.map_map]
    have hnodes : (fun e => (c.edge fields e).get? "node") =
        (fun a => some (c.node fields a)) ∘ Prod.fst := rfl
    rw [show (fun x => x.get? "node") ∘ c.edge fields = _ from hnodes, ← List.map_map,
      List.zipIdx_map_fst]
  · rw [hedges, List.map_map]
    have hcursors : (fun e => (c.edge fields e).get? "cursor") =
        (fun n => some (Json.str (Paging.cursor n))) ∘ Prod.snd := rfl
    rw [show (fun x => x.get? "cursor") ∘ c.edge fields = _ from hcursors, ← List.map_map,
      List.zipIdx_map_snd]
    refine List.Nodup.map_on (fun m hm n hn hsame => ?_) List.nodup_range'
    have hbound {i : Nat} (hi : i ∈ List.range' 0 L.length) : i ≤ Paging.maxPosition := by
      rw [List.mem_range'_1] at hi
      omega
    simp only [Option.some.injEq, Json.str.injEq] at hsame
    exact Paging.cursor_inj (hbound hm) (hbound hn) hsame

end Catalogue

theorem typed_pairCatalogue : pairCatalogue.Typed :=
  ⟨fun _ => ⟨_, rfl⟩, by decide⟩

theorem typed_tokenCatalogue : tokenCatalogue.Typed :=
  ⟨fun _ => ⟨_, rfl⟩, by decide⟩

/-- The answer of a connection to a request for a page, from a cursor on if there is one. -/
def Store.ask (s : Store) (kind : EntityKind) (name : String) (args : Json.Object) (d : Direction)
    (size : Nat) (fields : List Field) (cursor : Option Json) : Except Query.Error Json :=
  s.respond kind name (args.insert "pagination" (d.argument size cursor)) (asked fields)

/-- A client that turns the pages of a connection, of any size and from either end, reads the
whole list that the listing is about, each entity once and in its order. -/
theorem Store.read_through (s : Store) (l : Listing) (args : Json.Object) (size : Nat)
    (hshape : l.shape = .connection) (hsize : 1 ≤ size) (hmax : size ≤ Paging.maxPosition) :
    (∀ read, pairCatalogue.listing? l.name = some l → pairCatalogue.readArgs l args = .ok read →
      s.pairs.all.length ≤ Paging.maxPosition →
        ∃ L, pairCatalogue.Listed read.sorting (s.pairs.all.filter (read.filters.Admits ·)) L ∧
          ∀ d fields, ∃ pages, pairCatalogue.ReadThrough d fields L
            (s.ask .pair l.name args d size fields) pages) ∧
    (∀ read, tokenCatalogue.listing? l.name = some l → tokenCatalogue.readArgs l args = .ok read →
      s.tokens.all.length ≤ Paging.maxPosition →
        ∃ L, tokenCatalogue.Listed read.sorting (s.tokens.all.filter (read.filters.Admits ·)) L ∧
          ∀ d fields, ∃ pages, tokenCatalogue.ReadThrough d fields L
            (s.ask .token l.name args d size fields) pages) := by
  constructor
  · intro read hlisted hread htotal
    exact ⟨_, Catalogue.listed_select PairFilter.forall_predicates_iff read _,
      typed_pairCatalogue.exists_readThrough hlisted hshape hread hsize hmax htotal⟩
  · intro read hlisted hread htotal
    exact ⟨_, Catalogue.listed_select TokenFilter.forall_predicates_iff read _,
      typed_tokenCatalogue.exists_readThrough hlisted hshape hread hsize hmax htotal⟩

/-- Of four tokens the filter admits three, and two of these have the same liquidity.  In pages
of two they are read in the order `d`, `a`, `b` from either end. -/
theorem Store.read_through_of_equal_amounts :
    let token (id amount : String) : Token :=
      { identifier := id, analytics := { liquidityUSD := some amount } }
    let s := (Watched.ofHistory {} {} [.tokens (.put (token "d" "20") 0),
      .tokens (.put (token "c" "0.2") 0), .tokens (.put (token "b" "1.5") 0),
      .tokens (.put (token "a" "1.50") 0)]).store
    let l := tokenCatalogue.listings[1]
    let args : Json.Object := [("filters", .obj [("minLiquidity", .str "1")]),
      ("sorting", .obj [("sortField", .str "LIQUIDITY"), ("sortOrder", .str "DESC")])]
    let read : ListingArgs TokenFilter := {
      filters := { minLiquidity := some (.ofInt 1) }
      sorting := some { field := some "LIQUIDITY", order := .descending }
      paging := .page {} }
    l.shape = .connection ∧ tokenCatalogue.listing? l.name = some l ∧
      tokenCatalogue.readArgs l args = .ok read ∧ s.tokens.all.length ≤ Paging.maxPosition ∧
      ∃ L, tokenCatalogue.Listed read.sorting (s.tokens.all.filter (read.filters.Admits ·)) L ∧
        L.map Token.identifier = ["d", "a", "b"] ∧
        ∀ d fields, ∃ pages, tokenCatalogue.ReadThrough d fields L
          (s.ask .token l.name args d 2 fields) pages := by
  intro token s l args read
  have hread : tokenCatalogue.readArgs l args = .ok read := rfl
  have htotal : s.tokens.all.length ≤ Paging.maxPosition := by decide
  obtain ⟨L, hL, hpages⟩ :=
    (s.read_through l args 2 rfl (by decide) (by decide)).2 read rfl hread htotal
  refine ⟨rfl, rfl, hread, htotal, L, hL, ?_, hpages⟩
  rw [hL.unique (Catalogue.listed_select TokenFilter.forall_predicates_iff read _)]
  let key := tokenCatalogue.keyOf .liquidity
  let equals := [token "a" "1.50", token "b" "1.5"]
  have hequals : equals.Pairwise fun x y => Sorting.inOrder .descending (key x) (key y) = true := by
    decide
  have hfirst : ∀ x ∈ equals,
      Sorting.inOrder .descending (key x) (key (token "d" "20")) = false := by decide
  change (Sorting.sortBy .descending key (equals ++ [token "d" "20"])).map Token.identifier = _
  rw [Sorting.sortBy_concat hequals hfirst]
  rfl

end DexCache
