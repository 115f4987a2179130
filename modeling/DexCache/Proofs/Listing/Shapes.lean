import DexCache.Proofs.Listing.ReadThrough

/-!
# A list and a connection agree

One listing of a kind is a list and one is a connection.  They take their filters from different
places, cut by an offset and a limit or by a cursor and a size, and show the entities directly or as
the nodes of edges.  Asked for the same stretch with the same filters they show the same entities,
or neither accepts the filters.
-/

namespace DexCache

open Json (FieldReader FieldsReader)
open Paging (Direction)
open Projection (fieldValue_edges fieldValue_of_obj project project_of_nodup)
open Query (Field)

namespace Json.FieldsReader

variable {α β : Type}

/-- Whatever an object has under this key makes no difference to a record. -/
structure Ignores (fs : FieldsReader α) (key : String) : Prop where
  check : ∀ value, fs.check key value = .ok ()
  build : ∀ find find' : String → Option Json, (∀ k, k ≠ key → find k = find' k) →
    fs.build find = fs.build find'

theorem ignores_pure (a : α) (key : String) : (FieldsReader.pure a).Ignores key :=
  ⟨fun _ => rfl, fun _ _ _ => rfl⟩

theorem Ignores.andField {fs : FieldsReader (α → β)} {key : String} (h : fs.Ignores key)
    {f : FieldReader α} (hname : f.name ≠ key) : (fs.andField f).Ignores key := by
  constructor
  · intro value
    exact (if_neg hname.symm).trans (h.check value)
  · intro find find' hfind
    simp only [FieldsReader.andField, h.build find find' hfind, hfind f.name hname]

/-- The entries of an object are checked as they are without the key. -/
theorem Ignores.forM_check {fs : FieldsReader α} {key : String} (h : fs.Ignores key)
    (entries : Object) (value : Json) :
    (entries.insert key value).forM (fun e => fs.check e.1 e.2) =
      entries.forM fun e => fs.check e.1 e.2 := by
  induction entries with
  | nil =>
      simp only [Object.insert, List.forM, h.check]
      rfl
  | cons e rest ih =>
      obtain ⟨k, v⟩ := e
      simp only [Object.insert]
      split
      · next hk =>
          subst hk
          simp only [List.forM, h.check]
      · simp only [List.forM, ih]

theorem Ignores.ofEntries_insert {fs : FieldsReader α} {key : String} (h : fs.Ignores key)
    (entries : Object) (value : Json) :
    fs.ofEntries (entries.insert key value) = fs.ofEntries entries := by
  have hbuild := h.build (Object.get? (entries.insert key value)) entries.get? fun k hk =>
    Object.get?_insert_of_ne _ _ hk
  rw [ofEntries, ofEntries, h.forM_check, hbuild]

end Json.FieldsReader

/-- The answer to a single field. -/
theorem Projection.project_singleton (raw : Json) (f : Field) (type : String) :
    project raw [f] type = .obj [(f.responseKey, Projection.fieldValue raw type f)] := rfl

/-- The arguments of a list: filters with an offset and a limit. -/
def listArguments (filters : Json.Object) (offset limit : Nat) : Json.Object :=
  (filters.insert "offset" (.ofNat offset)).insert "limit" (.ofNat limit)

/-- The arguments of a connection for the same stretch: its page begins behind the entity in front
of the offset. -/
def pageArguments (filters : Json.Object) (offset limit : Nat) : Json.Object :=
  [("filters", .obj filters), ("pagination", .obj (("first", .ofNat limit) ::
    if offset = 0 then [] else [("after", .str (Paging.cursor (offset - 1)))]))]

/-- The selection of a connection that asks for these fields of its nodes. -/
def nodeSelection (fields : List Field) : List Field :=
  [.withSubfields "edges" [.withSubfields "node" fields]]

/-- A page whose edges have these nodes and nothing else. -/
def pageOf (nodes : List Json) : Json :=
  .obj [("edges", .arr (nodes.map fun node => .obj [("node", node)]))]

namespace Catalogue

variable {α F K : Type} {c : Catalogue α F K} {l : Listing} {offset limit : Nat}

/-- Filters that are read alike whatever stands next to them for the paging of a list. -/
structure Unpaged (c : Catalogue α F K) : Prop where
  offset : ∀ (entries : Json.Object) value,
    c.filters (.obj (entries.insert "offset" value)) = c.filters (.obj entries)
  limit : ∀ (entries : Json.Object) value,
    c.filters (.obj (entries.insert "limit" value)) = c.filters (.obj entries)

theorem optional_size {n : Nat} (hn : n ≤ Paging.maxPosition) :
    Json.Reader.optional Json.Reader.size (.ofNat n) = .ok (some n) := by
  have hle : (n : Int) ≤ 18446744073709551615 := by exact_mod_cast hn
  simp [Json.Reader.optional, Json.Reader.size, Json.Reader.integer, Json.ofNat, hle, Except.map]

/-- What is read of the arguments of a list. -/
theorem readArgs_listArguments (hunpaged : c.Unpaged) (hshape : l.shape = .list)
    (hsortable : l.sortable = false) (filters : Json.Object)
    (hoffset : offset ≤ Paging.maxPosition) (hlimit : limit ≤ Paging.maxPosition) :
    c.readArgs l (listArguments filters offset limit) =
      ((c.filters (.obj filters)).mapError (.arguments l.name none)).map fun read =>
        ⟨read, none, .slice offset limit⟩ := by
  have hfilters : c.filters (.obj (listArguments filters offset limit)) =
      c.filters (.obj filters) := by
    rw [listArguments, hunpaged.limit, hunpaged.offset]
  have hsize (name : String) {n : Nat} (hn : n ≤ Paging.maxPosition)
      (hget : (listArguments filters offset limit).get? name = some (.ofNat n)) :
      argument l (listArguments filters offset limit) name .size = .ok (some n) := by
    rw [argument, hget, Option.getD_some, optional_size hn]
    rfl
  have hoffsetRead := hsize "offset" hoffset (by
    rw [listArguments, Json.Object.get?_insert_of_ne _ _ (by decide),
      Json.Object.get?_insert_self])
  have hlimitRead := hsize "limit" hlimit (Json.Object.get?_insert_self _ _ _)
  simp only [readArgs, readFilters, hshape, hsortable, hfilters, hoffsetRead, hlimitRead]
  cases c.filters (.obj filters) <;> rfl

/-- What is read of the arguments of a connection. -/
theorem readArgs_pageArguments (hshape : l.shape = .connection) (filters : Json.Object)
    (offset : Nat) (hlimit : limit ≤ Paging.maxPosition) :
    c.readArgs l (pageArguments filters offset limit) =
      ((c.filters (.obj filters)).mapError (.arguments l.name (some "filters"))).map fun read =>
        ⟨read, none, .page (Direction.forward.pageArgs limit
          ((Direction.forward.position? offset offset).map Paging.cursor))⟩ := by
  let position := Direction.forward.position? offset offset
  have hargument : (Json.obj (("first", .ofNat limit) ::
      if offset = 0 then [] else [("after", .str (Paging.cursor (offset - 1)))])) =
        Direction.forward.argument limit ((position.map Paging.cursor).map .str) := by
    simp only [position, Direction.position?]
    split <;> rfl
  have hpaging : argument l (pageArguments filters offset limit) "pagination"
      Paging.PageArgs.reader =
        .ok (some (Direction.forward.pageArgs limit (position.map Paging.cursor))) := by
    have hread : Json.Reader.optional Paging.PageArgs.reader
        (Direction.forward.argument limit ((position.map Paging.cursor).map .str)) =
          (Paging.PageArgs.reader _).map some := rfl
    rw [argument]
    show (Json.Reader.optional Paging.PageArgs.reader (.obj _)).mapError _ = _
    rw [hargument, hread, Direction.reader_argument _ hlimit]
    rfl
  have hsorting : argument l (pageArguments filters offset limit) "sorting" Sorting.reader =
      .ok none := rfl
  have hfilters : argument l (pageArguments filters offset limit) "filters" c.filters =
      ((c.filters (.obj filters)).map some).mapError (.arguments l.name (some "filters")) := rfl
  simp only [readArgs, readFilters, hshape, hfilters, hpaging, hsorting]
  cases c.filters (.obj filters) <;> cases l.sortable <;> rfl

/-- A connection answers a selection of nodes with the nodes. -/
theorem Typed.project_nodeSelection (h : c.Typed) {fields : List Field} (hfields : fields ≠ [])
    (entities : List α) (w : Paging.Window) (total : Nat) :
    project (Paging.page (entities.map c.toJson) w total) (nodeSelection fields) c.pageType =
      pageOf (entities.map fun a => project (c.toJson a) fields c.entityType) := by
  let selection : Field := .withSubfields "edges" [.withSubfields "node" fields]
  have hedges := fieldValue_edges selection rfl (List.cons_ne_nil _ _)
    (Paging.page_edges entities c.toJson w total) c.pageType
  have hnode (position : Nat) (a : α) :
      project (Paging.edge position (c.toJson a)) [.withSubfields "node" fields]
        (Schema.childType c.pageType "edges") =
          .obj [("node", project (c.toJson a) fields c.entityType)] := by
    obtain ⟨o, ho⟩ := h.object a
    have hraw : (Paging.edge position (c.toJson a)).get? "node" = some (.obj o) := by
      rw [ho]
      rfl
    have hvalue := fieldValue_of_obj (f := .withSubfields "node" fields) hraw
      (show "node" ≠ Projection.typenameField by decide) hfields
      (Schema.childType c.pageType "edges")
    rw [Projection.project_singleton, hvalue, ho]
    show Json.obj [("node", project _ _ (Schema.childType _ "node"))] = _
    rw [h.nodeType]
    rfl
  let shown (a : α) : Json := .obj [("node", project (c.toJson a) fields c.entityType)]
  have hnodes : (entities.zipIdx.map fun i =>
      project (Paging.edge (w.offset + i.2) (c.toJson i.1)) selection.subfields
        (Schema.childType c.pageType "edges")) =
      (entities.map fun a => project (c.toJson a) fields c.entityType).map fun node =>
        .obj [("node", node)] :=
    calc
      _ = entities.zipIdx.map (shown ∘ Prod.fst) :=
        List.map_congr_left fun i _ => hnode (w.offset + i.2) i.1
      _ = entities.map shown := by rw [← List.map_map, List.zipIdx_map_fst]
      _ = _ := by rw [List.map_map]; rfl
  rw [nodeSelection, Projection.project_singleton, hedges, hnodes]
  rfl

/-- Arguments that are refused are refused for every selection. -/
theorem respond_of_readArgs_error {args : Json.Object} {e : Query.Error}
    (hlisted : c.listing? l.name = some l) (hread : c.readArgs l args = .error e)
    (stored : List α) (fields : List Field) :
    c.respond stored l.name args fields = .error e := by
  rw [respond, hlisted]
  simp only [hread]
  rfl

/-- Both shapes cut the same stretch of what they select. -/
theorem part_pageArgs {β : Type} (offset limit : Nat) (items : List β) :
    let position := Direction.forward.position? offset offset
    (Paging.Request.page (Direction.forward.pageArgs limit (position.map Paging.cursor))).part
      (Direction.forward.positions position) items = (items.drop offset).take limit := by
  show Paging.trailing none (Paging.leading (some limit) ((items.take items.length).drop
    (((Direction.forward.position? offset offset).map (· + 1)).getD 0))) = _
  rw [Direction.lower_position?, List.take_length]
  rfl

/-- Asked for the same stretch with the same filters, a list and a connection show the same
entities, or both refuse the filters. -/
theorem Typed.stretch_agrees (h : c.Typed) (hunpaged : c.Unpaged) {l m : Listing}
    (hlist : c.listing? l.name = some l) (hlistShape : l.shape = .list)
    (hsortable : l.sortable = false) (hpage : c.listing? m.name = some m)
    (hpageShape : m.shape = .connection) (stored : List α) (filters : Json.Object)
    (hoffset : offset ≤ Paging.maxPosition) (hlimit : limit ≤ Paging.maxPosition)
    {fields : List Field} (hfields : fields ≠ []) :
    match c.filters (.obj filters) with
    | .ok _ => ∃ items,
      c.respond stored l.name (listArguments filters offset limit) fields = .ok (.arr items) ∧
        c.respond stored m.name (pageArguments filters offset limit) (nodeSelection fields) =
          .ok (pageOf items)
    | .error fault =>
      c.respond stored l.name (listArguments filters offset limit) fields =
          .error (.arguments l.name none fault) ∧
        c.respond stored m.name (pageArguments filters offset limit) (nodeSelection fields) =
          .error (.arguments m.name (some "filters") fault) := by
  have hlistRead := readArgs_listArguments hunpaged hlistShape hsortable filters hoffset hlimit
  have hpageRead := readArgs_pageArguments (c := c) hpageShape filters offset hlimit
  cases hfilters : c.filters (.obj filters) with
  | error fault =>
      rw [hfilters] at hlistRead hpageRead
      exact ⟨respond_of_readArgs_error hlist hlistRead stored _,
        respond_of_readArgs_error hpage hpageRead stored _⟩
  | ok read =>
      rw [hfilters] at hlistRead hpageRead
      let position := Direction.forward.position? offset offset
      have hposition : ∀ n ∈ position, n ≤ Paging.maxPosition := fun n hn =>
        (Direction.position?_le (Nat.le_refl offset) n hn).trans hoffset
      have hcursors : (Paging.Request.page (Direction.forward.pageArgs limit
          (position.map Paging.cursor))).cursors = .ok (Direction.forward.positions position) :=
        Direction.cursors_request _ hposition
      have hlistCut := cut_eq hlist hlistRead rfl stored
      have hpageCut := cut_eq hpage hpageRead hcursors stored
      refine ⟨(((c.select ⟨read, none, .slice offset limit⟩ stored).drop offset).take limit).map
        fun a => project (c.toJson a) fields c.entityType, ?_, ?_⟩
      · rw [respond_eq, hlistCut]
        simp only [Except.map, Cut.show, hlistShape]
        rfl
      · rw [respond_eq, hpageCut]
        simp only [Except.map, Cut.show, hpageShape]
        rw [h.project_nodeSelection hfields, part_pageArgs]
        rfl

end Catalogue

theorem Catalogue.unpaged_of_ignores {α F K : Type} {c : Catalogue α F K} {fs : FieldsReader F}
    (hread : ∀ entries, c.filters (.obj entries) = fs.ofEntries entries)
    (hoffset : fs.Ignores "offset") (hlimit : fs.Ignores "limit") : c.Unpaged :=
  ⟨fun entries value => by rw [hread, hread, hoffset.ofEntries_insert],
    fun entries value => by rw [hread, hread, hlimit.ofEntries_insert]⟩

theorem unpaged_pairCatalogue : pairCatalogue.Unpaged := by
  refine Catalogue.unpaged_of_ignores (fun _ => rfl) ?_ ?_
  all_goals
    repeat refine FieldsReader.Ignores.andField ?_ (by decide)
    exact FieldsReader.ignores_pure _ _

theorem unpaged_tokenCatalogue : tokenCatalogue.Unpaged := by
  refine Catalogue.unpaged_of_ignores (fun _ => rfl) ?_ ?_
  all_goals
    repeat refine FieldsReader.Ignores.andField ?_ (by decide)
    exact FieldsReader.ignores_pure _ _

/-- Are these filters of a kind accepted? -/
def EntityKind.checkFilters (kind : EntityKind) (filters : Json.Object) : Except Json.Fault Unit :=
  match kind with
  | .pair => (pairCatalogue.filters (.obj filters)).map fun _ => ()
  | .token => (tokenCatalogue.filters (.obj filters)).map fun _ => ()

/-- A list and a connection of one kind, asked for the same stretch with the same filters, show the
same entities in the same order: the items of the list are the nodes of the page.  Filters that are
not accepted are refused by both for the same reason. -/
theorem Store.shapes_agree (s : Store) (kind : EntityKind) {l m : Listing}
    (hlist : kind.listing? l.name = some l) (hlistShape : l.shape = .list)
    (hpage : kind.listing? m.name = some m) (hpageShape : m.shape = .connection)
    (filters : Json.Object) {offset limit : Nat} (hoffset : offset ≤ Paging.maxPosition)
    (hlimit : limit ≤ Paging.maxPosition) {fields : List Field} (hfields : fields ≠ []) :
    match kind.checkFilters filters with
    | .ok () => ∃ items,
      s.respond kind l.name (listArguments filters offset limit) fields = .ok (.arr items) ∧
        s.respond kind m.name (pageArguments filters offset limit) (nodeSelection fields) =
          .ok (pageOf items)
    | .error fault =>
      s.respond kind l.name (listArguments filters offset limit) fields =
          .error (.arguments l.name none fault) ∧
        s.respond kind m.name (pageArguments filters offset limit) (nodeSelection fields) =
          .error (.arguments m.name (some "filters") fault) := by
  have hsortable : l.sortable = false := by
    have hall : ∀ l ∈ pairCatalogue.listings ++ tokenCatalogue.listings,
        l.shape = .list → l.sortable = false := by decide
    refine hall l ?_ hlistShape
    cases kind with
    | pair => exact List.mem_append_left _ (Catalogue.mem_of_listing? hlist)
    | token => exact List.mem_append_right _ (Catalogue.mem_of_listing? hlist)
  cases kind with
  | pair =>
      have hagree := typed_pairCatalogue.stretch_agrees unpaged_pairCatalogue hlist hlistShape
        hsortable hpage hpageShape s.pairs.all filters hoffset hlimit hfields
      unfold EntityKind.checkFilters
      cases hfilters : pairCatalogue.filters (.obj filters) with
      | error fault => rw [hfilters] at hagree; exact hagree
      | ok read => rw [hfilters] at hagree; exact hagree
  | token =>
      have hagree := typed_tokenCatalogue.stretch_agrees unpaged_tokenCatalogue hlist hlistShape
        hsortable hpage hpageShape s.tokens.all filters hoffset hlimit hfields
      unfold EntityKind.checkFilters
      cases hfilters : tokenCatalogue.filters (.obj filters) with
      | error fault => rw [hfilters] at hagree; exact hagree
      | ok read => rw [hfilters] at hagree; exact hagree

/-- Both show the second of two tokens that are liquid enough, and the type that is asked for. -/
theorem Store.shapes_agree_of_liquid_tokens :
    let token (id amount : String) : Token :=
      { identifier := id, analytics := { liquidityUSD := some amount } }
    let s := (Watched.ofHistory {} {} [.tokens (.put (token "c" "3") 0),
      .tokens (.put (token "b" "0.5") 0), .tokens (.put (token "a" "2") 0)]).store
    let filters : Json.Object := [("minLiquidity", .str "1")]
    let fields : List Field := [.plain "__typename", .plain "identifier"]
    ∃ items, s.respond .token "tokens" (listArguments filters 1 1) fields = .ok (.arr items) ∧
      s.respond .token "filteredTokens" (pageArguments filters 1 1) (nodeSelection fields) =
        .ok (pageOf items) ∧
      items = [.obj [("__typename", .str "EsdtToken"), ("identifier", .str "c")]] := by
  intro token s filters fields
  have hbound : 1 ≤ Paging.maxPosition := by decide
  have hfields : fields ≠ [] := List.cons_ne_nil _ _
  have hagree := Store.shapes_agree s .token (l := tokenCatalogue.listings[0])
    (m := tokenCatalogue.listings[1]) rfl rfl rfl rfl filters hbound hbound hfields
  have haccepted : EntityKind.checkFilters .token filters = .ok () := rfl
  rw [haccepted] at hagree
  obtain ⟨items, hlist, hpage⟩ := hagree
  have hshown : s.respond .token "tokens" (listArguments filters 1 1) fields =
      .ok (.arr [.obj [("__typename", .str "EsdtToken"), ("identifier", .str "c")]]) := rfl
  have hitems := Json.arr.inj (Except.ok.inj (hlist.symm.trans hshown))
  exact ⟨items, hlist, hpage, hitems⟩

end DexCache
