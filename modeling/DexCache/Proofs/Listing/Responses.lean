import DexCache.Proofs.Entity.ReadBack
import DexCache.Proofs.Listing.Arguments
import DexCache.Proofs.Listing.Listed
import DexCache.Proofs.Listing.Numbers
import DexCache.Proofs.Paging.Pages
import DexCache.Proofs.Projection.Routes

/-!
# What a listing answers

The arguments of a listing say which entities are asked for, by which number they are to be sorted
and which part of them is to be shown.  The answer shows this part, as a list or as a page whose
edges tell the position of each entity among all that were found.

What the texts in the arguments and in the entities stand for is said once for all listings:
numbers, positions and search terms, and the fields of what is shown.
-/

namespace DexCache

open Query (Field)

/-- The name of the listing of a kind that has this shape. -/
def EntityKind.query : EntityKind → ListingShape → String
  | .pair, .list => "pairs"
  | .pair, .connection => "filteredPairs"
  | .token, .list => "tokens"
  | .token, .connection => "filteredTokens"

/-- Every shape has a listing, and what it answers as a page can be sorted. -/
theorem EntityKind.listing?_query (kind : EntityKind) (shape : ListingShape) :
    ∃ l, kind.listing? (kind.query shape) = some l ∧ l.shape = shape ∧
      l.sortable = decide (l.shape = .connection) := by
  cases kind with
  | pair =>
      cases shape with
      | list => exact ⟨pairCatalogue.listings[0], rfl, rfl, rfl⟩
      | connection => exact ⟨pairCatalogue.listings[1], rfl, rfl, rfl⟩
  | token =>
      cases shape with
      | list => exact ⟨tokenCatalogue.listings[0], rfl, rfl, rfl⟩
      | connection => exact ⟨tokenCatalogue.listings[1], rfl, rfl, rfl⟩

namespace Catalogue

variable {α F K : Type}

/-- What a listing answers from the list `L`, whose arguments were read and whose cursors are at
these positions, where `number?` holds the numbers of the entities that can be sorted by. -/
structure Answers (c : Catalogue α F K) (number? : String → Option (α → ℚ)) (toJson : α → Json)
    (entityType pageType : String) (read : ListingArgs F)
    (positions : Option Nat × Option Nat) (Admits : α → Prop) [DecidablePred Admits]
    (stored L : List α) (respond : List Field → Except Query.Error Json) : Prop where
  listed : c.Listed read.sorting (stored.filter Admits) L
  only : ∀ other, c.Listed read.sorting (stored.filter Admits) other → other = L
  /-- The keys of a listing rank entities by these numbers, and there are no other keys. -/
  ranked : ∀ name, (c.sortKey? name).map c.rank = number? name
  /-- Entities that differ in a key are listed once each. -/
  once : ∀ key : α → String, (stored.map key).Nodup → (L.map key).Nodup
  /-- The checks may be made in any order. -/
  anyOrder : ∀ predicates, (c.predicates read.filters).Perm predicates →
    c.sort read.sorting (keep predicates stored) = L
  inside : (read.paging.window positions L.length).offset +
    (read.paging.window positions L.length).limit ≤ L.length
  /-- The window cuts out what is asked for, at its positions in the whole list. -/
  part : (read.paging.window positions L.length).cut L.zipIdx = read.paging.part positions L.zipIdx
  /-- A list shows the entities from an offset on, up to a limit. -/
  list : ∀ offset limit, read.paging = .slice offset limit → ∀ fields,
    respond fields = .ok (.arr (((L.drop offset).take limit).map fun a =>
      Projection.project (toJson a) fields entityType))
  /-- A page shows the entities that are asked for on its edges, each with the cursor of its
  position, and counts the whole list. -/
  page : ∀ args : Paging.PageArgs, read.paging = .page args → ∀ fields,
    respond fields = .ok (Projection.project
      (Paging.rawPage ((read.paging.part positions L.zipIdx).map (Prod.map toJson id))
        (read.paging.window positions L.length).offset L.length
        (Paging.hasMoreInFront positions.1 positions.2 args.first args.last defaultPageSize L)
        (Paging.hasMoreBehind positions.1 positions.2 args.first args.last defaultPageSize L))
      fields pageType)

/-- Arguments that decode are answered from the list that the listing is about. -/
theorem answers {c : Catalogue α F K} {number? : String → Option (α → ℚ)}
    (hranked : ∀ name, (c.sortKey? name).map c.rank = number? name)
    {Admits : F → α → Prop} [∀ f, DecidablePred (Admits f)]
    (hadmits : ∀ f a, (∀ check ∈ c.predicates f, check a = true) ↔ Admits f a) {name : String}
    {l : Listing} {args : Json.Object} {read : ListingArgs F}
    {positions : Option Nat × Option Nat} (hlisted : c.listing? name = some l)
    (hread : c.readArgs l args = .ok read) (hcursors : read.paging.cursors = .ok positions)
    (stored : List α) :
    c.Answers number? c.toJson c.entityType c.pageType read positions (Admits read.filters) stored
      (c.select read stored) (c.respond stored name args) := by
  let L := c.select read stored
  let w := read.paging.window positions L.length
  have hselect : c.Listed read.sorting (stored.filter (Admits read.filters ·)) L :=
    listed_select hadmits read stored
  have hinside : w.offset + w.limit ≤ L.length := Paging.Request.window_le _ _ _
  have hcut : w.cut L = read.paging.part positions L := Paging.Request.cut_window _ _ _
  have hpart : w.cut L.zipIdx = read.paging.part positions L.zipIdx := by
    rw [← Paging.Request.cut_window, List.length_zipIdx]
  refine {
    listed := hselect
    only := fun other hother => hother.unique hselect
    ranked := hranked
    once := fun key hkeys => ?_
    anyOrder := fun predicates hperm => ?_
    inside := hinside
    part := hpart
    list := fun offset limit hpaging fields => respond_list stored fields hlisted hread hpaging
    page := fun page hpaging fields => ?_ }
  · rw [(hselect.perm.map key).nodup_iff]
    exact hkeys.sublist (List.filter_sublist.map key)
  · rw [← keep_perm hperm, select]
  · rw [respond_page stored fields hlisted hread hpaging hcursors, ← hcut,
      Paging.page_eq_rawPage _ _ (Paging.Window.length_cut hinside), Paging.Window.zipIdx_cut,
      hpart]
    have hbetween : w = .between positions.1 positions.2 page.first page.last L.length
        defaultPageSize := by
      simp only [w, hpaging, Paging.Request.window]
    have hprevious : w.hasPreviousPage = Paging.hasMoreInFront positions.1 positions.2 page.first
        page.last defaultPageSize L := by
      rw [hbetween, Paging.Window.hasPreviousPage_eq_hasMoreInFront]
    have hnext : w.hasNextPage = Paging.hasMoreBehind positions.1 positions.2 page.first
        page.last defaultPageSize L := by
      rw [hbetween, Paging.Window.hasNextPage_eq_hasMoreBehind]
    rw [hprevious, hnext]

end Catalogue

/-- What the texts of a query stand for, and what is shown of an entity. -/
structure Listing.Conventions : Prop where
  /-- What is shown has the keys that are asked for, each with the answer to its field. -/
  projected : ∀ (raw : Json) (fields : List Field) (type : String),
    (fields.map Field.responseKey).Nodup →
      Projection.project raw fields type = .obj (fields.map fun f => (f.responseKey,
        if f.name = Projection.typenameField then .str type
        else if f.subfields = [] then (raw.get? f.name).getD .null
        else Projection.spread f.subfields (Schema.childType type f.name)
          ((raw.get? f.name).getD .null)))
  /-- The entity can be read back from what is projected. -/
  token : ∀ t : Token, Token.reader t.toJson = .ok t
  pair : ∀ p : Pair, p.info.Finite → Pair.reader p.toJson = .ok p
  /-- A decimal of any length, stored or given as a text, counts for the number that it writes. -/
  decimal : ∀ n : Query.Numeral, (Json.str n.text).amount? = Amount.ofText? n.text ∧
    (Amount.ofText? n.text).map Amount.value = if n.InRange then some n.value else none
  integer : ∀ i : Int, (Json.int i).amount?.map Amount.value = some (i : ℚ)
  /-- A cursor stands for the position that it was made for. -/
  cursor : ∀ n ≤ Paging.maxPosition, Paging.position (Paging.cursor n) = .ok n
  /-- The blanks around a search term do not count, and neither does its case. -/
  trimmed : ∀ front cs back : List Char, (∀ c ∈ front ++ back, c.isWhitespace = true) →
    (∀ c ∈ cs, 32 < c.toNat ∧ c.toNat < 127) → Text.trim (front ++ cs ++ back) = cs
  lowered : ∀ cs : List Char, (∀ c ∈ cs, c.toNat < 128) →
    Text.lowercase cs = cs.map Char.toLower

theorem Listing.conventions : Listing.Conventions where
  projected raw fields type hnodup := by
    rw [Projection.project_of_nodup hnodup]
    refine congrArg Json.obj (List.map_congr_left fun f _ => congrArg (Prod.mk f.responseKey) ?_)
    split
    · next hname => exact Projection.fieldValue_of_typename type hname
    · next hname =>
        split
        · next hleaf => exact Projection.fieldValue_of_leaf type hname hleaf
        · next hselected => exact Projection.fieldValue_of_subfields type hname hselected
  token t := t.takes.read _ (.same _)
  pair _ hfinite := (Pair.takes hfinite).read _ (.same _)
  decimal n := ⟨rfl, Amount.map_value_ofText? n⟩
  integer i := by simp [Json.amount?, Amount.value, Amount.ofInt]
  cursor _ hn := Paging.position_cursor hn
  trimmed front cs back hblank hvisible :=
    Text.trim_between (fun c hc => hblank c (List.mem_append_left back hc))
      (fun c hc => hblank c (List.mem_append_right front hc)) hvisible
  lowered _ hascii := Text.lowercase_ascii hascii

/-- Every listing answers arguments that decode from one list: the stored entities that its
filters admit, each once, sorted as asked or in the order of the store.  The filters, the sorting
and the part that is shown are those which the arguments hold under their names. -/
theorem Store.respond_answers (s : Store) (shape : ListingShape) :
    (∃ l, pairCatalogue.listing? (EntityKind.pair.query shape) = some l ∧
      ∀ args read positions, pairCatalogue.readArgs l args = .ok read →
        read.paging.cursors = .ok positions →
          read = ListingArgs.said shape PairFilter.names PairFilter.said args ∧
          ∃ L, pairCatalogue.Answers Pair.number? Pair.toJson Schema.pairType
            Schema.pairsPageType read positions read.filters.Admits s.pairs.all L
            (s.respond .pair (EntityKind.pair.query shape) args)) ∧
    (∃ l, tokenCatalogue.listing? (EntityKind.token.query shape) = some l ∧
      ∀ args read positions, tokenCatalogue.readArgs l args = .ok read →
        read.paging.cursors = .ok positions →
          read = ListingArgs.said shape TokenFilter.names TokenFilter.said args ∧
          ∃ L, tokenCatalogue.Answers Token.number? Token.toJson Schema.tokenType
            Schema.tokensPageType read positions read.filters.Admits s.tokens.all L
            (s.respond .token (EntityKind.token.query shape) args)) ∧
    Listing.Conventions := by
  refine ⟨?_, ?_, Listing.conventions⟩
  · obtain ⟨l, hlisted, rfl, hsortable⟩ := EntityKind.pair.listing?_query shape
    refine ⟨l, hlisted, fun args read positions hread hcursors =>
      ⟨?_, pairCatalogue.select read s.pairs.all, ?_⟩⟩
    · exact Catalogue.readArgs_eq_said PairFilter.holds_reader rfl hsortable hread
    · exact Catalogue.answers PairSortKey.map_rank PairFilter.forall_predicates_iff hlisted hread
        hcursors s.pairs.all
  · obtain ⟨l, hlisted, rfl, hsortable⟩ := EntityKind.token.listing?_query shape
    refine ⟨l, hlisted, fun args read positions hread hcursors =>
      ⟨?_, tokenCatalogue.select read s.tokens.all, ?_⟩⟩
    · exact Catalogue.readArgs_eq_said TokenFilter.holds_reader rfl hsortable hread
    · exact Catalogue.answers TokenSortKey.map_rank TokenFilter.forall_predicates_iff hlisted hread
        hcursors s.tokens.all

/-- Tokens of one liquidity, written in two ways, stay in the order of the store while the
others go down; the page behind the first of them shows the two. -/
theorem Store.respond_answers_of_equal_amounts :
    let token (id amount : String) : Token :=
      { identifier := id, analytics := { liquidityUSD := some amount } }
    let s := (Watched.ofHistory {} {} [.tokens (.put (token "d" "20") 0),
      .tokens (.put (token "c" "0.2") 0), .tokens (.put (token "b" "1.5") 0),
      .tokens (.put (token "a" "1.50") 0)]).store
    let args : Json.Object := [("filters", .obj [("minLiquidity", .str "1")]),
      ("sorting", .obj [("sortField", .str "LIQUIDITY"), ("sortOrder", .str "DESC")]),
      ("pagination", .obj [("after", .str (Paging.cursor 0))])]
    let read : ListingArgs TokenFilter := {
      filters := { minLiquidity := some (.ofInt 1) }
      sorting := some { field := some "LIQUIDITY", order := .descending }
      paging := .page { after := some (Paging.cursor 0) } }
    let edge (position : Nat) (id : String) : Json := .obj [
      ("cursor", .str (Paging.cursor position)), ("node", .obj [("identifier", .str id)])]
    tokenCatalogue.readArgs tokenCatalogue.listings[1] args = .ok read ∧
      read.paging.cursors = .ok (some 0, none) ∧
      ∃ L, tokenCatalogue.Answers Token.number? Token.toJson Schema.tokenType
          Schema.tokensPageType read (some 0, none) read.filters.Admits s.tokens.all L
          (s.respond .token "filteredTokens" args) ∧
        L.map Token.identifier = ["d", "a", "b"] ∧
        s.respond .token "filteredTokens" args [.withSubfields "edges"
            [.plain "cursor", .withSubfields "node" [.plain "identifier"]]] =
          .ok (.obj [("edges", .arr [edge 1 "a", edge 2 "b"])]) := by
  intro token s args read edge
  have hread : tokenCatalogue.readArgs tokenCatalogue.listings[1] args = .ok read := rfl
  have hcursors : read.paging.cursors = .ok (some 0, none) := rfl
  obtain ⟨l, hlisted, hanswers⟩ := (respond_answers s .connection).2.1
  obtain rfl : tokenCatalogue.listings[1] = l := Option.some.inj hlisted
  obtain ⟨-, L, hL⟩ := hanswers args read (some 0, none) hread hcursors
  let key := tokenCatalogue.keyOf .liquidity
  let equals := [token "a" "1.50", token "b" "1.5"]
  have hequals : equals.Pairwise fun x y => Sorting.inOrder .descending (key x) (key y) = true := by
    decide
  have hfirst : ∀ x ∈ equals,
      Sorting.inOrder .descending (key x) (key (token "d" "20")) = false := by decide
  have hlist : token "d" "20" :: equals = L := by
    rw [← hL.anyOrder _ (.refl _)]
    exact (Sorting.sortBy_concat hequals hfirst).symm
  refine ⟨hread, hcursors, L, hL, by rw [← hlist]; rfl, ?_⟩
  rw [← hlist] at hL
  exact hL.page _ rfl _

end DexCache
