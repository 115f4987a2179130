import DexCache.Listing.Pairs
import DexCache.Proofs.Interception.Joining
import DexCache.Proofs.Json.DistinctKeys
import Mathlib.Data.List.Pairwise

/-!
# Merging as a keyed union

Merging takes the resolver's half as it comes: its items may be null, may lack an identifier,
may be repeated and may stand in any order.  What each of them becomes depends on the one local
entity of its identifier alone, and is said look-up by look-up, since a value whose objects have
distinct keys is a map.
-/

namespace DexCache

namespace Listing

/-- The entities of an answer to the listing, with all that stands around each of them. -/
def rowsOf (l : Listing) (answer : Json) : List Json :=
  match l.shape with
  | .list => Json.itemsOf (some answer)
  | .connection => Json.itemsOf (answer.get? "edges")

/-- The identifier of an entity in an answer to the listing. -/
def rowName? (l : Listing) (row : Json) : Option String :=
  match l.shape with
  | .list => Interception.identifierOf? row l.identifierField
  | .connection => Interception.edgeIdentifier? l.identifierField row

end Listing

namespace Interception

open Json (Object)

/-- The local entity of a row's identifier, if there is one. -/
def IsPartner (idOf : Json → Option String) (locals : List Json) (row : Json)
    (here? : Option Json) : Prop :=
  ∀ v, here? = some v ↔ v ∈ locals ∧ ∃ name, idOf v = some name ∧ idOf row = some name

/-- An entity has become the union of its own keys and those of the local one, less an
identifier that was not asked for. -/
structure Joins (identifier : String) (forced : Bool) (here? : Option Json)
    (item item' : Json) : Prop where
  value : ∀ key, item'.get? key = if forced = true ∧ key = identifier then none
    else (item.get? key).or (here?.bind (·.get? key))
  object : ∀ o, item = .obj o → ∃ o' : Object, item' = .obj o' ∧ o'.keys.Nodup
  same : here? = none → (forced = true → item.get? identifier = none) → item' = item

/-- An edge has its entity joined, and the union of its other keys and those of the local
edge. -/
structure JoinsEdge (identifier : String) (forced : Bool) (here? : Option Json)
    (edge edge' : Json) : Prop where
  node : ∀ n, edge.get? "node" = some n → ∃ n', edge'.get? "node" = some n' ∧
    Joins identifier forced (here?.bind (·.get? "node")) n n'
  others : ∀ key, key ≠ "node" → edge'.get? key = (edge.get? key).or (here?.bind (·.get? key))
  object : ∀ o, edge = .obj o → ∃ o' : Object, edge' = .obj o' ∧ o'.keys.Nodup
  same : here? = none →
    (forced = true → ∀ n, edge.get? "node" = some n → n.get? identifier = none) → edge' = edge

section Partner

variable {idOf : Json → Option String} {locals : List Json}

/-- Local entities of one identifier are one entity. -/
theorem eq_of_identifier (h : (locals.filterMap idOf).Nodup) {name : String} {v w : Json}
    (hv : v ∈ locals) (hw : w ∈ locals) (hvname : idOf v = some name)
    (hwname : idOf w = some name) : v = w := by
  have : Std.Symm fun a b : Json => ∀ x, idOf a = some x → ∀ y, idOf b = some y → x ≠ y :=
    ⟨fun a b hab x hx y hy heq => hab y hy x hx heq.symm⟩
  by_contra hne
  exact (List.pairwise_filterMap.1 h).forall hv hw hne name hvname name hwname rfl

/-- Among local entities with distinct identifiers the one that is found is the only one. -/
theorem isPartner_bind (h : (locals.filterMap idOf).Nodup) (row : Json) :
    IsPartner idOf locals row ((idOf row).bind (withIdentifier? idOf locals)) := by
  intro v
  cases hrow : idOf row with
  | none => simp
  | some name =>
      simp only [Option.bind_some, Option.some.injEq]
      constructor
      · intro hfound
        refine ⟨List.mem_reverse.1 (List.mem_of_find?_eq_some hfound), name, ?_, rfl⟩
        simpa using List.find?_some hfound
      · rintro ⟨hv, other, hvname, rfl⟩
        refine Distinct.find?_of_unique (List.mem_reverse.2 hv) (by simpa using hvname) ?_
        intro w hw hwname
        exact eq_of_identifier h (List.mem_reverse.1 hw) hv (by simpa using hwname) hvname

end Partner

section Rows

variable {identifier : String} {forced : Bool} {here? : Option Json} {o : Object}

/-- A value filled up from the local one, if there is one. -/
def filledFrom (here? : Option Json) (v : Json) : Json :=
  match here? with
  | some here => v.fillFrom here
  | none => v

/-- An entity filled up from the local one, without an identifier that was not asked for. -/
def joinedWith (identifier : String) (forced : Bool) (here? : Option Json) (item : Json) : Json :=
  if forced then (filledFrom here? item).without identifier else filledFrom here? item

theorem exists_filledFrom (h : o.keys.Nodup) (here? : Option Json) :
    ∃ o' : Object, filledFrom here? (.obj o) = .obj o' ∧ o'.keys.Nodup ∧
      ∀ key, o'.get? key = (o.get? key).or (here?.bind (·.get? key)) := by
  cases here? with
  | some here => exact Json.exists_fillFrom h here
  | none => exact ⟨o, rfl, h, fun key => by simp⟩

/-- Where there is nothing to be found and nothing to be taken out, a value stays as it is. -/
theorem joinedWith_none {v : Json} (h : forced = true → v.get? identifier = none) :
    joinedWith identifier forced none v = v := by
  cases hforced : forced with
  | false => rfl
  | true => exact Json.without_of_get? (h hforced)

/-- Filling an entity up and taking the identifier out joins it. -/
theorem joins_obj (h : o.keys.Nodup) (identifier : String) (forced : Bool)
    (here? : Option Json) :
    Joins identifier forced here? (.obj o) (joinedWith identifier forced here? (.obj o)) := by
  obtain ⟨filled, heq, hnodup, hget⟩ := exists_filledFrom h here?
  have hsame : here? = none → (forced = true → (Json.obj o).get? identifier = none) →
      joinedWith identifier forced here? (.obj o) = .obj o := by
    rintro rfl hfree
    exact joinedWith_none hfree
  cases forced with
  | false =>
      refine ⟨fun key => ?_, fun _ _ => ⟨filled, heq, hnodup⟩, hsame⟩
      rw [joinedWith, if_neg Bool.false_ne_true, heq, if_neg (by simp)]
      exact hget key
  | true =>
      have hstripped : joinedWith identifier true here? (.obj o) =
          .obj (filled.swapErase identifier) := by
        rw [joinedWith, if_pos rfl, heq]
        rfl
      refine ⟨fun key => ?_, fun _ _ => ⟨_, hstripped, ?_⟩, hsame⟩
      · rw [hstripped]
        refine (Object.get?_swapErase hnodup identifier key).trans ?_
        simp only [true_and, hget key]
        rfl
      · exact Object.nodup_keys_swapErase hnodup identifier

/-- Nothing but an object has an identifier to be found by, so anything else stays as it is. -/
theorem joins_joinedWith {item : Json} (hitem : item.distinctKeys = true)
    (hobj : here?.isSome = true → ∃ o : Object, item = .obj o) :
    Joins identifier forced here? item (joinedWith identifier forced here? item) := by
  by_cases hitemObj : ∃ o : Object, item = .obj o
  · obtain ⟨o, rfl⟩ := hitemObj
    exact joins_obj (Json.distinctKeys_obj_iff.1 hitem).1 identifier forced here?
  · have hnone : here? = none := Option.not_isSome_iff_eq_none.1 fun h => hitemObj (hobj h)
    have hget : ∀ key, item.get? key = none := fun key =>
      Option.eq_none_iff_forall_ne_some.2 fun _ h => hitemObj (exists_obj_of_get? h)
    rw [hnone, joinedWith_none fun _ => hget identifier]
    exact ⟨fun key => by simp [hget], fun o ho => absurd ⟨o, ho⟩ hitemObj, fun _ _ => rfl⟩

theorem mergeItem_eq_joinedWith (identifier : String) (forced : Bool) (locals : List Json)
    (item : Json) : mergeItem identifier forced locals item =
      joinedWith identifier forced ((identifierOf? item identifier).bind
        (withIdentifier? (fun v => identifierOf? v identifier) locals)) item := rfl

/-- An edge filled up from the local one, its node first. -/
def filledEdge (here? : Option Json) (edge : Json) : Json :=
  match here? with
  | some here =>
    (match here.get? "node" with
      | some node => edge.modify "node" fun n => n.fillFrom node
      | none => edge).fillFrom here
  | none => edge

theorem mergeEdge_eq_filledEdge (identifier : String) (forced : Bool) (locals : List Json)
    (edge : Json) : mergeEdge identifier forced locals edge =
      let filled := filledEdge ((edgeIdentifier? identifier edge).bind
        (withIdentifier? (edgeIdentifier? identifier) locals)) edge
      if forced then filled.modify "node" fun n => n.without identifier else filled := rfl

/-- Filling an edge up fills its node from the local node, and leaves what it has. -/
theorem exists_filledEdge (h : o.keys.Nodup) (here? : Option Json) :
    ∃ o' : Object, filledEdge here? (.obj o) = .obj o' ∧ o'.keys.Nodup ∧
      (∀ n, o.get? "node" = some n →
        o'.get? "node" = some (filledFrom (here?.bind (·.get? "node")) n)) ∧
      ∀ key, key ≠ "node" → o'.get? key = (o.get? key).or (here?.bind (·.get? key)) := by
  cases here? with
  | none => exact ⟨o, rfl, h, fun n hn => hn, fun key _ => by simp⟩
  | some here =>
      have hnode : ∃ e : Object, (match here.get? "node" with
          | some node => (Json.obj o).modify "node" fun n => n.fillFrom node
          | none => .obj o) = .obj e ∧ e.keys.Nodup ∧
          e.get? "node" = (o.get? "node").map (filledFrom (here.get? "node")) ∧
          ∀ key, key ≠ "node" → e.get? key = o.get? key := by
        cases here.get? "node" with
        | some node => exact Json.exists_modify h "node" _
        | none => exact ⟨o, rfl, h, by cases o.get? "node" <;> rfl, fun _ _ => rfl⟩
      obtain ⟨e, heq, he, hthere, hothers⟩ := hnode
      obtain ⟨o', heq', ho', hget⟩ := Json.exists_fillFrom he here
      refine ⟨o', by rw [filledEdge, heq, heq'], ho', fun n hn => ?_, fun key hkey => ?_⟩
      · rw [hget, hthere, hn]
        rfl
      · rw [hget, hothers key hkey]
        rfl

theorem exists_obj_of_identifierOf? {v : Json} {name : String}
    (h : identifierOf? v identifier = some name) : ∃ o : Object, v = .obj o := by
  obtain ⟨value, hvalue, -⟩ := Option.bind_eq_some_iff.1 h
  exact exists_obj_of_get? hvalue

theorem exists_obj_of_edgeIdentifier? {edge n : Json} {name : String}
    (h : edgeIdentifier? identifier edge = some name) (hn : edge.get? "node" = some n) :
    ∃ o : Object, n = .obj o := by
  obtain ⟨node, hnode, hname⟩ := Option.bind_eq_some_iff.1 h
  obtain rfl : n = node := Option.some.inj (hn.symm.trans hnode)
  exact exists_obj_of_identifierOf? hname

/-- An edge that is an object is filled up and its node joined. -/
theorem joinsEdge_obj (h : (Json.obj o).distinctKeys = true) (forced : Bool)
    (locals : List Json) :
    JoinsEdge identifier forced ((edgeIdentifier? identifier (.obj o)).bind
        (withIdentifier? (edgeIdentifier? identifier) locals))
      (.obj o) (mergeEdge identifier forced locals (.obj o)) := by
  rw [mergeEdge_eq_filledEdge]
  generalize hhere : (edgeIdentifier? identifier (.obj o)).bind
    (withIdentifier? (edgeIdentifier? identifier) locals) = here?
  have hnodup := (Json.distinctKeys_obj_iff.1 h).1
  obtain ⟨filled, heq, hfilled, hnode, hothers⟩ := exists_filledEdge hnodup here?
  -- the node of an edge that has a partner is an object
  have hjoins : ∀ n, o.get? "node" = some n →
      Joins identifier forced (here?.bind (·.get? "node")) n
        (joinedWith identifier forced (here?.bind (·.get? "node")) n) := by
    intro n hn
    refine joins_joinedWith (Json.distinctKeys_of_get? h hn) fun hsome => ?_
    obtain ⟨_, hfound⟩ := Option.isSome_iff_exists.1 hsome
    obtain ⟨here, rfl, -⟩ := Option.bind_eq_some_iff.1 hfound
    obtain ⟨name, hname, -⟩ := Option.bind_eq_some_iff.1 hhere
    exact exists_obj_of_edgeIdentifier? hname hn
  cases forced with
  | false =>
      show JoinsEdge identifier false here? (.obj o) (filledEdge here? (.obj o))
      refine ⟨fun n hn => ⟨_, ?_, hjoins n hn⟩, ?_, fun _ _ => ⟨filled, heq, hfilled⟩, ?_⟩
      · rw [heq]
        exact hnode n hn
      · rw [heq]
        exact hothers
      · rintro rfl -
        rfl
  | true =>
      show JoinsEdge identifier true here? (.obj o)
        ((filledEdge here? (.obj o)).modify "node" fun n => n.without identifier)
      obtain ⟨stripped, heq', hstripped, hthere, hrest⟩ :=
        Json.exists_modify hfilled "node" fun n => n.without identifier
      rw [heq, heq']
      refine ⟨fun n hn => ⟨_, ?_, hjoins n hn⟩, fun key hkey => ?_,
        fun _ _ => ⟨stripped, rfl, hstripped⟩, ?_⟩
      · refine hthere.trans ?_
        rw [hnode n hn]
        rfl
      · exact (hrest key hkey).trans (hothers key hkey)
      · rintro rfl hfree
        obtain rfl : o = filled := Json.obj.inj heq
        rw [← heq']
        exact Json.modify_of_get? hnodup fun n hn => Json.without_of_get? (hfree rfl n hn)

/-- Nothing but an object has a node, so any other edge stays as it is. -/
theorem joinsEdge_mergeEdge {edge : Json} (hedge : edge.distinctKeys = true) (forced : Bool)
    (locals : List Json) :
    JoinsEdge identifier forced ((edgeIdentifier? identifier edge).bind
        (withIdentifier? (edgeIdentifier? identifier) locals))
      edge (mergeEdge identifier forced locals edge) := by
  by_cases hobj : ∃ o : Object, edge = .obj o
  · obtain ⟨o, rfl⟩ := hobj
    exact joinsEdge_obj hedge forced locals
  · have hget : ∀ key, edge.get? key = none := fun key =>
      Option.eq_none_iff_forall_ne_some.2 fun _ h => hobj (exists_obj_of_get? h)
    have hsame : mergeEdge identifier forced locals edge = edge := by
      have hname : edgeIdentifier? identifier edge = none := by
        rw [edgeIdentifier?, hget, Option.bind_none]
      rw [mergeEdge_eq_filledEdge, hname]
      cases edge with
      | obj o => exact absurd ⟨o, rfl⟩ hobj
      | _ => cases forced <;> rfl
    rw [hsame, edgeIdentifier?, hget]
    refine ⟨fun n hn => ?_, fun key _ => by simp [hget], fun o ho => absurd ⟨o, ho⟩ hobj,
      fun _ _ => rfl⟩
    rw [hget] at hn
    cases hn

end Rows

section Answers

variable {l : Listing} {forced : Bool} {resolved here : Json}

/-- Each item of a list is joined with the local entity of its identifier. -/
theorem merge_items (hshape : l.shape = .list) {items : List Json}
    (hitems : ∀ v ∈ items, v.distinctKeys = true)
    (hids : ((l.rowsOf here).filterMap l.rowName?).Nodup) :
    ∃ items', merge l forced (.arr items) here = .arr items' ∧
      List.Forall₂ (fun item item' => ∃ here?, IsPartner l.rowName? (l.rowsOf here) item here? ∧
        Joins l.identifierField forced here? item item') items items' := by
  have hrows : l.rowsOf here = Json.itemsOf (some here) := by rw [Listing.rowsOf, hshape]
  have hnames : l.rowName? = fun v => identifierOf? v l.identifierField := by
    funext v
    rw [Listing.rowName?, hshape]
  refine ⟨_, by rw [merge, hshape], List.forall₂_map_right_iff.2 ?_⟩
  refine List.forall₂_same.2 fun item hitem => ⟨_, isPartner_bind hids item, ?_⟩
  rw [mergeItem_eq_joinedWith, hrows, hnames]
  refine joins_joinedWith (hitems item hitem) fun hsome => ?_
  obtain ⟨_, hfound⟩ := Option.isSome_iff_exists.1 hsome
  obtain ⟨name, hname, -⟩ := Option.bind_eq_some_iff.1 hfound
  exact exists_obj_of_identifierOf? hname

/-- Each edge of a page is joined with the local edge of its node's identifier, and the page is
filled up from the local page. -/
theorem merge_edges (hshape : l.shape = .connection) {page : Object} {edges : List Json}
    (hpage : (Json.obj page).distinctKeys = true) (hedges : page.get? "edges" = some (.arr edges))
    (hids : ((l.rowsOf here).filterMap l.rowName?).Nodup) :
    ∃ (page' : Object) (edges' : List Json), merge l forced (.obj page) here = .obj page' ∧
      page'.keys.Nodup ∧ page'.get? "edges" = some (.arr edges') ∧
      List.Forall₂ (fun edge edge' => ∃ here?, IsPartner l.rowName? (l.rowsOf here) edge here? ∧
        JoinsEdge l.identifierField forced here? edge edge') edges edges' ∧
      ∀ key, key ≠ "edges" → page'.get? key = (page.get? key).or (here.get? key) := by
  have hrows : l.rowsOf here = Json.itemsOf (here.get? "edges") := by rw [Listing.rowsOf, hshape]
  have hnames : l.rowName? = edgeIdentifier? l.identifierField := by
    funext v
    rw [Listing.rowName?, hshape]
  obtain ⟨f, hmerge, hf⟩ : ∃ f : Json → Json, merge l forced (.obj page) here =
        ((Json.obj page).modify "edges" f).fillFrom here ∧
      ∀ items, f (.arr items) = .arr (items.map (mergeEdge l.identifierField forced
        (Json.itemsOf (here.get? "edges")))) := by
    unfold merge
    rw [hshape]
    exact ⟨_, rfl, fun _ => rfl⟩
  obtain ⟨edged, heq, hedged, hthere, hrest⟩ :=
    Json.exists_modify (Json.distinctKeys_obj_iff.1 hpage).1 "edges" f
  obtain ⟨page', heq', hpage', hget⟩ := Json.exists_fillFrom hedged here
  rw [hedges] at hthere
  refine ⟨page', edges.map (mergeEdge l.identifierField forced
    (Json.itemsOf (here.get? "edges"))), ?_, hpage', ?_, List.forall₂_map_right_iff.2 ?_,
    fun key hkey => ?_⟩
  · rw [hmerge, heq, heq']
  · rw [hget, hthere, Option.map_some, hf]
    rfl
  · refine List.forall₂_same.2 fun edge hedge => ⟨_, isPartner_bind hids edge, ?_⟩
    have hall := Json.distinctKeys_of_get? hpage hedges
    have hdistinct := Json.distinctKeys_arr_iff.1 hall edge hedge
    rw [hrows, hnames]
    exact joinsEdge_mergeEdge hdistinct forced _
  · rw [hget, hrest key hkey]

/-- Merging is a keyed union: the resolver's rows stay in number and order, each of them is
joined with the local row of its identifier, and local rows of other identifiers add nothing. -/
theorem merge_union (l : Listing) (forced : Bool) {resolved here : Json}
    (hresolved : resolved.distinctKeys = true)
    (hids : ((l.rowsOf here).filterMap l.rowName?).Nodup) :
    (l.shape = .list →
      (∀ items, resolved = .arr items → ∃ items', merge l forced resolved here = .arr items' ∧
        List.Forall₂ (fun item item' => ∃ here?,
          IsPartner l.rowName? (l.rowsOf here) item here? ∧
            Joins l.identifierField forced here? item item') items items') ∧
      (resolved.items? = none → merge l forced resolved here = resolved)) ∧
    (l.shape = .connection → ∀ (page : Object) (edges : List Json), resolved = .obj page →
      page.get? "edges" = some (.arr edges) →
      ∃ (page' : Object) (edges' : List Json), merge l forced resolved here = .obj page' ∧
        page'.keys.Nodup ∧ page'.get? "edges" = some (.arr edges') ∧
        List.Forall₂ (fun edge edge' => ∃ here?,
          IsPartner l.rowName? (l.rowsOf here) edge here? ∧
            JoinsEdge l.identifierField forced here? edge edge') edges edges' ∧
        ∀ key, key ≠ "edges" → page'.get? key = (page.get? key).or (here.get? key)) := by
  refine ⟨fun hshape => ⟨?_, fun hother => ?_⟩, ?_⟩
  · rintro items rfl
    exact merge_items hshape (Json.distinctKeys_arr_iff.1 hresolved) hids
  · unfold merge
    rw [hshape]
    cases resolved with
    | arr items => cases hother
    | _ => rfl
  · rintro hshape page edges rfl hedges
    exact merge_edges hshape hresolved hedges hids

/-- The resolver's edges stay as many, with a null among them, an edge without an identifier and
one pair twice, and the page gets what it lacks. -/
theorem merge_union_of_page :
    let l : Listing := ⟨"filteredPairs", .connection, "address", pairMissingFields, true⟩
    let edge : Json := .obj [("node", .obj [("address", .str "b"), ("feesCollector", .str "c")])]
    let page : Object := [("edges", .arr [edge, .null, .obj [("node", .null)], edge])]
    let here : Json := .obj [
      ("edges", .arr [
        .obj [("cursor", .str "0"), ("node", .obj [("address", .str "a")])],
        .obj [("cursor", .str "1"), ("node", .obj [("address", .str "b"), ("state", .null)])]]),
      ("pageInfo", .null)]
    (Json.obj page).distinctKeys = true ∧ ((l.rowsOf here).filterMap l.rowName?).Nodup ∧
      ∃ (page' : Object) (edges' : List Json), merge l true (.obj page) here = .obj page' ∧
        page'.get? "edges" = some (.arr edges') ∧ edges'.length = 4 ∧
        page'.get? "pageInfo" = some .null := by
  intro l edge page here
  have hpage : (Json.obj page).distinctKeys = true := by decide
  have hids : ((l.rowsOf here).filterMap l.rowName?).Nodup := by decide
  refine ⟨hpage, hids, ?_⟩
  obtain ⟨page', edges', heq, -, hthere, hedges, hothers⟩ :=
    (merge_union l true hpage hids).2 rfl page _ rfl rfl
  exact ⟨page', edges', heq, hthere, hedges.length_eq.symm, hothers "pageInfo" (by decide)⟩

/-- A local entity fills up each item of its identifier, whatever its place. -/
example :
    merge ⟨"pairs", .list, "address", pairMissingFields, false⟩ true
        (.arr [.obj [("address", .str "b")], .null, .obj [("address", .str "c")]])
        (.arr [.obj [("address", .str "a"), ("state", .null)],
          .obj [("address", .str "b"), ("state", .bool true)]]) =
      .arr [.obj [("state", .bool true)], .null, .obj []] := by
  decide

end Answers

end Interception

end DexCache
