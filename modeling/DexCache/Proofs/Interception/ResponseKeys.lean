import DexCache.Proofs.Interception.JoinedKeys
import DexCache.Proofs.Interception.Transparency
import DexCache.Proofs.Store.Parts

/-!
# The response keys of a claimed field

A field that the store answers alone comes back with exactly the response keys that were asked
for.  A field that it shares with the resolver does so under one condition: no field is aliased
onto the identifier, and the entities of a page stand under the keys `edges` and `node`.  The
main statement follows this through a whole execution, for every query without a repeated
response key and every resolver that answers what it is asked in full.
-/

namespace DexCache

open Json (Object)
open Query (Field Operation)

/-- Does no selection set of an operation repeat a response key? -/
@[mk_iff]
structure Query.Operation.Distinct (op : Operation) : Prop where
  selections : (op.selections.map Field.responseKey).Nodup
  below : ∀ f ∈ op.selections, f.all Field.isDistinct = true

instance (op : Operation) : Decidable op.Distinct :=
  decidable_of_iff' _ (Query.Operation.distinct_iff op)

/-- Can the two halves of an answer be joined under the keys that the selection asks for? -/
structure Listing.KeepsKeys (l : Listing) (f : Field) : Prop where
  unhidden : ∀ g ∈ l.entityFields f, g.alias? ≠ some l.identifierField
  path : l.shape = .connection → ∀ edges ∈ f.subfield? "edges", edges.responseKey = "edges" ∧
    ∀ node ∈ edges.subfield? "node", node.responseKey = "node"

namespace Listing

variable {l : Listing} {f edges node : Field}

theorem keepsKeys_iff_of_list (hshape : l.shape = .list) :
    l.KeepsKeys f ↔ ∀ g ∈ l.entityFields f, g.alias? ≠ some l.identifierField := by
  refine ⟨KeepsKeys.unhidden, fun h => ⟨h, fun hpage => ?_⟩⟩
  rw [hshape] at hpage
  cases hpage

theorem keepsKeys_iff_of_page (hshape : l.shape = .connection)
    (hedges : f.subfield? "edges" = some edges) (hnode : edges.subfield? "node" = some node) :
    l.KeepsKeys f ↔ edges.responseKey = "edges" ∧ node.responseKey = "node" ∧
      ∀ g ∈ l.entityFields f, g.alias? ≠ some l.identifierField := by
  constructor
  · intro h
    obtain ⟨hedgesKey, hnodeKey⟩ := h.path hshape edges hedges
    exact ⟨hedgesKey, hnodeKey node hnode, h.unhidden⟩
  · rintro ⟨hedgesKey, hnodeKey, hunhidden⟩
    refine ⟨hunhidden, fun _ edges' hedges' => ?_⟩
    obtain rfl := Option.some.inj (hedges.symm.trans hedges')
    refine ⟨hedgesKey, fun node' hnode' => ?_⟩
    obtain rfl := Option.some.inj (hnode.symm.trans hnode')
    exact hnodeKey

end Listing

/-- Items in the form of the listing's answer, with nothing beside them. -/
def Listing.wrap (l : Listing) (items : List Json) : Json :=
  match l.shape with
  | .list => .arr items
  | .connection => .obj [("edges", .arr (items.map fun v => .obj [("node", v)]))]

/-- The names of the entities that a listing finds in the store. -/
def Store.namesFound (s : Store) (kind : EntityKind) (name : String) (args : Object) :
    Except Query.Error (List String) :=
  match kind with
  | .pair =>
    (pairCatalogue.cut s.pairs.all name args).map fun found => found.entities.map Entity.id
  | .token =>
    (tokenCatalogue.cut s.tokens.all name args).map fun found => found.entities.map Entity.id

namespace Interception

/-- Is a value the full answer to what is sent of a field that is shared, about entities of
these names in any order? -/
def InFull (l : Listing) (f : Field) (names : List String) (resolved : Json) : Prop :=
  ∃ items, Sent l (l.entityFields f) names items ∧ resolved = l.wrap items

section Cut

variable {α : Type} {found : Catalogue.Cut α} {f : Field} {raw : α → Json} {name : α → String}

/-- The joined halves of an answer have the keys that were asked for if the selection allows it,
and otherwise only where there are no entities. -/
theorem keyed_merge_show_iff (hdistinct : f.all Field.isDistinct = true)
    (hidentifier : found.listing.isMissing found.listing.identifierField = false)
    (htypename : found.listing.identifierField ≠ Projection.typenameField)
    (hmissing : missingFields found.listing f ≠ [])
    (hraw : ∀ e, (raw e).get? found.listing.identifierField = some (.str (name e)))
    {resolved : Json} (hfull : InFull found.listing f (found.entities.map name) resolved)
    (entityType pageType : String) :
    Keyed f.subfields (merge found.listing
        (forces found.listing (found.listing.entityFields f)) resolved
        (found.show entityType pageType raw (localSelection found.listing f
          (hereFields found.listing (found.listing.entityFields f))))) ↔
      found.listing.KeepsKeys f ∨ found.entities = [] ∧
        (found.listing.shape = .connection → "edges" ∈ f.subfields.map Field.responseKey) := by
  obtain ⟨items, hsent, rfl⟩ := hfull
  obtain ⟨g, hg⟩ := List.exists_mem_of_ne_nil _ hmissing
  obtain ⟨hg, hgmissing⟩ := List.mem_filter.1 hg
  unfold Catalogue.Cut.show localSelection Listing.wrap
  cases hshape : found.listing.shape with
  | list =>
      have hfields : found.listing.entityFields f = f.subfields := by
        rw [Listing.entityFields, hshape]
      rw [hfields] at hsent ⊢
      have hhalved : Halved found.listing f.subfields found.entities name raw :=
        ⟨Field.nodup_of_all hdistinct, fun g hg => Field.all_of_mem hdistinct hg,
          ⟨g, hfields ▸ hg, hgmissing⟩, hidentifier, htypename, fun e _ => hraw e⟩
      simp only
      rw [keyed_merge_list_iff hshape hhalved hsent entityType, or_comm,
        Listing.keepsKeys_iff_of_list hshape, hfields]
      simp
  | connection =>
      have hselected : found.listing.entityFields f ≠ [] := List.ne_nil_of_mem hg
      obtain ⟨edges, node, hedges, hnode, hfields⟩ := Listing.exists_node hshape hselected
      have hnodeDistinct : node.all Field.isDistinct = true :=
        Field.all_of_mem (Field.all_of_mem hdistinct (List.mem_of_find?_eq_some hedges))
          (List.mem_of_find?_eq_some hnode)
      have hhalved : Halved found.listing (found.listing.entityFields f) found.entities.zipIdx
          (fun n => name n.1) (fun n => raw n.1) :=
        ⟨hfields ▸ Field.nodup_of_all hnodeDistinct,
          hfields ▸ fun g hg => Field.all_of_mem hnodeDistinct hg, ⟨g, hg, hgmissing⟩,
          hidentifier, htypename, fun n _ => hraw n.1⟩
      rw [← Paging.map_zipIdx] at hsent
      simp only
      rw [keyed_merge_page_iff hshape hhalved hsent (Field.nodup_of_all hdistinct)
          (fun g hg => Field.all_of_mem hdistinct hg) hedges hnode hfields.symm
          (Paging.page_edges _ raw _ _) pageType,
        Listing.keepsKeys_iff_of_page hshape hedges hnode, List.zipIdx_eq_nil_iff]
      simp

end Cut

/-- Is a shared field given the response keys that it asks for? -/
def Shared.KeepsKeys (s : Store) (part : Shared) : Prop :=
  part.listing.KeepsKeys part.asked ∨
    s.namesFound part.kind part.asked.name part.arguments = .ok [] ∧
      (part.listing.shape = .connection →
        "edges" ∈ part.asked.subfields.map Field.responseKey)

section Store

variable {s : Store} {now : Int} {supplied arguments : Object} {kind : EntityKind} {l : Listing}
  {f : Field}

/-- An answer of the store has the keys that are asked for. -/
theorem keyed_respond (hdistinct : f.all Field.isDistinct = true) {query : String} {value : Json}
    (h : s.respond kind query arguments f.subfields = .ok value) : Keyed f.subfields value := by
  cases kind with
  | pair =>
      obtain ⟨found, -, rfl⟩ := Outcome.map_eq_ok_iff.1 ((pairCatalogue.respond_eq ..).symm.trans h)
      exact keyed_show found hdistinct _ _ _
  | token =>
      obtain ⟨found, -, rfl⟩ :=
        Outcome.map_eq_ok_iff.1 ((tokenCatalogue.respond_eq ..).symm.trans h)
      exact keyed_show found hdistinct _ _ _

/-- Does a way of answering a listing show entities of these names, whatever is selected? -/
def ShowsNames (l : Listing) (names : List String)
    (respond : List Field → Except Query.Error Json) : Prop :=
  ∃ (α : Type) (found : Catalogue.Cut α) (raw : α → Json) (name : α → String)
    (entityType pageType : String), found.listing = l ∧ found.entities.map name = names ∧
      (∀ e, (raw e).get? l.identifierField = some (.str (name e))) ∧
      ∀ fields, respond fields = .ok (found.show entityType pageType raw fields)

theorem showsNames_of_cut {α F K G P : Type} [FieldGroup G] [Entity α G P] [Parted α G P]
    {c : Catalogue α F K} (htoJson : c.toJson = Entity.toJson)
    (hidentifier : ∀ l ∈ c.listings, l.identifierField = Parted.identifier α) {query : String}
    (hlisted : c.listing? query = some l) {entities : List α} {names : List String}
    (h : (c.cut entities query arguments).map (fun found => found.entities.map Entity.id) =
      .ok names) : ShowsNames l names (c.respond entities query arguments) := by
  obtain ⟨found, hcut, rfl⟩ := Outcome.map_eq_ok_iff.1 h
  have hlisting : found.listing = l :=
    Option.some.inj ((Catalogue.listing?_of_cut hcut).symm.trans hlisted)
  refine ⟨α, found, Entity.toJson, Entity.id, c.entityType, c.pageType, hlisting, rfl,
    fun e => ?_, fun fields => ?_⟩
  · rw [hidentifier l (Catalogue.mem_of_listing? hlisted)]
    exact get?_identifier e
  · rw [c.respond_eq, hcut, htoJson]
    rfl

/-- A listing that finds entities shows them. -/
theorem showsNames_of_namesFound {query : String} {names : List String}
    (hlisted : listing? query = some (kind, l))
    (h : s.namesFound kind query arguments = .ok names) :
    ShowsNames l names (s.respond kind query arguments) := by
  obtain ⟨hkind, -⟩ := mem_listings_of_listing? hlisted
  cases kind with
  | pair =>
      have hidentifier : ∀ l ∈ pairCatalogue.listings,
          l.identifierField = Parted.identifier Pair := by decide
      exact showsNames_of_cut rfl hidentifier hkind h
  | token =>
      have hidentifier : ∀ l ∈ tokenCatalogue.listings,
          l.identifierField = Parted.identifier Token := by decide
      exact showsNames_of_cut rfl hidentifier hkind h

/-- A shared field for which entities are found has a value, whatever the resolver gave. -/
theorem exists_value_of_namesFound {part : Shared}
    (hlisted : listing? part.asked.name = some (part.kind, part.listing)) {names : List String}
    (h : s.namesFound part.kind part.asked.name part.arguments = .ok names) (resolved : Json) :
    ∃ value, part.value s resolved = .ok value := by
  obtain ⟨_, found, _, _, _, _, -, -, -, hrespond⟩ := showsNames_of_namesFound hlisted h
  by_cases hnull : resolved = .null
  · subst hnull
    exact ⟨_, hrespond _⟩
  · rw [part.value_of_ne_null hnull, hrespond]
    exact ⟨_, rfl⟩

/-- The value of a shared field that the resolver answers in full. -/
theorem keyed_value_iff (hclaimable : Claimable s now supplied f kind l arguments)
    (hmissing : missingFields l f ≠ []) {sent : Field} {part : Shared}
    (hshare : share kind l f arguments = .shared sent part)
    (hdistinct : f.all Field.isDistinct = true) {names : List String}
    (hnames : s.namesFound part.kind part.asked.name part.arguments = .ok names) {resolved : Json}
    (hfull : InFull part.listing part.asked names resolved) {value : Json}
    (hvalue : part.value s resolved = .ok value) :
    Keyed f.subfields value ↔ part.KeepsKeys s := by
  obtain ⟨-, rfl⟩ := Claim.shared.inj hshare
  have hlisted := hclaimable.listed
  obtain ⟨_, found, raw, name, entityType, pageType, rfl, rfl, hraw, hrespond⟩ :=
    showsNames_of_namesFound hlisted hnames
  have hnull : resolved ≠ .null := by
    obtain ⟨items, -, rfl⟩ := hfull
    unfold Listing.wrap
    split <;> simp
  rw [Shared.value_of_ne_null _ hnull, hrespond] at hvalue
  obtain rfl := Outcome.pure_eq_ok_iff.1 hvalue
  refine (keyed_merge_show_iff hdistinct (isMissing_identifierField hlisted)
    (identifierField_ne_typename hlisted) hmissing hraw hfull entityType pageType).trans ?_
  rw [Shared.KeepsKeys, hnames]
  simp

end Store

section Execution

open Pipeline (Notes execute follow outgoing settle)

variable {X : Type} {v : View} {context : Context X} {p : Plan} {f : Field}

/-- A field that a hook which acts takes something of is answered, or it is shared. -/
theorem Acting.handled_cases (h : Acting v context p) (hf : f ∈ context.operation.selections)
    (hclaimed : handled v context f ≠ .declined) :
    (∃ value kind arguments, handled v context f = .answered value ∧
        v.store.respond kind f.name arguments f.subfields = .ok value) ∨
      ∃ sent part kind l arguments, handled v context f = .shared sent part ∧
        Claimable v.store v.now context.variableValues f kind l arguments ∧
        missingFields l f ≠ [] ∧ share kind l f arguments = .shared sent part := by
  rw [h.handled_eq] at hclaimed ⊢
  rcases claim_cases (h.claims f hf) with hdeclined | ⟨kind, l, arguments, hclaimable, hcase⟩
  · exact absurd hdeclined hclaimed
  · rcases hcase with ⟨-, value, hvalue, htaken⟩ | ⟨hmissing, htaken⟩
    · exact .inl ⟨value, kind, arguments, htaken, hvalue⟩
    · exact .inr ⟨_, _, kind, l, arguments, htaken, hclaimable, hmissing, rfl⟩

/-- The store's part of a field is about the listing of the field. -/
theorem Acting.listed_of_part (h : Acting v context p) (hf : f ∈ context.operation.selections)
    {part : Shared} (hpart : part ∈ (handled v context f).part?) :
    listing? part.asked.name = some (part.kind, part.listing) := by
  have hclaimed : handled v context f ≠ .declined := by
    intro heq
    rw [heq] at hpart
    cases hpart
  rcases h.handled_cases hf hclaimed with
    ⟨_, _, _, hc, -⟩ | ⟨_, _, _, _, _, hc, hclaimable, -, hshare⟩
  · rw [hc] at hpart
    cases hpart
  · rw [hc] at hpart
    obtain rfl := Option.some.inj hpart
    obtain ⟨-, rfl⟩ := Claim.shared.inj hshare
    exact hclaimable.listed

/-- A query that is answered from the store alone has the keys that were asked for. -/
theorem Acting.exists_answered (h : Acting v context p)
    (hdistinct : (context.operation.selections.map Field.responseKey).Nodup)
    (hf : f ∈ context.operation.selections) (hbelow : f.all Field.isDistinct = true)
    (hnone : context.operation.selections.filterMap
      (leftOf v.store v.now context.variableValues) = []) :
    ∃ value, handled v context f = .answered value ∧ Keyed f.subfields value ∧
      (Object.ofEntries p.answered).get? f.responseKey = some value := by
  have hleft := List.filterMap_eq_nil_iff.1 hnone f hf
  rw [leftOf, ← h.handled_eq] at hleft
  have hclaimed : handled v context f ≠ .declined := by
    intro heq
    rw [heq] at hleft
    cases hleft
  rcases h.handled_cases hf hclaimed with
    ⟨value, kind, arguments, hc, hanswer⟩ | ⟨_, _, _, _, _, hc, -⟩
  · have htaken := (h.handled_eq f).symm.trans hc
    have hkeys : (p.answered.map Prod.fst).Nodup := by
      rw [h.planned]
      exact hdistinct.sublist (Distinct.sublist_map_filterMap key_of_answer?)
    refine ⟨value, hc, keyed_respond hbelow hanswer, ?_⟩
    rw [Object.ofEntries_of_nodup hkeys, Object.get?_eq_some_iff hkeys, h.planned]
    exact List.mem_filterMap.2 ⟨f, hf, by rw [htaken]; rfl⟩
  · rw [hc] at hleft
    cases hleft

variable [PlanSlot X]

/-- Are these data the full answer to what a hook leaves of a query for the resolver, about the
entities that the store finds for the shared fields? -/
structure FullAnswer (v : View) (context : Context X) (data : Object) : Prop where
  keys : data.keys.Perm ((forResolver (before v context)).map Field.responseKey)
  shared : ∀ f ∈ context.operation.selections, ∀ part ∈ (handled v context f).part?,
    ∃ names resolved, v.store.namesFound part.kind part.asked.name part.arguments = .ok names ∧
      data.get? f.responseKey = some resolved ∧ InFull part.listing part.asked names resolved

/-- A plan that is carried out on a full answer gives each field that is claimed a value, with
the keys that were asked for if a field that is shared allows it. -/
theorem Acting.exists_complete (h : Acting v context p)
    (hdistinct : (context.operation.selections.map Field.responseKey).Nodup)
    (hbelow : ∀ f ∈ context.operation.selections, f.all Field.isDistinct = true) {data : Object}
    (hfull : FullAnswer v context data) :
    ∃ result, p.complete v.store data = .ok result ∧ ∀ f ∈ context.operation.selections,
      handled v context f ≠ .declined → ∃ value, result.get? f.responseKey = some value ∧
        (Keyed f.subfields value ↔
          ∀ part ∈ (handled v context f).part?, part.KeepsKeys v.store) := by
  have hleftKey := responseKey_of_leftOf h.claims
  have hkeys := hfull.keys
  rw [h.forResolver_eq] at hkeys
  have hdata : data.keys.Nodup :=
    hkeys.nodup_iff.2 (hdistinct.sublist (Distinct.sublist_map_filterMap hleftKey))
  -- every shared field has a value, so the plan can be carried out
  have hparts (part : Shared) (hpart : part ∈ p.shared) (resolved : Json) :
      ∃ value, part.value v.store resolved = .ok value := by
    rw [h.planned] at hpart
    obtain ⟨f, hf, hpart⟩ := List.mem_filterMap.1 hpart
    rw [← h.handled_eq] at hpart
    obtain ⟨names, _, hnames, -⟩ := hfull.shared f hf part hpart
    exact exists_value_of_namesFound (h.listed_of_part hf hpart) hnames resolved
  obtain ⟨added, hadded⟩ := exists_foldlM_addShared hparts data
  have hcomplete : p.complete v.store data = .ok (reorder
      (p.answered.foldl (fun data a => data.insert a.1 a.2) added) p.order) := by
    rw [Plan.complete, hadded]
    rfl
  refine ⟨_, hcomplete, ?_⟩
  have hp := h.planned
  subst hp
  have hpartKey := key_of_part? h.claims
  obtain ⟨value, hresult, hanswers, hshares, -⟩ := Plan.complete_eq_ok hdata
    (hdistinct.sublist (Distinct.sublist_map_filterMap hpartKey))
    (hdistinct.sublist (Distinct.sublist_map_filterMap key_of_answer?)) hdistinct
    (fun key => by rw [hkeys.mem_iff]; exact mem_order_planOf_iff hdistinct h.claims key) hcomplete
  rw [hresult]
  intro f hf hclaimed
  refine ⟨value f.responseKey, Object.get?_map_keys hdistinct (List.mem_map_of_mem hf) value, ?_⟩
  rcases h.handled_cases hf hclaimed with
    ⟨answer, kind, arguments, hc, hanswer⟩ | ⟨sent, part, kind, l, arguments, hc, hclaimable,
      hmissing, hshare⟩
  · rw [hc]
    have htaken := (h.handled_eq f).symm.trans hc
    have hvalue := hanswers (f.responseKey, answer)
      (List.mem_filterMap.2 ⟨f, hf, by rw [htaken]; rfl⟩)
    rw [hvalue]
    exact iff_of_true (keyed_respond (hbelow f hf) hanswer) (by simp [Claim.part?])
  · rw [hc]
    have htaken := (h.handled_eq f).symm.trans hc
    obtain ⟨names, resolved, hnames, hresolved, hinFull⟩ := hfull.shared f hf part (by rw [hc]; rfl)
    have hkey : part.key = f.responseKey := hpartKey f hf part (by rw [htaken]; rfl)
    have hvalue := hshares part (List.mem_filterMap.2 ⟨f, hf, by rw [htaken]; rfl⟩)
      (hkey.symm ▸ not_mem_answered hdistinct hf (by rw [htaken]; rfl))
    rw [hkey, hresolved] at hvalue
    have hkeyed := keyed_value_iff hclaimable hmissing hshare (hbelow f hf) hnames hinFull hvalue
    rw [hkeyed]
    simp [Claim.part?]

variable {m : Type → Type} [Monad m] {resolve : Resolver m} {request : Request} {op : Operation}

/-- Does a resolver answer in full what is left of a request for it? -/
def AnswersInFull (resolve : Resolver m) (request : Request) (op : Operation) (v : View) : Prop :=
  let context : Context Notes := ⟨op, request.variableValues, {}⟩
  let left := forResolver (before v context)
  left ≠ [] → ∃ (response : Response) (data : Object),
    resolve (outgoing request op { op with selections := left }) = pure (.ok response) ∧
      response.data = some data ∧ FullAnswer v context data

/-- Behind the interceptor of a store, in any state of the store, and with any resolver that
answers in full, a field that is claimed has a value, and this has exactly the response keys
that were asked for unless the field is shared and its keys are not kept. -/
theorem keyed_execute_iff [LawfulMonad m] (view : View)
    (hparse : Operation.parse request.query = .ok op) (hdistinct : op.Distinct)
    (hresolve : AnswersInFull resolve request op view) (hf : f ∈ op.selections)
    (hclaimed : handled view ⟨op, request.variableValues, ({} : Notes)⟩ f ≠ .declined) :
    ∃ (response : Response) (data : Object) (value : Json),
      execute [interceptor (pure view)] resolve ({} : Notes) request = pure (.ok response) ∧
      response.data = some data ∧ data.get? f.responseKey = some value ∧
      (Keyed f.subfields value ↔
        ∀ part ∈ (handled view ⟨op, request.variableValues, ({} : Notes)⟩ f).part?,
          part.KeepsKeys view.store) := by
  let context : Context Notes := ⟨op, request.variableValues, {}⟩
  obtain ⟨p, hacting⟩ : ∃ p, Acting view context p := exists_acting hf hclaimed
  rw [execute_of_parse hparse]
  rcases hacting.before_cases with ⟨hnone, hbefore⟩ | ⟨hsome, hbefore⟩
  -- every field is answered, and the resolver is not asked at all
  · obtain ⟨value, hc, hkeyed, hvalue⟩ :=
      hacting.exists_answered hdistinct.selections hf (hdistinct.below f hf) hnone
    rw [hbefore, follow, settle_of_no_plan rfl]
    refine ⟨_, _, value, rfl, rfl, hvalue, iff_of_true hkeyed ?_⟩
    rw [hc]
    simp [Claim.part?]
  · have hleft : forResolver (before view context) =
        op.selections.filterMap (leftOf view.store view.now request.variableValues) :=
      hacting.forResolver_eq
    obtain ⟨response, data, hanswer, hdata, hfull⟩ := hresolve (by rw [hleft]; exact hsome)
    obtain ⟨result, hcomplete, hvalues⟩ :=
      hacting.exists_complete hdistinct.selections hdistinct.below hfull
    obtain ⟨value, hvalue, hkeyed⟩ := hvalues f hf hclaimed
    rw [hleft] at hanswer
    rw [hbefore, follow, hanswer, pure_bind]
    refine ⟨{ response with data := some result }, result, value, ?_, rfl, hvalue, hkeyed⟩
    refine Eq.trans (settle_of_plan (p := p) rfl response) ?_
    rw [hdata, Option.getD_some, hcomplete]

/-- A query that shows the state of pairs under the key of their addresses. -/
def aliasedQuery : Operation :=
  { selections := [.withSubfields "pairs"
      [{ alias? := some "address", name := "state" }, .plain "feesCollector"]] }

/-- A ready store with one pair. -/
def stateView : View :=
  (Watched.onePair { address := "a", info := { state := some "Active" } } 0).view 0

/-- The collector of the pair, as a resolver gives it. -/
def givenPair : Object := [("feesCollector", .str "c"), ("address", .str "a")]

theorem namesFound_stateView : stateView.store.namesFound .pair "pairs" [] = .ok ["a"] := rfl

/-- The field is shared: the state is in the store, and the collector is not. -/
theorem handled_aliasedQuery {f : Field} (hf : f ∈ aliasedQuery.selections) :
    handled stateView ⟨aliasedQuery, [], ({} : Notes)⟩ f =
      share .pair pairCatalogue.listings[0] f [] := by
  obtain rfl := List.mem_singleton.1 hf
  rfl

theorem fullAnswer_givenPair :
    FullAnswer stateView ⟨aliasedQuery, [], ({} : Notes)⟩ [("pairs", .arr [.obj givenPair])] := by
  refine ⟨?_, fun f hf part hpart => ?_⟩
  · have hleft : (forResolver (before stateView ⟨aliasedQuery, [], ({} : Notes)⟩)).map
        Field.responseKey = ["pairs"] := by decide +kernel
    rw [hleft]
    exact List.Perm.refl _
  · rw [handled_aliasedQuery hf] at hpart
    obtain rfl := List.mem_singleton.1 hf
    obtain rfl := Option.some.inj hpart
    refine ⟨["a"], .arr [.obj givenPair], namesFound_stateView, rfl, [.obj givenPair],
      ⟨by decide, ?_, ?_⟩, rfl⟩
    · exact List.Perm.refl _
    · refine List.forall_mem_singleton.2 ?_
      exact keyed_project (by decide) (by decide) (.obj givenPair) "Pair"

/-- The state of the pair is lost when it is joined with the collector, since its key is that of
the address. -/
theorem aliased_state_lost :
    let request : Request := { query := aliasedQuery.text }
    let resolve : Resolver Id := fun _ =>
      .ok { data := some [("pairs", .arr [.obj givenPair])] }
    AnswersInFull resolve request aliasedQuery stateView ∧
      ∀ f ∈ aliasedQuery.selections, ∃ (response : Response) (data : Object) (value : Json),
        execute [interceptor (pure stateView)] resolve ({} : Notes) request =
          pure (.ok response) ∧
        response.data = some data ∧ data.get? f.responseKey = some value ∧
        ¬ Keyed f.subfields value := by
  intro request resolve
  have hwritable : aliasedQuery.Writable :=
    ⟨by simp [aliasedQuery], by simp [aliasedQuery], by simp [aliasedQuery], by decide +kernel⟩
  have hparse : Operation.parse request.query = .ok aliasedQuery := Query.parse_text hwritable
  have hresolve : AnswersInFull resolve request aliasedQuery stateView :=
    fun _ => ⟨_, _, rfl, rfl, fullAnswer_givenPair⟩
  refine ⟨hresolve, fun f hf => ?_⟩
  have hhandled := handled_aliasedQuery hf
  have hclaimed : handled stateView ⟨aliasedQuery, [], ({} : Notes)⟩ f ≠ .declined := by
    rw [hhandled]
    exact Claim.noConfusion
  obtain ⟨response, data, value, hexecute, hdata, hvalue, hkeyed⟩ :=
    keyed_execute_iff stateView hparse (by decide) hresolve hf hclaimed
  refine ⟨response, data, value, hexecute, hdata, hvalue, fun h => ?_⟩
  obtain rfl := List.mem_singleton.1 hf
  rcases hkeyed.1 h _ (by rw [Option.mem_def, hhandled]; rfl) with hkeeps | ⟨hnames, -⟩
  · exact absurd rfl (hkeeps.unhidden _ List.mem_cons_self)
  · cases namesFound_stateView.symm.trans hnames
end Execution

end Interception

end DexCache
