import DexCache.Proofs.Listing.Listed
import DexCache.Proofs.Sync.Concurrent

/-!
# The order in which reads complete

A pass sends its events in the order in which its reads complete.  An event of a stored entity
keeps the entity's place, and an event of another one adds the entity at the end.  So after two
passes that have read the same, in whatever order, two stores show the same in every cell, and the
order of their entities differs at most in the newcomers: those that the pass has stored first.

Listings show entities in the order of the store.  So the stores answer every query alike exactly
if the newcomers came in one order.
-/

namespace DexCache

open Query (Field)

section Lists

variable {α : Type} [DecidableEq α]

/-- Two lists are equal if they have the same items in the same order as far as any two items are
concerned. -/
theorem eq_of_filter_two {xs ys : List α}
    (h : ∀ a b, xs.filter (fun x => x = a ∨ x = b) = ys.filter fun x => x = a ∨ x = b) :
    xs = ys := by
  induction xs generalizing ys with
  | nil =>
      cases ys with
      | nil => rfl
      | cons y ys =>
          have hy := h y y
          simp at hy
  | cons x xs ih =>
      cases ys with
      | nil =>
          have hx := h x x
          simp at hx
      | cons y ys =>
          have hheads := h x y
          rw [List.filter_cons_of_pos (by simp), List.filter_cons_of_pos (by simp)] at hheads
          obtain ⟨rfl, -⟩ := List.cons.inj hheads
          refine congrArg (x :: ·) (ih fun a b => ?_)
          have hab := h a b
          by_cases hx : x = a ∨ x = b
          · rw [List.filter_cons_of_pos (by simpa using hx),
              List.filter_cons_of_pos (by simpa using hx)] at hab
            exact (List.cons.inj hab).2
          · rw [List.filter_cons_of_neg (by simpa using hx),
              List.filter_cons_of_neg (by simpa using hx)] at hab
            exact hab

/-- Of a list without repetitions at most two items are one of two. -/
theorem length_filter_two_le {xs : List α} (h : xs.Nodup) (a b : α) :
    (xs.filter fun x => x = a ∨ x = b).length ≤ 2 := by
  have hsub : (xs.filter fun x => x = a ∨ x = b) ⊆ [a, b] := by
    intro x hx
    simpa using (List.mem_filter.1 hx).2
  exact (h.filter _).length_le_of_subset hsub

end Lists

namespace Store

/-- The identifiers of the entities of a kind in the order of the store. -/
def ids (s : Store) : EntityKind → List String
  | .pair => s.pairs.ids
  | .token => s.tokens.ids

theorem Sound.nodup_ids {s : Store} (h : s.Sound) (kind : EntityKind) : (s.ids kind).Nodup := by
  cases kind with
  | pair => exact h.pairs
  | token => exact h.tokens

end Store

namespace StoreEvent

/-- The entities of a kind that some events write, in the order of the events. -/
def idsOf (kind : EntityKind) (events : List StoreEvent) : List String :=
  ((events.map entity).filter fun written => written.1 = kind).map Prod.snd

/-- The entities of a kind that some events write and that are not stored before, each once, in the
order of their first events. -/
def newcomers (s : Store) (kind : EntityKind) (events : List StoreEvent) : List String :=
  ((idsOf kind events).filter fun id => id ∉ s.ids kind).eraseDups

variable {e : StoreEvent} {events events' : List StoreEvent} {now : Int} {s : Store}
  {kind : EntityKind}

theorem idsOf_cons (kind : EntityKind) (e : StoreEvent) (rest : List StoreEvent) :
    idsOf kind (e :: rest) =
      if e.entity.1 = kind then e.entity.2 :: idsOf kind rest else idsOf kind rest := by
  by_cases h : e.entity.1 = kind <;> simp [idsOf, h]

/-- An event adds its entity at the end unless the entity is stored. -/
theorem ids_apply (e : StoreEvent) (now : Int) (s : Store) (kind : EntityKind) :
    (e.apply now s).ids kind = if e.entity.1 = kind ∧ e.entity.2 ∉ s.ids kind
      then s.ids kind ++ [e.entity.2] else s.ids kind := by
  have hwrite {α G P : Type} [DecidableEq G] [FieldGroup G] [Entity α G P] (c : Collection α G)
      (w : Write α P) (name : String) (h : w.touches name = true) :
      (c.apply w).ids = if name ∉ c.ids then c.ids ++ [name] else c.ids := by
    rw [Collection.ids_apply_of_touches h, ite_not]
  cases e with
  | putPair p =>
      cases kind with
      | pair =>
          refine (hwrite s.pairs (.put p now) p.address (decide_eq_true rfl)).trans ?_
          simp [entity, Store.ids]
      | token => simp [entity, Store.ids, apply]
  | putToken t =>
      cases kind with
      | pair => simp [entity, Store.ids, apply]
      | token =>
          refine (hwrite s.tokens (.put t now) t.identifier (decide_eq_true rfl)).trans ?_
          simp [entity, Store.ids]
  | patchPair address p =>
      cases kind with
      | pair =>
          refine (hwrite s.pairs (.patch address p now) address (decide_eq_true rfl)).trans ?_
          simp [entity, Store.ids]
      | token => simp [entity, Store.ids, apply]
  | patchToken identifier p =>
      cases kind with
      | pair => simp [entity, Store.ids, apply]
      | token =>
          refine (hwrite s.tokens (.patch identifier p now) identifier
            (decide_eq_true rfl)).trans ?_
          simp [entity, Store.ids]

/-- Events add their newcomers at the end. -/
theorem ids_applyAll (events : List StoreEvent) (now : Int) (s : Store) (kind : EntityKind) :
    (applyAll events now s).ids kind = s.ids kind ++ newcomers s kind events := by
  induction events generalizing s with
  | nil => simp [applyAll, newcomers, idsOf]
  | cons e rest ih =>
      refine (ih (e.apply now s)).trans ?_
      unfold newcomers
      rw [ids_apply, idsOf_cons]
      by_cases hkind : e.entity.1 = kind
      · by_cases hnew : e.entity.2 ∈ s.ids kind
        · simp [hkind, hnew]
        -- the newcomer stands first, and is no newcomer to what follows
        · have hrest : (idsOf kind rest).filter (fun id => id ∉ s.ids kind ++ [e.entity.2]) =
              ((idsOf kind rest).filter fun id => id ∉ s.ids kind).filter
                fun id => !id == e.entity.2 := by
            rw [List.filter_filter]
            refine List.filter_congr fun id _ => ?_
            by_cases hid : id = e.entity.2 <;> simp [hid]
          rw [if_pos ⟨hkind, hnew⟩, if_pos hkind, List.filter_cons_of_pos (by simpa using hnew),
            List.eraseDups_cons, hrest, List.append_assoc, List.singleton_append]
      · rw [if_neg fun h => hkind h.1, if_neg hkind]

theorem value?_applyAll_eq_foldl (events : List StoreEvent) (now : Int) (s : Store) :
    (applyAll events now s).value? = events.foldl (fun view e => e.overlay view) s.value? := by
  induction events generalizing s with
  | nil => rfl
  | cons e rest ih =>
      refine (ih (e.apply now s)).trans ?_
      rw [value?_apply_eq_overlay]
      rfl

/-- Events that write different cells leave the same values and times in every order. -/
theorem Apart.cells_applyAll (h : Apart events) (hperm : events.Perm events') (now : Int)
    (s : Store) (cell : Cell) :
    (applyAll events now s).value? cell = (applyAll events' now s).value? cell ∧
      (applyAll events now s).lastUpdate? cell = (applyAll events' now s).lastUpdate? cell := by
  constructor
  · rw [value?_applyAll_eq_foldl, value?_applyAll_eq_foldl, h.foldl_overlay_perm hperm]
  · have hcells : cell ∈ events.flatMap cells ↔ cell ∈ events'.flatMap cells :=
      (hperm.flatMap_right cells).mem_iff
    rw [lastUpdate?_applyAll, lastUpdate?_applyAll]
    exact if_congr hcells rfl rfl

/-- Events that write the same entities, and the same to each of them, are the same events. -/
theorem perm_of_entities (hsame : ∀ e ∈ events, ∀ e' ∈ events', e.entity = e'.entity → e = e')
    (hperm : (events.map entity).Perm (events'.map entity)) : events.Perm events' := by
  -- each event is what is found under its entity among the events of the other side
  let found (written : EntityKind × String) := events'.find? fun e => e.entity = written
  have hfound : ∀ e ∈ events, found e.entity = some e := by
    intro e he
    obtain ⟨e', he', heq⟩ := List.mem_map.1 (hperm.subset (List.mem_map_of_mem he))
    obtain rfl := hsame e he e' he' heq.symm
    refine Distinct.find?_of_unique he' (by simp) fun other hother hentity => ?_
    exact (hsame e he other hother (of_decide_eq_true hentity).symm).symm
  have hfound' : ∀ e' ∈ events', found e'.entity = some e' := by
    intro e' he'
    obtain ⟨e, he, heq⟩ := List.mem_map.1 (hperm.symm.subset (List.mem_map_of_mem he'))
    obtain rfl := hsame e he e' he' heq
    exact hfound e he
  have hrebuilt {list : List StoreEvent} (h : ∀ e ∈ list, found e.entity = some e) :
      (list.map entity).filterMap found = list := by
    rw [List.filterMap_map, List.filterMap_congr (f := found ∘ entity) (g := some) h,
      List.filterMap_some]
  rw [← hrebuilt hfound, ← hrebuilt hfound']
  exact hperm.filterMap found

/-- Events of which any two of one entity are the same write different cells. -/
theorem apart_of_entities (hsame : ∀ e ∈ events, ∀ e' ∈ events, e.entity = e'.entity → e = e') :
    Apart events := by
  intro e he e' he' hne cell hcell hcell'
  have hentity := (entity_of_mem_cells hcell).symm.trans (entity_of_mem_cells hcell')
  exact hne (hsame e he e' he' hentity)

end StoreEvent

/-! ### The same entities in the same order -/

namespace Collection

variable {α G P : Type} [FieldGroup G] [Entity α G P] {c c' : Collection α G} {name : String}

/-- The entities of a collection are those of its identifiers, in order. -/
theorem filterMap_get?_ids (h : c.ids.Nodup) : c.ids.filterMap c.get? = c.all := by
  have hfound : ∀ e ∈ c.entries, c.get? (Entity.id e.snapshot) = some e.snapshot := by
    intro e he
    rw [get?, find?_of_mem h he]
    rfl
  rw [ids, all, List.filterMap_map, ← List.filterMap_eq_map]
  exact List.filterMap_congr hfound

theorem id_of_get? {a : α} (h : c.get? name = some a) : Entity.id a = name := by
  obtain ⟨e, he, rfl⟩ := Option.map_eq_some_iff.1 h
  simpa using List.find?_some he

variable [Parted α G P] (hdetermined : ∀ a b : α, Entity.id a = Entity.id b →
  (∀ g : G, Parted.part g a = Parted.part g b) → a = b)
include hdetermined

/-- Entities that are their identifiers and parts are the same where their parts are. -/
theorem get?_eq_of_parts (g : G) (h : ∀ g : G, (c.get? name).map (fun a => Parted.part g a) =
      (c'.get? name).map fun a => Parted.part g a) : c.get? name = c'.get? name := by
  cases hfound : c.get? name with
  | none =>
      have hnone := h g
      rw [hfound] at hnone
      exact (Option.map_eq_none_iff.1 hnone.symm).symm
  | some a =>
      have hsome := h g
      rw [hfound, Option.map_some] at hsome
      obtain ⟨b, hb, -⟩ := Option.map_eq_some_iff.1 hsome.symm
      have hparts : ∀ g : G, Parted.part g a = Parted.part g b := by
        intro g
        have hpart := h g
        rw [hfound, hb] at hpart
        exact Option.some.inj hpart
      rw [hb, hdetermined a b ((id_of_get? hfound).trans (id_of_get? hb).symm) hparts]

/-- Collections with the same identifiers in the same order and the same parts of each have the
same entities. -/
theorem all_eq_of_parts (g : G) (h : c.ids.Nodup) (h' : c'.ids.Nodup) (hids : c.ids = c'.ids)
    (hparts : ∀ (name : String) (g : G), (c.get? name).map (fun a => Parted.part g a) =
      (c'.get? name).map fun a => Parted.part g a) : c.all = c'.all := by
  rw [← filterMap_get?_ids h, ← filterMap_get?_ids h', hids]
  exact List.filterMap_congr fun name _ => get?_eq_of_parts hdetermined g (hparts name)

end Collection

theorem Pair.eq_of_parts (p q : Pair) (haddress : p.address = q.address)
    (h : ∀ g : PairGroup, Parted.part g p = Parted.part g q) : p = q := by
  have htokens := h .tokensAndFarms
  have hinfo := h .info
  have hprices := h .prices
  have hanalytics := h .analytics
  simp only [Parted.part, PairPatch.tokensAndFarms.injEq, PairPatch.info.injEq,
    PairPatch.prices.injEq, PairPatch.analytics.injEq] at htokens hinfo hprices hanalytics
  cases p
  cases q
  simp_all

theorem Token.eq_of_parts (t u : Token) (hidentifier : t.identifier = u.identifier)
    (h : ∀ g : TokenGroup, Parted.part g t = Parted.part g u) : t = u := by
  have hmetadata := h .metadata
  have hprices := h .prices
  have hanalytics := h .analytics
  simp only [Parted.part, TokenPatch.metadata.injEq, TokenPatch.prices.injEq,
    TokenPatch.analytics.injEq] at hmetadata hprices hanalytics
  cases t
  cases u
  simp_all

namespace Store

variable {s s' : Store}

/-- Stores that show the same in every cell and have their entities in the same order have the same
entities. -/
theorem all_eq_of_cells (hs : s.Sound) (hs' : s'.Sound) (hids : ∀ kind, s.ids kind = s'.ids kind)
    (hvalues : ∀ cell, s.value? cell = s'.value? cell) :
    s.pairs.all = s'.pairs.all ∧ s.tokens.all = s'.tokens.all := by
  constructor
  · refine Collection.all_eq_of_parts Pair.eq_of_parts .info hs.pairs hs'.pairs (hids .pair)
      fun address g => ?_
    have hinl : Function.Injective (Sum.inl : PairPatch → PairPatch ⊕ TokenPatch) :=
      Sum.inl_injective
    refine Option.map_injective hinl ?_
    rw [Option.map_map, Option.map_map]
    exact hvalues (.pair address g)
  · refine Collection.all_eq_of_parts Token.eq_of_parts .metadata hs.tokens hs'.tokens
      (hids .token) fun identifier g => ?_
    have hinr : Function.Injective (Sum.inr : TokenPatch → PairPatch ⊕ TokenPatch) :=
      Sum.inr_injective
    refine Option.map_injective hinr ?_
    rw [Option.map_map, Option.map_map]
    exact hvalues (.token identifier g)

/-- Such stores answer every query alike. -/
theorem respond_eq_of_cells (hs : s.Sound) (hs' : s'.Sound)
    (hids : ∀ kind, s.ids kind = s'.ids kind) (hvalues : ∀ cell, s.value? cell = s'.value? cell)
    (kind : EntityKind) (name : String) (args : Json.Object) (fields : List Field) :
    s.respond kind name args fields = s'.respond kind name args fields := by
  obtain ⟨hpairs, htokens⟩ := all_eq_of_cells hs hs' hids hvalues
  cases kind with
  | pair => rw [respond, respond, hpairs]
  | token => rw [respond, respond, htokens]

end Store

/-! ### The order shows in answers -/

namespace EntityKind

/-- The list of a kind. -/
def listName : EntityKind → String
  | .pair => "pairs"
  | .token => "tokens"

/-- The filter of a list by identifiers. -/
def idsFilter : EntityKind → String
  | .pair => "addresses"
  | .token => "identifiers"

/-- The field that shows the identifier. -/
def idField : EntityKind → String
  | .pair => "address"
  | .token => "identifier"

end EntityKind

section Two

variable {α G P : Type} [FieldGroup G] [Entity α G P] [Parted α G P]

/-- The field of the identifier shows it. -/
theorem project_identifier (hname : Parted.identifier α ≠ Projection.typenameField) (x : α)
    (type : String) : Projection.project (Entity.toJson x) [.plain (Parted.identifier α)] type =
      .obj [(Parted.identifier α, .str (Entity.id x))] := by
  have hvalue : Projection.fieldValue (Entity.toJson x) type (.plain (Parted.identifier α)) =
      .str (Entity.id x) := by
    rw [Field.plain, Projection.fieldValue, if_neg hname, get?_identifier]
    rfl
  show Json.obj [(Parted.identifier α, _)] = _
  rw [hvalue]

/-- The identifiers of the first of some entities. -/
theorem map_project_identifier (hname : Parted.identifier α ≠ Projection.typenameField)
    (type : String) {admits : α → Prop} [DecidablePred admits] {p : String → Bool}
    (hadmits : ∀ x, decide (admits x) = p (Entity.id x)) (c : Collection α G) (limit : Nat) :
    (((c.all.filter fun x => decide (admits x)).drop 0).take limit).map (fun x =>
        Projection.project (Entity.toJson x) [.plain (Parted.identifier α)] type) =
      ((c.ids.filter p).take limit).map fun id => .obj [(Parted.identifier α, .str id)] := by
  have hids : c.ids = c.all.map Entity.id := by
    rw [Collection.ids, Collection.all, List.map_map]
    rfl
  rw [hids, List.filter_map, ← List.map_take, List.map_map, List.drop_zero]
  have hfilter : c.all.filter (fun x => decide (admits x)) = c.all.filter (p ∘ Entity.id) :=
    List.filter_congr fun x _ => hadmits x
  rw [hfilter]
  exact List.map_congr_left fun x _ => project_identifier hname x type

end Two

/-- A list that is asked for two entities shows those of them that are stored, in the order of the
store. -/
theorem Store.respond_two (s : Store) (kind : EntityKind) (a b : String) :
    s.respond kind kind.listName [(kind.idsFilter, .arr [.str a, .str b])]
        [.plain kind.idField] =
      .ok (.arr ((((s.ids kind).filter fun id => id = a ∨ id = b).take Catalogue.defaultLimit).map
        fun id => .obj [(kind.idField, .str id)])) := by
  cases kind with
  | pair =>
      let read : ListingArgs PairFilter :=
        ⟨{ addresses := some [a, b] }, none, .slice 0 Catalogue.defaultLimit⟩
      have hlisted : pairCatalogue.listing? "pairs" = some pairCatalogue.listings[0] := rfl
      have hread : pairCatalogue.readArgs pairCatalogue.listings[0]
          [("addresses", .arr [.str a, .str b])] = .ok read := rfl
      have hadmits (p : Pair) : decide (read.filters.Admits p) =
          decide (p.address = a ∨ p.address = b) := by
        simp [read, PairFilter.admits_iff, PairFilter.sides_iff]
      refine (Catalogue.respond_list _ _ hlisted hread rfl).trans ?_
      rw [(Catalogue.listed_select PairFilter.forall_predicates_iff read _).unsorted rfl]
      exact congrArg (fun items => Except.ok (Json.arr items))
        (map_project_identifier (by decide) _ hadmits s.pairs Catalogue.defaultLimit)
  | token =>
      let read : ListingArgs TokenFilter :=
        ⟨{ identifiers := some [a, b] }, none, .slice 0 Catalogue.defaultLimit⟩
      have hlisted : tokenCatalogue.listing? "tokens" = some tokenCatalogue.listings[0] := rfl
      have hread : tokenCatalogue.readArgs tokenCatalogue.listings[0]
          [("identifiers", .arr [.str a, .str b])] = .ok read := rfl
      have hadmits (t : Token) : decide (read.filters.Admits t) =
          decide (t.identifier = a ∨ t.identifier = b) := by
        simp [read, TokenFilter.admits_iff]
      refine (Catalogue.respond_list _ _ hlisted hread rfl).trans ?_
      rw [(Catalogue.listed_select TokenFilter.forall_predicates_iff read _).unsorted rfl]
      exact congrArg (fun items => Except.ok (Json.arr items))
        (map_project_identifier (by decide) _ hadmits s.tokens Catalogue.defaultLimit)

/-- Stores that answer every query alike have their entities in the same order. -/
theorem Store.ids_eq_of_respond {s s' : Store} (hs : s.Sound) (hs' : s'.Sound)
    (h : ∀ kind name args fields, s.respond kind name args fields =
      s'.respond kind name args fields) (kind : EntityKind) : s.ids kind = s'.ids kind := by
  refine eq_of_filter_two fun a b => ?_
  have htake {s : Store} (hs : s.Sound) : ((s.ids kind).filter fun id => id = a ∨ id = b).take
      Catalogue.defaultLimit = (s.ids kind).filter fun id => id = a ∨ id = b :=
    List.take_of_length_le ((length_filter_two_le (hs.nodup_ids kind) a b).trans (by decide))
  have hanswers := h kind kind.listName [(kind.idsFilter, .arr [.str a, .str b])]
    [.plain kind.idField]
  rw [respond_two, respond_two, htake hs, htake hs'] at hanswers
  refine List.map_injective_iff.2 ?_ (Json.arr.inj (Except.ok.inj hanswers))
  intro id id' heq
  simpa using heq

/-! ### Two runs of one pass -/

namespace StoreEvent

variable {events events' : List StoreEvent} {s : Store}

/-- After the same events in two orders every query is answered alike exactly if the newcomers of
each kind come in one order. -/
theorem respond_applyAll_iff (hs : s.Sound) (h : Apart events) (hperm : events.Perm events')
    (now : Int) :
    (∀ kind name args fields, (applyAll events now s).respond kind name args fields =
        (applyAll events' now s).respond kind name args fields) ↔
      ∀ kind, newcomers s kind events = newcomers s kind events' := by
  have hsound := sound_applyAll hs events now
  have hsound' := sound_applyAll hs events' now
  have hids (kind : EntityKind) : (applyAll events now s).ids kind =
      (applyAll events' now s).ids kind ↔ newcomers s kind events = newcomers s kind events' := by
    rw [ids_applyAll, ids_applyAll, List.append_right_inj]
  constructor
  · intro hrespond kind
    exact (hids kind).1 (Store.ids_eq_of_respond hsound hsound' hrespond kind)
  · intro hnewcomers
    exact Store.respond_eq_of_cells hsound hsound' (fun kind => (hids kind).2 (hnewcomers kind))
      fun cell => (h.cells_applyAll hperm now s cell).1

/-- Events of stored entities have no newcomers. -/
theorem newcomers_eq_nil (h : ∀ e ∈ events, e.entity.2 ∈ s.ids e.entity.1) (kind : EntityKind) :
    newcomers s kind events = [] := by
  have hnone : (idsOf kind events).filter (fun id => id ∉ s.ids kind) = [] := by
    refine List.filter_eq_nil_iff.2 fun id hid => ?_
    obtain ⟨written, hwritten, rfl⟩ := List.mem_map.1 hid
    obtain ⟨hmem, hkind⟩ := List.mem_filter.1 hwritten
    obtain ⟨e, he, rfl⟩ := List.mem_map.1 hmem
    obtain rfl : e.entity.1 = kind := of_decide_eq_true hkind
    simpa using h e he
  rw [newcomers, hnone, List.eraseDups_nil]

/-- Events of stored entities come in any order. -/
theorem respond_applyAll_of_stored (hs : s.Sound) (h : Apart events) (hperm : events.Perm events')
    (hstored : ∀ e ∈ events, e.entity.2 ∈ s.ids e.entity.1) (now : Int) (kind : EntityKind)
    (name : String) (args : Json.Object) (fields : List Field) :
    (applyAll events now s).respond kind name args fields =
      (applyAll events' now s).respond kind name args fields := by
  have hstored' : ∀ e ∈ events', e.entity.2 ∈ s.ids e.entity.1 :=
    fun e he => hstored e (hperm.symm.subset he)
  refine (respond_applyAll_iff hs h hperm now).2 (fun kind => ?_) kind name args fields
  rw [newcomers_eq_nil hstored, newcomers_eq_nil hstored']

end StoreEvent

open ColdStart (found failures mem_found_iff)

/-- The events of a pass are about the entities that it asks for. -/
theorem Source.Fitting.entity_mem_asked {S : Type} {src : Source (StateM S)} {s : Store}
    {asked : List Cell} {results : List (Except Failure StoreEvent)}
    (h : src.Fitting s asked results) {e : StoreEvent} (he : e ∈ found results) :
    e.entity ∈ asked.map Cell.entity := by
  obtain ⟨cell, hcell, hfit⟩ := h.exists_asked (mem_found_iff.1 he)
  exact List.mem_map.2 ⟨cell, hcell, ((hfit.serves e rfl).entity_eq).symm⟩

/-- Two runs of one pass over one store and one registry, whatever makes their reads take their
time, that have read the same entities and the same of each: after the events of either are applied
at one time, the two stores show the same in every cell with the same times, and they answer every
query alike exactly if the newcomers among what was asked for came in one order. -/
theorem respond_arrival_iff {S S' : Type} (src : Source (StateM S)) (src' : Source (StateM S'))
    (policy policy' : ReadPolicy) {s : Store} (hs : s.Sound) {registry : List String}
    {task : RefreshTask} {feed feed' : EventFeed} (hopen : feed.isOpen = true)
    (hopen' : feed'.isOpen = true) (st : S) (st' : S')
    (hread : task = .pairTokensAndFarms →
      (retry policy.retries src.pairAddresses st).1 = .ok registry)
    (hread' : task = .pairTokensAndFarms →
      (retry policy'.retries src'.pairAddresses st').1 = .ok registry) (now : Int) :
    ∃ events events' failed failed',
      (refresh src policy task s feed st).1 =
        (.ok ⟨events.length, failed⟩, { feed with waiting := feed.waiting ++ events }) ∧
      (refresh src' policy' task s feed' st').1 =
        (.ok ⟨events'.length, failed'⟩, { feed' with waiting := feed'.waiting ++ events' }) ∧
      (∀ e ∈ events ++ events', e.entity ∈ (task.asked registry s).map Cell.entity) ∧
      ((events.map StoreEvent.entity).Perm (events'.map StoreEvent.entity) →
        (∀ e ∈ events, ∀ e' ∈ events', e.entity = e'.entity → e = e') →
          let after := StoreEvent.applyAll events now s
          let after' := StoreEvent.applyAll events' now s
          (∀ cell, after.value? cell = after'.value? cell ∧
            after.lastUpdate? cell = after'.lastUpdate? cell) ∧
          ((∀ kind name args fields,
              after.respond kind name args fields = after'.respond kind name args fields) ↔
            ∀ kind, StoreEvent.newcomers s kind events = StoreEvent.newcomers s kind events')) := by
  obtain ⟨results, hfitting, hout⟩ :=
    (leads_refresh hopen hread : Leads (refresh src policy task s feed) st _)
  obtain ⟨results', hfitting', hout'⟩ :=
    (leads_refresh hopen' hread' : Leads (refresh src' policy' task s feed') st' _)
  refine ⟨found results, found results', failures results, failures results', hout, hout',
    fun e he => ?_, fun hentities hsame => ?_⟩
  · rcases List.mem_append.1 he with he | he
    · exact hfitting.entity_mem_asked he
    · exact hfitting'.entity_mem_asked he
  · have hperm := StoreEvent.perm_of_entities hsame hentities
    have hapart : StoreEvent.Apart (found results) :=
      StoreEvent.apart_of_entities fun e he e' he' => hsame e he e' (hperm.subset he')
    exact ⟨hapart.cells_applyAll hperm now s, StoreEvent.respond_applyAll_iff hs hapart hperm now⟩

section Overtaken

/-- A registry of two new pairs, and how often the first read of the first of them fails. -/
def overtaken (failures : Int) : TableSource :=
  { Cache.registryOf ["a1", "a2"] with failing := [("pair_token_refs:a1", failures)] }

/-- The first task over this registry and an empty store, with two attempts at each read. -/
def overtakenPass (failures : Int) : Except Failure RefreshOutcome × EventFeed :=
  (refresh TableSource.source ⟨1, 4⟩ .pairTokensAndFarms (.empty {} {}) {} (overtaken failures)).1

/-- One read has to be tried again, so the second pair overtakes the first, and the stores answer
some query differently. -/
theorem respond_arrival_overtaken :
    let s : Store := .empty {} {}
    (overtakenPass 0).2.waiting.map StoreEvent.entity = [(.pair, "a1"), (.pair, "a2")] ∧
      (overtakenPass 1).2.waiting.map StoreEvent.entity = [(.pair, "a2"), (.pair, "a1")] ∧
      ¬ ∀ kind name args fields,
        (StoreEvent.applyAll (overtakenPass 0).2.waiting 0 s).respond kind name args fields =
          (StoreEvent.applyAll (overtakenPass 1).2.waiting 0 s).respond kind name args fields := by
  intro s
  have hfirst : (overtakenPass 0).2.waiting.map StoreEvent.entity =
      [(.pair, "a1"), (.pair, "a2")] := by decide +kernel
  have hsecond : (overtakenPass 1).2.waiting.map StoreEvent.entity =
      [(.pair, "a2"), (.pair, "a1")] := by decide +kernel
  have hopen : ({} : EventFeed).isOpen = true := rfl
  have hread (failures : Int) : RefreshTask.pairTokensAndFarms = .pairTokensAndFarms →
      (retry 1 TableSource.source.pairAddresses (overtaken failures)).1 = .ok ["a1", "a2"] :=
    fun _ => rfl
  obtain ⟨events, events', failed, failed', hout, hout', -, hanswers⟩ :=
    respond_arrival_iff TableSource.source TableSource.source ⟨1, 4⟩ ⟨1, 4⟩
      (s := s) ⟨List.nodup_nil, List.nodup_nil⟩ hopen hopen (overtaken 0) (overtaken 1) (hread 0)
      (hread 1) 0
  have hevents : (overtakenPass 0).2.waiting = events := by
    rw [overtakenPass, hout]
    rfl
  have hevents' : (overtakenPass 1).2.waiting = events' := by
    rw [overtakenPass, hout']
    rfl
  have hsame : ∀ e ∈ (overtakenPass 0).2.waiting, ∀ e' ∈ (overtakenPass 1).2.waiting,
      e.entity = e'.entity → e = e' := by decide +kernel
  have hnewcomers : StoreEvent.newcomers s .pair (overtakenPass 0).2.waiting ≠
      StoreEvent.newcomers s .pair (overtakenPass 1).2.waiting := by
    simp [StoreEvent.newcomers, StoreEvent.idsOf, hfirst, hsecond, s, Store.ids, Store.empty,
      Collection.ids, List.eraseDups_cons]
  refine ⟨hfirst, hsecond, ?_⟩
  rw [hevents] at hfirst hsame hnewcomers ⊢
  rw [hevents'] at hsecond hsame hnewcomers ⊢
  have hentities : (events.map StoreEvent.entity).Perm (events'.map StoreEvent.entity) := by
    rw [hfirst, hsecond]
    exact .swap _ _ _
  exact fun hrespond => hnewcomers (((hanswers hentities hsame).2.1 hrespond) .pair)

end Overtaken

end DexCache
