import DexCache.Proofs.Interception.Freshness
import DexCache.Proofs.Interception.Missing
import DexCache.Proofs.Interception.Showing
import DexCache.Proofs.Listing.Footprint

/-!
# Stale parts of entities

Claiming a field asks for freshness in the groups behind its selections on entities, and in no
others.  The filters and the sort key of the field may read stale parts, and so may a selection
at any place but the first where a page selects entities.  The main statement is that nothing
else does: two stores that hold the same fresh data, and the same data in those unchecked
groups, answer the field alike.
-/

namespace DexCache

open Projection (fieldValue fieldValue_congr project project_congr typenameField)
open Query (Field)

namespace Listing

/-- What an answer shows of entities, place by place: the fields selected there, or everything
where an edge or an entity is shown as a whole. -/
def shown (l : Listing) (f : Field) : List (Option (List Field)) :=
  match l.shape with
  | .list => [some f.subfields]
  | .connection =>
    (f.subfields.filter fun g => g.name = "edges").flatMap fun edges =>
      if edges.isLeaf then [none]
      else (edges.subfields.filter fun g => g.name = "node").map fun node =>
        if node.isLeaf then none else some node.subfields

/-- The selections on entities, where there are any, are shown first. -/
theorem shown_eq_cons {l : Listing} {f : Field} (h : l.entityFields f ≠ []) :
    l.shown f = some (l.entityFields f) :: (l.shown f).tail := by
  cases hshape : l.shape with
  | list => rw [shown, entityFields, hshape]; rfl
  | connection =>
      obtain ⟨edges, node, hedges, hnode, hfields⟩ := exists_node hshape h
      obtain ⟨otherEdges, hotherEdges⟩ := filter_eq_cons_of_subfield? hedges
      obtain ⟨otherNodes, hotherNodes⟩ := filter_eq_cons_of_subfield? hnode
      have hedgesLeaf : edges.isLeaf = false :=
        List.isEmpty_eq_false_iff.2 (List.ne_nil_of_mem (List.mem_of_find?_eq_some hnode))
      have hnodeLeaf : node.isLeaf = false := List.isEmpty_eq_false_iff.2 (hfields ▸ h)
      rw [shown, hfields, hshape]
      simp [hotherEdges, hotherNodes, hedgesLeaf, hnodeLeaf]

end Listing

section Shown

variable {α G P : Type} [DecidableEq G] [FieldGroup G] [Entity α G P] [Parted α G P]

/-- The groups that are shown at a place. -/
def shownGroups : Option (List Field) → List G
  | none => FieldGroup.all
  | some fields => backingGroups fields

variable {groups : List G} {a b : α}

/-- Entities that are the same in what is selected look the same. -/
theorem project_toJson_congr (h : SameIn groups a b) {fields : List Field}
    (hshown : (shownGroups (some fields) : List G) ⊆ groups) (type : String) :
    project (Entity.toJson a) fields type = project (Entity.toJson b) fields type := by
  refine project_congr fun f hf => fieldValue_congr type (.inr (get?_toJson_congr (h.mono ?_)))
  intro g hg
  exact hshown (Collection.mem_backingGroups.2 ⟨f, hf, by simpa using hg⟩)

theorem fieldValue_of_isLeaf {raw : Json} {f : Field} (hleaf : f.isLeaf = true)
    (hname : f.name ≠ typenameField) (type : String) :
    fieldValue raw type f = (raw.get? f.name).getD .null := by
  obtain ⟨_, name, _, subfields⟩ := f
  rw [fieldValue, if_neg hname]
  exact if_pos hleaf

/-- Edges of such entities look the same. -/
theorem project_edge_congr (h : SameIn groups a b) {fields : List Field}
    (hshown : ∀ node ∈ fields, node.name = "node" →
      shownGroups (if node.isLeaf then none else some node.subfields) ⊆ groups)
    (position : Nat) (type : String) :
    project (Paging.edge position (Entity.toJson a)) fields type =
      project (Paging.edge position (Entity.toJson b)) fields type := by
  refine project_congr fun node hmem => ?_
  by_cases hname : node.name = "node"
  · have hgroups := hshown node hmem hname
    cases hleaf : node.isLeaf with
    | true =>
        -- the whole entity is shown
        rw [hleaf, if_pos rfl] at hgroups
        rw [toJson_congr (h.mono hgroups)]
    | false =>
        rw [hleaf, if_neg (by simp)] at hgroups
        have hselected : node.subfields ≠ [] := List.isEmpty_eq_false_iff.1 hleaf
        rw [Interception.fieldValue_node node hname hselected (get?_identifier a),
          Interception.fieldValue_node node hname hselected (get?_identifier b),
          project_toJson_congr h hgroups]
  · refine fieldValue_congr type (.inr ?_)
    simp [Paging.edge, Json.get?, Json.Object.get?, Ne.symm hname]

/-- Pages of such entities look the same. -/
theorem project_page_congr {xs ys : List α} (h : List.Forall₂ (SameIn groups) xs ys)
    {f : Field} {l : Listing} (hshape : l.shape = .connection)
    (hshown : ∀ place ∈ l.shown f, shownGroups place ⊆ groups) (w : Paging.Window) (total : Nat)
    (type : String) :
    project (Paging.page (xs.map Entity.toJson) w total) f.subfields type =
      project (Paging.page (ys.map Entity.toJson) w total) f.subfields type := by
  obtain ⟨zs, rfl, rfl, hzs⟩ := Paired.exists_zip h
  rw [List.map_map, List.map_map]
  refine project_congr fun edges hmem => ?_
  by_cases hname : edges.name = "edges"
  · have hplace : ∀ place ∈ (if edges.isLeaf then [none]
        else (edges.subfields.filter fun g => g.name = "node").map fun node =>
          if node.isLeaf then none else some node.subfields : List (Option (List Field))),
        shownGroups place ⊆ groups := by
      intro place hmemPlace
      refine hshown place ?_
      rw [Listing.shown, hshape]
      exact List.mem_flatMap.2 ⟨edges, List.mem_filter.2 ⟨hmem, by simpa using hname⟩, hmemPlace⟩
    have hsame {n : (α × α) × Nat} (hn : n ∈ zs.zipIdx) : SameIn groups n.1.1 n.1.2 :=
      hzs n.1 (List.fst_mem_of_mem_zipIdx hn)
    have hleft := Paging.page_edges zs (Entity.toJson ∘ Prod.fst) w total
    have hright := Paging.page_edges zs (Entity.toJson ∘ Prod.snd) w total
    cases hleaf : edges.isLeaf with
    | true =>
        -- the edges are shown as they are, entities and all
        have hgroups := hplace none (by simp [hleaf])
        have htypename : edges.name ≠ typenameField := by rw [hname]; decide
        rw [fieldValue_of_isLeaf hleaf htypename, fieldValue_of_isLeaf hleaf htypename, hname,
          hleft, hright]
        refine congrArg (fun items => (some (Json.arr items)).getD .null) ?_
        refine List.map_congr_left fun n hn => ?_
        exact congrArg (Paging.edge _) (toJson_congr ((hsame hn).mono hgroups))
    | false =>
        have hselected : edges.subfields ≠ [] := List.isEmpty_eq_false_iff.1 hleaf
        rw [Projection.fieldValue_edges edges hname hselected hleft,
          Projection.fieldValue_edges edges hname hselected hright]
        refine congrArg Json.arr (List.map_congr_left fun n hn => ?_)
        refine project_edge_congr (hsame hn) (fun node hnode hnodeName => ?_) _ _
        refine hplace _ ?_
        rw [hleaf, if_neg (by simp)]
        exact List.mem_map.2
          ⟨node, List.mem_filter.2 ⟨hnode, by simpa using hnodeName⟩, rfl⟩
  · exact fieldValue_congr type (.inr (Paging.page_congr zs _ _ w total hname))

/-- Answers about such entities are the same. -/
theorem show_congr {found : Catalogue.Cut α} {entities : List α}
    (h : List.Forall₂ (SameIn groups) found.entities entities) {f : Field}
    (hshown : ∀ place ∈ found.listing.shown f, shownGroups place ⊆ groups)
    (entityType pageType : String) :
    found.show entityType pageType Entity.toJson f.subfields =
      ({ found with entities } : Catalogue.Cut α).show entityType pageType Entity.toJson
        f.subfields := by
  unfold Catalogue.Cut.show
  cases hshape : found.listing.shape with
  | list =>
      have hgroups := hshown (some f.subfields) (by simp [Listing.shown, hshape])
      refine congrArg Json.arr ?_
      rw [← List.forall₂_eq_eq_eq, List.forall₂_map_left_iff, List.forall₂_map_right_iff]
      exact h.imp fun a b hab => project_toJson_congr hab hgroups _
  | connection => exact project_page_congr h hshape hshown _ _ _

end Shown

namespace Catalogue.Footprint

variable {α F K G P : Type} [DecidableEq G] [FieldGroup G] [Entity α G P] [Parted α G P]
  {c : Catalogue α F K} (fp : Footprint (G := G) (P := P) c)

/-- The groups that an answer to a field reads without their freshness being asked for: those of
its filters and of its sort key, and those shown at any place but the first. -/
def unchecked (supplied : Json.Object) (field : Field) : List G :=
  match c.listing? field.name, field.argumentsJson supplied with
  | some l, .ok arguments =>
    fp.selecting field.name arguments ++ (l.shown field).tail.flatMap shownGroups
  | _, _ => []

/-- Collections that agree beyond the unchecked groups have one answer to a field, if what is
selected at its first place is fresh. -/
theorem respond_congr {x y : Collection α G} {now : Int} {supplied arguments : Json.Object}
    {field : Field} {l : Listing} (hlisted : c.listing? field.name = some l)
    (hsupplied : field.argumentsJson supplied = .ok arguments)
    (hselected : l.entityFields field ≠ [])
    (hagree : x.Agree y now (fp.unchecked supplied field))
    (hfresh : x.isFreshFor (l.entityFields field) now = true) {value value' : Json}
    (h : c.respond x.all field.name arguments field.subfields = .ok value)
    (h' : c.respond y.all field.name arguments field.subfields = .ok value') :
    value = value' := by
  have hunchecked : fp.unchecked supplied field =
      fp.selecting field.name arguments ++ (l.shown field).tail.flatMap shownGroups := by
    rw [unchecked, hlisted, hsupplied]
  have hsame := hagree.same hfresh
  rw [hunchecked] at hsame
  rw [respond_eq, fp.toJson_eq, Outcome.map_eq_ok_iff] at h h'
  obtain ⟨found, hcut, rfl⟩ := h
  obtain ⟨entities, hcut', hentities⟩ := fp.exists_cut
    (List.subset_append_of_subset_right _ (List.subset_append_left _ _)) hsame hcut
  obtain ⟨found', hfound', rfl⟩ := h'
  rw [hcut'] at hfound'
  obtain rfl := Except.ok.inj hfound'
  refine show_congr hentities ?_ _ _
  have hfoundListing : found.listing = l :=
    Option.some.inj ((listing?_of_cut hcut).symm.trans hlisted)
  rw [hfoundListing, Listing.shown_eq_cons hselected, List.forall_mem_cons]
  refine ⟨List.subset_append_left _ _, fun place hplace g hg => ?_⟩
  exact List.mem_append_right _ (List.mem_append_right _ (List.mem_flatMap.2 ⟨place, hplace, hg⟩))

end Catalogue.Footprint

/-- Do two stores differ at most in the parts of entities that are stale at a time, and in the
groups given for each kind not at all? -/
structure Store.Agree (s s' : Store) (now : Int) (pairGroups : List PairGroup)
    (tokenGroups : List TokenGroup) : Prop where
  pairs : s.pairs.Agree s'.pairs now pairGroups
  tokens : s.tokens.Agree s'.tokens now tokenGroups

namespace Interception

/-- A field that the store answers alone is claimable, and its answer is that of the store. -/
theorem exists_claimable_of_answered {X : Type} {v : View} {context : Context X} {field : Field}
    (hfield : field ∈ context.operation.selections) {value : Json}
    (h : handled v context field = .answered value) :
    ∃ kind l arguments, Claimable v.store v.now context.variableValues field kind l arguments ∧
      missingFields l field = [] ∧
      v.store.respond kind field.name arguments field.subfields = .ok value := by
  rcases handled_cases v context hfield with hdeclined | hclaim
  · rw [h] at hdeclined
    cases hdeclined
  · rw [h] at hclaim
    rcases claim_cases hclaim with hdeclined | ⟨kind, l, arguments, hclaimable, hcase⟩
    · cases hdeclined
    · rcases hcase with ⟨hmissing, found, hrespond, heq⟩ | ⟨-, heq⟩
      · cases heq
        exact ⟨kind, l, arguments, hclaimable, hmissing, hrespond⟩
      · cases heq

/-- Two stores that agree at a time, also in the groups that a field reads unchecked, give the
same answer to the field if both answer it alone. -/
theorem answered_congr {X : Type} {s s' : Store} {status status' : Readiness} {now : Int}
    (context : Context X) {field : Field} (hfield : field ∈ context.operation.selections)
    (hagree : s.Agree s' now (pairFootprint.unchecked context.variableValues field)
      (tokenFootprint.unchecked context.variableValues field)) {value value' : Json}
    (h : handled ⟨s, status, now⟩ context field = .answered value)
    (h' : handled ⟨s', status', now⟩ context field = .answered value') : value = value' := by
  obtain ⟨kind, l, arguments, hclaimable, hmissing, hrespond⟩ :=
    exists_claimable_of_answered hfield h
  obtain ⟨kind', l', arguments', hclaimable', -, hrespond'⟩ :=
    exists_claimable_of_answered hfield h'
  obtain ⟨rfl, rfl⟩ : kind' = kind ∧ l' = l := by
    simpa [hclaimable.listed] using hclaimable'.listed.symm
  obtain rfl : arguments' = arguments :=
    Except.ok.inj (hclaimable'.supplied.symm.trans hclaimable.supplied)
  -- with nothing missing, freshness was asked for all that is selected at the first place
  have hheld : heldFields l' field = l'.entityFields field :=
    List.filter_eq_self.2 fun g hg => by simpa using List.filter_eq_nil_iff.1 hmissing g hg
  have hfresh := hclaimable.fresh
  rw [hheld] at hfresh
  have hlisted := (mem_listings_of_listing? hclaimable.listed).1
  cases kind' with
  | pair =>
      exact pairFootprint.respond_congr hlisted hclaimable.supplied hclaimable.selected
        hagree.pairs hfresh hrespond hrespond'
  | token =>
      exact tokenFootprint.respond_congr hlisted hclaimable.supplied hclaimable.selected
        hagree.tokens hfresh hrespond hrespond'

/-- A store that is ready with one pair, whose prices are fresh and whose state is stale. -/
def staleState (state : String) : Watched :=
  .ofHistory (.uniform 10) {} [
    .pairs (.patch "a" (.prices { lockedValueUSD := some "5" }) 0),
    .pairs (.put { address := "a", info := { state := some state } } (-20)),
    .check 0, .markPopulated, .markStarted]

/-- Such stores differ in what is stale only. -/
theorem agree_staleState (state state' : String) :
    (staleState state).store.Agree (staleState state').store 0 [] [] := by
  refine ⟨⟨rfl, .cons ⟨rfl, fun g => ⟨by cases g <;> rfl, ?_⟩⟩ .nil⟩, ⟨rfl, .nil⟩⟩
  rintro (hfresh | hg)
  · cases g with
    | info =>
        have hstale : (staleState state).store.pairs.groupFresh
            ⟨{ address := "a" }, ⟨[(.info, -20)]⟩⟩ 0 .info = false := rfl
        exact absurd (hstale.symm.trans hfresh) (by simp)
    | _ => rfl
  · cases hg

theorem eq_answered_of_answer? {c : Claim} {value : Json} (h : c.answer? = some value) :
    c = .answered value := by
  cases c with
  | answered _ => exact congrArg Claim.answered (Option.some.inj h)
  | _ => cases h

/-- Without a filter the stale state does not show: both stores give the same prices. -/
theorem stale_state_unseen :
    let field := Field.withSubfields "pairs" [.plain "address", .plain "lockedValueUSD"]
    let context : Context Pipeline.Notes := ⟨{ selections := [field] }, [], {}⟩
    let s (state : String) : Store := (staleState state).store
    (s "Active").Agree (s "Paused") 0 (pairFootprint.unchecked [] field)
        (tokenFootprint.unchecked [] field) ∧
      ∃ value value', handled ⟨s "Active", .done, 0⟩ context field = .answered value ∧
        handled ⟨s "Paused", .done, 0⟩ context field = .answered value' ∧ value = value' := by
  intro field context s
  let value : Json := .arr [.obj [("address", .str "a"), ("lockedValueUSD", .str "5")]]
  have hagree := agree_staleState "Active" "Paused"
  have h : handled ⟨s "Active", .done, 0⟩ context field = .answered value :=
    eq_answered_of_answer? (by decide +kernel)
  have h' : handled ⟨s "Paused", .done, 0⟩ context field = .answered value :=
    eq_answered_of_answer? (by decide +kernel)
  refine ⟨hagree, value, value, h, h', ?_⟩
  exact answered_congr context (List.mem_singleton_self field) hagree h h'

/-- With a filter for the state it does: stores that differ in a stale state only answer
differently. -/
theorem stale_state_filters :
    let field : Field := { name := "pairs", arguments := [("state", .str "Active")]
                           subfields := [.plain "address", .plain "lockedValueUSD"] }
    let context : Context Pipeline.Notes := ⟨{ selections := [field] }, [], {}⟩
    let w := staleState
    (w "Active").monitor.status = .done ∧ (w "Paused").monitor.status = .done ∧
      (w "Active").store.Agree (w "Paused").store 0 [] [] ∧
      ∃ value value', handled ((w "Active").view 0) context field = .answered value ∧
        handled ((w "Paused").view 0) context field = .answered value' ∧ value ≠ value' := by
  intro field context w
  refine ⟨by decide +kernel, by decide +kernel, agree_staleState _ _,
    .arr [.obj [("address", .str "a"), ("lockedValueUSD", .str "5")]], .arr [], ?_, ?_, by decide⟩
  · exact eq_answered_of_answer? (by decide +kernel)
  · exact eq_answered_of_answer? (by decide +kernel)

end Interception

end DexCache
