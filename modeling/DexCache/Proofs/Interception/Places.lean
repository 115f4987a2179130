import DexCache.Proofs.Interception.Claiming
import DexCache.Proofs.Listing.Answers

/-!
# Where a selection selects entities

A list selects its entities in one place, a connection wherever a `node` stands under an
`edges`.  Claiming looks at the first place only.  This module lists all places and says what
each rewriting of a selection does to them: the sent selection has one place, and the local
selection has a new first place and keeps the others.
-/

namespace DexCache

open Query (Field)

namespace Listing

/-- The places where a selection of the listing selects entities, in their order. -/
def places (l : Listing) (selection : Field) : List (List Field) :=
  match l.shape with
  | .list => [selection.subfields]
  | .connection =>
    (selection.subfields.filter fun f => f.name = "edges").flatMap fun edges =>
      (edges.subfields.filter fun f => f.name = "node").map Field.subfields

/-- A page with selections on entities has an `edges`, and the first one has a `node`. -/
theorem exists_node {l : Listing} {f : Field} (hshape : l.shape = .connection)
    (h : l.entityFields f ≠ []) :
    ∃ edges node, f.subfield? "edges" = some edges ∧ edges.subfield? "node" = some node ∧
      l.entityFields f = node.subfields := by
  unfold entityFields at h ⊢
  rw [hshape] at h ⊢
  simp only at h ⊢
  cases hedges : f.subfield? "edges" with
  | none => simp [hedges] at h
  | some edges =>
      cases hnode : edges.subfield? "node" with
      | none => simp [hedges, hnode] at h
      | some node => exact ⟨edges, node, rfl, hnode, by simp [hnode]⟩

theorem filter_eq_cons_of_subfield? {f g : Field} {name : String}
    (h : f.subfield? name = some g) :
    ∃ others, f.subfields.filter (fun f => f.name = name) = g :: others := by
  have hhead : (f.subfields.filter fun f => f.name = name).head? = some g := by
    rw [List.head?_filter]
    exact h
  exact List.head?_eq_some_iff.1 hhead

/-- The selections on entities, where there are any, are the first place. -/
theorem places_eq_cons {l : Listing} {f : Field} (h : l.entityFields f ≠ []) :
    l.places f = l.entityFields f :: (l.places f).tail := by
  cases hshape : l.shape with
  | list => rw [places, entityFields, hshape]; rfl
  | connection =>
      obtain ⟨edges, node, hedges, hnode, hfields⟩ := exists_node hshape h
      obtain ⟨otherEdges, hotherEdges⟩ := filter_eq_cons_of_subfield? hedges
      obtain ⟨otherNodes, hotherNodes⟩ := filter_eq_cons_of_subfield? hnode
      rw [places, hfields, hshape]
      simp [hotherEdges, hotherNodes]

/-- What is sent selects entities in one place. -/
theorem places_withEntityFields (l : Listing) (f : Field) (fields : List Field) :
    l.places (l.withEntityFields f fields) = [fields] := by
  unfold places withEntityFields
  cases l.shape with
  | list => rfl
  | connection => simp [Field.withSubfields]

end Listing

namespace Interception

/-- New sub-selections for the first field of a name change the first of the fields of that
name. -/
theorem filter_updateFirst {name : String} (make : Field → List Field)
    {fields others : List Field} {g : Field}
    (h : fields.filter (fun f => f.name = name) = g :: others) :
    (updateFirst name (fun f => { f with subfields := make f }) fields).filter
        (fun f => f.name = name) = { g with subfields := make g } :: others := by
  induction fields with
  | nil => cases h
  | cons x xs ih =>
      by_cases hx : x.name = name
      · rw [List.filter_cons_of_pos (by simpa using hx)] at h
        obtain ⟨rfl, rfl⟩ := List.cons.inj h
        simp [updateFirst, hx]
      · rw [List.filter_cons_of_neg (by simpa using hx)] at h
        simpa [updateFirst, hx] using ih h

/-- The local selection keeps every place but the first. -/
theorem places_localSelection {l : Listing} {f : Field} (h : l.entityFields f ≠ [])
    (fields : List Field) :
    l.places { f with subfields := localSelection l f fields } =
      fields :: (l.places f).tail := by
  cases hshape : l.shape with
  | list => rw [Listing.places, Listing.places, localSelection, hshape]; rfl
  | connection =>
      obtain ⟨edges, node, hedges, hnode, -⟩ := Listing.exists_node hshape h
      obtain ⟨otherEdges, hotherEdges⟩ := Listing.filter_eq_cons_of_subfield? hedges
      obtain ⟨otherNodes, hotherNodes⟩ := Listing.filter_eq_cons_of_subfield? hnode
      rw [Listing.places, Listing.places, localSelection, hshape]
      simp only
      -- only the first `node` of the first `edges` is new, so only the first place is
      rw [filter_updateFirst _ hotherEdges, hotherEdges]
      simp only [List.flatMap_cons]
      rw [filter_updateFirst _ hotherNodes, hotherNodes]
      simp

/-- New sub-selections for the first field of a name are found under this name. -/
theorem subfield?_of_updateFirst {f g updated : Field} {name : String} (make : Field → List Field)
    (h : f.subfield? name = some g)
    (hupdated : updated.subfields =
      updateFirst name (fun g => { g with subfields := make g }) f.subfields) :
    updated.subfield? name = some { g with subfields := make g } := by
  obtain ⟨others, hothers⟩ := Listing.filter_eq_cons_of_subfield? h
  refine List.head?_filter.symm.trans ?_
  rw [hupdated, filter_updateFirst make hothers]
  rfl

/-- The local selection shows first what it was given to show. -/
theorem entityFields_localSelection {l : Listing} {field : Field} (h : l.entityFields field ≠ [])
    (fields : List Field) :
    l.entityFields (.withSubfields field.name (localSelection l field fields)) = fields := by
  cases hshape : l.shape with
  | list => rw [Listing.entityFields, localSelection, hshape]; rfl
  | connection =>
      obtain ⟨edges, node, hedges, hnode, -⟩ := Listing.exists_node hshape h
      let inner (edges : Field) : List Field :=
        updateFirst "node" (fun node => { node with subfields := fields }) edges.subfields
      have hsubfields : (Field.withSubfields field.name (localSelection l field fields)).subfields =
          updateFirst "edges" (fun edges => { edges with subfields := inner edges })
            field.subfields := by
        unfold localSelection
        rw [hshape]
        rfl
      have hfirst := subfield?_of_updateFirst inner hedges hsubfields
      have hsecond : Field.subfield? { edges with subfields := inner edges } "node" =
          some { node with subfields := fields } :=
        subfield?_of_updateFirst (fun _ => fields) hnode rfl
      rw [Listing.entityFields, hshape]
      simp only [hfirst, Option.bind_some, hsecond, Option.elim_some]

/-- The listings that there are. -/
theorem mem_listings_of_listing? {name : String} {kind : EntityKind} {l : Listing}
    (h : listing? name = some (kind, l)) :
    kind.listing? name = some l ∧ l ∈ pairCatalogue.listings ++ tokenCatalogue.listings := by
  obtain ⟨kind', -, hfound⟩ := List.exists_of_findSome?_eq_some h
  obtain ⟨l', hl', heq⟩ := Option.map_eq_some_iff.1 hfound
  obtain ⟨rfl, rfl⟩ := Prod.mk.inj heq
  refine ⟨hl', ?_⟩
  cases kind' with
  | pair => exact List.mem_append_left _ (Catalogue.mem_of_listing? hl')
  | token => exact List.mem_append_right _ (Catalogue.mem_of_listing? hl')

/-- The store holds the identifiers of its entities. -/
theorem isMissing_identifierField {name : String} {kind : EntityKind} {l : Listing}
    (h : listing? name = some (kind, l)) : l.isMissing l.identifierField = false := by
  have hall : ∀ l ∈ pairCatalogue.listings ++ tokenCatalogue.listings,
      l.isMissing l.identifierField = false := by decide
  exact hall l (mem_listings_of_listing? h).2

theorem identifierField_ne_typename {name : String} {kind : EntityKind} {l : Listing}
    (h : listing? name = some (kind, l)) :
    l.identifierField ≠ Projection.typenameField := by
  have hall : ∀ l ∈ pairCatalogue.listings ++ tokenCatalogue.listings,
      l.identifierField ≠ Projection.typenameField := by decide
  exact hall l (mem_listings_of_listing? h).2

end Interception

end DexCache
