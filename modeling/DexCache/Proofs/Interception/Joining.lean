import DexCache.Interception.Claim
import DexCache.Proofs.Distinct
import DexCache.Proofs.Listing.Answers
import Mathlib.Data.List.Forall2

/-!
# The two halves of an answer

The resolver shows each entity with the missing fields and the identifier, the store shows it
with the held fields and the identifier, and merging fills the first from the second by the
identifier.  The main statements say that the outcome is the answer to the whole selection,
up to the order of keys: for one entity, for a list, for one edge and for a page.

They are about selections that claim each response key once and do not hide the identifier.
-/

namespace DexCache.Interception

open Json (Alike Object)
open Projection (answers fieldValue fieldValue_congr fieldValue_edges fieldValue_of_obj get?_answers
  get?_answers_eq_none project project_of_nodup typenameField)
open Query (Field)

/-- Among entities with distinct names the one of a name is found. -/
theorem withIdentifier?_map {ι : Type} {name : ι → String} {make : ι → Json}
    {idOf : Json → Option String} {is : List ι}
    (hid : ∀ i ∈ is, idOf (make i) = some (name i)) (hnames : (is.map name).Nodup) {i : ι}
    (hi : i ∈ is) : withIdentifier? idOf (is.map make) (name i) = some (make i) := by
  refine Distinct.find?_of_unique (List.mem_reverse.2 (List.mem_map_of_mem hi)) ?_ ?_
  · simp [hid i hi]
  · intro v hv hfound
    obtain ⟨j, hj, rfl⟩ := List.mem_map.1 (List.mem_reverse.1 hv)
    rw [hid j hj, decide_eq_true_eq, Option.some.injEq] at hfound
    rw [Distinct.eq_of_key hnames hj hi hfound]

section Entity

/-- Selections on an entity that have distinct keys and do not hide the identifier. -/
structure Selects (l : Listing) (fields : List Field) : Prop where
  distinct : (fields.map Field.responseKey).Nodup
  plain : ∀ g ∈ fields, g.name = l.identifierField → g.alias? = none →
    g = .plain l.identifierField
  unaliased : ∀ g ∈ fields, g.alias? ≠ some l.identifierField

/-- An entity as the store shows it, and the same entity with its missing fields. -/
structure Shows (l : Listing) (fields : List Field) (raw raw' : Json) (name : String) :
    Prop where
  here : raw.get? l.identifierField = some (.str name)
  there : raw'.get? l.identifierField = some (.str name)
  agree : ∀ g ∈ fields, l.isMissing g.name = false →
    g.name = typenameField ∨ raw.get? g.name = raw'.get? g.name

variable {l : Listing} {fields : List Field} {raw raw' : Json} {name : String}

/-- Only the identifier itself stands under its key. -/
theorem Selects.eq_plain (h : Selects l fields) {g : Field} (hg : g ∈ fields)
    (hkey : g.responseKey = l.identifierField) : g = .plain l.identifierField := by
  cases halias : g.alias? with
  | none =>
      rw [Field.responseKey, halias] at hkey
      exact h.plain g hg hkey halias
  | some a =>
      rw [Field.responseKey, halias] at hkey
      exact absurd (halias.trans (congrArg some hkey)) (h.unaliased g hg)

theorem Selects.eq_of_responseKey (h : Selects l fields) {f g : Field} (hf : f ∈ fields)
    (hg : g ∈ fields) (hkey : f.responseKey = g.responseKey) : f = g :=
  Distinct.eq_of_key h.distinct hf hg hkey

theorem mem_withIdentifier_iff {sub : List Field} {g : Field} :
    g ∈ withIdentifier l sub ↔ g ∈ sub ∨ g = .plain l.identifierField := by
  unfold withIdentifier
  split
  · next hthere =>
      constructor
      · exact .inl
      · rintro (hg | rfl)
        · exact hg
        · exact hthere
  · simp

/-- The identifier is added only where its key is free. -/
theorem Selects.nodup_withIdentifier (h : Selects l fields) {sub : List Field}
    (hsub : sub.Sublist fields) : ((withIdentifier l sub).map Field.responseKey).Nodup := by
  have hdistinct := h.distinct.sublist (hsub.map Field.responseKey)
  unfold withIdentifier
  split
  · exact hdistinct
  · next hfree =>
      rw [List.map_append, List.nodup_append]
      refine ⟨hdistinct, by simp, ?_⟩
      intro a ha b hb heq
      obtain ⟨g, hg, rfl⟩ := List.mem_map.1 ha
      rw [List.map_singleton, List.mem_singleton] at hb
      exact hfree (h.eq_plain (hsub.subset hg) (heq.trans hb) ▸ hg)

/-- A half of an answer shows the identifier. -/
theorem Selects.get?_identifier (h : Selects l fields) {sub : List Field}
    (hsub : sub.Sublist fields) (hname : l.identifierField ≠ typenameField) {v : Json}
    (hv : v.get? l.identifierField = some (.str name)) (type : String) :
    (answers v type (withIdentifier l sub)).get? l.identifierField = some (.str name) := by
  have hmem : Field.plain l.identifierField ∈ withIdentifier l sub :=
    mem_withIdentifier_iff.2 (.inr rfl)
  have hfound := get?_answers (h.nodup_withIdentifier hsub) hmem v type
  rw [show (Field.plain l.identifierField).responseKey = l.identifierField from rfl] at hfound
  rw [hfound, Field.plain, fieldValue, if_neg hname, hv]
  rfl

/-- A half of an answer shows its own fields. -/
theorem Selects.get?_half (h : Selects l fields) {p : Field → Bool} {g : Field} (hg : g ∈ fields)
    (hkey : g.responseKey ≠ l.identifierField) (v : Json) (type : String) :
    (answers v type (withIdentifier l (fields.filter p))).get? g.responseKey =
      if p g then some (fieldValue v type g) else none := by
  split
  · next hp =>
      refine get?_answers (h.nodup_withIdentifier List.filter_sublist) ?_ v type
      exact mem_withIdentifier_iff.2 (.inl (List.mem_filter.2 ⟨hg, hp⟩))
  · next hp =>
      refine get?_answers_eq_none ?_ v type
      intro f hf heq
      rcases mem_withIdentifier_iff.1 hf with hf | rfl
      · obtain ⟨hf, hpf⟩ := List.mem_filter.1 hf
        exact hp (h.eq_of_responseKey hf hg heq ▸ hpf)
      · exact hkey heq.symm

/-- Was the identifier not asked for? -/
def forces (l : Listing) (fields : List Field) : Bool :=
  !fields.any fun f => f.name = l.identifierField && f.alias?.isNone

/-- An identifier that is not forced was asked for. -/
theorem forces_eq_false_iff :
    forces l fields = false ↔ ∃ g ∈ fields, g.name = l.identifierField ∧ g.alias? = none := by
  simp [forces]

theorem Selects.forces_eq_false_iff (h : Selects l fields) :
    forces l fields = false ↔ Field.plain l.identifierField ∈ fields := by
  rw [Interception.forces_eq_false_iff]
  constructor
  · rintro ⟨g, hg, hname, halias⟩
    exact h.plain g hg hname halias ▸ hg
  · intro hmem
    exact ⟨_, hmem, rfl, rfl⟩

/-- An entity filled up from another, without an identifier that was not asked for. -/
def joined (l : Listing) (forced : Bool) (item here : Json) : Json :=
  if forced then (item.fillFrom here).without l.identifierField else item.fillFrom here

/-- What the resolver is asked of an entity. -/
abbrev sentFields (l : Listing) (fields : List Field) : List Field :=
  withIdentifier l (fields.filter fun f => l.isMissing f.name)

/-- What the store answers of an entity. -/
abbrev hereFields (l : Listing) (fields : List Field) : List Field :=
  withIdentifier l (fields.filter fun f => !l.isMissing f.name)

/-- Away from the identifier the halves of an entity make up the answer to its fields. -/
theorem get?_filled (h : Selects l fields) (hs : Shows l fields raw raw' name) (type : String)
    {key : String} (hkey : key ≠ l.identifierField) :
    (Object.fill (answers raw' type (sentFields l fields))
        (answers raw type (hereFields l fields))).get? key =
      (answers raw' type fields).get? key := by
  rw [Object.get?_fill]
  -- a key that is asked for is shown by exactly one of the halves
  by_cases hasked : ∃ g ∈ fields, g.responseKey = key
  · obtain ⟨g, hg, rfl⟩ := hasked
    rw [h.get?_half hg hkey, h.get?_half hg hkey, get?_answers h.distinct hg]
    cases hmissing : l.isMissing g.name with
    | true => rfl
    | false => simp [fieldValue_congr type (hs.agree g hg hmissing)]
  · have hnone {v : Json} {p : Field → Bool} :
        (answers v type (withIdentifier l (fields.filter p))).get? key = none := by
      refine get?_answers_eq_none ?_ v type
      intro f hf heq
      rcases mem_withIdentifier_iff.1 hf with hf | rfl
      · exact hasked ⟨f, (List.mem_filter.1 hf).1, heq⟩
      · exact hkey heq.symm
    rw [hnone, hnone, get?_answers_eq_none fun f hf heq => hasked ⟨f, hf, heq⟩]
    rfl

/-- The two halves of an entity make up the answer to all its fields. -/
theorem alike_joined (h : Selects l fields) (hs : Shows l fields raw raw' name)
    (hname : l.identifierField ≠ typenameField) (type : String) :
    Alike (joined l (forces l fields) (project raw' (sentFields l fields) type)
        (project raw (hereFields l fields) type))
      (project raw' fields type) := by
  have hsent := h.nodup_withIdentifier (List.filter_sublist (p := fun f => l.isMissing f.name))
  have hhere := h.nodup_withIdentifier (List.filter_sublist (p := fun f => !l.isMissing f.name))
  rw [project_of_nodup hsent, project_of_nodup hhere, project_of_nodup h.distinct]
  have hfields : (answers raw' type fields).keys.Nodup := by
    rw [Projection.keys_answers]
    exact h.distinct
  have hfilled : (Object.fill (answers raw' type (sentFields l fields))
      (answers raw type (hereFields l fields))).keys.Nodup := by
    refine Object.nodup_keys_fill ?_ _
    rw [Projection.keys_answers]
    exact hsent
  have hidentifier : (Object.fill (answers raw' type (sentFields l fields))
      (answers raw type (hereFields l fields))).get? l.identifierField = some (.str name) := by
    rw [Object.get?_fill, h.get?_identifier List.filter_sublist hname hs.there]
    rfl
  -- an identifier that was asked for stays, any other is taken out again
  cases hforced : forces l fields with
  | false =>
      refine Alike.of_perm (Object.perm_of_get? hfilled hfields fun key => ?_) hfilled
      by_cases hkey : key = l.identifierField
      · have hasked := get?_answers h.distinct (h.forces_eq_false_iff.1 hforced) raw' type
        rw [hkey, hidentifier]
        refine Eq.trans ?_ hasked.symm
        rw [Field.plain, fieldValue, if_neg hname, hs.there]
        rfl
      · exact get?_filled h hs type hkey
  | true =>
      have herased := Object.nodup_keys_swapErase hfilled l.identifierField
      refine Alike.of_perm (Object.perm_of_get? herased hfields fun key => ?_) herased
      rw [Object.get?_swapErase hfilled]
      split
      · next hkey =>
          refine (get?_answers_eq_none ?_ raw' type).symm
          intro g hg heq
          have hasked := h.forces_eq_false_iff.2 (h.eq_plain hg (heq.trans hkey) ▸ hg)
          rw [hforced] at hasked
          cases hasked
      · next hkey => exact get?_filled h hs type hkey

/-- Either half of an entity can be told by its identifier. -/
theorem Selects.identifierOf? (h : Selects l fields) {p : Field → Bool}
    (hname : l.identifierField ≠ typenameField) {v : Json}
    (hv : v.get? l.identifierField = some (.str name)) (type : String) :
    identifierOf? (project v (withIdentifier l (fields.filter p)) type) l.identifierField =
      some name := by
  rw [project_of_nodup (h.nodup_withIdentifier List.filter_sublist), Interception.identifierOf?,
    Json.get?, h.get?_identifier List.filter_sublist hname hv]
  rfl

end Entity

section List

variable {l : Listing} {fields : List Field} {ι : Type} {is : List ι} {name : ι → String}
  {raw raw' : ι → Json}

theorem mergeItem_of_found {forced : Bool} {locals : List Json} {item here : Json}
    {found : String} (hitem : identifierOf? item l.identifierField = some found)
    (hfound : withIdentifier? (fun v => identifierOf? v l.identifierField) locals found =
      some here) : mergeItem l.identifierField forced locals item = joined l forced item here := by
  simp [mergeItem, hitem, hfound, joined]

/-- An entity of the resolved half is joined with the same entity of the local half. -/
theorem mergeItem_eq_joined (h : Selects l fields) (hname : l.identifierField ≠ typenameField)
    (hs : ∀ i ∈ is, Shows l fields (raw i) (raw' i) (name i)) (hnames : (is.map name).Nodup)
    (forced : Bool) (type : String) {i : ι} (hi : i ∈ is) :
    mergeItem l.identifierField forced
        (is.map fun i => project (raw i) (hereFields l fields) type)
        (project (raw' i) (sentFields l fields) type) =
      joined l forced (project (raw' i) (sentFields l fields) type)
        (project (raw i) (hereFields l fields) type) := by
  have hids : ∀ j ∈ is, identifierOf? (project (raw j) (hereFields l fields) type)
      l.identifierField = some (name j) := fun j hj => h.identifierOf? hname (hs j hj).here type
  have hfound : withIdentifier? (fun v => identifierOf? v l.identifierField)
      (is.map fun i => project (raw i) (hereFields l fields) type) (name i) =
      some (project (raw i) (hereFields l fields) type) := withIdentifier?_map hids hnames hi
  exact mergeItem_of_found (h.identifierOf? hname (hs i hi).there type) hfound

/-- The halves of a list make up the whole list. -/
theorem alike_merge_list (hshape : l.shape = .list) (h : Selects l fields)
    (hname : l.identifierField ≠ typenameField)
    (hs : ∀ i ∈ is, Shows l fields (raw i) (raw' i) (name i)) (hnames : (is.map name).Nodup)
    (type : String) :
    Alike (merge l (forces l fields)
        (.arr (is.map fun i => project (raw' i) (sentFields l fields) type))
        (.arr (is.map fun i => project (raw i) (hereFields l fields) type)))
      (.arr (is.map fun i => project (raw' i) fields type)) := by
  rw [merge, hshape]
  simp only [Json.itemsOf, Option.bind_some, Json.items?, Option.getD_some, List.map_map]
  refine .arr (List.forall₂_map_left_iff.2 (List.forall₂_map_right_iff.2 ?_))
  refine List.forall₂_same.2 fun i hi => ?_
  rw [Function.comp_apply, mergeItem_eq_joined h hname hs hnames (forces l fields) type hi]
  exact alike_joined h (hs i hi) hname type

end List

section Hole

/-- A selection set with distinct keys in which one field of a name stands under its name. -/
structure Hole (name : String) (fields : List Field) (hole : Field) : Prop where
  distinct : (fields.map Field.responseKey).Nodup
  mem : hole ∈ fields
  named : hole.name = name
  unaliased : ∀ g ∈ fields, g.name = name → g.alias? = none

variable {name : String} {fields : List Field} {hole : Field}

theorem Hole.responseKey_of_name (h : Hole name fields hole) {g : Field} (hg : g ∈ fields)
    (hname : g.name = name) : g.responseKey = name := by
  rw [Field.responseKey, h.unaliased g hg hname, Option.getD_none, hname]

theorem Hole.eq_of_name (h : Hole name fields hole) {g : Field} (hg : g ∈ fields)
    (hname : g.name = name) : g = hole :=
  Distinct.eq_of_key h.distinct hg h.mem
    ((h.responseKey_of_name hg hname).trans (h.responseKey_of_name h.mem h.named).symm)

/-- New sub-selections leave the response keys as they are. -/
theorem map_responseKey_updateFirst (name : String) (make : Field → List Field)
    (fields : List Field) :
    (updateFirst name (fun f => { f with subfields := make f }) fields).map Field.responseKey =
      fields.map Field.responseKey := by
  induction fields with
  | nil => rfl
  | cons f rest ih =>
      rw [updateFirst]
      split
      · rfl
      · rw [List.map_cons, List.map_cons, ih]

/-- The answers to selections whose first field of a name has new sub-selections. -/
theorem get?_answers_updateFirst {fields : List Field} {name : String} {first : Field}
    (hdistinct : (fields.map Field.responseKey).Nodup)
    (hfirst : fields.find? (fun f => f.name = name) = some first) (make : Field → List Field)
    (raw : Json) (type : String) (key : String) :
    (answers raw type (updateFirst name (fun f => { f with subfields := make f })
        fields)).get? key =
      if key = first.responseKey then
        some (fieldValue raw type { first with subfields := make first })
      else (answers raw type fields).get? key := by
  induction fields with
  | nil => cases hfirst
  | cons f rest ih =>
      rw [List.map_cons, List.nodup_cons] at hdistinct
      by_cases hf : f.name = name
      · -- the head is the first field of the name
        rw [List.find?_cons_of_pos (by simpa using hf)] at hfirst
        obtain rfl := Option.some.inj hfirst
        rw [updateFirst, if_pos hf]
        by_cases hkey : key = f.responseKey
        · rw [if_pos hkey, hkey]
          exact if_pos rfl
        · rw [if_neg hkey]
          exact (if_neg (Ne.symm hkey)).trans (if_neg (Ne.symm hkey)).symm
      · rw [List.find?_cons_of_neg (by simpa using hf)] at hfirst
        have hother : first.responseKey ≠ f.responseKey := fun heq =>
          hdistinct.1 (heq ▸ List.mem_map_of_mem (List.mem_of_find?_eq_some hfirst))
        rw [updateFirst, if_neg hf]
        by_cases hkey : f.responseKey = key
        · rw [if_neg (hkey ▸ hother.symm)]
          exact (if_pos hkey).trans (if_pos hkey).symm
        · exact (if_neg hkey).trans ((ih hdistinct.2 hfirst).trans
            (if_congr Iff.rfl rfl (if_neg hkey).symm))

theorem updateFirst_ne_nil {fields : List Field} {make : Field → Field} (h : fields ≠ []) :
    updateFirst name make fields ≠ [] := by
  cases fields with
  | nil => exact absurd rfl h
  | cons f rest =>
      rw [updateFirst]
      split <;> exact List.cons_ne_nil _ _

theorem Hole.find? (h : Hole name fields hole) :
    fields.find? (fun f => f.name = name) = some hole :=
  Distinct.find?_of_unique h.mem (decide_eq_true h.named) fun _ hg hname =>
    h.eq_of_name hg (of_decide_eq_true hname)

/-- An object that holds the hole's answer, and the answers to the other fields of a raw value
that differs at the hole only, is the answer to all of them. -/
theorem Hole.alike (h : Hole name fields hole) {raw raw' : Json} {type : String} {o : Object}
    (ho : o.keys.Nodup) (hagree : ∀ other, other ≠ name → raw.get? other = raw'.get? other)
    {value : Json} (hvalue : o.get? name = some value)
    (halike : Alike value (fieldValue raw' type hole))
    (hothers : ∀ key, key ≠ name → o.get? key = (answers raw type fields).get? key) :
    Alike (.obj o) (project raw' fields type) := by
  rw [project_of_nodup h.distinct]
  have hkeys : (answers raw' type fields).keys.Nodup := by
    rw [Projection.keys_answers]
    exact h.distinct
  refine .obj ho hkeys fun key => ?_
  -- at the hole by assumption, elsewhere because the raw values agree
  by_cases hkey : key = name
  · have hhole := get?_answers h.distinct h.mem raw' type
    rw [h.responseKey_of_name h.mem h.named] at hhole
    rw [hkey, hvalue, hhole]
    exact .some halike
  · rw [hothers key hkey]
    by_cases hasked : ∃ g ∈ fields, g.responseKey = key
    · obtain ⟨g, hg, rfl⟩ := hasked
      have hother : g.name ≠ name := fun heq => hkey (h.responseKey_of_name hg heq)
      rw [get?_answers h.distinct hg, get?_answers h.distinct hg,
        fieldValue_congr type (.inr (hagree g.name hother))]
      exact Alike.option_refl _
    · have hnone : ∀ g ∈ fields, g.responseKey ≠ key := fun g hg heq => hasked ⟨g, hg, heq⟩
      rw [get?_answers_eq_none hnone, get?_answers_eq_none hnone]
      exact .none

end Hole

section Edge

variable {l : Listing} {fields : List Field} {name : String} {raw raw' : Json}

theorem withIdentifier_ne_nil (l : Listing) (sub : List Field) : withIdentifier l sub ≠ [] := by
  intro h
  have hmem := mem_withIdentifier_iff.2 (.inr rfl : _ ∈ sub ∨ _ = Field.plain l.identifierField)
  rw [h] at hmem
  cases hmem

theorem exists_obj_of_get? {v value : Json} {key : String} (h : v.get? key = some value) :
    ∃ o : Object, v = .obj o := by
  cases v with
  | obj o => exact ⟨o, rfl⟩
  | _ => cases h

/-- The node of an edge is answered like an entity that stands alone. -/
theorem fieldValue_node (node : Field) (hnode : node.name = "node")
    (hselected : node.subfields ≠ []) {v value : Json} {key : String}
    (hv : v.get? key = some value) (position : Nat) (type : String) :
    fieldValue (Paging.edge position v) type node =
      project v node.subfields (Schema.childType type "node") := by
  obtain ⟨o, rfl⟩ := exists_obj_of_get? hv
  have hthere : (Paging.edge position (.obj o)).get? node.name = some (.obj o) := by
    rw [hnode]
    rfl
  rw [fieldValue_of_obj hthere (by rw [hnode]; decide) hselected, hnode]

/-- An object of one key that is filled up keeps its value and takes all other keys over. -/
theorem get?_fill_singleton (name : String) (value : Json) (source : Object) (key : String) :
    (Object.fill [(name, value)] source).get? key =
      if key = name then some value else source.get? key := by
  rw [Object.get?_fill]
  split
  · next hkey => simp [Object.get?, hkey]
  · next hkey => simp [Object.get?, Ne.symm hkey]

theorem nodup_keys_fill_singleton (name : String) (value : Json) (source : Object) :
    (Object.fill [(name, value)] source).keys.Nodup :=
  Object.nodup_keys_fill (by simp [Object.keys]) source

/-- An edge of the resolved half that holds its node alone is joined with the edge that is
found for it. -/
theorem mergeEdge_of_found {forced : Bool} {locals : List Json} {node nodeHere : Json}
    {here : Object} {found : String}
    (hnode : identifierOf? node l.identifierField = some found)
    (hfound : withIdentifier? (edgeIdentifier? l.identifierField) locals found =
      some (.obj here)) (hnodeHere : here.get? "node" = some nodeHere) :
    ∃ o : Object, mergeEdge l.identifierField forced locals (.obj [("node", node)]) = .obj o ∧
      o.keys.Nodup ∧ o.get? "node" = some (joined l forced node nodeHere) ∧
      ∀ key, key ≠ "node" → o.get? key = here.get? key := by
  have hid : edgeIdentifier? l.identifierField (.obj [("node", node)]) = some found := hnode
  let filled := Object.fill [("node", node.fillFrom nodeHere)] here
  have hkeys : filled.keys.Nodup := nodup_keys_fill_singleton _ _ _
  have hfilledNode : filled.get? "node" = some (node.fillFrom nodeHere) := by
    rw [get?_fill_singleton, if_pos rfl]
  have hfilledOther (key : String) (hkey : key ≠ "node") : filled.get? key = here.get? key := by
    rw [get?_fill_singleton, if_neg hkey]
  have hmerged : mergeEdge l.identifierField forced locals (.obj [("node", node)]) =
      if forced then (Json.obj filled).modify "node" fun n => n.without l.identifierField
      else .obj filled := by
    rw [mergeEdge]
    simp only [hid, Option.bind_some, hfound]
    simp only [Json.get?, hnodeHere, Json.modify, Json.fillFrom, List.map_cons, List.map_nil,
      if_true]
    rfl
  cases forced with
  | false => exact ⟨filled, hmerged, hkeys, hfilledNode, hfilledOther⟩
  | true =>
      let strip (n : Json) : Json := n.without l.identifierField
      have hstripped := Object.get?_map_at filled "node"
      refine ⟨_, hmerged, ?_, ?_, ?_⟩
      · have hstrippedKeys := Object.keys_map_at filled "node" strip
        rw [← hstrippedKeys] at hkeys
        exact hkeys
      · refine (hstripped "node" strip).trans ?_
        rw [if_pos rfl, hfilledNode]
        rfl
      · intro key hkey
        refine (hstripped key strip).trans ?_
        rw [if_neg hkey, hfilledOther key hkey]

variable {edgeFields : List Field} {node : Field}

/-- The answer to an edge that the resolver gives. -/
def sentEdge (l : Listing) (fields : List Field) (type : String) (position : Nat) (v : Json) :
    Json :=
  project (Paging.edge position v) [.withSubfields "node" (sentFields l fields)] type

/-- The answer to an edge that the store gives. -/
def hereEdge (l : Listing) (fields edgeFields : List Field) (type : String) (position : Nat)
    (v : Json) : Json :=
  project (Paging.edge position v) (updateFirst "node"
    (fun node => { node with subfields := hereFields l fields }) edgeFields) type

theorem sentEdge_eq {value : Json} {key : String} (hv : raw.get? key = some value)
    (type : String) (position : Nat) :
    sentEdge l fields type position raw =
      .obj [("node", project raw (sentFields l fields) (Schema.childType type "node"))] := by
  have hnode := fieldValue_node (.withSubfields "node" (sentFields l fields)) rfl
    (withIdentifier_ne_nil l _) hv position type
  rw [sentEdge, project_of_nodup (by simp), answers, List.map_singleton, hnode]
  rfl

/-- The first `node` of an edge that the store gives shows the held fields, and everything else
is as in the whole edge. -/
theorem exists_hereEdge (l : Listing) (fields : List Field)
    (hdistinct : (edgeFields.map Field.responseKey).Nodup)
    (hfirst : edgeFields.find? (fun f => f.name = "node") = some node) {value : Json}
    {key : String} (hv : raw.get? key = some value) (type : String) (position : Nat) :
    ∃ here : Object, hereEdge l fields edgeFields type position raw = .obj here ∧
      ∀ key, here.get? key = if key = node.responseKey then
          some (project raw (hereFields l fields) (Schema.childType type "node"))
        else (answers (Paging.edge position raw) type edgeFields).get? key := by
  have hname : node.name = "node" := by simpa using List.find?_some hfirst
  have hnode := fieldValue_node { node with subfields := hereFields l fields } hname
    (withIdentifier_ne_nil l _) hv position type
  have hkeys := map_responseKey_updateFirst "node" (fun _ => hereFields l fields) edgeFields
  refine ⟨_, project_of_nodup (hkeys.symm ▸ hdistinct) _ _, fun key => ?_⟩
  rw [get?_answers_updateFirst hdistinct hfirst, hnode]

theorem hereEdge_eq (h : Hole "node" edgeFields node) {value : Json} {key : String}
    (hv : raw.get? key = some value) (type : String) (position : Nat) :
    ∃ here : Object, hereEdge l fields edgeFields type position raw = .obj here ∧
      here.get? "node" =
        some (project raw (hereFields l fields) (Schema.childType type "node")) ∧
      ∀ key, key ≠ "node" →
        here.get? key = (answers (Paging.edge position raw) type edgeFields).get? key := by
  obtain ⟨here, hhere, hvalues⟩ := exists_hereEdge l fields h.distinct h.find? hv type position
  rw [h.responseKey_of_name h.mem h.named] at hvalues
  exact ⟨here, hhere, (hvalues "node").trans (if_pos rfl), fun key hkey =>
    (hvalues key).trans (if_neg hkey)⟩

/-- The halves of an edge make up the whole edge. -/
theorem alike_mergeEdge (hhole : Hole "node" edgeFields node) (hfields : node.subfields = fields)
    (hselected : fields ≠ []) (h : Selects l fields) (hs : Shows l fields raw raw' name)
    (hname : l.identifierField ≠ typenameField) {locals : List Json} (type : String)
    (position : Nat)
    (hfound : withIdentifier? (edgeIdentifier? l.identifierField) locals name =
      some (hereEdge l fields edgeFields type position raw)) :
    Alike (mergeEdge l.identifierField (forces l fields) locals
        (sentEdge l fields type position raw'))
      (project (Paging.edge position raw') edgeFields type) := by
  obtain ⟨here, hhere, hnodeHere, hothers⟩ := hereEdge_eq hhole hs.here type position
  rw [hhere] at hfound
  rw [sentEdge_eq hs.there]
  obtain ⟨o, ho, hkeys, hnode, hrest⟩ := mergeEdge_of_found
    (h.identifierOf? hname hs.there _) hfound hnodeHere
  rw [ho]
  refine hhole.alike hkeys (fun other hother => ?_) hnode ?_ fun key hkey =>
    (hrest key hkey).trans (hothers key hkey)
  · simp [Paging.edge, Json.get?, Object.get?, Ne.symm hother]
  · rw [fieldValue_node node hhole.named (hfields ▸ hselected) hs.there, hfields]
    exact alike_joined h hs hname _

end Edge

section Page

variable {l : Listing} {fields edgeFields pageFields : List Field} {edges node : Field}
  {ι : Type} {is : List ι} {name : ι → String} {position : ι → Nat} {raw raw' : ι → Json}

/-- A page of the resolver that holds its edges alone. -/
theorem sentPage_eq {page : Json}
    (hpage : page.get? "edges" =
      some (.arr (is.map fun i => Paging.edge (position i) (raw i)))) (type : String) :
    project page [.withSubfields "edges" [.withSubfields "node" (sentFields l fields)]] type =
      .obj [("edges", .arr (is.map fun i =>
        sentEdge l fields (Schema.childType type "edges") (position i) (raw i)))] := by
  have hvalue := fieldValue_edges
    (.withSubfields "edges" [.withSubfields "node" (sentFields l fields)]) rfl
    (List.cons_ne_nil _ _) hpage type
  rw [project_of_nodup (by simp), answers, List.map_singleton, hvalue]
  rfl

/-- The first `edges` of a page that the store gives show the held fields of their nodes, and
everything else is as in the whole page. -/
theorem exists_herePage (l : Listing) (fields : List Field)
    (hdistinct : (pageFields.map Field.responseKey).Nodup)
    (hfirst : pageFields.find? (fun f => f.name = "edges") = some edges)
    (hselected : edges.subfields ≠ []) {page : Json} (hpage : page.get? "edges" =
      some (.arr (is.map fun i => Paging.edge (position i) (raw i)))) (type : String) :
    ∃ here : Object,
      project page (updateFirst "edges" (fun edges => { edges with
        subfields := updateFirst "node"
          (fun node => { node with subfields := hereFields l fields }) edges.subfields })
        pageFields) type = .obj here ∧
      ∀ key, here.get? key = if key = edges.responseKey then
          some (.arr (is.map fun i => hereEdge l fields edges.subfields
            (Schema.childType type "edges") (position i) (raw i)))
        else (answers page type pageFields).get? key := by
  let make (edges : Field) : List Field := updateFirst "node"
    (fun node => { node with subfields := hereFields l fields }) edges.subfields
  have hname : edges.name = "edges" := by simpa using List.find?_some hfirst
  have hmake : make edges ≠ [] := updateFirst_ne_nil hselected
  have hvalue := fieldValue_edges { edges with subfields := make edges } hname hmake hpage type
  have hkeys := map_responseKey_updateFirst "edges" make pageFields
  refine ⟨_, project_of_nodup (hkeys.symm ▸ hdistinct) _ _, fun key => ?_⟩
  rw [get?_answers_updateFirst hdistinct hfirst make, hvalue]
  rfl

/-- A page of the store: its edges show the held fields of their nodes, and what is beside the
edges is what the whole page has there. -/
theorem herePage_eq (l : Listing) (fields : List Field) (hedges : Hole "edges" pageFields edges)
    (hnode : Hole "node" edges.subfields node) {page : Json}
    (hpage : page.get? "edges" =
      some (.arr (is.map fun i => Paging.edge (position i) (raw i)))) (type : String) :
    ∃ here : Object,
      project page (updateFirst "edges" (fun edges => { edges with
        subfields := updateFirst "node"
          (fun node => { node with subfields := hereFields l fields }) edges.subfields })
        pageFields) type = .obj here ∧
      here.get? "edges" = some (.arr (is.map fun i =>
        hereEdge l fields edges.subfields (Schema.childType type "edges") (position i) (raw i))) ∧
      ∀ key, key ≠ "edges" → here.get? key = (answers page type pageFields).get? key := by
  obtain ⟨here, hhere, hvalues⟩ := exists_herePage l fields hedges.distinct hedges.find?
    (List.ne_nil_of_mem hnode.mem) hpage type
  rw [hedges.responseKey_of_name hedges.mem hedges.named] at hvalues
  exact ⟨here, hhere, (hvalues "edges").trans (if_pos rfl), fun key hkey =>
    (hvalues key).trans (if_neg hkey)⟩

/-- A page of the resolved half that holds its edges alone gets each of them merged, and takes
everything else from the local page. -/
theorem merge_page (hshape : l.shape = .connection) (forced : Bool) (items : List Json)
    (here : Object) :
    merge l forced (.obj [("edges", .arr items)]) (.obj here) =
      .obj (Object.fill [("edges", .arr (items.map
        (mergeEdge l.identifierField forced (Json.itemsOf (here.get? "edges")))))] here) := by
  unfold merge
  rw [hshape]
  simp only [Json.get?, Json.modify, Json.fillFrom, List.map_cons, List.map_nil, if_true]

/-- The halves of a page make up the whole page. -/
theorem alike_merge_connection (hshape : l.shape = .connection)
    (hedges : Hole "edges" pageFields edges) (hnode : Hole "node" edges.subfields node)
    (hfields : node.subfields = fields) (hselected : fields ≠ []) (h : Selects l fields)
    (hname : l.identifierField ≠ typenameField)
    (hs : ∀ i ∈ is, Shows l fields (raw i) (raw' i) (name i)) (hnames : (is.map name).Nodup)
    {page page' : Json} (hpage : page.get? "edges" =
      some (.arr (is.map fun i => Paging.edge (position i) (raw i))))
    (hpage' : page'.get? "edges" =
      some (.arr (is.map fun i => Paging.edge (position i) (raw' i))))
    (hagree : ∀ other, other ≠ "edges" → page.get? other = page'.get? other) (type : String) :
    Alike (merge l (forces l fields)
        (project page'
          [.withSubfields "edges" [.withSubfields "node" (sentFields l fields)]] type)
        (project page (updateFirst "edges" (fun edges => { edges with
          subfields := updateFirst "node"
            (fun node => { node with subfields := hereFields l fields }) edges.subfields })
          pageFields) type))
      (project page' pageFields type) := by
  let child := Schema.childType type "edges"
  obtain ⟨here, hhere, hlocals, hothers⟩ := herePage_eq l fields hedges hnode hpage type
  have hfound {i : ι} (hi : i ∈ is) : withIdentifier? (edgeIdentifier? l.identifierField)
      (is.map fun i => hereEdge l fields edges.subfields child (position i) (raw i)) (name i) =
      some (hereEdge l fields edges.subfields child (position i) (raw i)) := by
    refine withIdentifier?_map (fun j hj => ?_) hnames hi
    obtain ⟨edge, hedge, hthere, -⟩ := hereEdge_eq hnode (hs j hj).here child (position j)
    rw [hedge, edgeIdentifier?, Json.get?, hthere, Option.bind_some]
    exact h.identifierOf? hname (hs j hj).here _
  rw [sentPage_eq hpage', hhere, merge_page hshape, hlocals]
  -- the page differs from the whole one at its edges only, and there edge by edge
  refine hedges.alike (nodup_keys_fill_singleton _ _ _) hagree
    ((get?_fill_singleton _ _ _ _).trans (if_pos rfl)) ?_ ?_
  · rw [fieldValue_edges edges hedges.named (List.ne_nil_of_mem hnode.mem) hpage', List.map_map]
    refine .arr (List.forall₂_map_left_iff.2 (List.forall₂_map_right_iff.2 ?_))
    refine List.forall₂_same.2 fun i hi => ?_
    exact alike_mergeEdge hnode hfields hselected h (hs i hi) hname child (position i) (hfound hi)
  · intro key hkey
    rw [get?_fill_singleton, if_neg hkey, hothers key hkey]

end Page

end DexCache.Interception
