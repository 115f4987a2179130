import DexCache.Proofs.Interception.Keyed

/-!
# The response keys of a joined answer

The resolver's half of an answer has the missing fields and the identifier, and the store's
half has the held fields and the identifier.  Joined, they have the keys that were asked for
if and only if no field is aliased onto the identifier and, in a page, the entities stand under
`edges` and `node`; otherwise a key is lost or left over, unless there are no entities.

No selection set repeats a key.  Beyond that selections are any: the identifier may be aliased
or have parts, and `edges` and `node` may be there several times.
-/

namespace DexCache.Interception

open Json (Object)
open Projection (addFields_eq_foldl answers fieldValue get?_answers get?_answers_eq_none
  keys_answers project project_of_nodup typenameField)
open Query (Field)

section Entity

variable {l : Listing} {fields : List Field} {raw : Json} {name : String}

/-- A half of an entity shows the identifier under its own name, whatever else is selected; at
other keys it shows what is selected. -/
theorem exists_half {sub : List Field} (hdistinct : (sub.map Field.responseKey).Nodup)
    (htypename : l.identifierField ≠ typenameField)
    (hraw : raw.get? l.identifierField = some (.str name)) (type : String) :
    ∃ half : Object, project raw (withIdentifier l sub) type = .obj half ∧
      half.get? l.identifierField = some (.str name) ∧
      ∀ key, key ≠ l.identifierField → half.get? key = (answers raw type sub).get? key := by
  have hvalue : fieldValue raw type (.plain l.identifierField) = .str name := by
    rw [Field.plain, fieldValue, if_neg htypename, hraw]
    rfl
  have hkeys : (answers raw type sub).keys.Nodup := by
    rw [keys_answers]
    exact hdistinct
  unfold withIdentifier
  split
  · next hmem =>
      refine ⟨_, project_of_nodup hdistinct raw type, ?_, fun _ _ => rfl⟩
      have hfound := get?_answers hdistinct hmem raw type
      rw [hvalue] at hfound
      exact hfound
  -- the identifier comes last, so it is what its key holds in the end
  · refine ⟨(answers raw type sub).insert l.identifierField (.str name), ?_,
      Object.get?_insert_self _ _ _, fun key hkey => Object.get?_insert_of_ne _ _ hkey⟩
    have hfirst : (answers raw type sub).foldl (fun o e => Object.insert o e.1 e.2)
        ([] : Object) = answers raw type sub := Object.ofEntries_of_nodup hkeys
    have hlast : answers raw type (sub ++ [.plain l.identifierField]) =
        answers raw type sub ++ [(l.identifierField, .str name)] := by
      rw [answers, List.map_append, List.map_singleton, hvalue]
      rfl
    rw [project, addFields_eq_foldl, hlast, List.foldl_append, hfirst]
    rfl

/-- What the store shows of an entity lacks the key of a missing field. -/
theorem not_keyed_here (hdistinct : (fields.map Field.responseKey).Nodup)
    (hsent : ((sentFields l fields).map Field.responseKey).Nodup)
    (hidentifier : l.isMissing l.identifierField = false)
    (hmissing : ∃ g ∈ fields, l.isMissing g.name = true)
    (htypename : l.identifierField ≠ typenameField)
    (hraw : raw.get? l.identifierField = some (.str name)) (type : String) :
    ¬ Keyed fields (project raw (hereFields l fields) type) := by
  obtain ⟨g, hg, hgmissing⟩ := hmissing
  have hheld : ((fields.filter fun f => !l.isMissing f.name).map Field.responseKey).Nodup :=
    hdistinct.sublist (List.filter_sublist.map _)
  obtain ⟨half, hhalf, -, hothers⟩ := exists_half hheld htypename hraw type
  rw [hhalf]
  intro hkeyed
  obtain ⟨v, hv, -⟩ := hkeyed.exists_value hg
  have hgsent : g ∈ sentFields l fields :=
    mem_withIdentifier_iff.2 (.inl (List.mem_filter.2 ⟨hg, hgmissing⟩))
  -- the key of the missing field is that of no other field that is sent or held
  have hkey : g.responseKey ≠ l.identifierField := by
    intro heq
    have hplain : g = .plain l.identifierField :=
      Distinct.eq_of_key hsent hgsent (mem_withIdentifier_iff.2 (.inr rfl)) heq
    rw [hplain] at hgmissing
    exact absurd (hgmissing.symm.trans hidentifier) (by simp)
  rw [hothers _ hkey, get?_answers_eq_none ?_] at hv
  · cases hv
  · intro f hf heq
    obtain ⟨hf, hfheld⟩ := List.mem_filter.1 hf
    rw [Distinct.eq_of_key hdistinct hf hg heq, hgmissing] at hfheld
    cases hfheld

/-- What hides the identifier leaves no place for it, so that it was not asked for. -/
theorem forces_of_alias (hdistinct : (fields.map Field.responseKey).Nodup) {g : Field}
    (hg : g ∈ fields) (halias : g.alias? = some l.identifierField) : forces l fields = true := by
  rw [← Bool.not_eq_false, forces_eq_false_iff]
  rintro ⟨h, hh, hname, hplain⟩
  have hkey : h.responseKey = g.responseKey := by
    rw [Field.responseKey, Field.responseKey, hplain, halias, hname]
    rfl
  rw [Distinct.eq_of_key hdistinct hh hg hkey, halias] at hplain
  cases hplain

theorem get?_of_identifierOf? {v : Json} {key found : String}
    (h : identifierOf? v key = some found) : v.get? key = some (.str found) := by
  obtain ⟨w, hw, hstr⟩ := Option.bind_eq_some_iff.1 h
  cases w with
  | str _ => rw [hw, Option.some.inj hstr]
  | _ => cases hstr

/-- A joined entity has what is on either side, but for an identifier that was not asked for. -/
theorem exists_joined (l : Listing) (forced : Bool) {o : Object} (ho : o.keys.Nodup)
    (half : Object) :
    ∃ j : Object, joined l forced (.obj o) (.obj half) = .obj j ∧ j.keys.Nodup ∧
      ∀ key, j.get? key =
        if forced = true ∧ key = l.identifierField then none
        else (o.get? key).or (half.get? key) := by
  have hkeys := Object.nodup_keys_fill ho half
  cases forced with
  | false => exact ⟨o.fill half, rfl, hkeys, fun key => by simp [Object.get?_fill]⟩
  | true =>
      refine ⟨_, rfl, Object.nodup_keys_swapErase hkeys _, fun key => ?_⟩
      simp [Object.get?_swapErase hkeys, Object.get?_fill]

/-- The halves of an entity have no keys but those that were asked for and the identifier. -/
theorem mem_of_get?_halves {o half : Object} (hitem : Keyed (sentFields l fields) (.obj o))
    {type key : String} (hkey : key ≠ l.identifierField)
    (hothers : half.get? key =
      (answers raw type (fields.filter fun f => !l.isMissing f.name)).get? key)
    {v : Json} (hv : (o.get? key).or (half.get? key) = some v) :
    key ∈ fields.map Field.responseKey := by
  rcases Option.or_eq_some_iff.1 hv with hsent | ⟨-, hhere⟩
  · obtain ⟨g, hg, rfl⟩ :=
      List.mem_map.1 (((Keyed.obj_iff.1 hitem).2.1 key).1 (Object.mem_keys_iff.2 ⟨v, hsent⟩))
    rcases mem_withIdentifier_iff.1 hg with hg | rfl
    · exact List.mem_map_of_mem (List.mem_of_mem_filter hg)
    · exact absurd rfl hkey
  · have hmem := Object.mem_keys_iff.2 ⟨v, hothers.symm.trans hhere⟩
    rw [keys_answers] at hmem
    exact (List.filter_sublist.map _).subset hmem

/-- The halves of an entity have a value for each field that was asked for, beside the
identifier. -/
theorem exists_get?_halves (hdistinct : (fields.map Field.responseKey).Nodup) {o half : Object}
    (hitem : Keyed (sentFields l fields) (.obj o)) {type : String} {f : Field} (hf : f ∈ fields)
    (hbelow : f.all Field.isDistinct = true) (hkey : f.responseKey ≠ l.identifierField)
    (hothers : half.get? f.responseKey =
      (answers raw type (fields.filter fun f => !l.isMissing f.name)).get? f.responseKey) :
    ∃ v, (o.get? f.responseKey).or (half.get? f.responseKey) = some v ∧
      (f.subfields ≠ [] → Keyed f.subfields v) := by
  cases hmissing : l.isMissing f.name with
  | true =>
      have hsent : f ∈ sentFields l fields :=
        mem_withIdentifier_iff.2 (.inl (List.mem_filter.2 ⟨hf, hmissing⟩))
      obtain ⟨v, hv, hkeyed⟩ := hitem.exists_value hsent
      exact ⟨v, by rw [hv]; rfl, hkeyed⟩
  | false =>
      -- what was sent has no other field under this key
      have hnone : o.get? f.responseKey = none := by
        rw [Object.get?_eq_none_iff, (Keyed.obj_iff.1 hitem).2.1]
        intro hmem
        obtain ⟨g, hg, hsame⟩ := List.mem_map.1 hmem
        rcases mem_withIdentifier_iff.1 hg with hg | rfl
        · obtain ⟨hg, hgmissing⟩ := List.mem_filter.1 hg
          rw [Distinct.eq_of_key hdistinct hg hf hsame, hmissing] at hgmissing
          cases hgmissing
        · exact hkey hsame.symm
      have hmem : f ∈ fields.filter fun f => !l.isMissing f.name :=
        List.mem_filter.2 ⟨hf, by simp [hmissing]⟩
      refine ⟨fieldValue raw type f, ?_, keyed_fieldValue f raw type hbelow⟩
      rw [hnone, hothers, get?_answers (hdistinct.sublist (List.filter_sublist.map _)) hmem]
      rfl

/-- A joined entity has the keys that were asked for if and only if no field is aliased onto the
identifier. -/
theorem keyed_joined_iff (hdistinct : (fields.map Field.responseKey).Nodup)
    (hbelow : ∀ g ∈ fields, g.all Field.isDistinct = true)
    (htypename : l.identifierField ≠ typenameField)
    (hraw : raw.get? l.identifierField = some (.str name)) {item : Json} {found : String}
    (hitem : Keyed (sentFields l fields) item)
    (hfound : identifierOf? item l.identifierField = some found) (type : String) :
    Keyed fields (joined l (forces l fields) item (project raw (hereFields l fields) type)) ↔
      ∀ g ∈ fields, g.alias? ≠ some l.identifierField := by
  have hidentifier := get?_of_identifierOf? hfound
  obtain ⟨o, rfl⟩ := exists_obj_of_get? hidentifier
  obtain ⟨half, hhalf, -, hothers⟩ :=
    exists_half (hdistinct.sublist (List.filter_sublist.map _)) htypename hraw type
  obtain ⟨j, hj, hjkeys, hvalues⟩ :=
    exists_joined l (forces l fields) (Keyed.obj_iff.1 hitem).1 half
  rw [hhalf, hj]
  constructor
  · -- the key of a field that hides the identifier is taken out again
    intro hkeyed g hg halias
    obtain ⟨v, hv, -⟩ := hkeyed.exists_value hg
    have hkey : g.responseKey = l.identifierField := by simp [Field.responseKey, halias]
    rw [hvalues, if_pos ⟨forces_of_alias hdistinct hg halias, hkey⟩] at hv
    cases hv
  · intro hunhidden
    refine .of_values hjkeys (fun key hkey => ?_) fun f hf => ?_
    · obtain ⟨v, hv⟩ := Object.mem_keys_iff.1 hkey
      rw [hvalues] at hv
      split at hv
      · cases hv
      · next hkept =>
          by_cases hid : key = l.identifierField
          · have hasked : forces l fields = false := by simpa [hid] using hkept
            obtain ⟨g, hg, hname, hplain⟩ := forces_eq_false_iff.1 hasked
            exact List.mem_map.2 ⟨g, hg, by simp [Field.responseKey, hplain, hname, hid]⟩
          · exact mem_of_get?_halves hitem hid (hothers key hid) hv
    · by_cases hid : f.responseKey = l.identifierField
      -- the identifier itself was asked for, and the resolver gave it
      · have hplain : f.alias? = none :=
          Option.eq_none_iff_forall_ne_some.2 fun a halias =>
            hunhidden f hf (halias.trans (congrArg some (by simpa [Field.responseKey, halias]
              using hid)))
        have hasked : forces l fields = false :=
          forces_eq_false_iff.2 ⟨f, hf, by simpa [Field.responseKey, hplain] using hid, hplain⟩
        have hthere : o.get? l.identifierField = some (.str found) := hidentifier
        refine ⟨.str found, ?_, fun _ => .scalar (by simp) (by simp)⟩
        rw [hvalues, hasked, hid, hthere]
        rfl
      · rw [hvalues, if_neg fun h => hid h.2]
        exact exists_get?_halves hdistinct hitem hf (hbelow f hf) hid (hothers _ hid)

end Entity

section Halves

variable {l : Listing} {fields : List Field} {ι : Type} {is : List ι} {name : ι → String}
  {raw : ι → Json}

/-- Among entities one of a name that is there is found. -/
theorem exists_withIdentifier? {idOf : Json → Option String} {make : ι → Json}
    (hid : ∀ i ∈ is, idOf (make i) = some (name i)) {found : String}
    (hfound : found ∈ is.map name) :
    ∃ i ∈ is, withIdentifier? idOf (is.map make) found = some (make i) := by
  obtain ⟨i, hi, rfl⟩ := List.mem_map.1 hfound
  have hsome : (withIdentifier? idOf (is.map make) (name i)).isSome = true := by
    rw [withIdentifier?, List.find?_isSome]
    exact ⟨make i, List.mem_reverse.2 (List.mem_map_of_mem hi), by simp [hid i hi]⟩
  obtain ⟨v, hv⟩ := Option.isSome_iff_exists.1 hsome
  obtain ⟨j, hj, rfl⟩ := List.mem_map.1 (List.mem_reverse.1 (List.mem_of_find?_eq_some hv))
  exact ⟨j, hj, hv⟩

/-- Items about entities of these names, as the resolver gives them in full. -/
structure Sent (l : Listing) (fields : List Field) (names : List String) (items : List Json) :
    Prop where
  distinct : ((sentFields l fields).map Field.responseKey).Nodup
  names : (items.map fun v => identifierOf? v l.identifierField).Perm (names.map some)
  keyed : ∀ v ∈ items, Keyed (sentFields l fields) v

variable {items : List Json}

theorem Sent.exists_name (h : Sent l fields (is.map name) items) {v : Json} (hv : v ∈ items) :
    ∃ found ∈ is.map name, identifierOf? v l.identifierField = some found := by
  have hmem : identifierOf? v l.identifierField ∈ (is.map name).map some :=
    h.names.subset (List.mem_map.2 ⟨v, hv, rfl⟩)
  obtain ⟨found, hfound, heq⟩ := List.mem_map.1 hmem
  exact ⟨found, hfound, heq.symm⟩

theorem Sent.eq_nil_iff (h : Sent l fields (is.map name) items) : items = [] ↔ is = [] := by
  have hlength := h.names.length_eq
  simp only [List.length_map] at hlength
  rw [← List.length_eq_zero_iff, hlength, List.length_eq_zero_iff]

/-- A property that all items have alike is one of the items unless there are no entities. -/
theorem Sent.forall_iff (h : Sent l fields (is.map name) items) {P : Json → Prop} {Q : Prop}
    (hitem : ∀ v ∈ items, P v ↔ Q) : (∀ v ∈ items, P v) ↔ is = [] ∨ Q := by
  rw [← h.eq_nil_iff]
  constructor
  · intro hall
    cases items with
    | nil => exact .inl rfl
    | cons v rest => exact .inr ((hitem v List.mem_cons_self).1 (hall v List.mem_cons_self))
  · rintro (rfl | hQ) v hv
    · cases hv
    · exact (hitem v hv).2 hQ

/-- What an answer in two halves is about: selections with distinct keys, some of them missing,
on entities that have their identifiers. -/
structure Halved (l : Listing) (fields : List Field) (is : List ι) (name : ι → String)
    (raw : ι → Json) : Prop where
  distinct : (fields.map Field.responseKey).Nodup
  below : ∀ g ∈ fields, g.all Field.isDistinct = true
  missing : ∃ g ∈ fields, l.isMissing g.name = true
  identifier : l.isMissing l.identifierField = false
  typename : l.identifierField ≠ typenameField
  here : ∀ i ∈ is, (raw i).get? l.identifierField = some (.str (name i))

theorem Halved.selected (h : Halved l fields is name raw) : fields ≠ [] := by
  obtain ⟨g, hg, -⟩ := h.missing
  exact List.ne_nil_of_mem hg

theorem Halved.identifierOf?_here (h : Halved l fields is name raw) {i : ι} (hi : i ∈ is)
    (type : String) :
    identifierOf? (project (raw i) (hereFields l fields) type) l.identifierField =
      some (name i) := by
  obtain ⟨half, hhalf, hidentifier, -⟩ :=
    exists_half (h.distinct.sublist (List.filter_sublist.map _)) h.typename (h.here i hi) type
  rw [hhalf, identifierOf?, Json.get?, hidentifier]
  rfl

/-- A joined list has the keys that were asked for if and only if it is empty or no field is
aliased onto the identifier. -/
theorem keyed_merge_list_iff (hshape : l.shape = .list) (h : Halved l fields is name raw)
    (hsent : Sent l fields (is.map name) items) (type : String) :
    Keyed fields (merge l (forces l fields) (.arr items)
        (.arr (is.map fun i => project (raw i) (hereFields l fields) type))) ↔
      is = [] ∨ ∀ g ∈ fields, g.alias? ≠ some l.identifierField := by
  have hitem : ∀ v ∈ items, Keyed fields (mergeItem l.identifierField (forces l fields)
      (is.map fun i => project (raw i) (hereFields l fields) type) v) ↔
        ∀ g ∈ fields, g.alias? ≠ some l.identifierField := by
    intro v hv
    obtain ⟨found, hmem, hfound⟩ := hsent.exists_name hv
    obtain ⟨i, hi, hlocal⟩ : ∃ i ∈ is, withIdentifier? (fun v => identifierOf? v l.identifierField)
        (is.map fun i => project (raw i) (hereFields l fields) type) found =
        some (project (raw i) (hereFields l fields) type) :=
      exists_withIdentifier? (fun i hi => h.identifierOf?_here hi type) hmem
    rw [mergeItem_of_found hfound hlocal]
    exact keyed_joined_iff h.distinct h.below h.typename (h.here i hi) (hsent.keyed v hv) hfound
      type
  rw [merge, hshape]
  simp only [Json.itemsOf, Option.bind_some, Json.items?, Option.getD_some]
  rw [Keyed.arr_iff, List.forall_mem_map]
  exact hsent.forall_iff hitem

variable {edgeFields pageFields : List Field} {edges node : Field} {position : ι → Nat}

/-- An object with a value of its own under the key of one field, and with the answers to the
other fields, is keyed if that value is. -/
theorem keyed_iff_of_hole {fields : List Field} (hdistinct : (fields.map Field.responseKey).Nodup)
    (hbelow : ∀ g ∈ fields, g.all Field.isDistinct = true) {hole : Field} (hmem : hole ∈ fields)
    (hselected : hole.subfields ≠ []) {name : String} (hname : hole.responseKey = name)
    {o : Object} (ho : o.keys.Nodup) {value : Json} (hvalue : o.get? name = some value)
    {raw : Json} {type : String}
    (hothers : ∀ key, key ≠ name → o.get? key = (answers raw type fields).get? key) :
    Keyed fields (.obj o) ↔ Keyed hole.subfields value := by
  subst hname
  constructor
  · intro hkeyed
    obtain ⟨v, hv, hkeyed⟩ := hkeyed.exists_value hmem
    obtain rfl := Option.some.inj (hvalue.symm.trans hv)
    exact hkeyed hselected
  · intro hkeyed
    refine .of_values ho (fun key hkey => ?_) fun f hf => ?_
    · by_cases hhole : key = hole.responseKey
      · exact hhole ▸ List.mem_map_of_mem hmem
      · obtain ⟨v, hv⟩ := Object.mem_keys_iff.1 hkey
        rw [hothers key hhole] at hv
        exact keys_answers raw type fields ▸ Object.mem_keys_iff.2 ⟨v, hv⟩
    · by_cases hhole : f.responseKey = hole.responseKey
      · rw [Distinct.eq_of_key hdistinct hf hmem hhole]
        exact ⟨value, hvalue, fun _ => hkeyed⟩
      · exact ⟨_, (hothers _ hhole).trans (get?_answers hdistinct hf raw type),
          keyed_fieldValue f raw type (hbelow f hf)⟩

/-- What stands beside the node of a merged edge comes from a local edge. -/
theorem exists_mergeEdge (l : Listing) (forced : Bool) (locals : List Json) (v : Json) :
    ∃ o : Object, mergeEdge l.identifierField forced locals (.obj [("node", v)]) = .obj o ∧
      ∀ key w, key ≠ "node" → o.get? key = some w →
        ∃ here : Object, .obj here ∈ locals ∧ here.get? key = some w := by
  cases hfound : (edgeIdentifier? l.identifierField (.obj [("node", v)])).bind
      (withIdentifier? (edgeIdentifier? l.identifierField) locals) with
  | none =>
      -- nothing stands beside the node at all
      have halone (v w : Json) (key : String) (hkey : key ≠ "node") :
          Object.get? [("node", v)] key ≠ some w := by simp [Object.get?, Ne.symm hkey]
      rw [mergeEdge]
      simp only [hfound]
      cases forced with
      | false => exact ⟨_, rfl, fun key w hkey hw => absurd hw (halone _ w key hkey)⟩
      | true => exact ⟨_, rfl, fun key w hkey hw => absurd hw (halone _ w key hkey)⟩
  | some here =>
      obtain ⟨found, hnode, hfound⟩ := Option.bind_eq_some_iff.1 hfound
      have hmem : here ∈ locals := List.mem_reverse.1 (List.mem_of_find?_eq_some hfound)
      have hid : edgeIdentifier? l.identifierField here = some found := by
        simpa using List.find?_some hfound
      obtain ⟨nodeHere, hnodeHere, -⟩ := Option.bind_eq_some_iff.1 hid
      obtain ⟨o, rfl⟩ := exists_obj_of_get? hnodeHere
      obtain ⟨merged, hmerged, -, -, hothers⟩ := mergeEdge_of_found hnode hfound hnodeHere
      exact ⟨merged, hmerged, fun key w hkey hw => ⟨o, hmem, (hothers key hkey).symm.trans hw⟩⟩

/-- What the store shows of the first `node` of an edge lacks the key of a missing field. -/
theorem not_keyed_hereNode (h : Halved l fields is name raw)
    (hsent : ((sentFields l fields).map Field.responseKey).Nodup)
    (hdistinct : (edgeFields.map Field.responseKey).Nodup)
    (hfirst : edgeFields.find? (fun f => f.name = "node") = some node)
    (type : String) {i : ι} (hi : i ∈ is) {here : Object}
    (hhere : hereEdge l fields edgeFields type (position i) (raw i) = .obj here) {value : Json}
    (hvalue : here.get? node.responseKey = some value) : ¬ Keyed fields value := by
  obtain ⟨here', heq, hvalues⟩ :=
    exists_hereEdge l fields hdistinct hfirst (h.here i hi) type (position i)
  obtain rfl := Json.obj.inj (hhere.symm.trans heq)
  rw [hvalues, if_pos rfl] at hvalue
  obtain rfl := Option.some.inj hvalue
  exact not_keyed_here h.distinct hsent h.identifier h.missing h.typename (h.here i hi) _

/-- So an edge that the store shows does not have the keys that were asked for. -/
theorem not_keyed_hereEdge (h : Halved l fields is name raw)
    (hsent : ((sentFields l fields).map Field.responseKey).Nodup)
    (hdistinct : (edgeFields.map Field.responseKey).Nodup)
    (hfirst : edgeFields.find? (fun f => f.name = "node") = some node)
    (hfields : node.subfields = fields) (type : String) {i : ι} (hi : i ∈ is) :
    ¬ Keyed edgeFields (hereEdge l fields edgeFields type (position i) (raw i)) := by
  obtain ⟨here, hhere, -⟩ :=
    exists_hereEdge l fields hdistinct hfirst (h.here i hi) type (position i)
  rw [hhere]
  intro hkeyed
  obtain ⟨value, hvalue, hbelow⟩ := hkeyed.exists_value (List.mem_of_find?_eq_some hfirst)
  have hselected : node.subfields ≠ [] := hfields ▸ h.selected
  exact not_keyed_hereNode h hsent hdistinct hfirst type hi hhere hvalue
    (hfields ▸ hbelow hselected)

/-- A merged edge has the keys that were asked for if and only if the entity stands under
`node` and no field is aliased onto the identifier. -/
theorem keyed_mergeEdge_iff (position : ι → Nat) (h : Halved l fields is name raw)
    (hsent : Sent l fields (is.map name) items)
    (hdistinct : (edgeFields.map Field.responseKey).Nodup)
    (hbelow : ∀ g ∈ edgeFields, g.all Field.isDistinct = true)
    (hfirst : edgeFields.find? (fun f => f.name = "node") = some node)
    (hfields : node.subfields = fields) (type : String) {v : Json} (hv : v ∈ items) :
    Keyed edgeFields (mergeEdge l.identifierField (forces l fields)
        (is.map fun i => hereEdge l fields edgeFields type (position i) (raw i))
        (.obj [("node", v)])) ↔
      node.responseKey = "node" ∧ ∀ g ∈ fields, g.alias? ≠ some l.identifierField := by
  let child := Schema.childType type "node"
  have hmem := List.mem_of_find?_eq_some hfirst
  have hselected : node.subfields ≠ [] := hfields ▸ h.selected
  by_cases hkey : node.responseKey = "node"
  · obtain ⟨found, hname, hfound⟩ := hsent.exists_name hv
    have hhere (i : ι) (hi : i ∈ is) :=
      exists_hereEdge l fields hdistinct hfirst (h.here i hi) type (position i)
    rw [hkey] at hhere
    obtain ⟨i, hi, hlocal⟩ : ∃ i ∈ is, withIdentifier? (edgeIdentifier? l.identifierField)
        (is.map fun i => hereEdge l fields edgeFields type (position i) (raw i)) found =
        some (hereEdge l fields edgeFields type (position i) (raw i)) := by
      refine exists_withIdentifier? (fun i hi => ?_) hname
      obtain ⟨here, heq, hvalues⟩ := hhere i hi
      rw [heq, edgeIdentifier?, Json.get?, hvalues, if_pos rfl, Option.bind_some]
      exact h.identifierOf?_here hi child
    obtain ⟨here, heq, hvalues⟩ := hhere i hi
    rw [heq] at hlocal
    obtain ⟨o, ho, hnodup, hnode, hothers⟩ :=
      mergeEdge_of_found hfound hlocal ((hvalues "node").trans (if_pos rfl))
    rw [ho, keyed_iff_of_hole hdistinct hbelow hmem hselected hkey hnodup hnode fun key hother =>
        (hothers key hother).trans ((hvalues key).trans (if_neg hother)),
      and_iff_right hkey, hfields]
    exact keyed_joined_iff h.distinct h.below h.typename (h.here i hi) (hsent.keyed v hv) hfound
      child
  -- the local nodes stand elsewhere, where nothing is joined
  · refine iff_of_false (fun hkeyed => ?_) fun hall => hkey hall.1
    obtain ⟨o, ho, hothers⟩ := exists_mergeEdge l (forces l fields)
      (is.map fun i => hereEdge l fields edgeFields type (position i) (raw i)) v
    rw [ho] at hkeyed
    obtain ⟨w, hw, hbelow⟩ := hkeyed.exists_value hmem
    obtain ⟨here, hlocal, hthere⟩ := hothers _ w hkey hw
    obtain ⟨i, hi, heq⟩ := List.mem_map.1 hlocal
    exact not_keyed_hereNode h hsent.distinct hdistinct hfirst type hi heq
      hthere (hfields ▸ hbelow hselected)

/-- A page without entities has the keys that were asked for if `edges` is one of them, wherever
its edges stand. -/
theorem keyed_empty_page (hdistinct : (pageFields.map Field.responseKey).Nodup)
    (hbelow : ∀ g ∈ pageFields, g.all Field.isDistinct = true) (hmem : edges ∈ pageFields)
    (hasked : "edges" ∈ pageFields.map Field.responseKey) {o : Object} (ho : o.keys.Nodup)
    (hedges : o.get? "edges" = some (.arr [])) {page : Json} {type : String}
    (hothers : ∀ key, key ≠ "edges" → o.get? key = if key = edges.responseKey then some (.arr [])
      else (answers page type pageFields).get? key) : Keyed pageFields (.obj o) := by
  have hempty {sub : List Field} : Keyed sub (.arr []) := .arr (by simp)
  refine .of_values ho (fun key hkey => ?_) fun f hf => ?_
  · by_cases hother : key = "edges"
    · exact hother ▸ hasked
    · obtain ⟨v, hv⟩ := Object.mem_keys_iff.1 hkey
      rw [hothers key hother] at hv
      split at hv
      · next heq => exact heq ▸ List.mem_map_of_mem hmem
      · exact keys_answers page type pageFields ▸ Object.mem_keys_iff.2 ⟨v, hv⟩
  · by_cases hother : f.responseKey = "edges"
    · exact ⟨_, hother ▸ hedges, fun _ => hempty⟩
    · rw [hothers _ hother]
      split
      · exact ⟨_, rfl, fun _ => hempty⟩
      · exact ⟨_, get?_answers hdistinct hf page type, keyed_fieldValue f page type (hbelow f hf)⟩

/-- A joined page has the keys that were asked for if and only if the entities stand under `edges`
and `node` and no field is aliased onto the identifier, or there are no entities and `edges` is
asked for. -/
theorem keyed_merge_page_iff (hshape : l.shape = .connection) (h : Halved l fields is name raw)
    (hsent : Sent l fields (is.map name) items)
    (hdistinct : (pageFields.map Field.responseKey).Nodup)
    (hbelow : ∀ g ∈ pageFields, g.all Field.isDistinct = true)
    (hfirst : pageFields.find? (fun f => f.name = "edges") = some edges)
    (hfirstNode : edges.subfields.find? (fun f => f.name = "node") = some node)
    (hfields : node.subfields = fields) {page : Json} (hpage : page.get? "edges" =
      some (.arr (is.map fun i => Paging.edge (position i) (raw i)))) (type : String) :
    Keyed pageFields (merge l (forces l fields)
        (.obj [("edges", .arr (items.map fun v => .obj [("node", v)]))])
        (project page (updateFirst "edges" (fun edges => { edges with
          subfields := updateFirst "node"
            (fun node => { node with subfields := hereFields l fields }) edges.subfields })
          pageFields) type)) ↔
      (edges.responseKey = "edges" ∧ node.responseKey = "node" ∧
          ∀ g ∈ fields, g.alias? ≠ some l.identifierField) ∨
        is = [] ∧ "edges" ∈ pageFields.map Field.responseKey := by
  let child := Schema.childType type "edges"
  have hmem := List.mem_of_find?_eq_some hfirst
  have hselected : edges.subfields ≠ [] :=
    List.ne_nil_of_mem (List.mem_of_find?_eq_some hfirstNode)
  have hedges : edges.all Field.isDistinct = true := hbelow edges hmem
  obtain ⟨here, hhere, hvalues⟩ :=
    exists_herePage l fields hdistinct hfirst hselected hpage type
  let merged := Json.arr ((items.map fun v => Json.obj [("node", v)]).map
    (mergeEdge l.identifierField (forces l fields) (Json.itemsOf (here.get? "edges"))))
  have hnodup := nodup_keys_fill_singleton "edges" merged here
  have hvalue : (Object.fill [("edges", merged)] here).get? "edges" = some merged :=
    (get?_fill_singleton _ _ _ _).trans (if_pos rfl)
  have hothers (key : String) (hkey : key ≠ "edges") :
      (Object.fill [("edges", merged)] here).get? key = here.get? key :=
    (get?_fill_singleton _ _ _ _).trans (if_neg hkey)
  rw [hhere, merge_page hshape]
  by_cases hkey : edges.responseKey = "edges"
  · have hasked : "edges" ∈ pageFields.map Field.responseKey :=
      hkey ▸ List.mem_map_of_mem hmem
    rw [hkey] at hvalues
    have hlocals : Json.itemsOf (here.get? "edges") =
        is.map fun i => hereEdge l fields edges.subfields child (position i) (raw i) := by
      rw [hvalues, if_pos rfl]
      rfl
    have hedge (v : Json) (hv : v ∈ items) :=
      keyed_mergeEdge_iff position h hsent (Field.nodup_of_all hedges)
        (fun g hg => Field.all_of_mem hedges hg) hfirstNode hfields child hv
    rw [keyed_iff_of_hole hdistinct hbelow hmem hselected hkey hnodup hvalue fun key hother =>
        (hothers key hother).trans ((hvalues key).trans (if_neg hother)),
      Keyed.arr_iff, List.forall_mem_map, List.forall_mem_map, hlocals, hsent.forall_iff hedge,
      and_iff_right hkey, and_iff_left hasked, or_comm]
  -- the local edges stand elsewhere, as the store shows them
  · constructor
    · intro hkeyed
      refine .inr ⟨?_, ((Keyed.obj_iff.1 hkeyed).2.1 _).1 (Object.mem_keys_iff.2 ⟨_, hvalue⟩)⟩
      obtain ⟨v, hv, hbelow⟩ := hkeyed.exists_value hmem
      rw [hothers _ hkey, hvalues, if_pos rfl] at hv
      obtain rfl := Option.some.inj hv
      refine List.eq_nil_iff_forall_not_mem.2 fun i hi => ?_
      exact not_keyed_hereEdge h hsent.distinct (Field.nodup_of_all hedges)
        hfirstNode hfields child hi
        (Keyed.arr_iff.1 (hbelow hselected) _ (List.mem_map_of_mem hi))
    · rintro (⟨hthere, -⟩ | ⟨hnone, hasked⟩)
      · exact absurd hthere hkey
      · have hitems : items = [] := hsent.eq_nil_iff.2 hnone
        subst hitems hnone
        exact keyed_empty_page hdistinct hbelow hmem hasked hnodup hvalue fun key hother =>
          (hothers key hother).trans (hvalues key)

end Halves

end DexCache.Interception
