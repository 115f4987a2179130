import DexCache.Proofs.Interception.Showing

/-!
# Values with the response keys of a selection

A value is keyed by a selection set if every object in it, at every level, has exactly the
response keys that are selected there.  Where no selection set repeats a key every projection
is keyed by its selection, and so is every answer of a listing.
-/

namespace DexCache

open Json (Object)
open Projection (addFields addFields_eq_foldl addFields_of_nodup answers fieldValue get?_answers
  project project_of_nodup typenameField)
open Query (Field)

/-- Has a value, at every object level, the response keys of a selection set and no others?
Nothing is asked of what stands under a field without sub-selections. -/
inductive Keyed : List Field → Json → Prop
  | scalar {fields : List Field} {v : Json} (hobj : ∀ o, v ≠ .obj o)
    (harr : ∀ items, v ≠ .arr items) : Keyed fields v
  | arr {fields : List Field} {items : List Json} (hitems : ∀ v ∈ items, Keyed fields v) :
    Keyed fields (.arr items)
  | obj {fields : List Field} {o : Object} (distinct : o.keys.Nodup)
    (keys : ∀ key, key ∈ o.keys ↔ key ∈ fields.map Field.responseKey)
    (below : ∀ f ∈ fields, f.subfields ≠ [] → ∀ v, o.get? f.responseKey = some v →
      Keyed f.subfields v) : Keyed fields (.obj o)

namespace Keyed

variable {fields : List Field} {o : Object}

theorem arr_iff {items : List Json} :
    Keyed fields (.arr items) ↔ ∀ v ∈ items, Keyed fields v := by
  refine ⟨fun h => ?_, .arr⟩
  cases h with
  | scalar _ harr => exact absurd rfl (harr items)
  | arr hitems => exact hitems

theorem obj_iff : Keyed fields (.obj o) ↔ o.keys.Nodup ∧
    (∀ key, key ∈ o.keys ↔ key ∈ fields.map Field.responseKey) ∧
    ∀ f ∈ fields, f.subfields ≠ [] → ∀ v, o.get? f.responseKey = some v →
      Keyed f.subfields v := by
  constructor
  · intro h
    cases h with
    | scalar hobj _ => exact absurd rfl (hobj o)
    | obj distinct keys below => exact ⟨distinct, keys, below⟩
  · rintro ⟨distinct, keys, below⟩
    exact .obj distinct keys below

/-- An object is keyed by fields that each have a value there if it has no other keys. -/
theorem of_values (distinct : o.keys.Nodup)
    (hkeys : ∀ key ∈ o.keys, key ∈ fields.map Field.responseKey)
    (hvalues : ∀ f ∈ fields, ∃ v, o.get? f.responseKey = some v ∧
      (f.subfields ≠ [] → Keyed f.subfields v)) : Keyed fields (.obj o) := by
  refine .obj distinct (fun key => ⟨hkeys key, fun hkey => ?_⟩) fun f hf hselected v hv => ?_
  · obtain ⟨f, hf, rfl⟩ := List.mem_map.1 hkey
    obtain ⟨v, hv, -⟩ := hvalues f hf
    exact Object.mem_keys_iff.2 ⟨v, hv⟩
  · obtain ⟨v', hv', hkeyed⟩ := hvalues f hf
    obtain rfl := Option.some.inj (hv.symm.trans hv')
    exact hkeyed hselected

/-- An object that is keyed by fields has a value for each of them. -/
theorem exists_value (h : Keyed fields (.obj o)) {f : Field} (hf : f ∈ fields) :
    ∃ v, o.get? f.responseKey = some v ∧ (f.subfields ≠ [] → Keyed f.subfields v) := by
  obtain ⟨-, hkeys, hbelow⟩ := obj_iff.1 h
  obtain ⟨v, hv⟩ := Object.mem_keys_iff.1
    ((hkeys f.responseKey).2 (List.mem_map_of_mem hf))
  exact ⟨v, hv, fun hselected => hbelow f hf hselected v hv⟩

end Keyed

/-- Answers to fields with distinct keys are keyed by them if each answer is. -/
theorem keyed_answers (hdistinct : (fields.map Field.responseKey).Nodup) {raw : Json}
    {type : String} (hvalues : ∀ f ∈ fields, f.subfields ≠ [] →
      Keyed f.subfields (fieldValue raw type f)) :
    Keyed fields (.obj (answers raw type fields)) := by
  have hkeys := Projection.keys_answers raw type fields
  refine .of_values (hkeys ▸ hdistinct) (fun key hkey => hkeys ▸ hkey) fun f hf => ?_
  exact ⟨_, get?_answers hdistinct hf raw type, hvalues f hf⟩

/-- The answer to a field is keyed by its sub-selections. -/
theorem keyed_fieldValue : ∀ (f : Field) (raw : Json) (type : String),
    f.all Field.isDistinct = true → f.subfields ≠ [] → Keyed f.subfields (fieldValue raw type f)
  | ⟨alias?, name, arguments, subfields⟩, raw, type, hdistinct, hselected => by
      have hnodup : (subfields.map Field.responseKey).Nodup := Field.nodup_of_all hdistinct
      have hbelow (v : Json) (child : String) : Keyed subfields (project v subfields child) := by
        rw [project_of_nodup hnodup]
        refine keyed_answers hnodup fun g hg => ?_
        exact keyed_fieldValue g v child (Field.all_of_mem hdistinct hg)
      have hnull : Keyed subfields .null := .scalar (by simp) (by simp)
      rw [fieldValue]
      split
      · exact .scalar (by simp) (by simp)
      · simp only [List.isEmpty_eq_false_iff.2 hselected, Bool.false_eq_true, if_false]
        -- a list is answered item by item
        split
        · refine .arr fun v hv => ?_
          obtain ⟨item, -, rfl⟩ := List.mem_map.1 hv
          split
          · exact hbelow _ _
          · exact hnull
        · split
          · exact hbelow _ _
          · exact hnull

/-- An object of answers is keyed by the fields that are answered. -/
theorem keyed_project {fields : List Field} (hnodup : (fields.map Field.responseKey).Nodup)
    (hdistinct : ∀ f ∈ fields, f.all Field.isDistinct = true) (raw : Json) (type : String) :
    Keyed fields (project raw fields type) := by
  rw [project_of_nodup hnodup]
  exact keyed_answers hnodup fun f hf => keyed_fieldValue f raw type (hdistinct f hf)

/-- An answer of a listing is keyed by its selection. -/
theorem keyed_show {α : Type} (found : Catalogue.Cut α) {f : Field}
    (hdistinct : f.all Field.isDistinct = true) (entityType pageType : String)
    (toJson : α → Json) :
    Keyed f.subfields (found.show entityType pageType toJson f.subfields) := by
  have hproject := keyed_project (Field.nodup_of_all hdistinct)
    fun g hg => Field.all_of_mem hdistinct hg
  unfold Catalogue.Cut.show
  cases found.listing.shape with
  | list =>
      refine .arr fun v hv => ?_
      obtain ⟨e, -, rfl⟩ := List.mem_map.1 hv
      exact hproject _ _
  | connection => exact hproject _ _

end DexCache
