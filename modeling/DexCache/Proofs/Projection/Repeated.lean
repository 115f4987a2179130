import DexCache.Proofs.Interception.Keyed
import DexCache.Proofs.Projection.Routes

/-!
# Selections that repeat a response key

An answer holds one value for each response key, and it is the one of the last selection with that
key.  So of two selections with one key the sub-selections of the first are left out, and what
would be answered to the sub-selections of both is answered only where this makes no difference:
where a third selection comes later, where no object stands under the field, or where the second
selection asks for the keys of the first as well.

At every depth, then, an answer has the keys of the latest selections, and a key that only an
earlier one asks for is in no answer.
-/

namespace DexCache

open Json (Alike Object)
open Query (Field)

namespace Json

theorem Alike.arr_iff {xs ys : List Json} :
    Alike (.arr xs) (.arr ys) ↔ List.Forall₂ Alike xs ys := by
  refine ⟨fun h => ?_, .arr⟩
  cases h with
  | refl => exact List.forall₂_same.2 fun v _ => .refl v
  | arr items => exact items

theorem Alike.obj_iff {o p : Object} (ho : o.keys.Nodup) (hp : p.keys.Nodup) :
    Alike (.obj o) (.obj p) ↔ ∀ key, Option.Rel Alike (o.get? key) (p.get? key) := by
  refine ⟨fun h => ?_, .obj ho hp⟩
  cases h with
  | refl => exact fun key => Alike.option_refl _
  | obj _ _ values => exact values

/-- Does a value hold an object, itself or as one of its items? -/
def HoldsObject : Json → Prop
  | .obj _ => True
  | .arr items => ∃ o, .obj o ∈ items
  | _ => False

end Json

namespace Query.Field

/-- The last field of a selection set under a response key. -/
def lastOf (fields : List Field) (key : String) : Option Field :=
  (fields.filter fun f => f.responseKey = key).getLast?

/-- The second of two fields with the sub-selections of both. -/
def merged (a b : Field) : Field :=
  { b with subfields := a.subfields ++ b.subfields }

mutual
/-- A field with the latest sub-selections only, at any depth. -/
def latest : Field → Field
  | ⟨alias?, name, arguments, subfields⟩ => ⟨alias?, name, arguments, latestOf subfields⟩

/-- The latest selection of each response key, at any depth. -/
def latestOf : List Field → List Field
  | [] => []
  | f :: rest =>
    if f.responseKey ∈ rest.map responseKey then latestOf rest else latest f :: latestOf rest
end

@[simp] theorem name_merged (a b : Field) : (a.merged b).name = b.name := rfl

@[simp] theorem responseKey_merged (a b : Field) : (a.merged b).responseKey = b.responseKey := rfl

@[simp] theorem responseKey_latest (f : Field) : f.latest.responseKey = f.responseKey := by
  obtain ⟨_, _, _, _⟩ := f
  rw [latest]
  rfl

theorem subfields_latest (f : Field) : f.latest.subfields = latestOf f.subfields := by
  obtain ⟨_, _, _, _⟩ := f
  rw [latest]

theorem lastOf_append (fields more : List Field) (key : String) :
    lastOf (fields ++ more) key = (lastOf more key).or (lastOf fields key) := by
  rw [lastOf, List.filter_append, List.getLast?_append]
  rfl

theorem lastOf_cons (f : Field) (rest : List Field) (key : String) :
    lastOf (f :: rest) key =
      (lastOf rest key).or (if f.responseKey = key then some f else none) := by
  rw [← List.singleton_append, lastOf_append]
  congr 1
  by_cases h : f.responseKey = key <;> simp [lastOf, h]

/-- A field is the last one of its key unless the key comes again. -/
theorem lastOf_middle (before after : List Field) (f : Field) :
    lastOf (before ++ f :: after) f.responseKey =
      (lastOf after f.responseKey).or (some f) := by
  rw [lastOf_append, lastOf_cons, if_pos rfl, Option.or_assoc, Option.some_or]

theorem lastOf_eq_none_iff {fields : List Field} {key : String} :
    lastOf fields key = none ↔ key ∉ fields.map responseKey := by
  simp [lastOf]

theorem of_lastOf {fields : List Field} {key : String} {f : Field}
    (h : lastOf fields key = some f) : f ∈ fields ∧ f.responseKey = key := by
  obtain ⟨hmem, hkey⟩ := List.mem_filter.1 (List.mem_of_getLast? h)
  exact ⟨hmem, of_decide_eq_true hkey⟩

/-- The latest selections are those that come last under their keys. -/
theorem mem_latestOf {fields : List Field} {g : Field} :
    g ∈ latestOf fields ↔ ∃ f, lastOf fields f.responseKey = some f ∧ g = f.latest := by
  induction fields with
  | nil => simp [latestOf, lastOf]
  | cons f rest ih =>
      rw [latestOf]
      split
      · next hrepeated =>
          -- a later selection has the key, so this one is the last of none
          rw [ih]
          refine exists_congr fun h => and_congr_left fun _ => ?_
          rw [lastOf_cons]
          cases hlast : lastOf rest h.responseKey with
          | some other => rfl
          | none =>
              have hother : f.responseKey ≠ h.responseKey := fun heq =>
                lastOf_eq_none_iff.1 hlast (heq ▸ hrepeated)
              simp [hother]
      · next hlast =>
          have hnone := lastOf_eq_none_iff.2 hlast
          rw [List.mem_cons, ih]
          constructor
          · rintro (rfl | ⟨h, hh, rfl⟩)
            · exact ⟨f, by rw [lastOf_cons, hnone, if_pos rfl, Option.none_or], rfl⟩
            · exact ⟨h, by rw [lastOf_cons, hh, Option.some_or], rfl⟩
          · rintro ⟨h, hh, rfl⟩
            rw [lastOf_cons, Option.or_eq_some_iff] at hh
            rcases hh with hh | ⟨-, hh⟩
            · exact .inr ⟨h, hh, rfl⟩
            · obtain ⟨-, hsame⟩ := Option.ite_none_right_eq_some.1 hh
              exact .inl (congrArg latest (Option.some.inj hsame).symm)

end Query.Field

namespace Projection

variable (raw : Json) (type : String)

/-- An answer has, under each key, the answer to the last field of that key. -/
theorem get?_addFields (fields : List Field) (done : Object) (key : String) :
    (addFields raw type done fields).get? key =
      ((Field.lastOf fields key).map (fieldValue raw type)).or (done.get? key) := by
  induction fields generalizing done with
  | nil => simp [addFields, Field.lastOf]
  | cons f rest ih =>
      rw [addFields, ih, Field.lastOf_cons]
      by_cases hkey : f.responseKey = key
      · subst hkey
        rw [Object.get?_insert_self]
        cases Field.lastOf rest f.responseKey <;> simp
      · rw [Object.get?_insert_of_ne _ _ (Ne.symm hkey)]
        simp [hkey]

theorem nodup_keys_addFields (fields : List Field) :
    (addFields raw type [] fields).keys.Nodup := by
  rw [addFields_eq_foldl]
  exact Object.nodup_keys_foldl_insert _ List.nodup_nil

/-- Two answers to a raw value are alike if their last selections are answered alike. -/
theorem alike_project_iff {fields fields' : List Field} :
    Alike (project raw fields type) (project raw fields' type) ↔
      ∀ key, Option.Rel Alike ((Field.lastOf fields key).map (fieldValue raw type))
        ((Field.lastOf fields' key).map (fieldValue raw type)) := by
  rw [project, project,
    Alike.obj_iff (nodup_keys_addFields raw type _) (nodup_keys_addFields raw type _)]
  simp [get?_addFields]

/-- Selections in front of others are seen in an answer if they have keys of their own. -/
theorem alike_project_append_iff (fields more : List Field) :
    Alike (project raw more type) (project raw (fields ++ more) type) ↔
      ∀ key ∈ fields.map Field.responseKey, key ∈ more.map Field.responseKey := by
  rw [alike_project_iff]
  constructor
  · intro h key hkey
    by_contra hmore
    have hvalues := h key
    rw [Field.lastOf_append, Field.lastOf_eq_none_iff.2 hmore, Option.none_or] at hvalues
    cases hlast : Field.lastOf fields key with
    | none => exact Field.lastOf_eq_none_iff.1 hlast hkey
    | some f =>
        rw [hlast] at hvalues
        cases hvalues
  · intro h key
    rw [Field.lastOf_append]
    cases hlast : Field.lastOf more key with
    | some f => exact Alike.option_refl _
    | none =>
        have hfields : Field.lastOf fields key = none :=
          Field.lastOf_eq_none_iff.2 fun hkey => Field.lastOf_eq_none_iff.1 hlast (h key hkey)
        rw [hfields]
        exact .none

variable {raw type}

/-- A value without items is answered alike to the second selection and to both if it is no object,
or if the second one asks for the keys of the first. -/
theorem alike_nested_merged_iff {a b : Field} {v : Json} :
    Alike (nested b.subfields type v) (nested (a.merged b).subfields type v) ↔
      (∀ o, v ≠ .obj o) ∨ ∀ key ∈ a.subfields.map Field.responseKey,
        key ∈ b.subfields.map Field.responseKey := by
  by_cases hobj : ∃ o, v = .obj o
  · obtain ⟨o, rfl⟩ := hobj
    simp only [nested, Field.merged, alike_project_append_iff]
    simp
  · have hobj : ∀ o, v ≠ .obj o := fun o ho => hobj ⟨o, ho⟩
    rw [nested_of_not_obj hobj, nested_of_not_obj hobj]
    exact iff_of_true (.refl _) (.inl hobj)

/-- Any value is answered alike to the second selection and to both if it holds no object, or if
the second one asks for the keys of the first. -/
theorem alike_spread_merged_iff {a b : Field} {v : Json} :
    Alike (spread b.subfields type v) (spread (a.merged b).subfields type v) ↔
      ¬ v.HoldsObject ∨ ∀ key ∈ a.subfields.map Field.responseKey,
        key ∈ b.subfields.map Field.responseKey := by
  cases v with
  | arr items =>
      rw [spread, spread, Alike.arr_iff, List.forall₂_map_left_iff, List.forall₂_map_right_iff,
        List.forall₂_same]
      simp only [alike_nested_merged_iff, Json.HoldsObject]
      constructor
      · intro h
        refine or_iff_not_imp_right.2 fun hkeys => ?_
        rintro ⟨o, ho⟩
        exact ((h _ ho).resolve_right hkeys) o rfl
      · rintro (h | h) item hitem
        · exact .inl fun o ho => h ⟨o, ho ▸ hitem⟩
        · exact .inr h
  | obj o =>
      refine (alike_nested_merged_iff (a := a) (b := b) (v := .obj o)).trans ?_
      simp [Json.HoldsObject]
  | _ => exact iff_of_true (.refl _) (.inl id)

theorem alike_fieldValue_merged_iff {a b : Field} (hselected : b.subfields ≠ []) :
    Alike (fieldValue raw type b) (fieldValue raw type (a.merged b)) ↔
      b.name = typenameField ∨ (∀ v, raw.get? b.name = some v → ¬ v.HoldsObject) ∨
        ∀ key ∈ a.subfields.map Field.responseKey, key ∈ b.subfields.map Field.responseKey := by
  have hboth : (a.merged b).subfields ≠ [] := List.append_ne_nil_of_right_ne_nil _ hselected
  by_cases hname : b.name = typenameField
  · rw [fieldValue_of_typename type hname, fieldValue_of_typename (f := a.merged b) type hname]
    exact iff_of_true (.refl _) (.inl hname)
  · rw [fieldValue_of_subfields type hname hselected,
      fieldValue_of_subfields (f := a.merged b) type hname hboth, Field.name_merged,
      alike_spread_merged_iff]
    cases raw.get? b.name <;> simp [hname, Json.HoldsObject]

variable (raw type) in
/-- An object of answers has the keys of the latest selections if each answer has those of the
latest selections below it. -/
theorem keyed_addFields_latest {fields : List Field} (hvalues : ∀ f ∈ fields, f.subfields ≠ [] →
      Keyed (Field.latestOf f.subfields) (fieldValue raw type f)) :
    Keyed (Field.latestOf fields) (.obj (addFields raw type [] fields)) := by
  refine .of_values (nodup_keys_addFields raw type fields) (fun key hkey => ?_) fun g hg => ?_
  · obtain ⟨value, hvalue⟩ := Object.mem_keys_iff.1 hkey
    rw [get?_addFields, Object.get?_nil, Option.or_none, Option.map_eq_some_iff] at hvalue
    obtain ⟨f, hf, -⟩ := hvalue
    obtain ⟨-, rfl⟩ := Field.of_lastOf hf
    exact List.mem_map.2 ⟨_, Field.mem_latestOf.2 ⟨f, hf, rfl⟩, f.responseKey_latest⟩
  · obtain ⟨f, hf, rfl⟩ := Field.mem_latestOf.1 hg
    refine ⟨fieldValue raw type f, ?_, fun hselected => ?_⟩
    · rw [f.responseKey_latest, get?_addFields, hf]
      rfl
    · rw [Field.subfields_latest] at hselected ⊢
      refine hvalues f (Field.of_lastOf hf).1 fun hnil => hselected ?_
      rw [hnil, Field.latestOf]

/-- In the answer to a field every object has the keys of the latest sub-selections. -/
theorem keyed_fieldValue_latest : ∀ (f : Field) (raw : Json) (type : String), f.subfields ≠ [] →
    Keyed (Field.latestOf f.subfields) (fieldValue raw type f)
  | ⟨alias?, name, arguments, subfields⟩, raw, type, hselected => by
      have hobj (o : Object) (child : String) :
          Keyed (Field.latestOf subfields) (project (.obj o) subfields child) :=
        keyed_addFields_latest _ _ fun g hg => keyed_fieldValue_latest g _ _
      have hnull : Keyed (Field.latestOf subfields) .null := .scalar (by simp) (by simp)
      by_cases hname : name = typenameField
      · rw [fieldValue_of_typename type hname]
        exact .scalar (by simp) (by simp)
      · rw [fieldValue_of_subfields type hname hselected]
        cases (raw.get? name).getD .null with
        | arr items =>
            refine .arr fun v hv => ?_
            obtain ⟨item, -, rfl⟩ := List.mem_map.1 hv
            cases item with
            | obj o => exact hobj o _
            | _ => exact hnull
        | obj o => exact hobj o _
        | _ => exact hnull

/-- Every object of an answer has the keys of the latest selections, at any depth. -/
theorem keyed_project_latest (fields : List Field) (raw : Json) (type : String) :
    Keyed (Field.latestOf fields) (project raw fields type) :=
  keyed_addFields_latest raw type fun f _ => keyed_fieldValue_latest f raw type

/-- Two selections of one key are answered as one selection with the sub-selections of both exactly
if a later selection has their key, if no object stands under the field, or if the second asks for
all keys of the first.  Every object of an answer, at any depth, has the keys of the latest
selections and no others. -/
theorem project_merged_alike_iff {a b : Field} (hkey : a.responseKey = b.responseKey)
    (hselected : b.subfields ≠ []) (before between after : List Field) (raw : Json)
    (type : String) :
    (Alike (project raw (before ++ a :: between ++ b :: after) type)
        (project raw (before ++ between ++ a.merged b :: after) type) ↔
      b.responseKey ∈ after.map Field.responseKey ∨ b.name = typenameField ∨
        (∀ v, raw.get? b.name = some v → ¬ v.HoldsObject) ∨
        ∀ key ∈ a.subfields.map Field.responseKey, key ∈ b.subfields.map Field.responseKey) ∧
    ∀ fields, Keyed (Field.latestOf fields) (project raw fields type) := by
  refine ⟨?_, fun fields => keyed_project_latest fields raw type⟩
  -- under the key stand the second selection and both as one, unless a later one has the key
  have hsame (key : String) (hother : b.responseKey ≠ key) :
      Field.lastOf (before ++ a :: between ++ b :: after) key =
        Field.lastOf (before ++ between ++ a.merged b :: after) key := by
    simp [Field.lastOf_append, Field.lastOf_cons, hkey, hother]
  have hsecond : Field.lastOf (before ++ a :: between ++ b :: after) b.responseKey =
      (Field.lastOf after b.responseKey).or (some b) :=
    Field.lastOf_middle (before ++ a :: between) after b
  have hboth : Field.lastOf (before ++ between ++ a.merged b :: after) b.responseKey =
      (Field.lastOf after b.responseKey).or (some (a.merged b)) :=
    Field.lastOf_middle (before ++ between) after (a.merged b)
  rw [alike_project_iff, ← alike_fieldValue_merged_iff hselected]
  constructor
  · intro h
    by_cases hafter : b.responseKey ∈ after.map Field.responseKey
    · exact .inl hafter
    · have hvalues := h b.responseKey
      rw [hsecond, hboth, Field.lastOf_eq_none_iff.2 hafter] at hvalues
      cases hvalues with
      | some hvalues => exact .inr hvalues
  · intro h key
    by_cases hother : b.responseKey = key
    · subst hother
      rw [hsecond, hboth]
      cases hlast : Field.lastOf after b.responseKey with
      | some f => exact Alike.option_refl _
      | none => exact .some (h.resolve_left (Field.lastOf_eq_none_iff.1 hlast))
    · rw [hsame key hother]
      exact Alike.option_refl _

/-- Of the reserves that two selections of `info` ask for the first is lost. -/
theorem project_merged_alike_iff_reserves :
    let first := Field.withSubfields "info" [.plain "reserve0"]
    let second := Field.withSubfields "info" [.plain "reserve1"]
    let raw : Json := .obj [("info", .obj [("reserve0", .str "1"), ("reserve1", .str "2")])]
    project raw [first, second] "PairModel" =
        .obj [("info", .obj [("reserve1", .str "2")])] ∧
      project raw [first.merged second] "PairModel" =
        .obj [("info", .obj [("reserve0", .str "1"), ("reserve1", .str "2")])] ∧
      ¬ Alike (project raw [first, second] "PairModel")
        (project raw [first.merged second] "PairModel") := by
  intro first second raw
  refine ⟨rfl, rfl, fun halike => ?_⟩
  have hkey : first.responseKey = second.responseKey := rfl
  have hselected : second.subfields ≠ [] := by simp [second, Field.withSubfields]
  rcases (project_merged_alike_iff hkey hselected [] [] [] raw "PairModel").1.1 halike
    with h | h | h | h
  · cases h
  · exact absurd h (by decide)
  · exact h _ rfl trivial
  · exact absurd (h "reserve0" (by decide)) (by decide)

end Projection

end DexCache
