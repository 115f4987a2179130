import DexCache.Listing.Catalogue
import DexCache.Proofs.Json.Objects
import DexCache.Proofs.Outcome

/-!
# What an answer depends on

The entities that a listing is about, and whether its arguments are accepted, depend on the
arguments alone; what is selected only decides how the entities are shown.  With distinct
response keys the answer to a selection set is the list of the answers to its fields, and
each of these reads its raw value at one name.
-/

namespace DexCache

open Query (Field)

namespace Projection

/-- The answers to fields of a raw value, each under its key. -/
def answers (raw : Json) (type : String) (fields : List Field) : Json.Object :=
  fields.map fun f => (f.responseKey, fieldValue raw type f)

@[simp] theorem keys_answers (raw : Json) (type : String) (fields : List Field) :
    (answers raw type fields).keys = fields.map Field.responseKey := by
  simp [answers, Json.Object.keys]

theorem addFields_eq_foldl (raw : Json) (type : String) (fields : List Field)
    (done : Json.Object) :
    addFields raw type done fields =
      (answers raw type fields).foldl (fun o e => o.insert e.1 e.2) done := by
  induction fields generalizing done with
  | nil => simp [addFields, answers]
  | cons f rest ih => simp [addFields, answers, ih]

/-- With distinct keys an answer holds the answers to the fields, in their order. -/
theorem addFields_of_nodup {fields : List Field} (h : (fields.map Field.responseKey).Nodup)
    (raw : Json) (type : String) : addFields raw type [] fields = answers raw type fields := by
  rw [addFields_eq_foldl]
  refine Json.Object.ofEntries_of_nodup ?_
  rw [← keys_answers raw type fields] at h
  exact h

theorem project_of_nodup {fields : List Field} (h : (fields.map Field.responseKey).Nodup)
    (raw : Json) (type : String) : project raw fields type = .obj (answers raw type fields) := by
  rw [project, addFields_of_nodup h]

/-- The answer under the key of a field. -/
theorem get?_answers {fields : List Field} (h : (fields.map Field.responseKey).Nodup)
    {f : Field} (hf : f ∈ fields) (raw : Json) (type : String) :
    (answers raw type fields).get? f.responseKey = some (fieldValue raw type f) := by
  rw [Json.Object.get?_eq_some_iff ((keys_answers raw type fields).symm ▸ h)]
  exact List.mem_map.2 ⟨f, hf, rfl⟩

theorem get?_answers_eq_none {fields : List Field} {key : String}
    (h : ∀ f ∈ fields, f.responseKey ≠ key) (raw : Json) (type : String) :
    (answers raw type fields).get? key = none := by
  rw [Json.Object.get?_eq_none_iff, keys_answers]
  simpa using h

/-- The answer to a field reads the raw value at the name of the field only. -/
theorem fieldValue_congr {raw raw' : Json} {f : Field} (type : String)
    (h : f.name = typenameField ∨ raw.get? f.name = raw'.get? f.name) :
    fieldValue raw type f = fieldValue raw' type f := by
  obtain ⟨_, name, _, subfields⟩ := f
  rw [fieldValue, fieldValue]
  rcases h with h | h
  · simp only at h
    simp [h]
  · simp only at h
    rw [h]

/-- An object of answers depends on the raw value through the answers to its fields. -/
theorem project_congr {raw raw' : Json} {fields : List Field} {type : String}
    (h : ∀ f ∈ fields, fieldValue raw type f = fieldValue raw' type f) :
    project raw fields type = project raw' fields type := by
  have hanswers : answers raw type fields = answers raw' type fields :=
    List.map_congr_left fun f hf => by rw [h f hf]
  rw [project, project, addFields_eq_foldl, addFields_eq_foldl, hanswers]

/-- The answer to a field that holds an object. -/
theorem fieldValue_of_obj {v : Json} {f : Field} {o : Json.Object}
    (hv : v.get? f.name = some (.obj o)) (hname : f.name ≠ typenameField)
    (hselected : f.subfields ≠ []) (type : String) :
    fieldValue v type f = project (.obj o) f.subfields (Schema.childType type f.name) := by
  obtain ⟨_, fname, _, subfields⟩ := f
  simp only at hv hname hselected
  rw [fieldValue, if_neg hname, hv, Option.getD_some, List.isEmpty_eq_false_iff.2 hselected]
  rfl

/-- The answer to a field that holds a list of objects. -/
theorem fieldValue_of_arr {v : Json} {f : Field} {ι : Type} {is : List ι} {make : ι → Json}
    (hv : v.get? f.name = some (.arr (is.map make))) (hobj : ∀ i ∈ is, ∃ o, make i = .obj o)
    (hname : f.name ≠ typenameField) (hselected : f.subfields ≠ []) (type : String) :
    fieldValue v type f =
      .arr (is.map fun i => project (make i) f.subfields (Schema.childType type f.name)) := by
  obtain ⟨_, fname, _, subfields⟩ := f
  simp only at hv hname hselected
  rw [fieldValue, if_neg hname, hv, Option.getD_some, List.isEmpty_eq_false_iff.2 hselected]
  simp only [Bool.false_eq_true, if_false, Json.arr.injEq, List.map_map]
  refine List.map_congr_left fun i hi => ?_
  obtain ⟨o, ho⟩ := hobj i hi
  rw [Function.comp_apply, ho]
  rfl

/-- The edges of a page are answered one by one. -/
theorem fieldValue_edges (edges : Field) (hedges : edges.name = "edges")
    (hselected : edges.subfields ≠ []) {page : Json} {ι : Type} {is : List ι}
    {position : ι → Nat} {value : ι → Json}
    (hpage : page.get? "edges" = some (.arr (is.map fun i => Paging.edge (position i) (value i))))
    (type : String) :
    fieldValue page type edges = .arr (is.map fun i =>
      project (Paging.edge (position i) (value i)) edges.subfields
        (Schema.childType type "edges")) := by
  rw [← hedges] at hpage
  have hvalue := fieldValue_of_arr hpage (fun i _ => ⟨_, rfl⟩) (by rw [hedges]; decide)
    hselected type
  rw [hvalue, hedges]

end Projection

namespace Paging

/-- The edges of a page, one for each node. -/
theorem page_edges {α : Type} (nodes : List α) (make : α → Json) (w : Window) (total : Nat) :
    (page (nodes.map make) w total).get? "edges" =
      some (.arr (nodes.zipIdx.map fun n => edge (w.offset + n.2) (make n.1))) := by
  have hedges : (nodes.map make).mapIdx (fun i node => edge (w.offset + i) node) =
      nodes.zipIdx.map fun n => edge (w.offset + n.2) (make n.1) := by
    rw [List.mapIdx_eq_zipIdx_map, List.zipIdx_map, List.map_map]
    rfl
  rw [page, hedges]
  rfl

end Paging

namespace Sorting

variable {α : Type} (order : SortOrder) (key : α → Option Amount) (items : List α)

/-- Sorting items with their keys sorts the items by their keys. -/
theorem sortBy_eq_mergeSort :
    sortBy order key items = items.mergeSort fun a b => inOrder order (key a) (key b) := by
  have hsorted := List.map_mergeSort (f := fun a => (key a, a))
    (r := fun a b => inOrder order (key a) (key b)) (s := fun a b => inOrder order a.1 b.1)
    (l := items) fun _ _ _ _ => rfl
  rw [sortBy, ← hsorted, List.map_map]
  exact List.map_id _

/-- Sorting loses nothing and adds nothing. -/
theorem perm_sortBy : (sortBy order key items).Perm items := by
  rw [sortBy_eq_mergeSort]
  exact List.mergeSort_perm items _

end Sorting

namespace Catalogue

variable {α F K : Type}

/-- What a listing is about, before anything is shown. -/
structure Cut (α : Type) where
  listing : Listing
  entities : List α
  window : Paging.Window
  total : Nat

/-- How the entities of a listing are shown. -/
def Cut.show (entityType pageType : String) (toJson : α → Json) (fields : List Field)
    (c : Cut α) : Json :=
  match c.listing.shape with
  | .list => .arr (c.entities.map fun e => Projection.project (toJson e) fields entityType)
  | .connection =>
    Projection.project (Paging.page (c.entities.map toJson) c.window c.total) fields pageType

/-- What a listing is about: its arguments are read, and the entities are filtered, sorted and
cut. -/
def cut (c : Catalogue α F K) (entities : List α) (name : String) (args : Json.Object) :
    Except Query.Error (Cut α) := do
  let some l := c.listing? name | .error (.unknownQuery name)
  let args ← c.readArgs l args
  let selected := c.select args entities
  let total := selected.length
  match args.paging with
  | .slice offset limit =>
    let window := Paging.Window.slice offset limit total
    return ⟨l, window.cut selected, window, total⟩
  | .page page =>
    let window ← (Paging.Window.ofArgs page total defaultPageSize).mapError .cursor
    return ⟨l, window.cut selected, window, total⟩

/-- The shape of a listing decides how its paging is read. -/
theorem paging_of_readArgs {c : Catalogue α F K} {l : Listing} {args : Json.Object}
    {read : ListingArgs F} (h : c.readArgs l args = .ok read) :
    match l.shape with
    | .list => ∃ offset limit, read.paging = .slice offset limit
    | .connection => ∃ page, read.paging = .page page := by
  obtain ⟨filters, -, h⟩ := Outcome.bind_eq_ok_iff.1 h
  -- the sorting is read or not, and what follows is the same
  cases hsortable : l.sortable
  all_goals
    simp only [hsortable, if_true, if_false, Bool.false_eq_true] at h
    obtain ⟨sorting, -, h⟩ := Outcome.bind_eq_ok_iff.1 h
    cases hshape : l.shape with
    | list =>
        rw [hshape] at h
        obtain ⟨offset, -, h⟩ := Outcome.bind_eq_ok_iff.1 h
        obtain ⟨limit, -, h⟩ := Outcome.bind_eq_ok_iff.1 h
        cases h
        exact ⟨_, _, rfl⟩
    | connection =>
        rw [hshape] at h
        obtain ⟨page, -, h⟩ := Outcome.bind_eq_ok_iff.1 h
        cases h
        exact ⟨_, rfl⟩

/-- An answer shows what the listing is about. -/
theorem respond_eq (c : Catalogue α F K) (entities : List α) (name : String)
    (args : Json.Object) (fields : List Field) :
    c.respond entities name args fields =
      (c.cut entities name args).map (Cut.show c.entityType c.pageType c.toJson fields) := by
  unfold respond cut
  cases hlisted : c.listing? name with
  | none => rfl
  | some l =>
      simp only
      cases hargs : c.readArgs l args with
      | error e => rfl
      | ok read =>
          have hpaging := paging_of_readArgs hargs
          simp only [bind, Except.bind]
          cases hshape : l.shape with
          | list =>
              rw [hshape] at hpaging
              obtain ⟨offset, limit, hpaging⟩ := hpaging
              simp [hpaging, pure, Except.pure, Except.map, Cut.show, hshape]
          | connection =>
              rw [hshape] at hpaging
              obtain ⟨page, hpaging⟩ := hpaging
              rw [hpaging]
              simp only
              cases (Paging.Window.ofArgs page (c.select read entities).length
                  defaultPageSize).mapError Query.Error.cursor with
              | error e => rfl
              | ok window => simp [pure, Except.pure, Except.map, Cut.show, hshape]

theorem perm_sort (c : Catalogue α F K) (sorting : Option Sorting) (entities : List α) :
    (c.sort sorting entities).Perm entities := by
  unfold sort
  cases sorting with
  | none => exact List.Perm.refl _
  | some s =>
      simp only
      split
      · exact List.Perm.refl _
      · exact Sorting.perm_sortBy _ _ _

theorem keep_sublist (predicates : List (α → Bool)) (entities : List α) :
    (keep predicates entities).Sublist entities := by
  unfold keep
  induction predicates generalizing entities with
  | nil => exact List.Sublist.refl _
  | cons p rest ih => exact (ih (entities.filter p)).trans List.filter_sublist

/-- A listing is about each entity once if each is there once. -/
theorem nodup_cut {β : Type} {c : Catalogue α F K} {entities : List α} {name : String}
    {args : Json.Object} {found : Cut α} (h : c.cut entities name args = .ok found)
    (key : α → β) (hkeys : (entities.map key).Nodup) : (found.entities.map key).Nodup := by
  have hselect (read : ListingArgs F) : ((c.select read entities).map key).Nodup := by
    refine ((perm_sort c read.sorting _).map key).nodup_iff.2 ?_
    exact hkeys.sublist ((keep_sublist _ entities).map key)
  have hcut (window : Paging.Window) (read : ListingArgs F) :
      ((window.cut (c.select read entities)).map key).Nodup :=
    (hselect read).sublist (((List.take_sublist _ _).trans (List.drop_sublist _ _)).map key)
  unfold cut at h
  split at h
  · obtain ⟨read, -, h⟩ := Outcome.bind_eq_ok_iff.1 h
    simp only at h
    split at h
    · cases h
      exact hcut _ read
    · obtain ⟨window, -, h⟩ := Outcome.bind_eq_ok_iff.1 h
      cases h
      exact hcut window read
  · cases h

theorem mem_of_listing? {c : Catalogue α F K} {name : String} {l : Listing}
    (h : c.listing? name = some l) : l ∈ c.listings :=
  List.mem_of_find?_eq_some h

theorem listing?_of_cut {c : Catalogue α F K} {entities : List α} {name : String}
    {args : Json.Object} {found : Cut α} (h : c.cut entities name args = .ok found) :
    c.listing? name = some found.listing := by
  unfold cut at h
  split at h
  · next l hlisted =>
      obtain ⟨read, -, h⟩ := Outcome.bind_eq_ok_iff.1 h
      simp only at h
      split at h
      · cases h
        exact hlisted
      · obtain ⟨window, -, h⟩ := Outcome.bind_eq_ok_iff.1 h
        cases h
        exact hlisted
  · cases h

end Catalogue

end DexCache
