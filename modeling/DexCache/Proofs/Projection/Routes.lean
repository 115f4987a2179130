import DexCache.Proofs.Interception.Showing

/-!
# Answers along routes

A route goes down nested selections, from a selection set to one below it, and notes at each field
the item that it takes if the value is a list.  Read with response keys a route is a path in the
answer, read with names it is a path in the raw value, and its names lead through the table of
shapes to a type.

The main statement follows every route at once: the response keys lead to an object of the answer
exactly where the names lead to an object of the raw value.  That object has exactly the keys that
are selected there, and each of them shows what the raw value has under the name of its field.  The
step behind it is that an answer, followed down one hop, is again an answer, to the selections below
the hop.
-/

namespace DexCache

open Query (Field)

namespace Json

/-- One step into a value. -/
inductive Step where
  | key (name : String)
  | item (position : Nat)
deriving DecidableEq, Repr

/-- The value one step inside a value. -/
def step? (v : Json) : Step → Option Json
  | .key name => v.get? name
  | .item position => v.items?.bind fun items => items[position]?

/-- The value at the end of a path. -/
def at? (v : Json) : List Step → Option Json
  | [] => some v
  | s :: path => (v.step? s).bind fun inner => at? inner path

@[simp] theorem step?_key (v : Json) (name : String) : v.step? (.key name) = v.get? name := rfl

@[simp] theorem at?_nil (v : Json) : v.at? [] = some v := rfl

@[simp] theorem at?_cons (v : Json) (s : Step) (path : List Step) :
    v.at? (s :: path) = (v.step? s).bind fun inner => inner.at? path := rfl

theorem at?_append (v : Json) (path more : List Step) :
    v.at? (path ++ more) = (v.at? path).bind fun inner => inner.at? more := by
  induction path generalizing v with
  | nil => rfl
  | cons s path ih => simp [ih, Option.bind_assoc]

end Json

namespace Schema

/-- The type to which names lead from a type: the table says it, and from the first name that is
not in the table on it is the unknown one. -/
inductive Leads : String → List String → String → Prop
  | here (type : String) : Leads type [] type
  | inside {type name child found : String} {fields : List (String × String)}
      {names : List String} (parent : (type, fields) ∈ shape) (listed : (name, child) ∈ fields)
      (rest : Leads child names found) : Leads type (name :: names) found
  | outside {type name : String} {names : List String}
      (unlisted : ∀ fields, (type, fields) ∈ shape → ∀ child, (name, child) ∉ fields) :
      Leads type (name :: names) unknownType

/-- In a table with distinct keys a look-up finds every entry. -/
theorem lookup_eq_some_iff_mem {β : Type} {table : List (String × β)}
    (h : (table.map Prod.fst).Nodup) {key : String} {value : β} :
    table.lookup key = some value ↔ (key, value) ∈ table := by
  induction table with
  | nil => simp
  | cons e rest ih =>
      obtain ⟨k, v⟩ := e
      rw [List.map_cons, List.nodup_cons] at h
      by_cases hk : key = k
      · subst hk
        have hrest : (key, value) ∉ rest := fun hmem => h.1 (List.mem_map.2 ⟨_, hmem, rfl⟩)
        simp [List.lookup_cons_self, hrest, eq_comm]
      · have hother : (key == k) = false := beq_eq_false_iff_ne.2 hk
        simp [List.lookup_cons, hother, hk, ih h.2]

variable {type name child : String} {fields : List (String × String)}

theorem childType_of_mem (parent : (type, fields) ∈ shape) (listed : (name, child) ∈ fields) :
    childType type name = child := by
  have hshape : (shape.map Prod.fst).Nodup := by decide
  have hfields : ∀ e ∈ shape, (e.2.map Prod.fst).Nodup := by decide
  have hparent := (lookup_eq_some_iff_mem hshape).2 parent
  have hchild := (lookup_eq_some_iff_mem (hfields _ parent)).2 listed
  rw [childType, hparent, Option.bind_some, hchild, Option.getD_some]

theorem childType_of_unlisted
    (h : ∀ fields, (type, fields) ∈ shape → ∀ child, (name, child) ∉ fields) :
    childType type name = unknownType := by
  have hmem {β : Type} {table : List (String × β)} {key : String} {value : β}
      (hlookup : table.lookup key = some value) : (key, value) ∈ table := by
    obtain ⟨before, after, rfl, -⟩ := List.lookup_eq_some_iff.1 hlookup
    simp
  rw [childType]
  cases hparent : shape.lookup type with
  | none => rfl
  | some fields =>
      cases hchild : fields.lookup name with
      | none => rw [Option.bind_some, hchild, Option.getD_none]
      | some child => exact absurd (hmem hchild) (h fields (hmem hparent) child)

/-- No name leads out of the unknown type. -/
theorem foldl_childType_unknownType (names : List String) :
    names.foldl childType unknownType = unknownType := by
  induction names with
  | nil => rfl
  | cons name names ih => exact ih

/-- Names lead to one type, the one that following the fields gives. -/
theorem leads_iff {names : List String} {found : String} :
    Leads type names found ↔ found = names.foldl childType type := by
  constructor
  · intro h
    induction h with
    | here => rfl
    | inside parent listed _ ih => rw [List.foldl_cons, childType_of_mem parent listed, ih]
    | outside unlisted =>
        rw [List.foldl_cons, childType_of_unlisted unlisted, foldl_childType_unknownType]
  · rintro rfl
    induction names generalizing type with
    | nil => exact .here type
    | cons name names ih =>
        rw [List.foldl_cons]
        by_cases hlisted : ∃ fields child, (type, fields) ∈ shape ∧ (name, child) ∈ fields
        · obtain ⟨fields, child, parent, listed⟩ := hlisted
          rw [childType_of_mem parent listed]
          exact .inside parent listed ih
        · have unlisted : ∀ fields, (type, fields) ∈ shape → ∀ child, (name, child) ∉ fields :=
            fun fields parent child listed => hlisted ⟨fields, child, parent, listed⟩
          rw [childType_of_unlisted unlisted, foldl_childType_unknownType]
          exact .outside unlisted

end Schema

namespace Projection

open Json (Object Step)
open Schema (Leads childType)

/-- One step of a route: a field that is gone into, and the item if its value is a list. -/
structure Hop where
  field : Field
  position : Option Nat := none

namespace Hop

/-- The path of a hop, with fields read as a label. -/
def path (label : Field → String) (hop : Hop) : List Step :=
  .key (label hop.field) :: (hop.position.map Step.item).toList

/-- The path of hops in an answer. -/
def keys (hops : List Hop) : List Step :=
  hops.flatMap (path Field.responseKey)

/-- The path of hops in a raw value. -/
def names (hops : List Hop) : List Step :=
  hops.flatMap (path Field.name)

/-- The names of the fields of hops. -/
def fieldNames (hops : List Hop) : List String :=
  hops.map fun hop => hop.field.name

end Hop

/-- Do hops lead from a selection set to one below it? -/
inductive Route : List Field → List Hop → List Field → Prop
  | here (fields : List Field) : Route fields [] fields
  | down {fields below : List Field} {hop : Hop} {hops : List Hop} (selected : hop.field ∈ fields)
      (plain : hop.field.name ≠ typenameField) (nested : hop.field.subfields ≠ [])
      (rest : Route hop.field.subfields hops below) : Route fields (hop :: hops) below

/-- Is a value the answer to a field, if `found` is what the raw value has under its name and
`names` lead from `type` to the object that it stands in?  A path goes on into the objects. -/
structure Answered (type : String) (names : List String) (f : Field) (found : Option Json)
    (v : Json) : Prop where
  typename : f.name = typenameField → ∃ t, v = .str t ∧ ∀ u, Leads type names u ↔ u = t
  leaf : f.name ≠ typenameField → f.subfields = [] → v = found.getD .null
  items : f.name ≠ typenameField → f.subfields ≠ [] → ∀ items, found = some (.arr items) →
    ∃ shown, v = .arr shown ∧
      List.Forall₂ (fun item w => (∀ o, item ≠ .obj o) → w = .null) items shown
  unfit : f.name ≠ typenameField → f.subfields ≠ [] → (∀ items, found ≠ some (.arr items)) →
    (∀ o, found ≠ some (.obj o)) → v = .null

/-- The answer to a value without items: only of an object is anything asked. -/
def nested (fields : List Field) (type : String) : Json → Json
  | .obj o => project (.obj o) fields type
  | _ => .null

/-- The answer to a value that stands under a field with sub-selections: a list is answered item by
item. -/
def spread (fields : List Field) (type : String) : Json → Json
  | .arr items => .arr (items.map (nested fields type))
  | v => nested fields type v

section FieldValue

variable {raw : Json} {f : Field} (type : String)

theorem nested_of_not_obj {fields : List Field} {type : String} {v : Json}
    (h : ∀ o, v ≠ .obj o) : nested fields type v = .null := by
  cases v with
  | obj o => exact absurd rfl (h o)
  | _ => rfl

theorem nested_eq_obj_iff {fields : List Field} {type : String} {v : Json} {shown : Object} :
    nested fields type v = .obj shown ↔
      ∃ o, v = .obj o ∧ project (.obj o) fields type = .obj shown := by
  cases v with
  | obj o => simp [nested]
  | _ => simp [nested]

theorem fieldValue_of_typename (h : f.name = typenameField) :
    fieldValue raw type f = .str type := by
  obtain ⟨_, name, _, subfields⟩ := f
  rw [fieldValue, if_pos h]

theorem fieldValue_of_leaf (hname : f.name ≠ typenameField) (hleaf : f.subfields = []) :
    fieldValue raw type f = (raw.get? f.name).getD .null := by
  obtain ⟨_, name, _, subfields⟩ := f
  simp only at hleaf
  rw [fieldValue, if_neg hname, hleaf]
  rfl

theorem fieldValue_of_subfields (hname : f.name ≠ typenameField) (hselected : f.subfields ≠ []) :
    fieldValue raw type f =
      spread f.subfields (childType type f.name) ((raw.get? f.name).getD .null) := by
  obtain ⟨_, name, _, subfields⟩ := f
  simp only at hname hselected
  rw [fieldValue, if_neg hname, List.isEmpty_eq_false_iff.2 hselected]
  cases (raw.get? name).getD .null with
  | arr items =>
      refine congrArg Json.arr (List.map_congr_left fun item _ => ?_)
      cases item <;> rfl
  | _ => rfl

/-- The answer to a field answers it. -/
theorem answered_fieldValue (raw : Json) (names : List String) (f : Field) :
    Answered type names f (raw.get? f.name)
      (fieldValue raw (names.foldl childType type) f) where
  typename h := ⟨_, fieldValue_of_typename _ h, fun _ => Schema.leads_iff⟩
  leaf hname hleaf := fieldValue_of_leaf _ hname hleaf
  items hname hselected items hfound := by
    rw [fieldValue_of_subfields _ hname hselected, hfound]
    refine ⟨_, rfl, ?_⟩
    rw [List.forall₂_map_right_iff]
    exact List.forall₂_same.2 fun item _ => nested_of_not_obj
  unfit hname hselected hitems hobj := by
    rw [fieldValue_of_subfields _ hname hselected]
    cases hfound : raw.get? f.name with
    | none => rfl
    | some v =>
        cases v with
        | arr items => exact absurd hfound (hitems items)
        | obj o => exact absurd hfound (hobj o)
        | _ => rfl

/-- The objects in the answer to a value are the answers to the objects in it. -/
theorem at?_spread_iff {fields : List Field} {type : String} {v : Json} {position : Option Nat}
    {shown : Object} :
    (spread fields type v).at? (position.map Step.item).toList = some (.obj shown) ↔
      ∃ o, v.at? (position.map Step.item).toList = some (.obj o) ∧
        project (.obj o) fields type = .obj shown := by
  cases position with
  | none =>
      cases v with
      | arr items => simp [spread]
      | obj o => simp [spread, nested]
      | _ => simp [spread, nested]
  | some i =>
      cases v with
      | arr items =>
          simp only [Option.map_some, Option.toList_some, Json.at?_cons, Json.step?, spread,
            Json.items?, Option.bind_some, List.getElem?_map, Json.at?_nil]
          cases items[i]? with
          | none => simp
          | some item => simp [nested_eq_obj_iff]
      | obj o => simp [spread, nested, project, Json.step?, Json.items?]
      | _ => simp [spread, nested, Json.step?, Json.items?]

end FieldValue

/-- A path of hops behind another path goes on in an object. -/
theorem at?_append_hops {v : Json} {path : List Step} {label : Field → String} {hops : List Hop}
    {o : Object} : v.at? (path ++ hops.flatMap (Hop.path label)) = some (.obj o) ↔
      ∃ p, v.at? path = some (.obj p) ∧
        (Json.obj p).at? (hops.flatMap (Hop.path label)) = some (.obj o) := by
  rw [Json.at?_append, Option.bind_eq_some_iff]
  constructor
  · rintro ⟨inner, hinner, hrest⟩
    cases inner with
    | obj p => exact ⟨p, hinner, hrest⟩
    | _ =>
      cases hops with
      | nil => simp at hrest
      | cons hop hops => simp [Hop.path, Json.step?, Json.get?] at hrest
  · rintro ⟨p, hp, hrest⟩
    exact ⟨_, hp, hrest⟩

section Distinct

variable {fields : List Field} (raw : Json) (type : String)

/-- One hop down an answer is the answer to what is one hop down the raw value. -/
theorem at?_project_hop (hnodup : (fields.map Field.responseKey).Nodup) {hop : Hop}
    (selected : hop.field ∈ fields) (plain : hop.field.name ≠ typenameField)
    (hnested : hop.field.subfields ≠ []) {shown : Object} :
    (project raw fields type).at? (hop.path Field.responseKey) = some (.obj shown) ↔
      ∃ o, raw.at? (hop.path Field.name) = some (.obj o) ∧
        project (.obj o) hop.field.subfields (childType type hop.field.name) = .obj shown := by
  have hvalue : (project raw fields type).get? hop.field.responseKey =
      some (fieldValue raw type hop.field) := by
    rw [project_of_nodup hnodup]
    exact get?_answers hnodup selected raw type
  rw [Hop.path, Json.at?_cons, Json.step?_key, hvalue, fieldValue_of_subfields type plain hnested,
    Option.bind_some, at?_spread_iff, Hop.path, Json.at?_cons, Json.step?_key]
  cases raw.get? hop.field.name with
  -- no hop leads into the null that stands for an absent value
  | none => cases hop.position <;> simp [Json.step?, Json.items?]
  | some v => rw [Option.getD_some, Option.bind_some]

/-- An answer, followed along a route, is the answer to what the raw value has there. -/
theorem at?_project_hops {hops : List Hop} {below : List Field} (h : Route fields hops below)
    (hnodup : (fields.map Field.responseKey).Nodup)
    (hdistinct : ∀ f ∈ fields, f.all Field.isDistinct = true)
    (hraw : hops = [] → ∃ o, raw = .obj o) {shown : Object} :
    (project raw fields type).at? (Hop.keys hops) = some (.obj shown) ↔
      ∃ o, raw.at? (Hop.names hops) = some (.obj o) ∧
        project (.obj o) below ((Hop.fieldNames hops).foldl childType type) = .obj shown := by
  induction h generalizing raw type with
  | here fields =>
      obtain ⟨o, rfl⟩ := hraw rfl
      simp [Hop.keys, Hop.names, Hop.fieldNames]
  | @down fields below hop hops selected plain hnested rest ih =>
      have hbelow := hdistinct _ selected
      -- behind the hop stands an object, and the rest of the route starts in it
      have hrest (o : Object) := ih (.obj o) (childType type hop.field.name)
        (Field.nodup_of_all hbelow) (fun g hg => Field.all_of_mem hbelow hg) fun _ => ⟨o, rfl⟩
      have hkeys : (project raw fields type).at? (Hop.keys (hop :: hops)) = some (.obj shown) ↔
          ∃ p, raw.at? (hop.path Field.name) = some (.obj p) ∧
            (project (.obj p) hop.field.subfields (childType type hop.field.name)).at?
              (Hop.keys hops) = some (.obj shown) := by
        rw [Hop.keys, List.flatMap_cons, at?_append_hops]
        simp only [at?_project_hop raw type hnodup selected plain hnested]
        constructor
        · rintro ⟨q, ⟨p, hp, hq⟩, hshown⟩
          exact ⟨p, hp, hq ▸ hshown⟩
        · rintro ⟨p, hp, hshown⟩
          exact ⟨_, ⟨p, hp, rfl⟩, hshown⟩
      have hnames (o : Object) : raw.at? (Hop.names (hop :: hops)) = some (.obj o) ↔
          ∃ p, raw.at? (hop.path Field.name) = some (.obj p) ∧
            (Json.obj p).at? (Hop.names hops) = some (.obj o) := at?_append_hops
      rw [hkeys]
      simp only [hnames, hrest]
      constructor
      · rintro ⟨p, hp, o, ho, hshown⟩
        exact ⟨o, ⟨p, hp, ho⟩, hshown⟩
      · rintro ⟨o, ⟨p, hp, ho⟩, hshown⟩
        exact ⟨p, hp, o, ho, hshown⟩

theorem Route.distinct {hops : List Hop} {below : List Field} (h : Route fields hops below)
    (hnodup : (fields.map Field.responseKey).Nodup)
    (hdistinct : ∀ f ∈ fields, f.all Field.isDistinct = true) :
    (below.map Field.responseKey).Nodup := by
  induction h with
  | here => exact hnodup
  | down selected _ _ _ ih =>
      have hbelow := hdistinct _ selected
      exact ih (Field.nodup_of_all hbelow) fun g hg => Field.all_of_mem hbelow hg

/-- An object of answers has the keys of its fields, and answers each of them. -/
theorem answered_project (hnodup : (fields.map Field.responseKey).Nodup) {names : List String}
    {shown : Object} (h : project raw fields (names.foldl childType type) = .obj shown) :
    shown.keys = fields.map Field.responseKey ∧
      ∀ f ∈ fields, ∃ v, shown.get? f.responseKey = some v ∧
        Answered type names f (raw.get? f.name) v := by
  rw [project_of_nodup hnodup, Json.obj.injEq] at h
  subst h
  refine ⟨keys_answers _ _ _, fun f hf => ⟨_, get?_answers hnodup hf _ _, ?_⟩⟩
  exact answered_fieldValue type raw names f

/-- A projection is exact along every route: the response keys lead to an object where the names
do, that object has exactly the keys that are selected there in their order, and under each key is
the answer to what the raw value has under the name of the field. -/
theorem project_along_route {hops : List Hop} {below : List Field}
    (hnodup : (fields.map Field.responseKey).Nodup)
    (hdistinct : ∀ f ∈ fields, f.all Field.isDistinct = true) (h : Route fields hops below) :
    ((∃ shown, (project raw fields type).at? (Hop.keys hops) = some (.obj shown)) ↔
      hops = [] ∨ ∃ o, raw.at? (Hop.names hops) = some (.obj o)) ∧
    ∀ shown : Object, (project raw fields type).at? (Hop.keys hops) = some (.obj shown) →
      shown.keys = below.map Field.responseKey ∧
      ∀ f ∈ below, ∃ v, shown.get? f.responseKey = some v ∧
        Answered type (Hop.fieldNames hops) f
          ((raw.at? (Hop.names hops)).bind fun inner => inner.get? f.name) v := by
  have hbelow := h.distinct hnodup hdistinct
  by_cases hnil : hops = []
  · subst hnil
    cases h
    refine ⟨⟨fun _ => .inl rfl, fun _ => ⟨_, rfl⟩⟩, fun shown hshown => ?_⟩
    exact answered_project raw type hbelow (Option.some.inj hshown)
  · have hroute (shown : Object) : (project raw fields type).at? (Hop.keys hops) =
          some (.obj shown) ↔ ∃ o, raw.at? (Hop.names hops) = some (.obj o) ∧
            project (.obj o) below ((Hop.fieldNames hops).foldl childType type) = .obj shown :=
      at?_project_hops raw type h hnodup hdistinct fun heq => absurd heq hnil
    simp only [hroute, hnil, false_or]
    refine ⟨⟨?_, ?_⟩, ?_⟩
    · rintro ⟨_, o, ho, -⟩
      exact ⟨o, ho⟩
    · rintro ⟨o, ho⟩
      exact ⟨_, o, ho, rfl⟩
    · rintro shown ⟨o, ho, hshown⟩
      rw [ho]
      exact answered_project _ type hbelow hshown

end Distinct

/-- Down a page, under other keys: the second edge, its node, and what is selected there. -/
theorem project_along_route_to_node :
    let node : Field :=
      ⟨some "n", "node", [], [.plain "address", ⟨some "kind", "__typename", [], []⟩]⟩
    let edges : Field := ⟨some "e", "edges", [], [node]⟩
    let raw : Json := .obj [("edges", .arr [.null, .obj [("node", .obj [("address", .str "a")])]])]
    ∃ shown : Object,
      (project raw [edges] "PairsResponse").at? [.key "e", .item 1, .key "n"] = some (.obj shown) ∧
        shown.keys = ["address", "kind"] ∧ shown.get? "address" = some (.str "a") ∧
        shown.get? "kind" = some (.str "PairModel") := by
  intro node edges raw
  have hroute : Route [edges] [⟨edges, some 1⟩, ⟨node, none⟩] node.subfields :=
    .down (List.mem_singleton_self _) (by decide) (by simp [edges])
      (.down (List.mem_singleton_self _) (by decide) (by simp [node]) (.here _))
  obtain ⟨hobject, hanswer⟩ := project_along_route raw "PairsResponse" (by decide)
    (by decide) hroute
  obtain ⟨shown, hshown⟩ := hobject.2 (.inr ⟨_, rfl⟩)
  obtain ⟨hkeys, hvalues⟩ := hanswer shown hshown
  refine ⟨shown, hshown, hkeys, ?_, ?_⟩
  · obtain ⟨v, hv, answered⟩ := hvalues (.plain "address") (by simp [node])
    rw [answered.leaf (by decide) rfl] at hv
    exact hv
  · obtain ⟨v, hv, answered⟩ := hvalues ⟨some "kind", "__typename", [], []⟩ (by simp [node])
    obtain ⟨t, rfl, ht⟩ := answered.typename rfl
    have hleads : Leads "PairsResponse" ["edges", "node"] "PairModel" := Schema.leads_iff.2 rfl
    rw [(ht _).1 hleads]
    exact hv

end Projection

end DexCache
