import DexCache.Listing.Shelf
import DexCache.Proofs.Listing.Answers
import DexCache.Proofs.Store.Parts

/-!
# What the store mirrors

The objects that the store answers with have fixed keys: those that snapshots, the values in
them and pages are written with.  This module names the forms of these objects, shows that
whatever is written has the form of its place, and lists the paths on which a selection leaves
the forms: a name that is no key of the object it is selected in.  Such a name is answered with
null, because nothing is found under it.
-/

namespace DexCache

open Query (Field)
open Projection (fieldValue typenameField)

/-- The forms of the values in answers; a plain value is no object. -/
inductive Form where
  | entity (kind : EntityKind)
  | reserves
  | assets
  | page (kind : EntityKind)
  | edge (kind : EntityKind)
  | pageInfo
  | pageData
  | plain
deriving DecidableEq, Repr

namespace Form

/-- The keys of the objects of a form. -/
def keys : Form → List String
  | entity .pair => "address" :: (FieldGroup.all (G := PairGroup)).flatMap FieldGroup.fields
  | entity .token => "identifier" :: (FieldGroup.all (G := TokenGroup)).flatMap FieldGroup.fields
  | reserves => ["reserve0", "reserve1", "totalSupply"]
  | assets => ["website", "description", "status", "pngURL", "svgURL"]
  | page _ => ["edges", "pageInfo", "pageData"]
  | edge _ => ["cursor", "node"]
  | pageInfo => ["startCursor", "endCursor", "hasPreviousPage", "hasNextPage"]
  | pageData => ["count", "limit", "offset"]
  | plain => []

/-- The form of the values under a key; lists have the form of their items. -/
def child : Form → String → Form
  | entity .pair, name =>
    if name ∈ ["firstToken", "secondToken", "liquidityPoolToken"] then entity .token
    else if name = "info" then reserves
    else plain
  | entity .token, name => if name = "assets" then assets else plain
  | page kind, name =>
    if name = "edges" then edge kind
    else if name = "pageInfo" then pageInfo
    else if name = "pageData" then pageData
    else plain
  | edge kind, name => if name = "node" then entity kind else plain
  | _, _ => plain

/-- Does a value have this form?  Whatever is missing is null. -/
inductive Fits : Form → Json → Prop
  | null (form : Form) : Fits form .null
  | list {form : Form} {items : List Json} (each : ∀ v ∈ items, Fits form v) :
      Fits form (.arr items)
  | object {form : Form} {entries : Json.Object}
      (keys : ∀ name, name ∈ entries.keys ↔ name ∈ form.keys)
      (values : ∀ e ∈ entries, Fits (form.child e.1) e.2) : Fits form (.obj entries)
  | plain {v : Json} (single : v.items? = none) (empty : ∀ name, v.get? name = none) :
      Fits .plain v

/-- Nothing is found under a name that is no key of a form. -/
theorem Fits.get?_eq_none {form : Form} {raw : Json} (h : Fits form raw) {name : String}
    (hname : name ∉ form.keys) : raw.get? name = none := by
  cases h with
  | null => rfl
  | list => rfl
  | object keys => exact Json.Object.get?_eq_none_iff.2 fun hmem => hname ((keys name).1 hmem)
  | plain single empty => exact empty name

/-- What is found under a key has the form of its place. -/
theorem Fits.get? {form : Form} {raw value : Json} (h : Fits form raw) {name : String}
    (hname : raw.get? name = some value) : Fits (form.child name) value := by
  cases h with
  | null => cases hname
  | list => cases hname
  | object keys values => exact values _ (Json.Object.mem_of_get? hname)
  | plain single empty =>
      rw [empty] at hname
      cases hname

theorem Fits.item {form : Form} {items : List Json} (h : Fits form (.arr items)) {v : Json}
    (hv : v ∈ items) : Fits form v := by
  cases h with
  | list each => exact each v hv
  | plain single => cases single

/-- A name that is no key is answered with null. -/
theorem Fits.fieldValue_eq_null {form : Form} {raw : Json} (h : Fits form raw) {f : Field}
    (htype : f.name ≠ typenameField) (hname : f.name ∉ form.keys) (type : String) :
    fieldValue raw type f = .null := by
  obtain ⟨alias?, name, arguments, subfields⟩ := f
  rw [fieldValue, if_neg htype, h.get?_eq_none hname]
  cases subfields <;> rfl

theorem fits_str (s : String) : Fits .plain (.str s) := .plain rfl fun _ => rfl

theorem fits_bool (b : Bool) : Fits .plain (.bool b) := .plain rfl fun _ => rfl

theorem fits_int (i : Int) : Fits .plain (.int i) := .plain rfl fun _ => rfl

theorem fits_float (d : Double) : Fits .plain (.float d) := .plain rfl fun _ => rfl

theorem fits_ofOption {α : Type} {form : Form} {write : α → Json} (h : ∀ a, Fits form (write a))
    (value : Option α) : Fits form (.ofOption write value) := by
  cases value with
  | none => exact .null form
  | some a => exact h a

theorem fits_ofText (text : Option String) : Fits .plain (.ofText text) :=
  fits_ofOption fits_str text

theorem fits_ofBool (b : Option Bool) : Fits .plain (.ofBool b) :=
  fits_ofOption fits_bool b

theorem fits_ofDouble (d : Option Double) : Fits .plain (.ofDouble d) := by
  refine fits_ofOption (fun d => ?_) d
  split
  · exact fits_float d
  · exact .null _

theorem fits_ofNat (n : Nat) : Fits .plain (.ofNat n) :=
  fits_int n

theorem fits_ofStrings (texts : List String) : Fits .plain (.ofStrings texts) := by
  refine .list fun v hv => ?_
  obtain ⟨s, -, rfl⟩ := List.mem_map.1 hv
  exact fits_str s

theorem fits_assets (a : TokenAssets) : Fits .assets a.toJson :=
  .object (fun _ => Iff.rfl) (by simp [child, fits_ofText])

theorem fits_reserves (r : PairReserves) : Fits .reserves r.toJson :=
  .object (fun _ => Iff.rfl) (by simp [child, fits_str])

section Entities

variable {α G P : Type} [FieldGroup G] [Entity α G P] [Parted α G P]

/-- An entity is written with its identifier and the fields of all its groups. -/
theorem mem_keys_parts (horder : ∀ g, g ∈ Parted.order α) (a : α) (name : String) :
    name ∈ Json.Object.keys ((Parted.identifier α, .str (Entity.id a)) ::
        (Parted.order α).flatMap fun g => Parted.entries α (Parted.part g a)) ↔
      name ∈ Parted.identifier α :: (FieldGroup.all (G := G)).flatMap FieldGroup.fields := by
  have hpart (g : G) : Json.Object.keys (Parted.entries α (Parted.part g a)) =
      FieldGroup.fields g := by
    rw [Parted.keys_entries, Parted.groupOf_part]
  simp only [Json.Object.keys, List.map_cons, List.map_flatMap, List.mem_cons,
    List.mem_flatMap] at hpart ⊢
  simp only [hpart, horder, FieldGroup.mem_all, true_and]

/-- An entity fits a form with its keys if the parts of all groups do. -/
theorem fits_entity {form : Form} (horder : ∀ g, g ∈ Parted.order α)
    (hkeys : form.keys = Parted.identifier α :: (FieldGroup.all (G := G)).flatMap FieldGroup.fields)
    (hidentifier : form.child (Parted.identifier α) = .plain) (a : α)
    (hparts : ∀ g, ∀ e ∈ Parted.entries α (Parted.part g a), Fits (form.child e.1) e.2) :
    Fits form (Entity.toJson a) := by
  rw [Parted.toJson_eq]
  refine .object (fun name => hkeys ▸ mem_keys_parts horder a name) ?_
  refine List.forall_mem_cons.2 ⟨hidentifier ▸ fits_str _, fun e he => ?_⟩
  obtain ⟨g, -, hg⟩ := List.mem_flatMap.1 he
  exact hparts g e hg

end Entities

/-- A token is written in the form of tokens. -/
theorem fits_token (t : Token) : Fits (.entity .token) t.toJson := by
  refine fits_entity (α := Token) (fun g => by cases g <;> decide) rfl rfl t fun g => ?_
  cases g with
  | metadata => simp [Parted.entries, Parted.part, TokenMetadata.entries, child, fits_ofText,
      fits_ofOption fits_assets, fits_ofOption fun n : UInt32 => fits_ofNat n.toNat]
  | prices => simp [Parted.entries, Parted.part, TokenPrices.entries, child, fits_ofText]
  | analytics => simp [Parted.entries, Parted.part, TokenAnalytics.entries, child, fits_ofText,
      fits_ofOption fun n : UInt64 => fits_ofNat n.toNat]

/-- A pair is written in the form of pairs. -/
theorem fits_pair (p : Pair) : Fits (.entity .pair) p.toJson := by
  refine fits_entity (α := Pair) (fun g => by cases g <;> decide) rfl rfl p fun g => ?_
  cases g with
  | tokensAndFarms => simp [Parted.entries, Parted.part, PairTokens.entries, child, fits_ofText,
      fits_ofBool, fits_ofOption fits_token]
  | info => simp [Parted.entries, Parted.part, PairInfo.entries, child, fits_ofText,
      fits_ofDouble, fits_ofOption fits_reserves, fits_ofOption fits_ofStrings]
  | prices => simp [Parted.entries, Parted.part, PairPrices.entries, child, fits_ofText]
  | analytics => simp [Parted.entries, Parted.part, PairAnalytics.entries, child, fits_ofText,
      fits_ofOption fun n : UInt64 => fits_ofNat n.toNat,
      fits_ofOption fun i : Int64 => fits_int i.toInt]

/-- A page of entities is written in the form of pages. -/
theorem fits_page {kind : EntityKind} {nodes : List Json}
    (hnodes : ∀ v ∈ nodes, Fits (.entity kind) v) (w : Paging.Window) (total : Nat) :
    Fits (.page kind) (Paging.page nodes w total) := by
  have hedges : ∀ e ∈ nodes.mapIdx fun i node => Paging.edge (w.offset + i) node,
      Fits (.edge kind) e := by
    intro e he
    obtain ⟨i, hi, rfl⟩ := List.mem_mapIdx.1 he
    refine .object (fun _ => Iff.rfl) ?_
    simp [child, fits_str, hnodes]
  have hcursor (edge : Option Json)
      (h : ∀ e ∈ edge, e ∈ nodes.mapIdx fun i node => Paging.edge (w.offset + i) node) :
      Fits .plain (Paging.edgeCursor edge) := by
    cases edge with
    | none => exact .null _
    | some e =>
        obtain ⟨i, hi, rfl⟩ := List.mem_mapIdx.1 (h e rfl)
        exact fits_str _
  refine .object (fun _ => Iff.rfl) ?_
  simp only [List.forall_mem_cons, List.not_mem_nil, false_imp_iff, implies_true, and_true]
  refine ⟨.list hedges, .object (fun _ => Iff.rfl) ?_, .object (fun _ => Iff.rfl) ?_⟩
  · simp only [List.forall_mem_cons, List.not_mem_nil, false_imp_iff, implies_true, and_true]
    exact ⟨hcursor _ fun e he => List.mem_of_mem_head? he,
      hcursor _ fun e he => List.mem_of_getLast? he, fits_bool _, fits_bool _⟩
  · simp [child, fits_ofNat]

mutual
/-- The paths of names from an object of a form to what a field selects outside the forms. -/
def unmirrored (form : Form) : Field → List (List String)
  | ⟨_, name, _, subfields⟩ =>
    if name = typenameField ∨ name ∈ form.keys then
      (unmirroredIn (form.child name) subfields).map (name :: ·)
    else [[name]]

/-- The paths of names from an object of a form to what fields select outside the forms. -/
def unmirroredIn (form : Form) : List Field → List (List String)
  | [] => []
  | f :: rest => unmirrored form f ++ unmirroredIn form rest
end

@[simp] theorem unmirroredIn_append (form : Form) (fields others : List Field) :
    form.unmirroredIn (fields ++ others) = form.unmirroredIn fields ++ form.unmirroredIn others := by
  induction fields with
  | nil => rfl
  | cons f rest ih => simp [unmirroredIn, ih]

theorem mem_unmirroredIn_iff {form : Form} {fields : List Field} {path : List String} :
    path ∈ form.unmirroredIn fields ↔ ∃ f ∈ fields, path ∈ form.unmirrored f := by
  induction fields with
  | nil => simp [unmirroredIn]
  | cons f rest ih => simp [unmirroredIn, ih]

theorem unmirrored_of_key {form : Form} {f : Field} (h : f.name ∈ form.keys) :
    form.unmirrored f = (unmirroredIn (form.child f.name) f.subfields).map (f.name :: ·) := by
  obtain ⟨alias?, name, arguments, subfields⟩ := f
  exact if_pos (.inr h)

/-- The answers that selections show on a path of names. -/
inductive Shown : Json → String → List Field → List String → Json → Prop
  | here {raw : Json} {type : String} {fields : List Field} {f : Field} (selected : f ∈ fields) :
      Shown raw type fields [f.name] (fieldValue raw type f)
  | inside {raw item answer : Json} {type : String} {fields : List Field} {f : Field}
      {path : List String} (selected : f ∈ fields)
      (found : raw.get? f.name = some item ∨
        ∃ items, raw.get? f.name = some (.arr items) ∧ item ∈ items)
      (shown : Shown item (Schema.childType type f.name) f.subfields path answer) :
      Shown raw type fields (f.name :: path) answer

/-- Does a path of names end outside the forms? -/
def Leaves : Form → List String → Prop
  | _, [] => False
  | form, [name] => name ≠ typenameField ∧ name ∉ form.keys
  | form, name :: path => Leaves (form.child name) path

mutual
theorem leaves_of_mem_unmirrored : ∀ {form : Form} {f : Field} {path : List String},
    path ∈ form.unmirrored f → form.Leaves path
  | form, ⟨_, name, _, subfields⟩, path, h => by
      rw [unmirrored] at h
      split at h
      · obtain ⟨path, hpath, rfl⟩ := List.mem_map.1 h
        have hleaves := leaves_of_mem_unmirroredIn hpath
        cases path with
        | nil => exact hleaves.elim
        | cons next path => exact hleaves
      · next hname =>
          rw [List.mem_singleton.1 h]
          exact not_or.1 hname

theorem leaves_of_mem_unmirroredIn : ∀ {form : Form} {fields : List Field} {path : List String},
    path ∈ form.unmirroredIn fields → form.Leaves path
  | form, f :: rest, path, h => by
      rw [unmirroredIn] at h
      rcases List.mem_append.1 h with h | h
      · exact leaves_of_mem_unmirrored h
      · exact leaves_of_mem_unmirroredIn h
end

/-- Whatever the store shows outside the forms is null. -/
theorem Shown.eq_null {form : Form} {raw answer : Json} {type : String} {fields : List Field}
    {path : List String} (h : Shown raw type fields path answer) (hfits : Fits form raw)
    (hleaves : form.Leaves path) : answer = .null := by
  induction h generalizing form with
  | here selected => exact hfits.fieldValue_eq_null hleaves.1 hleaves.2 _
  | @inside raw item answer type fields f path selected found shown ih =>
      have hitem : Fits (form.child f.name) item := by
        rcases found with hfound | ⟨items, hfound, hitem⟩
        · exact hfits.get? hfound
        · exact (hfits.get? hfound).item hitem
      cases path with
      | nil => cases shown
      | cons next path => exact ih hitem hleaves

end Form

/-- The form of a listing's answer. -/
def Listing.form (kind : EntityKind) (l : Listing) : Form :=
  match l.shape with
  | .list => .entity kind
  | .connection => .page kind

/-- A listing shows objects of its form: the entities of a list, or one page. -/
theorem Catalogue.Cut.exists_fits {α : Type} {kind : EntityKind} {toJson : α → Json}
    (hfits : ∀ a, Form.Fits (.entity kind) (toJson a)) (c : Cut α)
    (entityType pageType : String) (fields : List Field) :
    ∃ raws type, (∀ raw ∈ raws, Form.Fits (c.listing.form kind) raw) ∧
      (c.show entityType pageType toJson fields =
          .arr (raws.map fun raw => Projection.project raw fields type) ∨
        ∃ raw, raws = [raw] ∧
          c.show entityType pageType toJson fields = Projection.project raw fields type) := by
  have heach : ∀ raw ∈ c.entities.map toJson, Form.Fits (.entity kind) raw := by
    intro raw hraw
    obtain ⟨a, -, rfl⟩ := List.mem_map.1 hraw
    exact hfits a
  cases hshape : c.listing.shape with
  | list =>
      refine ⟨c.entities.map toJson, entityType, ?_, .inl ?_⟩
      · rw [Listing.form, hshape]
        exact heach
      · simp [Cut.show, hshape]
  | connection =>
      refine ⟨[Paging.page (c.entities.map toJson) c.window c.total], pageType, ?_,
        .inr ⟨_, rfl, ?_⟩⟩
      · rw [Listing.form, hshape]
        exact List.forall_mem_singleton.2 (Form.fits_page heach c.window c.total)
      · simp [Cut.show, hshape]

/-- Whatever an answer of the store shows outside the forms is null. -/
theorem Store.unmirrored_null_of_respond {s : Store} {kind : EntityKind} {name : String}
    {l : Listing} {args : Json.Object} {fields : List Field} {value : Json}
    (hlisted : kind.listing? name = some l)
    (hrespond : s.respond kind name args fields = .ok value) :
    ∃ raws type,
      (value = .arr (raws.map fun raw => Projection.project raw fields type) ∨
        ∃ raw, raws = [raw] ∧ value = Projection.project raw fields type) ∧
      ∀ raw ∈ raws, ∀ path ∈ (l.form kind).unmirroredIn fields, ∀ answer,
        Form.Shown raw type fields path answer → answer = .null := by
  have hshown {α F K : Type} {c : Catalogue α F K} {entities : List α}
      (hfits : ∀ a, Form.Fits (.entity kind) (c.toJson a)) (hl : c.listing? name = some l)
      (h : c.respond entities name args fields = .ok value) :
      ∃ raws type, (∀ raw ∈ raws, Form.Fits (l.form kind) raw) ∧
        (value = .arr (raws.map fun raw => Projection.project raw fields type) ∨
          ∃ raw, raws = [raw] ∧ value = Projection.project raw fields type) := by
    rw [Catalogue.respond_eq] at h
    obtain ⟨cut, hcut, rfl⟩ := Outcome.map_eq_ok_iff.1 h
    obtain rfl : cut.listing = l :=
      Option.some.inj ((Catalogue.listing?_of_cut hcut).symm.trans hl)
    exact cut.exists_fits hfits _ _ fields
  have hraws : ∃ raws type, (∀ raw ∈ raws, Form.Fits (l.form kind) raw) ∧
      (value = .arr (raws.map fun raw => Projection.project raw fields type) ∨
        ∃ raw, raws = [raw] ∧ value = Projection.project raw fields type) := by
    cases kind with
    | pair => exact hshown Form.fits_pair hlisted hrespond
    | token => exact hshown Form.fits_token hlisted hrespond
  obtain ⟨raws, type, hfits, hvalue⟩ := hraws
  refine ⟨raws, type, hvalue, fun raw hraw path hpath answer hanswer => ?_⟩
  exact hanswer.eq_null (hfits raw hraw) (Form.leaves_of_mem_unmirroredIn hpath)

end DexCache
