import DexCache.Proofs.Interception.Joining
import DexCache.Proofs.Interception.Places
import DexCache.Proofs.Query.Writable
import Mathlib.Tactic.MkIffOfInductiveProp

/-!
# One listing shown twice

A listing finds the same entities whether they are shown as the store holds them or with
their missing fields.  Where a selection names no missing field the two answers are alike;
elsewhere the two halves of a shared answer make up the answer that has the missing fields.

Selections are regular: response keys are distinct, `edges` and `node` stand under their
names, and the identifier stands only where it is asked for.
-/

namespace DexCache

open Json (Alike)
open Projection (answers fieldValue fieldValue_congr fieldValue_edges get?_answers project
  project_of_nodup)
open Query (Field)

/-- Does the selection set of a field claim each response key once? -/
def Query.Field.isDistinct (f : Field) : Bool :=
  decide (f.subfields.map Field.responseKey).Nodup

/-- A selection of a listing that leaves no doubt about its parts. -/
@[mk_iff]
structure Listing.Regular (l : Listing) (f : Field) : Prop where
  distinct : f.all Field.isDistinct = true
  unaliased : l.shape = .connection → ∀ edges ∈ f.subfields, edges.name = "edges" →
    edges.alias? = none ∧
      ∀ node ∈ edges.subfields, node.name = "node" → node.alias? = none
  plain : ∀ g ∈ l.entityFields f, g.name = l.identifierField → g.alias? = none →
    g = .plain l.identifierField
  unhidden : ∀ g ∈ l.entityFields f, g.alias? ≠ some l.identifierField

instance (l : Listing) (f : Field) : Decidable (l.Regular f) :=
  decidable_of_iff' _ (Listing.regular_iff l f)

namespace Query.Field

theorem nodup_of_all {f : Field} (h : f.all isDistinct = true) :
    (f.subfields.map responseKey).Nodup :=
  of_decide_eq_true (all_iff.1 h).1

theorem all_of_mem {p : Field → Bool} {f g : Field} (h : f.all p = true) (hg : g ∈ f.subfields) :
    g.all p = true :=
  allOf_iff.1 (all_iff.1 h).2 g hg

end Query.Field

namespace Listing

open Interception (Hole Selects)

variable {l : Listing} {f : Field}

/-- A page that selects entities has one `edges`, and in it one `node`. -/
theorem Regular.exists_holes (h : l.Regular f) (hshape : l.shape = .connection)
    (hselected : l.entityFields f ≠ []) :
    ∃ edges node, Hole "edges" f.subfields edges ∧ Hole "node" edges.subfields node ∧
      node.subfields = l.entityFields f ∧ node.all Field.isDistinct = true := by
  have hfind {f g : Field} {name : String} (hg : f.subfield? name = some g) :
      g ∈ f.subfields ∧ g.name = name := by
    refine ⟨List.mem_of_find?_eq_some hg, ?_⟩
    simpa using List.find?_some hg
  obtain ⟨edges, node, hedges, hnode, hfields⟩ := exists_node hshape hselected
  obtain ⟨hedgesMem, hedgesName⟩ := hfind hedges
  obtain ⟨hnodeMem, hnodeName⟩ := hfind hnode
  have hdistinct := Field.all_of_mem h.distinct hedgesMem
  refine ⟨edges, node, ?_, ?_, hfields.symm, Field.all_of_mem hdistinct hnodeMem⟩
  · exact ⟨Field.nodup_of_all h.distinct, hedgesMem, hedgesName, fun g hg hname =>
      (h.unaliased hshape g hg hname).1⟩
  · exact ⟨Field.nodup_of_all hdistinct, hnodeMem, hnodeName,
      (h.unaliased hshape edges hedgesMem hedgesName).2⟩

theorem Regular.selects (h : l.Regular f) (hselected : l.entityFields f ≠ []) :
    Selects l (l.entityFields f) := by
  refine ⟨?_, h.plain, h.unhidden⟩
  cases hshape : l.shape with
  | list =>
      rw [Listing.entityFields, hshape]
      exact Field.nodup_of_all h.distinct
  | connection =>
      obtain ⟨_, node, -, -, hfields, hdistinct⟩ := h.exists_holes hshape hselected
      exact hfields ▸ Field.nodup_of_all hdistinct

end Listing

namespace Paging

variable {α : Type}

/-- Numbering the nodes of a page does not change their names. -/
theorem map_zipIdx {β : Type} (nodes : List α) (name : α → β) :
    nodes.zipIdx.map (fun n => name n.1) = nodes.map name := by
  have hmap : nodes.zipIdx.map (fun n => name n.1) = (nodes.zipIdx.map Prod.fst).map name :=
    List.map_map.symm
  rw [hmap, List.zipIdx_map_fst]

/-- What is beside the edges of a page does not depend on how the nodes are shown. -/
theorem page_congr (nodes : List α) (make make' : α → Json) (w : Window) (total : Nat)
    {key : String} (hkey : key ≠ "edges") :
    (page (nodes.map make) w total).get? key = (page (nodes.map make') w total).get? key := by
  let edges (make : α → Json) : List Json :=
    (nodes.map make).mapIdx fun i node => edge (w.offset + i) node
  have hcursors (make : α → Json) : (edges make).map (fun e => edgeCursor (some e)) =
      nodes.zipIdx.map fun n => .str (cursor (w.offset + n.2)) := by
    unfold edges
    rw [List.mapIdx_eq_zipIdx_map, List.zipIdx_map, List.map_map, List.map_map]
    rfl
  have hcursor (e : Option Json) :
      edgeCursor e = (e.map fun e => edgeCursor (some e)).getD .null := by
    cases e <;> rfl
  -- the cursors of the first and the last edge depend on positions only
  have hhead : edgeCursor (edges make).head? = edgeCursor (edges make').head? := by
    rw [hcursor, hcursor (edges make').head?, ← List.head?_map, ← List.head?_map, hcursors,
      hcursors]
  have hlast : edgeCursor (edges make).getLast? = edgeCursor (edges make').getLast? := by
    rw [hcursor, hcursor (edges make').getLast?, ← List.getLast?_map, ← List.getLast?_map,
      hcursors, hcursors]
  simp only [page, Json.get?, Json.Object.get?, Ne.symm hkey, if_false]
  rw [hhead, hlast]

end Paging

namespace Interception

/-- Raw values that differ in a way that no answer at the hole shows have one answer. -/
theorem Hole.alike_project {name : String} {fields : List Field} {hole : Field}
    (h : Hole name fields hole) {raw raw' : Json} {type : String}
    (hagree : ∀ other, other ≠ name → raw.get? other = raw'.get? other)
    (halike : Alike (fieldValue raw type hole) (fieldValue raw' type hole)) :
    Alike (project raw fields type) (project raw' fields type) := by
  have hvalue := get?_answers h.distinct h.mem raw type
  rw [h.responseKey_of_name h.mem h.named] at hvalue
  have hkeys : (answers raw type fields).keys.Nodup := by
    rw [Projection.keys_answers]
    exact h.distinct
  rw [project_of_nodup h.distinct raw]
  exact h.alike hkeys hagree hvalue halike fun _ _ => rfl

/-- Without missing fields an entity is shown the same. -/
theorem Shows.project_eq {l : Listing} {fields : List Field} {raw raw' : Json} {name : String}
    (hs : Shows l fields raw raw' name) (hdistinct : (fields.map Field.responseKey).Nodup)
    (hheld : ∀ g ∈ fields, l.isMissing g.name = false) (type : String) :
    project raw fields type = project raw' fields type := by
  rw [project_of_nodup hdistinct, project_of_nodup hdistinct]
  refine congrArg Json.obj (List.map_congr_left fun g hg => ?_)
  rw [fieldValue_congr type (hs.agree g hg (hheld g hg))]

section Cut

variable {α : Type} {found : Catalogue.Cut α} {f : Field} {raw raw' : α → Json}
  {name : α → String}

/-- Where no missing field is selected both answers are alike. -/
theorem alike_show_held (h : found.listing.Regular f)
    (hselected : found.listing.entityFields f ≠ [])
    (hheld : ∀ g ∈ found.listing.entityFields f, found.listing.isMissing g.name = false)
    (hs : ∀ e ∈ found.entities,
      Shows found.listing (found.listing.entityFields f) (raw e) (raw' e) (name e))
    (entityType pageType : String) :
    Alike (found.show entityType pageType raw f.subfields)
      (found.show entityType pageType raw' f.subfields) := by
  have hdistinct := (h.selects hselected).distinct
  unfold Catalogue.Cut.show
  cases hshape : found.listing.shape with
  | list =>
      have hfields : found.listing.entityFields f = f.subfields := by
        rw [Listing.entityFields, hshape]
      rw [hfields] at hdistinct hheld hs
      refine .arr (List.forall₂_map_left_iff.2 (List.forall₂_map_right_iff.2 ?_))
      refine List.forall₂_same.2 fun e he => ?_
      rw [(hs e he).project_eq hdistinct hheld]
      exact .refl _
  | connection =>
      obtain ⟨edges, node, hedges, hnode, hfields, -⟩ := h.exists_holes hshape hselected
      refine hedges.alike_project (fun _ => Paging.page_congr _ _ _ _ _) ?_
      rw [fieldValue_edges edges hedges.named (List.ne_nil_of_mem hnode.mem)
          (Paging.page_edges _ raw _ _),
        fieldValue_edges edges hedges.named (List.ne_nil_of_mem hnode.mem)
          (Paging.page_edges _ raw' _ _)]
      refine .arr (List.forall₂_map_left_iff.2 (List.forall₂_map_right_iff.2 ?_))
      refine List.forall₂_same.2 fun n hn => hnode.alike_project ?_ ?_
      · intro other hother
        simp [Paging.edge, Json.get?, Json.Object.get?, Ne.symm hother]
      · have hshown := hs n.1 (List.fst_mem_of_mem_zipIdx hn)
        rw [fieldValue_node node hnode.named (hfields ▸ hselected) hshown.here,
          fieldValue_node node hnode.named (hfields ▸ hselected) hshown.there, hfields,
          hshown.project_eq hdistinct hheld]
        exact .refl _

/-- The two halves of an answer make up the answer with the missing fields. -/
theorem alike_show_shared (h : found.listing.Regular f)
    (hselected : found.listing.entityFields f ≠ [])
    (hname : found.listing.identifierField ≠ Projection.typenameField)
    (hs : ∀ e ∈ found.entities,
      Shows found.listing (found.listing.entityFields f) (raw e) (raw' e) (name e))
    (hnames : (found.entities.map name).Nodup) (entityType pageType : String) :
    Alike (merge found.listing (forces found.listing (found.listing.entityFields f))
        (found.show entityType pageType raw' (found.listing.withEntityFields f
          (sentFields found.listing (found.listing.entityFields f))).subfields)
        (found.show entityType pageType raw (localSelection found.listing f
          (hereFields found.listing (found.listing.entityFields f)))))
      (found.show entityType pageType raw' f.subfields) := by
  have hselects := h.selects hselected
  unfold Catalogue.Cut.show Listing.withEntityFields localSelection
  cases hshape : found.listing.shape with
  | list =>
      have hfields : found.listing.entityFields f = f.subfields := by
        rw [Listing.entityFields, hshape]
      rw [hfields] at hselects hs ⊢
      exact alike_merge_list hshape hselects hname hs hnames entityType
  | connection =>
      obtain ⟨edges, node, hedges, hnode, hfields, -⟩ := h.exists_holes hshape hselected
      rw [← Paging.map_zipIdx] at hnames
      exact alike_merge_connection hshape hedges hnode hfields hselected hselects hname
        (fun n hn => hs n.1 (List.fst_mem_of_mem_zipIdx hn)) hnames
        (Paging.page_edges _ raw _ _) (Paging.page_edges _ raw' _ _)
        (fun _ => Paging.page_congr _ _ _ _ _) pageType

end Cut

end Interception

end DexCache
