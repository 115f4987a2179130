import DexCache.Entity.Pair
import DexCache.Proofs.Json.Objects
import DexCache.Store.Collection
import Mathlib.Data.List.Forall2

/-!
# Entities as their parts

Beside its identifier an entity is one part for each group, as a patch of the group would
write it.  A field of an entity shows the part of its own group and nothing else, so two
entities with the same part there look the same under the field.

Two collections agree at a time if they hold the same identifiers in the same order, written
at the same times, and their entities differ at most in parts that are stale then.  The
groups given beside are excepted from that: in them the entities do not differ at all.
-/

namespace DexCache

open Json (Object)

/-- Entities that are an identifier and one part for each group. -/
class Parted (α : Type) (G P : outParam Type) [FieldGroup G] [Entity α G P] where
  /-- The field that shows the identifier. -/
  identifier : String
  /-- The groups in the order of their fields. -/
  order : List G
  part : G → α → P
  entries : P → Object
  part_applyPatch_self : ∀ p a, part (Entity.groupOf α p) (Entity.applyPatch p a) = p
  part_applyPatch_of_ne : ∀ p a g, g ≠ Entity.groupOf α p →
    part g (Entity.applyPatch p a) = part g a
  groupOf_part : ∀ g a, Entity.groupOf α (part g a) = g
  keys_entries : ∀ p, (entries p).keys = FieldGroup.fields (Entity.groupOf α p)
  toJson_eq : ∀ a, Entity.toJson a =
    .obj ((identifier, .str (Entity.id a)) :: order.flatMap fun g => entries (part g a))
  ofField?_of_mem : ∀ (g : G), ∀ name ∈ FieldGroup.fields g,
    FieldGroup.ofField? name = some g

instance : Parted Pair PairGroup PairPatch where
  identifier := "address"
  order := [.tokensAndFarms, .info, .prices, .analytics]
  part
    | .tokensAndFarms, p => .tokensAndFarms p.tokens
    | .info, p => .info p.info
    | .prices, p => .prices p.prices
    | .analytics, p => .analytics p.analytics
  entries
    | .tokensAndFarms value => value.entries
    | .info value => value.entries
    | .prices value => value.entries
    | .analytics value => value.entries
  part_applyPatch_self p _ := by cases p <;> rfl
  part_applyPatch_of_ne p _ g h := by cases p <;> cases g <;> first | rfl | exact absurd rfl h
  groupOf_part g _ := by cases g <;> rfl
  keys_entries p := by cases p <;> rfl
  toJson_eq _ := by
    simp only [List.flatMap_cons, List.flatMap_nil, List.append_nil, ← List.append_assoc]
    rfl
  ofField?_of_mem g := by cases g <;> decide

instance : Parted Token TokenGroup TokenPatch where
  identifier := "identifier"
  order := [.metadata, .prices, .analytics]
  part
    | .metadata, t => .metadata t.metadata
    | .prices, t => .prices t.prices
    | .analytics, t => .analytics t.analytics
  entries
    | .metadata value => value.entries
    | .prices value => value.entries
    | .analytics value => value.entries
  part_applyPatch_self p _ := by cases p <;> rfl
  part_applyPatch_of_ne p _ g h := by cases p <;> cases g <;> first | rfl | exact absurd rfl h
  groupOf_part g _ := by cases g <;> rfl
  keys_entries p := by cases p <;> rfl
  toJson_eq _ := by
    simp only [List.flatMap_cons, List.flatMap_nil, List.append_nil, ← List.append_assoc]
    rfl
  ofField?_of_mem g := by cases g <;> decide

variable {α G P : Type} [FieldGroup G] [Entity α G P] [Parted α G P]

/-- Have two entities one identifier and the same parts in some groups? -/
structure SameIn (groups : List G) (a b : α) : Prop where
  id : Entity.id a = Entity.id b
  part : ∀ g ∈ groups, Parted.part g a = Parted.part g b

theorem SameIn.mono {groups fewer : List G} {a b : α} (h : SameIn groups a b)
    (hsub : fewer ⊆ groups) : SameIn fewer a b :=
  ⟨h.id, fun g hg => h.part g (hsub hg)⟩

/-- A field shows the part of its group only. -/
theorem get?_toJson_congr {name : String} {a b : α}
    (h : SameIn (FieldGroup.ofField? (G := G) name).toList a b) :
    (Entity.toJson a).get? name = (Entity.toJson b).get? name := by
  have hpart (g : G) : (Parted.entries α (Parted.part g a)).get? name =
      (Parted.entries α (Parted.part g b)).get? name := by
    by_cases hname : name ∈ FieldGroup.fields g
    · have hgroup := Parted.ofField?_of_mem (α := α) g name hname
      rw [h.part g (by simp [hgroup])]
    -- neither part has an entry of this name
    · have hnone (c : α) : (Parted.entries α (Parted.part g c)).get? name = none := by
        rw [Object.get?_eq_none_iff, Parted.keys_entries, Parted.groupOf_part]
        exact hname
      rw [hnone, hnone]
  have hparts (gs : List G) :
      Object.get? (gs.flatMap fun g => Parted.entries α (Parted.part g a)) name =
        Object.get? (gs.flatMap fun g => Parted.entries α (Parted.part g b)) name := by
    induction gs with
    | nil => rfl
    | cons g gs ih =>
        rw [List.flatMap_cons, List.flatMap_cons, Object.get?_append, Object.get?_append, hpart, ih]
  rw [Parted.toJson_eq, Parted.toJson_eq, h.id, Json.get?, Json.get?, Object.get?, Object.get?,
    hparts]

theorem get?_identifier (a : α) :
    (Entity.toJson a).get? (Parted.identifier α) = some (.str (Entity.id a)) := by
  simp [Parted.toJson_eq, Json.get?, Object.get?]

/-- Entities that have all parts in common look the same. -/
theorem toJson_congr {a b : α} (h : SameIn (FieldGroup.all : List G) a b) :
    Entity.toJson a = Entity.toJson b := by
  have hparts (g : G) : Parted.part g a = Parted.part g b := h.part g (FieldGroup.mem_all g)
  simp only [Parted.toJson_eq, h.id, hparts]

/-- Do two collections differ at most in the parts of entities that are stale at a time, and
in `groups` not at all? -/
structure Collection.Agree [DecidableEq G] (c c' : Collection α G) (now : Int)
    (groups : List G) : Prop where
  thresholds : c.thresholds = c'.thresholds
  entries : List.Forall₂ (fun e e' => Entity.id e.snapshot = Entity.id e'.snapshot ∧
    ∀ g, e.stamps.at? g = e'.stamps.at? g ∧
      (c.groupFresh e now g = true ∨ g ∈ groups →
        Parted.part g e.snapshot = Parted.part g e'.snapshot)) c.entries c'.entries

/-- In groups that are fresh everywhere collections that agree are the same. -/
theorem Collection.Agree.same [DecidableEq G] {c c' : Collection α G} {now : Int}
    {groups fresh : List G} (h : c.Agree c' now groups) (hfresh : c.allFresh fresh now = true) :
    List.Forall₂ (SameIn (fresh ++ groups)) c.all c'.all := by
  rw [Collection.all, Collection.all, List.forall₂_map_left_iff, List.forall₂_map_right_iff]
  have hentry : ∀ e ∈ c.entries, ∀ g ∈ fresh, c.groupFresh e now g = true := by
    simpa only [Collection.allFresh, Collection.entryFresh, List.all_eq_true] using hfresh
  refine ((List.forall₂_and_left _ _).2 ⟨hentry, h.entries⟩).imp ?_
  rintro e e' ⟨hgroups, hid, hparts⟩
  refine ⟨hid, fun g hg => (hparts g).2 ?_⟩
  exact (List.mem_append.1 hg).imp_left (hgroups g)

end DexCache
