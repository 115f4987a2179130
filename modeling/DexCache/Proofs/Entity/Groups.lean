import DexCache.Proofs.Store.Parts

/-!
# The fields of a group are the fields that its patches write

The groups of an entity are given three times: the table that finds the group of a field by name,
the patch that replaces the data of a group, and the entries under which an entity shows its data.
They agree.  A patch settles what an entity shows under the fields of its group and leaves all
other fields as they are; and the fields of the groups, together with the identifier, are all that
an entity shows.
-/

namespace DexCache

open Json (Object)

/-- Do the table of groups, the patches and the shown fields of a kind of entities agree? -/
structure GroupsAgree (α : Type) {G P : Type} [FieldGroup G] [Entity α G P]
    (identifier : String) : Prop where
  /-- A patch changes no field outside its group, identifier and unknown names included. -/
  others : ∀ (p : P) (a : α) (field : String),
    FieldGroup.ofField? field ≠ some (Entity.groupOf α p) →
      (Entity.toJson (Entity.applyPatch p a)).get? field = (Entity.toJson a).get? field
  /-- Every field of its group is there, with a value that the patch alone settles. -/
  own : ∀ (p : P) (field : String), FieldGroup.ofField? field = some (Entity.groupOf α p) →
    ∃ value, ∀ a : α, (Entity.toJson (Entity.applyPatch p a)).get? field = some value
  /-- Shown are the identifier and the fields that have a group, each once. -/
  keys : ∀ a : α, ∃ entries : Object, Entity.toJson a = .obj entries ∧ entries.keys.Nodup ∧
    ∀ field, field ∈ entries.keys ∧ field ≠ identifier ↔
      ∃ g : G, FieldGroup.ofField? field = some g
  shown : ∀ a : α, (Entity.toJson a).get? identifier = some (.str (Entity.id a))
  kept : ∀ (p : P) (a : α), Entity.id (Entity.applyPatch p a) = Entity.id a

section Kinds

variable {α G P : Type} [FieldGroup G] [Entity α G P] [Parted α G P]

theorem mem_fields_of_ofField? {field : String} {g : G} (h : FieldGroup.ofField? field = some g) :
    field ∈ FieldGroup.fields g := by
  simpa using List.find?_some h

theorem get?_entries_of_ne {field : String} {g h : G} (hfield : FieldGroup.ofField? field = some g)
    (hne : h ≠ g) (a : α) : (Parted.entries α (Parted.part h a)).get? field = none := by
  rw [Object.get?_eq_none_iff, Parted.keys_entries, Parted.groupOf_part]
  intro hmem
  have hgroup := Parted.ofField?_of_mem (α := α) h field hmem
  exact hne (Option.some.inj (hgroup.symm.trans hfield))

/-- Under a field of a group the part of this group is shown. -/
theorem get?_toJson_of_ofField? {field : String} {g : G}
    (hfield : FieldGroup.ofField? field = some g) (hne : field ≠ Parted.identifier α)
    (hg : g ∈ Parted.order (α := α)) (a : α) :
    (Entity.toJson a).get? field = (Parted.entries α (Parted.part g a)).get? field := by
  have hparts (gs : List G) (hmem : g ∈ gs) :
      Object.get? (gs.flatMap fun g => Parted.entries α (Parted.part g a)) field =
        (Parted.entries α (Parted.part g a)).get? field := by
    induction gs with
    | nil => cases hmem
    | cons h gs ih =>
        rw [List.flatMap_cons, Object.get?_append]
        by_cases heq : h = g
        -- the first part of this group has the field, and so it alone is seen
        · have hkey : field ∈ (Parted.entries α (Parted.part g a)).keys := by
            rw [Parted.keys_entries, Parted.groupOf_part]
            exact mem_fields_of_ofField? hfield
          obtain ⟨value, hvalue⟩ := Object.mem_keys_iff.1 hkey
          rw [heq, hvalue, Option.some_or]
        · rw [get?_entries_of_ne hfield heq, Option.none_or]
          exact ih ((List.mem_cons.1 hmem).resolve_left (Ne.symm heq))
  rw [Parted.toJson_eq, Json.get?, Object.get?, if_neg (Ne.symm hne), hparts _ hg]

/-- Outside its group a patch changes nothing that is shown. -/
theorem get?_toJson_applyPatch_of_ne {p : P} {field : String}
    (h : FieldGroup.ofField? field ≠ some (Entity.groupOf α p)) (a : α) :
    (Entity.toJson (Entity.applyPatch p a)).get? field = (Entity.toJson a).get? field := by
  refine get?_toJson_congr ⟨Entity.id_applyPatch p a, fun g hg => ?_⟩
  refine Parted.part_applyPatch_of_ne p a g fun heq => h ?_
  rw [← heq]
  exact Option.mem_toList.1 hg

variable (α) in
/-- The keys of an entity: its identifier and the fields of its groups. -/
theorem keys_toJson (a : α) : ∃ entries : Object, Entity.toJson a = .obj entries ∧
    entries.keys = Parted.identifier α :: (Parted.order (α := α)).flatMap FieldGroup.fields := by
  refine ⟨_, Parted.toJson_eq a, ?_⟩
  have hkeys (g : G) : (Parted.entries α (Parted.part g a)).keys = FieldGroup.fields g := by
    rw [Parted.keys_entries, Parted.groupOf_part]
  simp only [Object.keys, List.map_cons, List.map_flatMap]
  exact congrArg _ (List.flatMap_congr fun g _ => hkeys g)

/-- The three agree wherever the identifier is in no group, all groups are shown and no name is
shown twice. -/
theorem GroupsAgree.of_order
    (hidentifier : FieldGroup.ofField? (G := G) (Parted.identifier α) = none)
    (horder : ∀ g : G, g ∈ Parted.order (α := α))
    (hnodup : (Parted.identifier α ::
      (Parted.order (α := α)).flatMap FieldGroup.fields).Nodup) :
    GroupsAgree α (Parted.identifier α) where
  others p a _ h := get?_toJson_applyPatch_of_ne h a
  own p field h := by
    have hne : field ≠ Parted.identifier α := by
      rintro rfl
      rw [hidentifier] at h
      cases h
    have hkey : field ∈ (Parted.entries α p).keys := by
      rw [Parted.keys_entries]
      exact mem_fields_of_ofField? h
    obtain ⟨value, hvalue⟩ := Object.mem_keys_iff.1 hkey
    refine ⟨value, fun a => ?_⟩
    rw [get?_toJson_of_ofField? h hne (horder _), Parted.part_applyPatch_self, hvalue]
  keys a := by
    obtain ⟨entries, hentries, hkeys⟩ := keys_toJson α a
    refine ⟨entries, hentries, hkeys ▸ hnodup, fun field => ?_⟩
    rw [hkeys, List.mem_cons, List.mem_flatMap]
    constructor
    · rintro ⟨hmem, hne⟩
      obtain ⟨g, -, hg⟩ := hmem.resolve_left hne
      exact ⟨g, Parted.ofField?_of_mem (α := α) g field hg⟩
    · rintro ⟨g, hg⟩
      refine ⟨.inr ⟨g, horder g, mem_fields_of_ofField? hg⟩, ?_⟩
      rintro rfl
      rw [hidentifier] at hg
      cases hg
  shown := get?_identifier
  kept := Entity.id_applyPatch

end Kinds

/-- For pairs and for tokens, the table of groups, the patches and the shown fields agree. -/
theorem groups_agree : GroupsAgree Pair "address" ∧ GroupsAgree Token "identifier" :=
  ⟨.of_order (by decide) (fun g => by cases g <;> decide) (by decide),
    .of_order (by decide) (fun g => by cases g <;> decide) (by decide)⟩

end DexCache
