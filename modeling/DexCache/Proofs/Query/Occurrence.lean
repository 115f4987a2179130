import DexCache.Proofs.Query.Variables
import DexCache.Proofs.Query.Writable

/-!
# What occurs in an operation

The parts of a literal, the fields at any depth of a selection set, and the variables used there.
Each is given by rules first; the lists of names that the traversals collect, and the tests that
they make, are then shown to be about exactly these.  An argument that uses a variable without a
value is what keeps a field from having its arguments.
-/

namespace DexCache.Query

variable {supplied : Json.Object}

namespace Literal

/-- The literals that a literal is made of, itself included. -/
inductive Part (part : Literal) : Literal → Prop
  | self : Part part part
  | item {l : Literal} {items : List Literal} (hl : l ∈ items) (h : Part part l) :
      Part part (.list items)
  | field {name : String} {l : Literal} {fields : List (String × Literal)}
      (hl : (name, l) ∈ fields) (h : Part part l) : Part part (.object fields)

/-- Is a literal part of one of these? -/
def PartOf (part : Literal) (ls : List Literal) : Prop := ∃ l ∈ ls, part.Part l

theorem partOf_cons {part l : Literal} {ls : List Literal} :
    part.PartOf (l :: ls) ↔ part.Part l ∨ part.PartOf ls := by
  simp [PartOf]

theorem part_list_iff {part : Literal} {items : List Literal} :
    part.Part (.list items) ↔ part = .list items ∨ part.PartOf items := by
  constructor
  · rintro (_ | ⟨hl, h⟩)
    · exact .inl rfl
    · exact .inr ⟨_, hl, h⟩
  · rintro (rfl | ⟨l, hl, h⟩)
    · exact .self
    · exact .item hl h

theorem part_object_iff {part : Literal} {fields : List (String × Literal)} :
    part.Part (.object fields) ↔ part = .object fields ∨ part.PartOf (fields.map Prod.snd) := by
  constructor
  · rintro (_ | _ | ⟨hl, h⟩)
    · exact .inl rfl
    · exact .inr ⟨_, List.mem_map_of_mem hl, h⟩
  · rintro (rfl | ⟨l, hl, h⟩)
    · exact .self
    · obtain ⟨⟨name, l⟩, hfield, rfl⟩ := List.mem_map.1 hl
      exact .field hfield h

/-- A literal without parts is its only part. -/
theorem part_atom_iff {part l : Literal} (hlist : ∀ items, l ≠ .list items)
    (hobject : ∀ fields, l ≠ .object fields) : part.Part l ↔ part = l := by
  constructor
  · rintro (_ | _ | _)
    · rfl
    · exact absurd rfl (hlist _)
    · exact absurd rfl (hobject _)
  · rintro rfl
    exact .self

mutual
/-- The variables of a literal are its parts that are variables. -/
theorem mem_variableNames_iff {name : String} : ∀ {l : Literal},
    name ∈ l.variableNames ↔ (Literal.var name).Part l
  | .list items => by
      rw [variableNames, mem_itemVariables_iff, part_list_iff]
      simp
  | .object fields => by
      rw [variableNames, mem_fieldVariables_iff, part_object_iff]
      simp
  | .var other => by
      rw [variableNames, List.mem_singleton, part_atom_iff (by simp) (by simp), Literal.var.injEq]
  | .null => iff_of_false List.not_mem_nil fun h => nomatch h
  | .bool _ => iff_of_false List.not_mem_nil fun h => nomatch h
  | .int _ => iff_of_false List.not_mem_nil fun h => nomatch h
  | .float _ => iff_of_false List.not_mem_nil fun h => nomatch h
  | .str _ => iff_of_false List.not_mem_nil fun h => nomatch h
  | .enumValue _ => iff_of_false List.not_mem_nil fun h => nomatch h

theorem mem_itemVariables_iff {name : String} : ∀ {items : List Literal},
    name ∈ itemVariables items ↔ (Literal.var name).PartOf items
  | [] => by simp [itemVariables, PartOf]
  | item :: rest => by
      rw [itemVariables, List.mem_append, mem_variableNames_iff, mem_itemVariables_iff,
        partOf_cons]

theorem mem_fieldVariables_iff {name : String} : ∀ {fields : List (String × Literal)},
    name ∈ fieldVariables fields ↔ (Literal.var name).PartOf (fields.map Prod.snd)
  | [] => by simp [fieldVariables, PartOf]
  | (_, value) :: rest => by
      rw [fieldVariables, List.mem_append, mem_variableNames_iff, mem_fieldVariables_iff,
        List.map_cons, partOf_cons]
end

/-- A step that fails whatever it is given fails a chain as its first step does. -/
theorem exists_bind_error_iff {ε α β : Type} {first : Except ε α} {next : α → Except ε β}
    {p : Prop} (h : ∀ a, (∃ e, next a = .error e) ↔ p) :
    (∃ e, first >>= next = .error e) ↔ (∃ e, first = .error e) ∨ p := by
  cases first with
  | error e => simp [bind, Except.bind]
  | ok a => simpa [bind, Except.bind] using h a

mutual
/-- A literal has no value exactly if it uses a variable that has none. -/
theorem exists_toJson_error_iff : ∀ {l : Literal},
    (∃ e, toJson supplied l = .error e) ↔ ∃ name ∈ l.variableNames, supplied.get? name = none
  | .list items => by
      rw [toJson, variableNames, ← exists_itemsToJson_error_iff]
      cases itemsToJson supplied items <;> simp [Except.map]
  | .object fields => by
      rw [toJson, variableNames, ← exists_fieldsToJson_error_iff []]
      cases fieldsToJson supplied [] fields <;> simp [Except.map]
  | .var name => by
      rw [toJson, variableNames]
      cases h : supplied.get? name <;> simp [h]
  | .null => by simp [toJson, variableNames]
  | .bool _ => by simp [toJson, variableNames]
  | .int _ => by simp [toJson, variableNames]
  | .float _ => by simp [toJson, variableNames]
  | .str _ => by simp [toJson, variableNames]
  | .enumValue _ => by simp [toJson, variableNames]

theorem exists_itemsToJson_error_iff : ∀ {items : List Literal},
    (∃ e, itemsToJson supplied items = .error e) ↔
      ∃ name ∈ itemVariables items, supplied.get? name = none
  | [] => by simp [itemsToJson, itemVariables]
  | item :: rest => by
      have hrest (value : Json) :
          (∃ e, (itemsToJson supplied rest >>= fun more => pure (value :: more)) = .error e) ↔
            ∃ name ∈ itemVariables rest, supplied.get? name = none := by
        rw [← exists_itemsToJson_error_iff]
        cases itemsToJson supplied rest <;> simp [bind, Except.bind, pure, Except.pure]
      rw [itemsToJson, exists_bind_error_iff hrest, exists_toJson_error_iff, itemVariables]
      simp only [List.mem_append, or_and_right, exists_or]

theorem exists_fieldsToJson_error_iff (done : Json.Object) :
    ∀ {fields : List (String × Literal)},
    (∃ e, fieldsToJson supplied done fields = .error e) ↔
      ∃ name ∈ fieldVariables fields, supplied.get? name = none
  | [] => by simp [fieldsToJson, fieldVariables]
  | (name, literal) :: rest => by
      have hrest (value : Json) :
          (∃ e, fieldsToJson supplied (done.insert name value) rest = .error e) ↔
            ∃ name ∈ fieldVariables rest, supplied.get? name = none :=
        exists_fieldsToJson_error_iff _
      rw [fieldsToJson, exists_bind_error_iff hrest, exists_toJson_error_iff, fieldVariables]
      simp only [List.mem_append, or_and_right, exists_or]
end

end Literal

namespace Field

/-- The fields of a selection set, at any depth. -/
inductive Within (f : Field) : List Field → Prop
  | top {fs : List Field} (hf : f ∈ fs) : Within f fs
  | under {fs : List Field} {g : Field} (hg : g ∈ fs) (h : Within f g.subfields) : Within f fs

/-- Is a variable used in the arguments of a field? -/
def Uses (f : Field) (name : String) : Prop := (Literal.var name).PartOf (f.arguments.map Prod.snd)

theorem not_within_nil {f : Field} : ¬ f.Within [] := by
  rintro (hf | ⟨hg, -⟩)
  · cases hf
  · cases hg

theorem within_cons_iff {f g : Field} {fs : List Field} :
    f.Within (g :: fs) ↔ f = g ∨ f.Within g.subfields ∨ f.Within fs := by
  constructor
  · rintro (hf | ⟨hh, hbelow⟩)
    · exact (List.mem_cons.1 hf).imp_right fun hf => .inr (.top hf)
    · rcases List.mem_cons.1 hh with rfl | hh
      · exact .inr (.inl hbelow)
      · exact .inr (.inr (.under hh hbelow))
  · rintro (rfl | hbelow | (hf | ⟨hh, hbelow⟩))
    · exact .top List.mem_cons_self
    · exact .under List.mem_cons_self hbelow
    · exact .top (List.mem_cons_of_mem _ hf)
    · exact .under (List.mem_cons_of_mem _ hh) hbelow

mutual
theorem mem_variableNames_iff {name : String} : ∀ {f : Field},
    name ∈ f.variableNames ↔ f.Uses name ∨ ∃ g : Field, g.Within f.subfields ∧ g.Uses name
  | ⟨_, _, arguments, subfields⟩ => by
      rw [variableNames, List.mem_append, Literal.mem_fieldVariables_iff, mem_allVariables_iff]
      rfl

/-- The variables of a selection set are those used by its fields, at any depth. -/
theorem mem_allVariables_iff {name : String} : ∀ {fs : List Field},
    name ∈ allVariables fs ↔ ∃ f : Field, f.Within fs ∧ f.Uses name
  | [] => by simp [allVariables, not_within_nil]
  | f :: fs => by
      rw [allVariables, List.mem_append, mem_variableNames_iff, mem_allVariables_iff]
      simp only [within_cons_iff, or_and_right, exists_or, exists_eq_left, or_assoc]
end

mutual
theorem all_iff_within {p : Field → Bool} : ∀ {f : Field},
    f.all p = true ↔ p f = true ∧ ∀ g : Field, g.Within f.subfields → p g = true
  | ⟨_, _, _, subfields⟩ => by
      rw [all, Bool.and_eq_true, allOf_iff_within]

/-- A test of fields below fields is one of all fields, at any depth. -/
theorem allOf_iff_within {p : Field → Bool} : ∀ {fs : List Field},
    allOf p fs = true ↔ ∀ f : Field, f.Within fs → p f = true
  | [] => by simp [allOf, not_within_nil]
  | f :: fs => by
      rw [allOf, Bool.and_eq_true, all_iff_within, allOf_iff_within]
      simp only [within_cons_iff, or_imp, forall_and, forall_eq, and_assoc]
end

/-- A field does not have its arguments exactly if it uses a variable that was not supplied. -/
theorem exists_argumentsJson_error_iff {f : Field} :
    (∃ e, f.argumentsJson supplied = .error e) ↔
      ∃ name, f.Uses name ∧ supplied.get? name = none := by
  rw [argumentsJson, Literal.exists_fieldsToJson_error_iff]
  simp only [Literal.mem_fieldVariables_iff, Uses]

/-- Arguments depend on the values of the variables that the field uses. -/
theorem argumentsJson_congr_of_uses {supplied' : Json.Object} {f : Field}
    (h : ∀ name, f.Uses name → supplied.get? name = supplied'.get? name) :
    f.argumentsJson supplied = f.argumentsJson supplied' :=
  Literal.fieldsToJson_congr fun name hname => h name (Literal.mem_fieldVariables_iff.1 hname)

end Field

namespace Operation

/-- Is a variable used in the selections, at any depth? -/
def References (op : Operation) (name : String) : Prop :=
  ∃ f : Field, f.Within op.selections ∧ f.Uses name

theorem mem_referenced_iff {op : Operation} {name : String} :
    name ∈ op.referenced ↔ op.References name := Field.mem_allVariables_iff

instance (op : Operation) (name : String) : Decidable (op.References name) :=
  decidable_of_iff _ mem_referenced_iff

/-- Is every variable that is used declared? -/
def Closed (op : Operation) : Prop :=
  ∀ name, op.References name → ∃ d ∈ op.variableDefinitions, d.name = name

end Operation

end DexCache.Query
