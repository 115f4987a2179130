import DexCache.Proofs.Json.Objects
import DexCache.Query.Argument

/-!
# Arguments depend on the variables used

Two supplies that agree on the variables of a literal give it one value.  So nothing is lost
for a field if values that it does not use are left out.
-/

namespace DexCache.Query

variable {supplied supplied' : Json.Object}

namespace Literal

mutual
theorem toJson_congr : ∀ {l : Literal},
    (∀ name ∈ l.variableNames, supplied.get? name = supplied'.get? name) →
    toJson supplied l = toJson supplied' l
  | .list items, h => by
      rw [toJson, toJson, itemsToJson_congr h]
  | .object fields, h => by
      rw [toJson, toJson, fieldsToJson_congr h]
  | .var name, h => by
      rw [toJson, toJson, h name (List.mem_singleton_self name)]
  | .null, _ => rfl
  | .bool _, _ => rfl
  | .int _, _ => rfl
  | .float _, _ => rfl
  | .str _, _ => rfl
  | .enumValue _, _ => rfl

theorem itemsToJson_congr : ∀ {items : List Literal},
    (∀ name ∈ itemVariables items, supplied.get? name = supplied'.get? name) →
    itemsToJson supplied items = itemsToJson supplied' items
  | [], _ => rfl
  | item :: rest, h => by
      have hitem := toJson_congr fun name hname => h name (List.mem_append_left _ hname)
      have hrest := itemsToJson_congr fun name hname => h name (List.mem_append_right _ hname)
      rw [itemsToJson, itemsToJson, hitem, hrest]

theorem fieldsToJson_congr : ∀ {fields : List (String × Literal)} {done : Json.Object},
    (∀ name ∈ fieldVariables fields, supplied.get? name = supplied'.get? name) →
    fieldsToJson supplied done fields = fieldsToJson supplied' done fields
  | [], _, _ => rfl
  | (_, value) :: rest, done, h => by
      have hvalue := toJson_congr fun name hname => h name (List.mem_append_left _ hname)
      have hrest (done : Json.Object) :
          fieldsToJson supplied done rest = fieldsToJson supplied' done rest :=
        fieldsToJson_congr fun name hname => h name (List.mem_append_right _ hname)
      simp only [fieldsToJson, hvalue, hrest]
end

end Literal

namespace Field

/-- Arguments depend on the values of the variables of their field only. -/
theorem argumentsJson_congr {f : Field}
    (h : ∀ name ∈ f.variableNames, supplied.get? name = supplied'.get? name) :
    f.argumentsJson supplied = f.argumentsJson supplied' := by
  obtain ⟨alias?, name, arguments, subfields⟩ := f
  rw [variableNames] at h
  exact Literal.fieldsToJson_congr fun name hname => h name (List.mem_append_left _ hname)

theorem mem_allVariables {fs : List Field} {f : Field} (hf : f ∈ fs) {name : String}
    (hname : name ∈ f.variableNames) : name ∈ allVariables fs := by
  induction fs with
  | nil => cases hf
  | cons g rest ih =>
      rw [allVariables]
      rcases List.mem_cons.1 hf with rfl | hf
      · exact List.mem_append_left _ hname
      · exact List.mem_append_right _ (ih hf)

end Field

end DexCache.Query
