import DexCache.Proofs.Query.Infinite

/-!
# Which literals are kept

A number beyond the greatest double is read as an infinite one.  Its text is no number, and it has
no JSON value but null.  Every other literal that a document can hold is kept on both ways: the text
of its operation is read back, and it becomes a JSON value of its own.
-/

namespace DexCache.Query

namespace Literal

mutual
/-- A test that lists and objects pass is one of all parts. -/
theorem all_iff_part {p : Literal → Bool} (hlist : ∀ items, p (.list items) = true)
    (hobject : ∀ fields, p (.object fields) = true) : ∀ {l : Literal},
    l.all p (fun _ => true) = true ↔ ∀ part : Literal, part.Part l → p part = true
  | .list items => by
      rw [all, allItems_iff_part hlist hobject]
      simp only [part_list_iff, or_imp, forall_and, forall_eq, hlist, true_and]
  | .object fields => by
      rw [all, allFields_iff_part hlist hobject]
      simp only [part_object_iff, or_imp, forall_and, forall_eq, hobject, true_and]
  | .null => by simp [all, part_atom_iff]
  | .bool _ => by simp [all, part_atom_iff]
  | .int _ => by simp [all, part_atom_iff]
  | .float _ => by simp [all, part_atom_iff]
  | .str _ => by simp [all, part_atom_iff]
  | .enumValue _ => by simp [all, part_atom_iff]
  | .var _ => by simp [all, part_atom_iff]

theorem allItems_iff_part {p : Literal → Bool} (hlist : ∀ items, p (.list items) = true)
    (hobject : ∀ fields, p (.object fields) = true) : ∀ {items : List Literal},
    allItems p (fun _ => true) items = true ↔ ∀ part : Literal, part.PartOf items → p part = true
  | [] => by simp [allItems, PartOf]
  | item :: rest => by
      rw [allItems, Bool.and_eq_true, all_iff_part hlist hobject, allItems_iff_part hlist hobject]
      simp only [partOf_cons, or_imp, forall_and]

theorem allFields_iff_part {p : Literal → Bool} (hlist : ∀ items, p (.list items) = true)
    (hobject : ∀ fields, p (.object fields) = true) : ∀ {fields : List (String × Literal)},
    allFields p (fun _ => true) fields = true ↔
      ∀ part : Literal, part.PartOf (fields.map Prod.snd) → p part = true
  | [] => by simp [allFields, PartOf]
  | (_, value) :: rest => by
      rw [allFields, Bool.true_and, Bool.and_eq_true, all_iff_part hlist hobject,
        allFields_iff_part hlist hobject]
      simp only [List.map_cons, partOf_cons, or_imp, forall_and]
end

/-- Is this a boolean, a number, a string or an enum value? -/
def isScalar : Literal → Bool
  | .bool _ | .int _ | .float _ | .str _ | .enumValue _ => true
  | _ => false

/-- Of these only an infinite number becomes null. -/
theorem toJson_eq_null_iff {l : Literal} (hl : l.isScalar = true) (supplied : Json.Object) :
    l.toJson supplied = .ok .null ↔ l.isFinite = false := by
  cases l with
  | float d => cases hd : d.isFinite <;> simp [toJson, isFinite, hd]
  | bool b => simp [toJson, isFinite]
  | int i => simp [toJson, isFinite]
  | str s => simp [toJson, isFinite]
  | enumValue name => simp [toJson, isFinite]
  | null => cases hl
  | list items => cases hl
  | object fields => cases hl
  | var name => cases hl

theorem isScalar_of_not_finite {l : Literal} (hl : l.isFinite = false) : l.isScalar = true := by
  cases l with
  | float d => rfl
  | _ => cases hl

end Literal

namespace Operation

/-- Is this literal in an argument of a field, at any depth, or in a default value? -/
def Holds (op : Operation) (l : Literal) : Prop :=
  (∃ d ∈ op.variableDefinitions, ∃ value ∈ d.default?, l.Part value) ∨
    ∃ f : Field, f.Within op.selections ∧ l.PartOf (f.arguments.map Prod.snd)

theorem finite_iff_holds {op : Operation} :
    op.Finite ↔ ∀ l, op.Holds l → l.isFinite = true := by
  have hpart {l : Literal} : l.all Literal.isFinite (fun _ => true) = true ↔
      ∀ part : Literal, part.Part l → part.isFinite = true :=
    Literal.all_iff_part (fun _ => rfl) fun _ => rfl
  have hfield {f : Field} : f.isFinite = true ↔
      ∀ l : Literal, l.PartOf (f.arguments.map Prod.snd) → l.isFinite = true :=
    Literal.allFields_iff_part (fun _ => rfl) fun _ => rfl
  constructor
  · rintro ⟨hdefinitions, hselections⟩ l (⟨d, hd, value, hvalue, hl⟩ | ⟨f, hf, hl⟩)
    · exact hpart.1 (hdefinitions d hd value hvalue) l hl
    · exact hfield.1 (Field.allOf_iff_within.1 hselections f hf) l hl
  · intro h
    refine ⟨fun d hd value hvalue => hpart.2 fun l hl => ?_,
      Field.allOf_iff_within.2 fun f hf => hfield.2 fun l hl => ?_⟩
    · exact h l (.inl ⟨d, hd, value, hvalue, hl⟩)
    · exact h l (.inr ⟨f, hf, hl⟩)

end Operation

/-- An operation that was read keeps its literals if and only if none of them is an infinite
number: only then is it read back from its text, and only then does no boolean, number, string or
enum value in it become null. -/
theorem literals_kept_iff {document : String} {op : Operation}
    (h : Operation.parse document = .ok op) :
    (Operation.parse op.text = .ok op ↔ ∀ l, op.Holds l → l.isFinite = true) ∧
      ((∀ l, op.Holds l → l.isScalar = true →
          ∀ supplied : Json.Object, l.toJson supplied ≠ .ok .null) ↔
        ∀ l, op.Holds l → l.isFinite = true) := by
  have hspelled := spelled_of_parse h
  constructor
  · rw [← Operation.finite_iff_holds]
    refine ⟨fun hread => ?_, fun hfinite => parse_text (hspelled.writable hfinite)⟩
    rw [Operation.parse, Operation.text, String.toList_ofList] at hread
    split at hread
    · next hdocument =>
        cases hread
        exact Parser.finite_of_document hspelled (.operation op) hdocument
    · cases hread
  · refine forall_congr' fun l => forall_congr' fun _ => ⟨fun hkept => ?_, fun hfinite => ?_⟩
    · rw [← Bool.not_eq_false]
      exact fun hinfinite => hkept (Literal.isScalar_of_not_finite hinfinite) []
        ((Literal.toJson_eq_null_iff (Literal.isScalar_of_not_finite hinfinite) []).2 hinfinite)
    · intro hscalar supplied hnull
      rw [Literal.toJson_eq_null_iff hscalar, hfinite] at hnull
      cases hnull

/-- A limit beyond the greatest double: the text of its operation is read as another one, and the
limit becomes null. -/
theorem literals_kept_iff_of_overflow :
    let op : Operation := { selections := [{
      name := "pairs"
      arguments := [("limit", .float (.infinite false))]
      subfields := [.plain "address"] }] }
    Operation.parse "{ pairs(limit: 1e999) { address } }" = .ok op ∧
      Operation.parse op.text ≠ .ok op ∧
      ∃ l, op.Holds l ∧ l.isScalar = true ∧
        ∃ supplied : Json.Object, l.toJson supplied = .ok .null := by
  intro op
  have hparse : Operation.parse "{ pairs(limit: 1e999) { address } }" = .ok op := by decide +kernel
  obtain ⟨hread, hnull⟩ := literals_kept_iff hparse
  have hholds : op.Holds (.float (.infinite false)) :=
    .inr ⟨_, .top List.mem_cons_self, _, List.mem_cons_self, .self⟩
  have hinfinite : ¬ ∀ l, op.Holds l → l.isFinite = true := fun h => by cases h _ hholds
  refine ⟨hparse, fun h => hinfinite (hread.1 h), ?_⟩
  by_contra hkept
  exact hinfinite (hnull.1 fun l hl hscalar supplied heq => hkept ⟨l, hl, hscalar, supplied, heq⟩)

end DexCache.Query
