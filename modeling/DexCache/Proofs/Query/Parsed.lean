import DexCache.Proofs.Query.Printing
import Mathlib.Tactic.MkIffOfInductiveProp

/-!
# Parsed operations can be written

Whatever the parser accepts is spelled in the grammar: names are names, type references are
type references and there is something to select.  With finite numbers it can be written, and
then its text is read as the same operation.
-/

namespace DexCache.Query

/-- Are the names in this field spelled in the grammar? -/
def Field.isSpelled (f : Field) : Bool :=
  f.alias?.all isName && isName f.name &&
    Literal.allFields Literal.isSpelled isName f.arguments

/-- Are the numbers in the arguments of this field finite? -/
def Field.isFinite (f : Field) : Bool :=
  Literal.allFields Literal.isFinite (fun _ => true) f.arguments

/-- An operation without infinite numbers. -/
@[mk_iff]
structure Operation.Finite (op : Operation) : Prop where
  definitions : ∀ d ∈ op.variableDefinitions, ∀ l ∈ d.default?,
    l.all Literal.isFinite (fun _ => true) = true
  selections : Field.allOf Field.isFinite op.selections = true

instance (op : Operation) : Decidable op.Finite :=
  decidable_of_iff' _ (Operation.finite_iff op)

/-- A declaration that is spelled in the grammar. -/
structure VariableDefinition.Spelled (d : VariableDefinition) : Prop where
  name : isName d.name = true
  typeName : TypeText d.typeName.toList
  value : ∀ l ∈ d.default?, l.all Literal.isSpelled isName = true

/-- An operation that is spelled in the grammar. -/
structure Operation.Spelled (op : Operation) : Prop where
  name : ∀ name ∈ op.name, isName name = true
  definitions : ∀ d ∈ op.variableDefinitions, d.Spelled
  selected : op.selections ≠ []
  selections : Field.allOf Field.isSpelled op.selections = true

section Finite

mutual
theorem Literal.all_isWritable : ∀ {l : Literal}, l.all isSpelled isName = true →
    l.all isFinite (fun _ => true) = true → l.all isWritable isName = true
  | .list ls, hs, hf => by
      rw [Literal.all] at hs hf ⊢
      exact Literal.allItems_isWritable hs hf
  | .object fs, hs, hf => by
      rw [Literal.all] at hs hf ⊢
      exact Literal.allFields_isWritable hs hf
  | .null, _, _ => rfl
  | .bool _, _, _ => rfl
  | .int _, _, _ => rfl
  | .float _, hs, hf => Bool.and_eq_true_iff.2 ⟨hs, hf⟩
  | .str _, _, _ => rfl
  | .enumValue _, hs, hf => Bool.and_eq_true_iff.2 ⟨hs, hf⟩
  | .var _, hs, hf => Bool.and_eq_true_iff.2 ⟨hs, hf⟩

theorem Literal.allItems_isWritable : ∀ {ls : List Literal},
    allItems isSpelled isName ls = true → allItems isFinite (fun _ => true) ls = true →
    allItems isWritable isName ls = true
  | [], _, _ => rfl
  | l :: ls, hs, hf => by
      rw [allItems, Bool.and_eq_true] at hs hf ⊢
      exact ⟨Literal.all_isWritable hs.1 hf.1, Literal.allItems_isWritable hs.2 hf.2⟩

theorem Literal.allFields_isWritable : ∀ {fs : List (String × Literal)},
    allFields isSpelled isName fs = true → allFields isFinite (fun _ => true) fs = true →
    allFields isWritable isName fs = true
  | [], _, _ => rfl
  | (name, l) :: fs, hs, hf => by
      simp only [allFields, Bool.and_eq_true, Bool.true_and] at hs hf ⊢
      exact ⟨⟨hs.1.1, Literal.all_isWritable hs.1.2 hf.1⟩,
        Literal.allFields_isWritable hs.2 hf.2⟩
end

mutual
theorem Field.all_isWritable : ∀ {f : Field}, f.all isSpelled = true → f.all isFinite = true →
    f.all isWritable = true
  | ⟨alias?, name, arguments, subfields⟩, hs, hf => by
      simp only [Field.all, isSpelled, isFinite, isWritable, Bool.and_eq_true] at hs hf ⊢
      exact ⟨⟨hs.1.1, Literal.allFields_isWritable hs.1.2 hf.1⟩,
        Field.allOf_isWritable hs.2 hf.2⟩

theorem Field.allOf_isWritable : ∀ {fs : List Field}, allOf isSpelled fs = true →
    allOf isFinite fs = true → allOf isWritable fs = true
  | [], _, _ => rfl
  | f :: fs, hs, hf => by
      rw [allOf, Bool.and_eq_true] at hs hf ⊢
      exact ⟨Field.all_isWritable hs.1 hf.1, Field.allOf_isWritable hs.2 hf.2⟩
end

/-- What is spelled in the grammar and has finite numbers can be written. -/
theorem Operation.Spelled.writable {op : Operation} (hs : op.Spelled) (hf : op.Finite) :
    op.Writable where
  name := hs.name
  definitions d hd := ⟨(hs.definitions d hd).name, (hs.definitions d hd).typeName, fun l hl =>
    Literal.all_isWritable ((hs.definitions d hd).value l hl) (hf.definitions d hd l hl)⟩
  selected := hs.selected
  selections := Field.allOf_isWritable hs.selections hf.selections

end Finite

namespace Parser

variable {cs rest : List Char}

theorem isSpelled_of_number? {l : Literal} (h : number? cs = some (l, rest)) :
    l.all Literal.isSpelled isName = true := by
  unfold number? at h
  split at h
  all_goals
    simp only at h
    split at h
    · cases h
    · -- the sign, and then the choice between an integer and a double
      split at h
      all_goals
        split at h
        all_goals
          cases h
          rfl

mutual
theorem isSpelled_of_value? : ∀ {fuel : Nat} {cs rest : List Char} {l : Literal},
    value? fuel cs = some (l, rest) → l.all Literal.isSpelled isName = true
  | 0, _, _, _, h => by cases h
  | fuel + 1, cs, rest, l, h => by
      unfold value? at h
      split at h
      · obtain ⟨⟨name, more⟩, hname, heq⟩ := Option.map_eq_some_iff.1 h
        cases heq
        exact (isName_of_name? hname).1
      · obtain ⟨⟨s, more⟩, -, heq⟩ := Option.map_eq_some_iff.1 h
        cases heq
        rfl
      · next inner =>
          have hitems := isSpelled_of_items fuel (skipIgnored inner)
          obtain ⟨more, -, heq⟩ := Option.map_eq_some_iff.1 h
          cases heq
          exact hitems
      · next inner =>
          have hfields := isSpelled_of_namedValues fuel (skipIgnored inner)
          obtain ⟨more, -, heq⟩ := Option.map_eq_some_iff.1 h
          cases heq
          exact hfields
      · split at h
        · next hnumber =>
            cases h
            exact isSpelled_of_number? hnumber
        · obtain ⟨⟨name, more⟩, hname, heq⟩ := Option.map_eq_some_iff.1 h
          cases heq
          have hword := (isName_of_name? hname).1
          split
          · rfl
          · split
            · rfl
            · split
              · rfl
              · next htrue hfalse hnull =>
                  simp [Literal.all, Literal.isSpelled, Literal.reserved, hword, htrue, hfalse,
                    hnull]

theorem isSpelled_of_items : ∀ (fuel : Nat) (cs : List Char),
    Literal.allItems Literal.isSpelled isName (items fuel cs).1 = true
  | 0, _ => rfl
  | fuel + 1, cs => by
      rw [items]
      cases hvalue : value? fuel cs with
      | none => rfl
      | some found =>
          rw [Literal.allItems, Bool.and_eq_true]
          exact ⟨isSpelled_of_value? hvalue, isSpelled_of_items fuel _⟩

theorem isSpelled_of_namedValue? : ∀ {fuel : Nat} {cs rest : List Char} {a : String × Literal},
    namedValue? fuel cs = some (a, rest) →
    isName a.1 = true ∧ a.2.all Literal.isSpelled isName = true
  | 0, _, _, _, h => by cases h
  | fuel + 1, cs, rest, a, h => by
      rw [namedValue?] at h
      obtain ⟨⟨name, behind⟩, hname, h⟩ := Option.bind_eq_some_iff.1 h
      obtain ⟨behind', -, h⟩ := Option.bind_eq_some_iff.1 h
      obtain ⟨⟨l, behind''⟩, hvalue, h⟩ := Option.bind_eq_some_iff.1 h
      cases h
      exact ⟨(isName_of_name? hname).1, isSpelled_of_value? hvalue⟩

theorem isSpelled_of_namedValues : ∀ (fuel : Nat) (cs : List Char),
    Literal.allFields Literal.isSpelled isName (namedValues fuel cs).1 = true
  | 0, _ => rfl
  | fuel + 1, cs => by
      rw [namedValues]
      cases hnamed : namedValue? fuel cs with
      | none => rfl
      | some found =>
          obtain ⟨⟨name, l⟩, behind⟩ := found
          have hfound := isSpelled_of_namedValue? hnamed
          simp only [Literal.allFields, Bool.and_eq_true]
          exact ⟨hfound, isSpelled_of_namedValues fuel _⟩
end

theorem isSpelled_of_arguments? {fuel : Nat} {arguments : List (String × Literal)}
    (h : arguments? fuel cs = some (arguments, rest)) :
    Literal.allFields Literal.isSpelled isName arguments = true := by
  unfold arguments? at h
  split at h
  · next inner =>
      have hfields := isSpelled_of_namedValues fuel (skipIgnored inner)
      obtain ⟨more, -, heq⟩ := Option.map_eq_some_iff.1 h
      cases heq
      exact hfields
  · cases h

theorem isName_of_aliased? {name : String} (h : aliased? cs = some (name, rest)) :
    isName name = true := by
  unfold aliased? at h
  split at h
  · exact (isName_of_name? h).1
  · cases h

mutual
theorem isSpelled_of_field? : ∀ {fuel : Nat} {cs rest : List Char} {f : Field},
    field? fuel cs = some (f, rest) → f.all Field.isSpelled = true
  | 0, _, _, _, h => by cases h
  | fuel + 1, cs, rest, f, h => by
      rw [field?] at h
      cases hname : name? cs with
      | none => rw [hname] at h; cases h
      | some found =>
          obtain ⟨first, behind⟩ := found
          rw [hname] at h
          simp only [Option.some.injEq, Prod.mk.injEq] at h
          obtain ⟨rfl, -⟩ := h
          have hfirst := (isName_of_name? hname).1
          generalize haliased : aliased? (skipIgnored behind) = aliased
          simp only [Field.all, Field.isSpelled, Bool.and_eq_true]
          refine ⟨⟨?_, ?_⟩, ?_⟩
          · cases aliased with
            | none => exact ⟨rfl, hfirst⟩
            | some found => exact ⟨hfirst, isName_of_aliased? haliased⟩
          · generalize skipIgnored _ = behind
            cases harguments : arguments? fuel behind with
            | none => rfl
            | some found => exact isSpelled_of_arguments? harguments
          · generalize skipIgnored _ = behind
            cases hset : selectionSet fuel behind with
            | error => rfl
            | ok found => exact (isSpelled_of_selectionSet hset).2

theorem isSpelled_of_fields : ∀ (fuel : Nat) (cs : List Char),
    Field.allOf Field.isSpelled (fields fuel cs).1 = true
  | 0, _ => rfl
  | fuel + 1, cs => by
      rw [fields]
      cases hfield : field? fuel cs with
      | none => rfl
      | some found =>
          rw [Field.allOf, Bool.and_eq_true]
          exact ⟨isSpelled_of_field? hfield, isSpelled_of_fields fuel _⟩

theorem isSpelled_of_selectionSet : ∀ {fuel : Nat} {cs rest : List Char} {fs : List Field},
    selectionSet fuel cs = .ok (fs, rest) → fs ≠ [] ∧ Field.allOf Field.isSpelled fs = true
  | 0, _, _, _, h => by cases h
  | fuel + 1, cs, rest, fs, h => by
      unfold selectionSet at h
      split at h
      · next inner =>
          have hfields := isSpelled_of_fields fuel (skipIgnored inner)
          split at h
          · cases h
          · next hnonempty hread =>
              cases h
              rw [hread] at hfields
              exact ⟨hnonempty, hfields⟩
          · cases h
      · cases h
end

theorem spelled_of_definition? {fuel : Nat} {d : VariableDefinition}
    (h : definition? fuel cs = some (d, rest)) : d.Spelled := by
  unfold definition? at h
  split at h
  · obtain ⟨⟨name, behind⟩, hname, h⟩ := Option.bind_eq_some_iff.1 h
    obtain ⟨behind', -, h⟩ := Option.bind_eq_some_iff.1 h
    obtain ⟨⟨typeName, behind''⟩, htype, h⟩ := Option.bind_eq_some_iff.1 h
    have hspelled := (isName_of_name? hname).1
    have htext := typeText_of_typeRef? htype
    simp only at h
    split at h
    · next value more hvalue =>
        cases h
        refine ⟨hspelled, htext, ?_⟩
        intro l hl
        rw [← Option.some.inj hl]
        split at hvalue
        · exact isSpelled_of_value? hvalue
        · cases hvalue
    · cases h
      exact ⟨hspelled, htext, fun l hl => by cases hl⟩
  · cases h

theorem spelled_of_definitions (fuel : Nat) (cs : List Char) :
    ∀ d ∈ (definitions fuel cs).1, d.Spelled := by
  induction fuel generalizing cs with
  | zero => simp [definitions]
  | succ fuel ih =>
      rw [definitions]
      cases hdefinition : definition? fuel cs with
      | none => simp
      | some found =>
          obtain ⟨d, behind⟩ := found
          intro e he
          rcases List.mem_cons.1 he with rfl | he
          · exact spelled_of_definition? hdefinition
          · exact ih _ e he

theorem spelled_of_definitionList? {fuel : Nat} {ds : List VariableDefinition}
    (h : definitionList? fuel cs = some (ds, rest)) : ∀ d ∈ ds, d.Spelled := by
  unfold definitionList? at h
  split at h
  · next inner =>
      have hdefinitions := spelled_of_definitions fuel (skipIgnored inner)
      obtain ⟨more, -, heq⟩ := Option.map_eq_some_iff.1 h
      cases heq
      exact hdefinitions
  · cases h

theorem spelled_of_getD {fuel : Nat} (cs rest : List Char) :
    ∀ d ∈ ((definitionList? fuel cs).getD ([], rest)).1, d.Spelled := by
  cases hlist : definitionList? fuel cs with
  | none => simp
  | some found => exact spelled_of_definitionList? hlist

theorem spelled_of_named? {fuel : Nat} {op : Operation}
    (h : named? fuel cs = some (op, rest)) : op.Spelled := by
  unfold named? at h
  obtain ⟨⟨kind, behind⟩, -, h⟩ := Option.bind_eq_some_iff.1 h
  simp only at h
  split at h
  · next selections more hset =>
      cases h
      have hselections := isSpelled_of_selectionSet hset
      refine ⟨?_, ?_, hselections.1, hselections.2⟩
      · cases hname : name? (skipIgnored behind) with
        | none => simp
        | some found =>
            rintro name hmem
            cases hmem
            exact (isName_of_name? hname).1
      · exact spelled_of_getD _ _
  · cases h

/-- What the parser accepts is spelled in the grammar. -/
theorem spelled_of_document {op : Operation} (h : document cs = .ok op) : op.Spelled := by
  unfold document operation at h
  split at h
  · cases h
  · next op' behind hread =>
      have hspelled : op'.Spelled := by
        split at hread
        · next hnamed =>
            cases hread
            exact spelled_of_named? hnamed
        · cases hset : selectionSet (2 * cs.length + 2) (skipIgnored cs) with
          | error stop => rw [hset] at hread; cases hread
          | ok found =>
              rw [hset] at hread
              cases hread
              have hselections := isSpelled_of_selectionSet hset
              exact ⟨by simp, by simp, hselections.1, hselections.2⟩
      split at h
      · cases h
        exact hspelled
      · cases h

end Parser

end DexCache.Query
