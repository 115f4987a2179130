import DexCache.Proofs.Query.Token

/-!
# Operations that can be written

The tokens of an operation, and what makes it an operation that can be written: its names are
names and its numbers are finite.  No token of such an operation is empty.
-/

namespace DexCache.Query

namespace Literal

mutual
/-- The tokens of a literal. -/
def tokens : Literal → List (List Char)
  | .list items => ['['] :: (itemTokens items ++ [[']']])
  | .object fields => ['{'] :: (fieldTokens fields ++ [['}']])
  | l => [l.chars]

/-- The tokens of a list of literals. -/
def itemTokens : List Literal → List (List Char)
  | [] => []
  | item :: rest => tokens item ++ itemTokens rest

/-- The tokens of a list of named literals. -/
def fieldTokens : List (String × Literal) → List (List Char)
  | [] => []
  | (name, value) :: rest => name.toList :: [':'] :: (tokens value ++ fieldTokens rest)
end

mutual
/-- Do all literals without parts pass a test, and all keys another one? -/
def all (atom : Literal → Bool) (key : String → Bool) : Literal → Bool
  | .list items => allItems atom key items
  | .object fields => allFields atom key fields
  | l => atom l

/-- The tests on a list of literals. -/
def allItems (atom : Literal → Bool) (key : String → Bool) : List Literal → Bool
  | [] => true
  | item :: rest => all atom key item && allItems atom key rest

/-- The tests on a list of named literals. -/
def allFields (atom : Literal → Bool) (key : String → Bool) : List (String × Literal) → Bool
  | [] => true
  | (name, value) :: rest => key name && all atom key value && allFields atom key rest
end

/-- The words that are literals of their own. -/
def reserved : List String := ["true", "false", "null"]

/-- Can the name in this literal be written? -/
def isSpelled : Literal → Bool
  | .enumValue name => isName name && !reserved.contains name
  | .var name => isName name
  | _ => true

/-- Is this no infinite number? -/
def isFinite : Literal → Bool
  | .float d => d.isFinite
  | _ => true

/-- Can this literal without parts be written? -/
def isWritable (l : Literal) : Bool :=
  l.isSpelled && l.isFinite

theorem tokens_pos (l : Literal) : 0 < l.tokens.length := by
  cases l <;> simp [tokens]

end Literal

/-- The tokens of arguments in parentheses, none where there are none. -/
def argumentTokens (arguments : List (String × Literal)) : List (List Char) :=
  if arguments.isEmpty then [] else ['('] :: (Literal.fieldTokens arguments ++ [[')']])

namespace Field

/-- The tokens of an alias, none where there is none. -/
def aliasTokens : Option String → List (List Char)
  | none => []
  | some a => [a.toList, [':']]

mutual
/-- The tokens of a field. -/
def tokens : Field → List (List Char)
  | ⟨alias?, name, arguments, subfields⟩ =>
    aliasTokens alias? ++ name.toList :: (argumentTokens arguments ++
      (if subfields.isEmpty then [] else ['{'] :: (listTokens subfields ++ [['}']])))

/-- The tokens of a list of fields. -/
def listTokens : List Field → List (List Char)
  | [] => []
  | f :: rest => tokens f ++ listTokens rest
end

mutual
/-- Do a field and all fields below it pass a test? -/
def all (p : Field → Bool) : Field → Bool
  | ⟨alias?, name, arguments, subfields⟩ =>
    p ⟨alias?, name, arguments, subfields⟩ && allOf p subfields

/-- Do these fields and all fields below them pass a test? -/
def allOf (p : Field → Bool) : List Field → Bool
  | [] => true
  | f :: rest => all p f && allOf p rest
end

theorem all_iff {p : Field → Bool} {f : Field} :
    f.all p = true ↔ p f = true ∧ allOf p f.subfields = true := by
  obtain ⟨alias?, name, arguments, subfields⟩ := f
  rw [all, Bool.and_eq_true]

theorem allOf_iff {p : Field → Bool} {fs : List Field} :
    allOf p fs = true ↔ ∀ f ∈ fs, f.all p = true := by
  induction fs with
  | nil => simp [allOf]
  | cons f rest ih => rw [allOf, Bool.and_eq_true, ih, List.forall_mem_cons]

/-- Can the names and the arguments of this field be written? -/
def isWritable (f : Field) : Bool :=
  f.alias?.all isName && isName f.name &&
    Literal.allFields Literal.isWritable isName f.arguments

/-- A field starts with the name under which it appears in an answer. -/
theorem exists_tokens_eq (f : Field) : ∃ more, f.tokens = f.responseKey.toList :: more := by
  obtain ⟨alias?, name, arguments, subfields⟩ := f
  rw [tokens]
  cases alias? with
  | none => exact ⟨_, rfl⟩
  | some a => exact ⟨_, rfl⟩

theorem tokens_pos (f : Field) : 0 < f.tokens.length := by
  obtain ⟨more, hmore⟩ := f.exists_tokens_eq
  rw [hmore]
  exact Nat.succ_pos _

theorem isName_responseKey {f : Field} (h : (f.alias?.all isName && isName f.name) = true) :
    isName f.responseKey = true := by
  obtain ⟨alias?, name, arguments, subfields⟩ := f
  rw [Bool.and_eq_true] at h
  cases alias? with
  | none => exact h.2
  | some a => exact h.1

end Field

/-- The tokens of a default value, none where there is none. -/
def defaultTokens : Option Literal → List (List Char)
  | none => []
  | some value => ['='] :: value.tokens

namespace VariableDefinition

/-- The tokens of a declared variable. -/
def tokens (d : VariableDefinition) : List (List Char) :=
  ('$' :: d.name.toList) :: [':'] :: d.typeName.toList :: defaultTokens d.default?

/-- A declaration that can be written. -/
structure Writable (d : VariableDefinition) : Prop where
  name : isName d.name = true
  typeName : TypeText d.typeName.toList
  value : ∀ l ∈ d.default?, l.all Literal.isWritable isName = true

end VariableDefinition

namespace Operation

/-- The tokens of declarations in parentheses, none where there are none. -/
def definitionTokens (ds : List VariableDefinition) : List (List Char) :=
  if ds.isEmpty then []
  else ['('] :: (ds.flatMap VariableDefinition.tokens ++ [[')']])

/-- The tokens of an operation. -/
def tokens (op : Operation) : List (List Char) :=
  op.kind.keyword.toList :: (op.name.toList.map String.toList ++
    (definitionTokens op.variableDefinitions ++
      ['{'] :: (Field.listTokens op.selections ++ [['}']])))

/-- An operation that can be written. -/
structure Writable (op : Operation) : Prop where
  name : ∀ name ∈ op.name, isName name = true
  definitions : ∀ d ∈ op.variableDefinitions, d.Writable
  selected : op.selections ≠ []
  selections : Field.allOf Field.isWritable op.selections = true

end Operation

theorem intChars_ne_nil (i : Int) : Decimal.intChars i ≠ [] := by
  unfold Decimal.intChars
  split
  · exact List.cons_ne_nil _ _
  · exact Decimal.natChars_ne_nil _

theorem doubleChars_ne_nil {d : Double} (hd : d.isFinite = true) :
    Decimal.Form.literal.chars d ≠ [] := by
  intro hnil
  have hread := number?_double hd (show ∀ c ∈ ([] : List Char).head?, isSticky c = false
    by simp)
  rw [hnil] at hread
  cases hread

mutual
theorem Literal.tokens_ne_nil : ∀ {l : Literal}, l.all Literal.isWritable isName = true →
    ∀ token ∈ l.tokens, token ≠ []
  | .list ls, hl, token, htoken => by
      simp only [Literal.tokens, List.mem_cons, List.mem_append, List.not_mem_nil,
        or_false] at htoken
      rcases htoken with rfl | htoken | rfl
      · exact List.cons_ne_nil _ _
      · exact Literal.itemTokens_ne_nil hl token htoken
      · exact List.cons_ne_nil _ _
  | .object fs, hl, token, htoken => by
      simp only [Literal.tokens, List.mem_cons, List.mem_append, List.not_mem_nil,
        or_false] at htoken
      rcases htoken with rfl | htoken | rfl
      · exact List.cons_ne_nil _ _
      · exact Literal.fieldTokens_ne_nil hl token htoken
      · exact List.cons_ne_nil _ _
  | .null, hl, _, htoken => List.mem_singleton.1 htoken ▸ by decide
  | .bool true, hl, _, htoken => List.mem_singleton.1 htoken ▸ by decide
  | .bool false, hl, _, htoken => List.mem_singleton.1 htoken ▸ by decide
  | .int i, hl, _, htoken => List.mem_singleton.1 htoken ▸ intChars_ne_nil i.toInt
  | .float d, hl, _, htoken => by
      have hatom : (Literal.float d).isWritable = true := hl
      exact List.mem_singleton.1 htoken ▸ doubleChars_ne_nil (Bool.and_eq_true_iff.1 hatom).2
  | .str s, hl, _, htoken => List.mem_singleton.1 htoken ▸ List.cons_ne_nil _ _
  | .enumValue name, hl, _, htoken => by
      have hatom : (Literal.enumValue name).isWritable = true := hl
      have hname := (Bool.and_eq_true_iff.1 (Bool.and_eq_true_iff.1 hatom).1).1
      exact List.mem_singleton.1 htoken ▸ toList_ne_nil_of_isName hname
  | .var name, hl, _, htoken => List.mem_singleton.1 htoken ▸ List.cons_ne_nil _ _

theorem Literal.itemTokens_ne_nil : ∀ {ls : List Literal},
    Literal.allItems Literal.isWritable isName ls = true →
    ∀ token ∈ Literal.itemTokens ls, token ≠ []
  | [], _, _, htoken => by cases htoken
  | l :: ls, hl, token, htoken => by
      rw [Literal.allItems, Bool.and_eq_true] at hl
      rcases List.mem_append.1 htoken with htoken | htoken
      · exact Literal.tokens_ne_nil hl.1 token htoken
      · exact Literal.itemTokens_ne_nil hl.2 token htoken

theorem Literal.fieldTokens_ne_nil : ∀ {fs : List (String × Literal)},
    Literal.allFields Literal.isWritable isName fs = true →
    ∀ token ∈ Literal.fieldTokens fs, token ≠ []
  | [], _, _, htoken => by cases htoken
  | (name, l) :: fs, hl, token, htoken => by
      simp only [Literal.allFields, Bool.and_eq_true] at hl
      simp only [Literal.fieldTokens, List.mem_cons, List.mem_append] at htoken
      rcases htoken with rfl | rfl | htoken | htoken
      · exact toList_ne_nil_of_isName hl.1.1
      · exact List.cons_ne_nil _ _
      · exact Literal.tokens_ne_nil hl.1.2 token htoken
      · exact Literal.fieldTokens_ne_nil hl.2 token htoken
end

theorem argumentTokens_ne_nil {arguments : List (String × Literal)}
    (hl : Literal.allFields Literal.isWritable isName arguments = true) :
    ∀ token ∈ argumentTokens arguments, token ≠ [] := by
  intro token htoken
  unfold argumentTokens at htoken
  split at htoken
  · cases htoken
  · simp only [List.mem_cons, List.mem_append, List.not_mem_nil, or_false] at htoken
    rcases htoken with rfl | htoken | rfl
    · exact List.cons_ne_nil _ _
    · exact Literal.fieldTokens_ne_nil hl token htoken
    · exact List.cons_ne_nil _ _

mutual
theorem Field.tokens_ne_nil : ∀ {f : Field}, f.all Field.isWritable = true →
    ∀ token ∈ f.tokens, token ≠ []
  | ⟨alias?, name, arguments, subfields⟩, hf, token, htoken => by
      simp only [Field.all, Field.isWritable, Bool.and_eq_true] at hf
      obtain ⟨⟨⟨halias, hname⟩, harguments⟩, hsubfields⟩ := hf
      simp only [Field.tokens, List.mem_append, List.mem_cons] at htoken
      -- the alias, the name, the arguments and the fields below
      rcases htoken with htoken | rfl | htoken | htoken
      · cases alias? with
        | none => cases htoken
        | some a =>
            rcases List.mem_pair.1 htoken with rfl | rfl
            · exact toList_ne_nil_of_isName halias
            · exact List.cons_ne_nil _ _
      · exact toList_ne_nil_of_isName hname
      · exact argumentTokens_ne_nil harguments token htoken
      · split at htoken
        · cases htoken
        · simp only [List.mem_cons, List.mem_append, List.not_mem_nil, or_false] at htoken
          rcases htoken with rfl | htoken | rfl
          · exact List.cons_ne_nil _ _
          · exact Field.listTokens_ne_nil hsubfields token htoken
          · exact List.cons_ne_nil _ _

theorem Field.listTokens_ne_nil : ∀ {fs : List Field}, Field.allOf Field.isWritable fs = true →
    ∀ token ∈ Field.listTokens fs, token ≠ []
  | [], _, _, htoken => by cases htoken
  | f :: fs, hfs, token, htoken => by
      rw [Field.allOf, Bool.and_eq_true] at hfs
      rcases List.mem_append.1 htoken with htoken | htoken
      · exact Field.tokens_ne_nil hfs.1 token htoken
      · exact Field.listTokens_ne_nil hfs.2 token htoken
end

theorem VariableDefinition.tokens_ne_nil {d : VariableDefinition} (hd : d.Writable) :
    ∀ token ∈ d.tokens, token ≠ [] := by
  obtain ⟨name, typeName, default?⟩ := d
  intro token htoken
  simp only [VariableDefinition.tokens, List.mem_cons] at htoken
  -- the variable, a colon, the type and the default value
  rcases htoken with rfl | rfl | rfl | htoken
  · exact List.cons_ne_nil _ _
  · exact List.cons_ne_nil _ _
  · obtain ⟨c, rest, heq, -⟩ := hd.typeName.exists_cons
    rw [heq]
    exact List.cons_ne_nil _ _
  · cases default? with
    | none => cases htoken
    | some l =>
        rcases List.mem_cons.1 htoken with rfl | htoken
        · exact List.cons_ne_nil _ _
        · exact Literal.tokens_ne_nil (hd.value l rfl) token htoken

/-- No token of an operation is empty. -/
theorem Operation.tokens_ne_nil {op : Operation} (hop : op.Writable) :
    ∀ token ∈ op.tokens, token ≠ [] := by
  intro token htoken
  simp only [Operation.tokens, List.mem_cons, List.mem_append, List.not_mem_nil, or_false,
    List.mem_map, Option.mem_toList] at htoken
  -- the keyword, the name, the declarations, a brace, the fields and the closing brace
  rcases htoken with rfl | ⟨name, hname, rfl⟩ | htoken | rfl | htoken | rfl
  · cases op.kind <;> decide
  · exact toList_ne_nil_of_isName (hop.name name hname)
  · unfold Operation.definitionTokens at htoken
    split at htoken
    · cases htoken
    · simp only [List.mem_cons, List.mem_append, List.not_mem_nil, or_false,
        List.mem_flatMap] at htoken
      rcases htoken with rfl | ⟨d, hd, htoken⟩ | rfl
      · exact List.cons_ne_nil _ _
      · exact VariableDefinition.tokens_ne_nil (hop.definitions d hd) token htoken
      · exact List.cons_ne_nil _ _
  · exact List.cons_ne_nil _ _
  · exact Field.listTokens_ne_nil hop.selections token htoken
  · exact List.cons_ne_nil _ _

end DexCache.Query
