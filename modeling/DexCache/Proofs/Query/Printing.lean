import DexCache.Proofs.Query.Reading

/-!
# The written form is a layout

The text of an operation is one of the layouts of its tokens: every piece is followed by
nothing that it could run together with.  So an operation that can be written is read back
from its text.
-/

namespace DexCache.Query

variable {tokens : List (List Char)} {cs : List Char}

/-- A text that nothing in front of it runs together with. -/
def Loose (cs : List Char) : Prop :=
  ∀ c ∈ cs.head?, isSticky c = false

theorem loose_cons {c : Char} (rest : List Char) (hc : isSticky c = false := by decide) :
    Loose (c :: rest) := by
  intro d hd
  rw [List.head?_cons, Option.mem_some_iff] at hd
  exact hd ▸ hc

namespace Layout

/-- A token may stand in front of a text that it does not run together with. -/
theorem piece (token : List Char) (h : Layout tokens cs) (hloose : Loose cs) :
    Layout (token :: tokens) (token ++ cs) := by
  refine .token .nil ?_ h
  intro a _ b hb hboth
  rw [hloose b hb] at hboth
  cases hboth.2

/-- A mark may stand in front of any text. -/
theorem mark {c : Char} (h : Layout tokens cs) (hc : isSticky c = false := by decide) :
    Layout ([c] :: tokens) (c :: cs) := by
  change Layout _ ([] ++ ([c] ++ cs))
  refine .token .nil ?_ h
  intro a ha b _ hboth
  rw [List.getLast?_singleton, Option.mem_some_iff] at ha
  rw [← ha, hc] at hboth
  cases hboth.1

theorem blank (h : Layout tokens cs) : Layout tokens (' ' :: cs) :=
  h.separate (by decide)

mutual
theorem literal : ∀ (l : Literal) {tokens : List (List Char)} {cs : List Char},
    Layout tokens cs → Loose cs → Layout (l.tokens ++ tokens) (l.chars ++ cs)
  | .list ls, tokens, cs, h, _ => by
      have hitems := items ls (mark (c := ']') h) (loose_cons _)
      simpa [Literal.tokens, Literal.chars] using mark (c := '[') hitems
  | .object fs, tokens, cs, h, _ => by
      have hfields := fields fs (mark (c := '}') h) (loose_cons _)
      simpa [Literal.tokens, Literal.chars] using mark (c := '{') hfields
  | .null, _, _, h, hloose => piece _ h hloose
  | .bool _, _, _, h, hloose => piece _ h hloose
  | .int _, _, _, h, hloose => piece _ h hloose
  | .float _, _, _, h, hloose => piece _ h hloose
  | .str _, _, _, h, hloose => piece _ h hloose
  | .enumValue _, _, _, h, hloose => piece _ h hloose
  | .var _, _, _, h, hloose => piece _ h hloose

theorem items : ∀ (ls : List Literal) {tokens : List (List Char)} {cs : List Char},
    Layout tokens cs → Loose cs → Layout (Literal.itemTokens ls ++ tokens)
      (Literal.itemChars ls ++ cs)
  | [], _, _, h, _ => h
  | [l], _, _, h, hloose => by
      simpa [Literal.itemTokens, Literal.itemChars] using literal l h hloose
  | l :: m :: ls, tokens, cs, h, hloose => by
      have hrest := items (m :: ls) h hloose
      have hfirst := literal l (hrest.blank.separate (c := ',') (by decide)) (loose_cons _)
      simpa [Literal.itemTokens, Literal.itemChars] using hfirst

theorem fields : ∀ (fs : List (String × Literal)) {tokens : List (List Char)} {cs : List Char},
    Layout tokens cs → Loose cs → Layout (Literal.fieldTokens fs ++ tokens)
      (Literal.fieldChars fs ++ cs)
  | [], _, _, h, _ => h
  | [(name, l)], _, _, h, hloose => by
      have hvalue := mark (c := ':') (literal l h hloose).blank
      simpa [Literal.fieldTokens, Literal.fieldChars] using
        piece name.toList hvalue (loose_cons _)
  | (name, l) :: g :: fs, tokens, cs, h, hloose => by
      have hrest := fields (g :: fs) h hloose
      have hfirst := literal l (hrest.blank.separate (c := ',') (by decide)) (loose_cons _)
      have hvalue := mark (c := ':') hfirst.blank
      simpa [Literal.fieldTokens, Literal.fieldChars] using
        piece name.toList hvalue (loose_cons _)
end

theorem arguments (arguments : List (String × Literal)) (h : Layout tokens cs)
    (hloose : Loose cs) :
    Layout (argumentTokens arguments ++ tokens) (argumentChars arguments ++ cs) ∧
      Loose (argumentChars arguments ++ cs) := by
  cases arguments with
  | nil => exact ⟨h, hloose⟩
  | cons a arguments =>
      have hfields := fields (a :: arguments) (mark (c := ')') h) (loose_cons _)
      refine ⟨?_, ?_⟩
      · simpa [argumentTokens, argumentChars] using mark (c := '(') hfields
      · exact loose_cons _

mutual
theorem field : ∀ (f : Field) {tokens : List (List Char)} {cs : List Char},
    Layout tokens cs → Loose cs → Layout (f.tokens ++ tokens) (f.chars ++ cs)
  | ⟨alias?, name, arguments, subfields⟩, tokens, cs, h, hloose => by
      have hsubfields : Layout ((if subfields.isEmpty then []
            else ['{'] :: (Field.listTokens subfields ++ [['}']])) ++ tokens)
          ((if subfields.isEmpty then []
            else ' ' :: '{' :: ' ' :: (Field.fieldsChars subfields ++ [' ', '}'])) ++ cs) ∧
          Loose ((if subfields.isEmpty then []
            else ' ' :: '{' :: ' ' :: (Field.fieldsChars subfields ++ [' ', '}'])) ++ cs) := by
        cases hempty : subfields.isEmpty with
        | true => exact ⟨h, hloose⟩
        | false =>
            have hlist := fieldList subfields (mark (c := '}') h).blank (loose_cons _)
            refine ⟨?_, loose_cons _⟩
            simpa using (mark (c := '{') hlist.blank).blank
      have harguments := Layout.arguments arguments hsubfields.1 hsubfields.2
      have hname := piece name.toList harguments.1 harguments.2
      cases alias? with
      | none => simpa [Field.tokens, Field.aliasTokens, Field.chars] using hname
      | some a =>
          have halias := piece a.toList (mark (c := ':') hname.blank) (loose_cons _)
          simpa [Field.tokens, Field.aliasTokens, Field.chars] using halias

theorem fieldList : ∀ (fs : List Field) {tokens : List (List Char)} {cs : List Char},
    Layout tokens cs → Loose cs → Layout (Field.listTokens fs ++ tokens)
      (Field.fieldsChars fs ++ cs)
  | [], _, _, h, _ => h
  | [f], _, _, h, hloose => by
      simpa [Field.listTokens, Field.fieldsChars] using field f h hloose
  | f :: g :: fs, tokens, cs, h, hloose => by
      have hrest := fieldList (g :: fs) h hloose
      have hfirst := field f hrest.blank (loose_cons _)
      simpa [Field.listTokens, Field.fieldsChars] using hfirst
end

theorem definition (d : VariableDefinition) (h : Layout tokens cs) (hloose : Loose cs) :
    Layout (d.tokens ++ tokens) (d.chars ++ cs) := by
  obtain ⟨name, typeName, default?⟩ := d
  have hdeclared {tokens : List (List Char)} {cs : List Char} (h : Layout tokens cs)
      (hloose : Loose cs) :
      Layout (('$' :: name.toList) :: [':'] :: typeName.toList :: tokens)
        ('$' :: (name.toList ++ ':' :: ' ' :: (typeName.toList ++ cs))) := by
    have htype := piece typeName.toList h hloose
    exact piece ('$' :: name.toList) (mark (c := ':') htype.blank) (loose_cons _)
  cases default? with
  | none =>
      simpa [VariableDefinition.tokens, VariableDefinition.chars, defaultTokens] using
        hdeclared h hloose
  | some l =>
      have hdefault := (mark (c := '=') (literal l h hloose).blank).blank
      simpa [VariableDefinition.tokens, VariableDefinition.chars, defaultTokens] using
        hdeclared hdefault (loose_cons _)

theorem definitions : ∀ (ds : List VariableDefinition) {tokens : List (List Char)}
    {cs : List Char}, Layout tokens cs → Loose cs →
    Layout (ds.flatMap VariableDefinition.tokens ++ tokens) (definitionChars ds ++ cs)
  | [], _, _, h, _ => h
  | [d], _, _, h, hloose => by simpa [definitionChars] using definition d h hloose
  | d :: e :: ds, tokens, cs, h, hloose => by
      have hrest := definitions (e :: ds) h hloose
      have hfirst := definition d (hrest.blank.separate (c := ',') (by decide)) (loose_cons _)
      simpa [definitionChars] using hfirst

/-- The text of an operation is a layout of its tokens. -/
theorem operation (op : Operation) : Layout op.tokens op.chars := by
  obtain ⟨kind, name, ds, fs⟩ := op
  have hbraces := fieldList fs (mark (c := '}') (.done .nil)).blank (loose_cons _)
  have hset := (mark (c := '{') hbraces.blank).blank
  have hlist : Layout (Operation.definitionTokens ds ++
        ['{'] :: (Field.listTokens fs ++ [['}']]))
      ((if ds.isEmpty then [] else '(' :: (definitionChars ds ++ [')'])) ++
        ' ' :: '{' :: ' ' :: (Field.fieldsChars fs ++ [' ', '}'])) ∧
      Loose ((if ds.isEmpty then [] else '(' :: (definitionChars ds ++ [')'])) ++
        ' ' :: '{' :: ' ' :: (Field.fieldsChars fs ++ [' ', '}'])) := by
    unfold Operation.definitionTokens
    cases hempty : ds.isEmpty with
    | true => exact ⟨hset, loose_cons _⟩
    | false =>
        have hdefinitions := definitions ds (mark (c := ')') hset) (loose_cons _)
        refine ⟨?_, loose_cons _⟩
        simpa using mark (c := '(') hdefinitions
  cases name with
  | none =>
      have hkind := piece kind.keyword.toList hlist.1 hlist.2
      simpa [Operation.tokens, Operation.chars] using hkind
  | some name =>
      have hname := (piece name.toList hlist.1 hlist.2).blank
      have hkind := piece kind.keyword.toList hname (loose_cons _)
      simpa [Operation.tokens, Operation.chars] using hkind

end Layout

/-- The text of an operation is read back. -/
theorem Parser.document_chars {op : Operation} (hop : op.Writable) :
    document op.chars = .ok op :=
  document_of_layout hop (.operation op)

end DexCache.Query
