import DexCache.Proofs.Query.Occurrence
import DexCache.Proofs.Query.RoundTrip

/-!
# Infinite numbers are not read back

An infinite number is written as a word, or as a sign with a word behind it, and what is read there
is no number.  So where a reader gives back the tokens that a layout was made of, all numbers in
them are finite.

Each reader is taken at what it gives back, so none of the lemmas asks for a fuel: a reader that
runs out of it gives back less.  As long as the numbers are finite the reader has stopped where the
tokens end, and there the next one goes on.
-/

namespace DexCache.Query

namespace Parser

variable {tokens : List (List Char)} {cs rest behind : List Char} {fuel : Nat}

/-- An infinite number is not read back. -/
theorem value?_ne_of_not_finite {d : Double} (hd : d.isFinite = false)
    (h : Layout ((Literal.float d).chars :: tokens) cs) :
    value? fuel (skipIgnored cs) ≠ some (.float d, rest) := by
  intro hread
  have hword (word : String) (hname : isName word = true)
      (hlayout : Layout (word.toList :: tokens) cs) : False := by
    cases fuel with
    | zero => cases hread
    | succ fuel =>
        obtain ⟨behind, hvalue, -⟩ := exists_of_word hlayout hname fuel
        rw [hvalue, Option.some.injEq, Prod.mk.injEq] at hread
        split_ifs at hread <;> cases hread.1
  cases d with
  | finite negative index => cases hd
  | nan => exact hword "NaN" (by decide) h
  | infinite negative =>
      cases negative with
      | false => exact hword "inf" (by decide) h
      | true =>
          cases fuel with
          | zero => cases hread
          | succ fuel =>
              have hminus : isSticky '-' = true := by decide
              obtain ⟨behind, hskip, -⟩ := h.exists_skipIgnored_eq (opens_of_isSticky hminus _)
              have hnone : number? ('-' :: 'i' :: 'n' :: 'f' :: behind) = none := rfl
              rw [hskip] at hread
              change value? (fuel + 1) ('-' :: 'i' :: 'n' :: 'f' :: behind) = _ at hread
              rw [value?_sticky hminus, hnone, name?_eq_none (by decide)] at hread
              cases hread

/-- A literal without parts that is read back is finite. -/
theorem finite_of_atom {l : Literal} (hread : value? fuel (skipIgnored cs) = some (l, rest))
    (h : Layout (l.chars :: tokens) cs) (hl : l.isSpelled = true)
    (hlist : ∀ items, l ≠ .list items) (hobject : ∀ fields, l ≠ .object fields) :
    l.isFinite = true ∧ Layout tokens rest := by
  cases hfinite : l.isFinite with
  | true =>
      cases fuel with
      | zero => cases hread
      | succ fuel =>
          have hwritable : l.isWritable = true := Bool.and_eq_true_iff.2 ⟨hl, hfinite⟩
          obtain ⟨behind, hvalue, hbehind⟩ := exists_of_atom h hwritable hlist hobject fuel
          rw [hread] at hvalue
          cases hvalue
          exact ⟨rfl, hbehind⟩
  | false =>
      cases l with
      | float d => exact absurd hread (value?_ne_of_not_finite hfinite h)
      | _ => cases hfinite

/-- A named literal was read: a name, a colon and a literal. -/
theorem exists_of_namedValue? {name : String} {l : Literal}
    (h : namedValue? fuel cs = some ((name, l), rest)) :
    ∃ fuel' afterName afterColon, name? cs = some (name, afterName) ∧
      word? [':'] (skipIgnored afterName) = some afterColon ∧
      value? fuel' (skipIgnored afterColon) = some (l, rest) := by
  cases fuel with
  | zero => cases h
  | succ fuel =>
      rw [namedValue?] at h
      obtain ⟨⟨name, afterName⟩, hname, h⟩ := Option.bind_eq_some_iff.1 h
      obtain ⟨afterColon, hcolon, h⟩ := Option.bind_eq_some_iff.1 h
      obtain ⟨⟨l, rest⟩, hvalue, h⟩ := Option.bind_eq_some_iff.1 h
      cases h
      exact ⟨fuel, afterName, afterColon, hname, hcolon, hvalue⟩

/-- Behind a reader that has stopped in front of a mark, the mark is there. -/
theorem layout_of_word {c : Char} (hc : isSeparator c = false) (hcomment : c ≠ '#')
    (h : Layout ([c] :: tokens) cs) (hword : word? [c] (skipIgnored cs) = some rest) :
    Layout tokens rest := by
  obtain ⟨behind, hskip, hbehind⟩ := exists_of_mark h hc hcomment
  rw [hskip, word?, if_pos rfl, word?] at hword
  cases hword
  exact hbehind

-- As in reading a layout, the lemmas of readers that call one another are proved together, by
-- recursion on the literal.
mutual
/-- A literal that is read back is finite. -/
theorem finite_of_value : ∀ {l : Literal} {tokens : List (List Char)} {cs rest : List Char}
    {fuel : Nat}, l.all Literal.isSpelled isName = true → Layout (l.tokens ++ tokens) cs →
    value? fuel (skipIgnored cs) = some (l, rest) →
    l.all Literal.isFinite (fun _ => true) = true ∧ Layout tokens rest
  | .list ls, tokens, cs, rest, fuel + 1, hl, h, hread => by
      simp only [Literal.tokens, List.cons_append, List.append_assoc, List.nil_append] at h
      obtain ⟨inner, hskip, hinner⟩ := exists_of_mark h
      rw [hskip, value?] at hread
      rcases hitems : items fuel (skipIgnored inner) with ⟨found, behind⟩
      rw [hitems] at hread
      obtain ⟨_, hclose, heq⟩ := Option.map_eq_some_iff.1 hread
      cases heq
      obtain ⟨hfinite, _, rfl, hlayout⟩ := finite_of_items hl hinner hitems
      exact ⟨hfinite, layout_of_word (by decide) (by decide) hlayout hclose⟩
  | .object fs, tokens, cs, rest, fuel + 1, hl, h, hread => by
      simp only [Literal.tokens, List.cons_append, List.append_assoc, List.nil_append] at h
      obtain ⟨inner, hskip, hinner⟩ := exists_of_mark h
      rw [hskip, value?] at hread
      rcases hfields : namedValues fuel (skipIgnored inner) with ⟨found, behind⟩
      rw [hfields] at hread
      obtain ⟨_, hclose, heq⟩ := Option.map_eq_some_iff.1 hread
      cases heq
      obtain ⟨hfinite, _, rfl, hlayout⟩ := finite_of_fields hl hinner hfields
      exact ⟨hfinite, layout_of_word (by decide) (by decide) hlayout hclose⟩
  | .null, _, _, _, _, hl, h, hread => finite_of_atom hread h hl (by simp) (by simp)
  | .bool _, _, _, _, _, hl, h, hread => finite_of_atom hread h hl (by simp) (by simp)
  | .int _, _, _, _, _, hl, h, hread => finite_of_atom hread h hl (by simp) (by simp)
  | .float _, _, _, _, _, hl, h, hread => finite_of_atom hread h hl (by simp) (by simp)
  | .str _, _, _, _, _, hl, h, hread => finite_of_atom hread h hl (by simp) (by simp)
  | .enumValue _, _, _, _, _, hl, h, hread => finite_of_atom hread h hl (by simp) (by simp)
  | .var _, _, _, _, _, hl, h, hread => finite_of_atom hread h hl (by simp) (by simp)

/-- Literals that are read back are finite. -/
theorem finite_of_items : ∀ {ls : List Literal} {tokens : List (List Char)}
    {cs behind : List Char} {fuel : Nat}, Literal.allItems Literal.isSpelled isName ls = true →
    Layout (Literal.itemTokens ls ++ tokens) cs → items fuel (skipIgnored cs) = (ls, behind) →
    Literal.allItems Literal.isFinite (fun _ => true) ls = true ∧
      ∃ cs', behind = skipIgnored cs' ∧ Layout tokens cs'
  | [], _, cs, _, _, _, h, hread => ⟨rfl, cs, repeats_items.eq_of_nil hread, h⟩
  | l :: ls, tokens, cs, behind, fuel, hl, h, hread => by
      rw [Literal.allItems, Bool.and_eq_true] at hl ⊢
      rw [Literal.itemTokens, List.append_assoc] at h
      obtain ⟨fuel', middle, hvalue, hitems⟩ := repeats_items.exists_of_cons hread
      obtain ⟨hfinite, hmiddle⟩ := finite_of_value hl.1 h hvalue
      obtain ⟨hrest, hend⟩ := finite_of_items hl.2 hmiddle hitems
      exact ⟨⟨hfinite, hrest⟩, hend⟩

/-- Named literals that are read back are finite. -/
theorem finite_of_fields : ∀ {fs : List (String × Literal)} {tokens : List (List Char)}
    {cs behind : List Char} {fuel : Nat}, Literal.allFields Literal.isSpelled isName fs = true →
    Layout (Literal.fieldTokens fs ++ tokens) cs →
    namedValues fuel (skipIgnored cs) = (fs, behind) →
    Literal.allFields Literal.isFinite (fun _ => true) fs = true ∧
      ∃ cs', behind = skipIgnored cs' ∧ Layout tokens cs'
  | [], _, cs, _, _, _, h, hread => ⟨rfl, cs, repeats_namedValues.eq_of_nil hread, h⟩
  | (name, l) :: fs, tokens, cs, behind, fuel, hl, h, hread => by
      simp only [Literal.allFields, Bool.and_eq_true, true_and] at hl ⊢
      simp only [Literal.fieldTokens, List.cons_append, List.append_assoc] at h
      obtain ⟨_, middle, hnamed, hfields⟩ := repeats_namedValues.exists_of_cons hread
      obtain ⟨fuel', afterName, afterColon, hname, hcolon, hvalue⟩ := exists_of_namedValue? hnamed
      obtain ⟨afterName', hname', hlayout⟩ := exists_of_name h hl.1.1
      rw [hname] at hname'
      cases hname'
      obtain ⟨hfinite, hmiddle⟩ := finite_of_value hl.1.2
        (layout_of_word (by decide) (by decide) hlayout hcolon) hvalue
      obtain ⟨hrest, hend⟩ := finite_of_fields hl.2 hmiddle hfields
      exact ⟨⟨hfinite, hrest⟩, hend⟩
end

/-- Arguments that are read back are finite. -/
theorem finite_of_arguments {arguments : List (String × Literal)} {token : List Char}
    (hl : Literal.allFields Literal.isSpelled isName arguments = true) (hopens : Opens token)
    (htoken : token.head? ≠ some '(')
    (h : Layout (argumentTokens arguments ++ token :: tokens) cs)
    (hread : (arguments? fuel (skipIgnored cs)).getD ([], skipIgnored cs) = (arguments, rest)) :
    Literal.allFields Literal.isFinite (fun _ => true) arguments = true ∧
      Layout (token :: tokens) rest := by
  cases arguments with
  | nil =>
      obtain ⟨behind, hforward, hbehind⟩ :=
        exists_of_arguments rfl (Nat.zero_le fuel) hopens htoken h
      rw [hread] at hforward
      cases hforward
      exact ⟨rfl, hbehind⟩
  | cons a arguments =>
      simp only [argumentTokens, List.isEmpty_cons, Bool.false_eq_true, if_false,
        List.cons_append, List.append_assoc, List.nil_append] at h
      obtain ⟨inner, hskip, hinner⟩ := exists_of_mark h
      rw [hskip, arguments?] at hread
      rcases hfields : namedValues fuel (skipIgnored inner) with ⟨found, behind⟩
      simp only [hfields] at hread
      cases hclose : word? [')'] behind with
      | none => rw [hclose] at hread; cases hread
      | some after =>
          rw [hclose] at hread
          cases hread
          obtain ⟨hfinite, _, rfl, hlayout⟩ := finite_of_fields hl hinner hfields
          exact ⟨hfinite, layout_of_word (by decide) (by decide) hlayout hclose⟩

/-- The parts of a field that was read. -/
theorem parts_of_field? {f : Field} (h : field? (fuel + 1) cs = some (f, rest)) :
    ∃ first behind afterName afterArguments, name? cs = some (first, behind) ∧
      (match aliased? (skipIgnored behind) with
        | some (name, rest) => (some first, name, rest)
        | none => (none, first, skipIgnored behind)) = (f.alias?, f.name, afterName) ∧
      (arguments? fuel (skipIgnored afterName)).getD ([], skipIgnored afterName) =
        (f.arguments, afterArguments) ∧
      (match selectionSet fuel (skipIgnored afterArguments) with
        | .ok (subfields, rest) => (subfields, rest)
        | .error _ => ([], skipIgnored afterArguments)) = (f.subfields, rest) := by
  rw [field?] at h
  split at h
  · cases h
  · next first behind hname =>
      cases h
      exact ⟨first, behind, _, _, hname, rfl, rfl, rfl⟩

/-- The fields in braces that were read. -/
theorem exists_of_selectionSet_eq_ok {fs : List Field}
    (h : Layout (['{'] :: tokens) cs)
    (hread : selectionSet fuel (skipIgnored cs) = .ok (fs, rest)) :
    ∃ fuel' inner, Layout tokens inner ∧
      fields fuel' (skipIgnored inner) = (fs, '}' :: rest) := by
  obtain ⟨inner, hskip, hinner⟩ := exists_of_mark h
  rw [hskip] at hread
  cases fuel with
  | zero => cases hread
  | succ fuel =>
      rw [selectionSet] at hread
      split at hread
      · cases hread
      · next hfields =>
          cases hread
          exact ⟨_, inner, hinner, hfields⟩
      · cases hread

theorem layout_of_brace (h : Layout (['}'] :: tokens) cs) (hskip : '}' :: rest = skipIgnored cs) :
    Layout tokens rest := by
  obtain ⟨behind, hbrace, hbehind⟩ := exists_of_mark h
  rw [← hskip] at hbrace
  cases hbrace
  exact hbehind

mutual
/-- A field that is read back is finite. -/
theorem finite_of_field : ∀ {f : Field} {token : List Char} {tokens : List (List Char)}
    {cs rest : List Char} {fuel : Nat}, f.all Field.isSpelled = true → Follows token →
    Layout (f.tokens ++ token :: tokens) cs → field? fuel (skipIgnored cs) = some (f, rest) →
    f.all Field.isFinite = true ∧ Layout (token :: tokens) rest
  | ⟨alias?, name, arguments, subfields⟩, token, tokens, cs, rest, fuel + 1, hf, htoken, h,
      hread => by
      simp only [Field.all, Field.isSpelled, Field.isFinite, Bool.and_eq_true] at hf ⊢
      obtain ⟨⟨⟨halias, hname⟩, harguments⟩, hsubfields⟩ := hf
      simp only [Field.tokens, List.append_assoc, List.cons_append] at h
      obtain ⟨first, behind, afterName, afterArguments, hfirst, hnamed, hargs, hset⟩ :=
        parts_of_field? hread
      obtain ⟨next, more, hmore, hopens, hcolon⟩ :=
        head?_of_behind arguments subfields tokens htoken
      rw [hmore] at h
      obtain ⟨first', behind', afterName', hfirst', hnamed', hlayout⟩ :=
        exists_of_alias halias hname hopens hcolon h
      rw [← hmore] at hlayout
      -- the name is read in one way, so the reader stands where the layout goes on
      rw [hfirst] at hfirst'
      cases hfirst'
      obtain rfl : afterName = afterName' :=
        congrArg (fun named => named.2.2) (hnamed.symm.trans hnamed')
      cases subfields with
      | nil =>
          obtain ⟨hfinite, hbehind⟩ :=
            finite_of_arguments harguments htoken.opens htoken.parenthesis hlayout hargs
          have hnone : selectionSet fuel (skipIgnored afterArguments) =
              .error (skipIgnored afterArguments) := by
            refine selectionSet_eq_error ?_ fuel
            rw [hbehind.head?_skipIgnored htoken.opens]
            exact htoken.brace
          rw [hnone] at hset
          cases hset
          exact ⟨⟨hfinite, rfl⟩, hbehind.skip htoken.opens⟩
      | cons f fs =>
          simp only [List.isEmpty_cons, Bool.false_eq_true, if_false, List.cons_append,
            List.append_assoc, List.nil_append] at hlayout
          obtain ⟨hfinite, hbehind⟩ :=
            finite_of_arguments harguments (opens_mark '{' []) (by decide) hlayout hargs
          rcases hread : selectionSet fuel (skipIgnored afterArguments) with stop | ⟨found, behind⟩
          · rw [hread] at hset
            cases hset
          · rw [hread] at hset
            cases hset
            obtain ⟨fuel', inner, hinner, hfields⟩ := exists_of_selectionSet_eq_ok hbehind hread
            obtain ⟨hbelow, cs', hend, hclose⟩ := finite_of_list hsubfields hinner hfields
            exact ⟨⟨hfinite, hbelow⟩, layout_of_brace hclose hend⟩

/-- Fields that are read back are finite. -/
theorem finite_of_list : ∀ {fs : List Field} {tokens : List (List Char)} {cs behind : List Char}
    {fuel : Nat}, Field.allOf Field.isSpelled fs = true →
    Layout (Field.listTokens fs ++ ['}'] :: tokens) cs →
    fields fuel (skipIgnored cs) = (fs, behind) →
    Field.allOf Field.isFinite fs = true ∧
      ∃ cs', behind = skipIgnored cs' ∧ Layout (['}'] :: tokens) cs'
  | [], tokens, cs, behind, fuel, _, h, hread => ⟨rfl, cs, repeats_fields.eq_of_nil hread, h⟩
  | f :: fs, tokens, cs, behind, fuel, hfs, h, hread => by
      rw [Field.allOf, Bool.and_eq_true] at hfs ⊢
      rw [Field.listTokens, List.append_assoc] at h
      have hnames (g : Field) (hg : g ∈ fs) : isName g.responseKey = true :=
        Field.isName_responseKey
          (Bool.and_eq_true_iff.1 (Field.all_iff.1 (Field.allOf_iff.1 hfs.2 g hg)).1).1
      obtain ⟨token, more, hmore, htoken⟩ := exists_follows hnames tokens
      rw [hmore] at h
      obtain ⟨fuel', middle, hfield, hfields⟩ := repeats_fields.exists_of_cons hread
      obtain ⟨hfinite, hmiddle⟩ := finite_of_field hfs.1 htoken h hfield
      rw [← hmore] at hmiddle
      obtain ⟨hrest, hend⟩ := finite_of_list hfs.2 hmiddle hfields
      exact ⟨⟨hfinite, hrest⟩, hend⟩
end

/-- Fields in braces that are read back are finite. -/
theorem finite_of_selectionSet {fs : List Field} (hfs : Field.allOf Field.isSpelled fs = true)
    (h : Layout (['{'] :: (Field.listTokens fs ++ ['}'] :: tokens)) cs)
    (hread : selectionSet fuel (skipIgnored cs) = .ok (fs, rest)) :
    Field.allOf Field.isFinite fs = true ∧ Layout tokens rest := by
  obtain ⟨fuel', inner, hinner, hfields⟩ := exists_of_selectionSet_eq_ok h hread
  obtain ⟨hfinite, cs', hend, hclose⟩ := finite_of_list hfs hinner hfields
  exact ⟨hfinite, layout_of_brace hclose hend⟩

/-- Has a declaration a finite default value, if it has one? -/
def FiniteDefault (d : VariableDefinition) : Prop :=
  ∀ l ∈ d.default?, l.all Literal.isFinite (fun _ => true) = true

/-- A declaration that is read back has a finite default value, if it has one. -/
theorem finite_of_definition {d : VariableDefinition} {token : List Char} (hd : d.Spelled)
    (hopens : Opens token) (htoken : EndsType token) (hequals : token.head? ≠ some '=')
    (h : Layout (d.tokens ++ token :: tokens) cs)
    (hread : definition? fuel (skipIgnored cs) = some (d, rest)) :
    FiniteDefault d ∧ Layout (token :: tokens) rest := by
  obtain ⟨name, typeName, default?⟩ := d
  cases default? with
  | none =>
      have hwritable : VariableDefinition.Writable ⟨name, typeName, none⟩ :=
        ⟨hd.name, hd.typeName, by simp⟩
      obtain ⟨behind, hforward, hbehind⟩ :=
        exists_of_definition hwritable (Nat.zero_le _) hopens htoken hequals h
      rw [hread] at hforward
      cases hforward
      exact ⟨by simp [FiniteDefault], hbehind⟩
  | some l =>
      simp only [VariableDefinition.tokens, defaultTokens, List.cons_append] at h
      obtain ⟨behind, ⟨more, hskip, hname⟩, hbehind⟩ := exists_of_variable h hd.name
      obtain ⟨before, hcolon, hbefore⟩ := exists_of_mark hbehind
      obtain ⟨afterType, htypeSkip, -, hafterType⟩ :=
        hbefore.exists_skipIgnored_eq hd.typeName.opens
      have hends := endsType_of_layout hafterType (opens_mark '=' [])
        (.cons (by decide) (by decide) [])
      have htype := typeRef?_append hd.typeName hends
      obtain ⟨inner, hinnerSkip, hinner⟩ := exists_of_mark hafterType
      rw [hskip, definition?, hname] at hread
      simp only [Option.bind_eq_bind, Option.bind_some, hcolon, word?, if_true, htypeSkip, htype,
        hinnerSkip] at hread
      split at hread
      · next hvalue =>
          cases hread
          obtain ⟨hfinite, hlayout⟩ := finite_of_value (hd.value l rfl) hinner hvalue
          refine ⟨fun l' hl' => ?_, hlayout⟩
          cases hl'
          exact hfinite
      · cases hread

/-- Declarations that are read back have finite default values. -/
theorem finite_of_definitions {ds : List VariableDefinition} (hds : ∀ d ∈ ds, d.Spelled)
    (h : Layout (ds.flatMap VariableDefinition.tokens ++ [')'] :: tokens) cs)
    (hread : definitions fuel (skipIgnored cs) = (ds, behind)) :
    (∀ d ∈ ds, FiniteDefault d) ∧
      ∃ cs', behind = skipIgnored cs' ∧ Layout ([')'] :: tokens) cs' := by
  induction ds generalizing cs fuel with
  | nil => exact ⟨by simp, cs, repeats_definitions.eq_of_nil hread, h⟩
  | cons d ds ih =>
      obtain ⟨hd, hds⟩ := List.forall_mem_cons.1 hds
      rw [List.flatMap_cons, List.append_assoc] at h
      obtain ⟨token, more, hmore, hopens, hends, hequals⟩ := exists_behind_definition ds tokens
      rw [hmore] at h
      obtain ⟨fuel', middle, hdefinition, hdefinitions⟩ := repeats_definitions.exists_of_cons hread
      obtain ⟨hfinite, hmiddle⟩ := finite_of_definition hd hopens hends hequals h hdefinition
      rw [← hmore] at hmiddle
      obtain ⟨hrest, hend⟩ := ih hds hmiddle hdefinitions
      exact ⟨List.forall_mem_cons.2 ⟨hfinite, hrest⟩, hend⟩

/-- Declarations in parentheses that are read back have finite default values. -/
theorem finite_of_definitionList {ds : List VariableDefinition} (hds : ∀ d ∈ ds, d.Spelled)
    (h : Layout (Operation.definitionTokens ds ++ ['{'] :: tokens) cs)
    (hread : (definitionList? fuel (skipIgnored cs)).getD ([], skipIgnored cs) = (ds, rest)) :
    (∀ d ∈ ds, FiniteDefault d) ∧ Layout (['{'] :: tokens) rest := by
  cases ds with
  | nil =>
      obtain ⟨behind, hforward, hbehind⟩ :=
        exists_of_definitionList (by simp) (Nat.zero_le fuel) h
      rw [hread] at hforward
      cases hforward
      exact ⟨by simp, hbehind⟩
  | cons d ds =>
      simp only [Operation.definitionTokens, List.isEmpty_cons, Bool.false_eq_true, if_false,
        List.cons_append, List.append_assoc, List.nil_append] at h
      obtain ⟨inner, hskip, hinner⟩ := exists_of_mark h
      rw [hskip, definitionList?] at hread
      rcases hdefinitions : definitions fuel (skipIgnored inner) with ⟨found, behind⟩
      simp only [hdefinitions] at hread
      cases hclose : word? [')'] behind with
      | none => rw [hclose] at hread; cases hread
      | some after =>
          rw [hclose] at hread
          cases hread
          obtain ⟨hfinite, _, rfl, hlayout⟩ := finite_of_definitions hds hinner hdefinitions
          exact ⟨hfinite, layout_of_word (by decide) (by decide) hlayout hclose⟩

/-- The parts of an operation that was read with its kind. -/
theorem parts_of_named? {op : Operation} (h : named? fuel cs = some (op, rest)) :
    ∃ behind afterName afterDefinitions, kind? cs = some (op.kind, behind) ∧
      (match name? (skipIgnored behind) with
        | some (name, rest) => (some name, rest)
        | none => (none, skipIgnored behind)) = (op.name, afterName) ∧
      (definitionList? fuel (skipIgnored afterName)).getD ([], skipIgnored afterName) =
        (op.variableDefinitions, afterDefinitions) ∧
      selectionSet fuel (skipIgnored afterDefinitions) = .ok (op.selections, rest) := by
  unfold named? at h
  obtain ⟨⟨kind, behind⟩, hkind, h⟩ := Option.bind_eq_some_iff.1 h
  simp only at h
  split at h
  · next hset =>
      cases h
      exact ⟨behind, _, _, hkind, rfl, rfl, hset⟩
  · cases h

/-- An operation that is read back is finite. -/
theorem finite_of_operation {op : Operation} (hop : op.Spelled) (h : Layout op.tokens cs)
    (hread : operation fuel (skipIgnored cs) = .ok (op, rest)) : op.Finite := by
  obtain ⟨kind, name, ds, fs⟩ := op
  simp only [Operation.tokens] at h
  obtain ⟨start, hskip, -, hstart⟩ := h.exists_skipIgnored_eq (opens_keyword kind)
  have hnobrace : (skipIgnored cs).head? ≠ some '{' := by
    rw [hskip]
    cases kind <;> simp [Kind.keyword]
  have hnamed : named? fuel (skipIgnored cs) = some (⟨kind, name, ds, fs⟩, rest) := by
    unfold operation at hread
    split at hread
    · next hfound =>
        cases hread
        exact hfound
    · rw [selectionSet_eq_error hnobrace] at hread
      cases hread
  obtain ⟨behind, afterName, afterDefinitions, hkind, hname, hdefinitions, hset⟩ :=
    parts_of_named? hnamed
  rw [hskip, kind?_keyword] at hkind
  cases hkind
  obtain ⟨token, more, hmore, hopens, htoken⟩ :=
    exists_behind_name ds (Field.listTokens fs ++ [['}']])
  rw [hmore] at hstart
  obtain ⟨afterName', hname', hafterName⟩ :=
    exists_of_operationName hop.name hopens htoken hstart
  rw [← hmore] at hafterName
  obtain rfl : afterName = afterName' := congrArg Prod.snd (hname.symm.trans hname')
  obtain ⟨hdefaults, hafterDefinitions⟩ :=
    finite_of_definitionList hop.definitions hafterName hdefinitions
  exact ⟨hdefaults, (finite_of_selectionSet hop.selections hafterDefinitions hset).1⟩

/-- If the tokens of an operation are read as the operation, it is finite. -/
theorem finite_of_document {op : Operation} (hop : op.Spelled) (h : Layout op.tokens cs)
    (hread : document cs = .ok op) : op.Finite := by
  unfold document at hread
  split at hread
  · cases hread
  · next hoperation =>
      split at hread
      · cases hread
        exact finite_of_operation hop h hoperation
      · cases hread

end Parser

end DexCache.Query
