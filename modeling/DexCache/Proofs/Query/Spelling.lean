import DexCache.Proofs.Query.Numeral
import DexCache.Proofs.Query.Printing

/-!
# Literals in their own spelling

A document may spell a number otherwise than it would be written again.  A query around one such
literal is read with the literal that its spelling is read as, in every layout of its tokens.
-/

namespace DexCache.Query

open DexCache.Query.Parser

section Spelling

variable {spelling : List (List Char)} {l : Literal}

/-- These tokens are read as the literal, whatever stands behind them. -/
def Spells (spelling : List (List Char)) (l : Literal) : Prop :=
  ∀ (tokens : List (List Char)) (cs : List Char) (fuel : Nat), spelling.length ≤ fuel →
    Layout (spelling ++ tokens) cs →
    ∃ rest, value? fuel (skipIgnored cs) = some (l, rest) ∧ Layout tokens rest

theorem spells_tokens (hl : l.all Literal.isWritable isName = true) : Spells l.tokens l :=
  fun _ _ _ hfuel h => exists_of_value hl hfuel h

/-- A numeral spells the literal that it is read as. -/
theorem spells_numeral (n : Numeral) : Spells [n.chars] n.literal := by
  intro tokens cs fuel hfuel h
  obtain ⟨fuel, rfl⟩ : ∃ more, fuel = more + 1 :=
    Nat.exists_eq_succ_of_ne_zero (Nat.one_le_iff_ne_zero.1 hfuel)
  have hsticky : ∀ c ∈ n.chars, isSticky c = true :=
    n.forall_mem_chars (fun _ => isSticky_of_isDigit) (by decide) (by decide) (by decide)
  exact exists_of_number h hsticky n.chars_ne_nil (fun rest hrest => number?_numeral n hrest) fuel

theorem jsonChar_of_isDigit {c : Char} (h : c.isDigit = true) : Text.jsonChar c = [c] := by
  have hne {d : Char} (hd : d.isDigit = false) : c ≠ d := Decimal.ne_of_isDigit h hd
  have hbounds : 48 ≤ c.toNat ∧ c.toNat ≤ 57 := by
    simpa [Char.isDigit, UInt32.le_iff_toNat_le] using h
  rw [Text.jsonChar, if_neg (hne (by decide)), if_neg (hne (by decide)), if_neg (hne (by decide)),
    if_neg (hne (by decide)), if_neg (hne (by decide)), if_neg (hne (by decide)),
    if_neg (hne (by decide)), if_neg (by omega)]

/-- A numeral between quotes spells itself as a string. -/
theorem spells_quoted (n : Numeral) : Spells ['"' :: (n.chars ++ ['"'])] (.str n.text) := by
  have hplain : n.chars.flatMap Text.jsonChar = n.chars := by
    have hchar : ∀ c ∈ n.chars, Text.jsonChar c = [c] :=
      n.forall_mem_chars (fun _ => jsonChar_of_isDigit) (by decide) (by decide) (by decide)
    rw [List.flatMap_congr hchar, List.flatMap_singleton']
  have htokens : ['"' :: (n.chars ++ ['"'])] = (Literal.str n.text).tokens := by
    rw [Literal.tokens, Literal.chars, Text.jsonQuoted, Numeral.text, String.toList_ofList, hplain]
    all_goals simp
  rw [htokens]
  exact spells_tokens rfl

variable {tokens : List (List Char)} {cs : List Char}

theorem exists_of_entry {name : String} {fuel : Nat} (hname : isName name = true)
    (hl : Spells spelling l) (hfuel : spelling.length ≤ fuel)
    (h : Layout (name.toList :: [':'] :: (spelling ++ tokens)) cs) :
    ∃ rest, namedValue? (fuel + 1) (skipIgnored cs) = some ((name, l), rest) ∧
      Layout tokens rest := by
  obtain ⟨colon, hread, hcolon⟩ := exists_of_name h hname
  obtain ⟨before, hskip, hbefore⟩ := exists_of_mark hcolon
  obtain ⟨rest, hvalue, hrest⟩ := hl _ _ _ hfuel hbefore
  exact ⟨rest, by simp [namedValue?, hread, hskip, word?, hvalue], hrest⟩

/-- Named literals, one of them in its own spelling, are read up to the closing bracket. -/
theorem exists_of_spelled {before after : List (String × Literal)} {name : String} {c : Char}
    {fuel : Nat} (hc : c = '}' ∨ c = ')')
    (hbefore : Literal.allFields Literal.isWritable isName before = true)
    (hname : isName name = true) (hl : Spells spelling l)
    (hafter : Literal.allFields Literal.isWritable isName after = true)
    (hfuel : (Literal.fieldTokens before ++ name.toList :: [':'] ::
      (spelling ++ Literal.fieldTokens after)).length ≤ fuel)
    (h : Layout (Literal.fieldTokens before ++ name.toList :: [':'] ::
      (spelling ++ (Literal.fieldTokens after ++ [c] :: tokens))) cs) :
    ∃ rest, namedValues fuel (skipIgnored cs) = (before ++ (name, l) :: after, c :: rest) ∧
      Layout tokens rest := by
  induction before generalizing cs fuel with
  | nil =>
      simp only [Literal.fieldTokens, List.nil_append, List.length_cons, List.length_append]
        at h hfuel
      obtain ⟨fuel, rfl⟩ : ∃ more, fuel = more + 2 := ⟨fuel - 2, by omega⟩
      obtain ⟨behind, hentry, hbehind⟩ := exists_of_entry hname hl (show _ ≤ fuel by omega) h
      obtain ⟨rest, hfields, hrest⟩ :=
        exists_of_fields hc hafter (show _ ≤ fuel + 1 by omega) hbehind
      exact ⟨rest, repeats_namedValues.goesOn hentry hfields, hrest⟩
  | cons entry before ih =>
      obtain ⟨key, m⟩ := entry
      simp only [Literal.allFields, Bool.and_eq_true] at hbefore
      simp only [Literal.fieldTokens, List.cons_append, List.append_assoc, List.length_cons,
        List.length_append] at h hfuel
      obtain ⟨fuel, rfl⟩ : ∃ more, fuel = more + 2 := ⟨fuel - 2, by omega⟩
      obtain ⟨behind, hentry, hbehind⟩ := exists_of_entry hbefore.1.1 (spells_tokens hbefore.1.2)
        (show _ ≤ fuel by omega) h
      have hmore : (Literal.fieldTokens before ++ name.toList :: [':'] ::
          (spelling ++ Literal.fieldTokens after)).length ≤ fuel + 1 := by
        simp only [List.length_append, List.length_cons]
        omega
      obtain ⟨rest, hfields, hrest⟩ := ih hbefore.2 hmore hbehind
      exact ⟨rest, repeats_namedValues.goesOn hentry hfields, hrest⟩

end Spelling

/-- Tokens with blanks behind them. -/
def spaced (tokens : List (List Char)) : List Char :=
  tokens.flatMap (· ++ [' '])

/-- Blanks keep any tokens apart. -/
theorem Layout.spaced (tokens : List (List Char)) : Layout tokens (spaced tokens) := by
  induction tokens with
  | nil => exact .done .nil
  | cons token tokens ih =>
      rw [Query.spaced, List.flatMap_cons, List.append_assoc]
      exact piece token ih.blank (loose_cons _)

/-- A listing in whose filters one value is left open. -/
structure Frame where
  alias? : Option String := none
  name : String
  /-- The arguments in front of the filters and behind them. -/
  before : List (String × Literal) := []
  after : List (String × Literal) := []
  /-- The filters in front of the open one and behind it. -/
  filtersBefore : List (String × Literal) := []
  filtersAfter : List (String × Literal) := []
  /-- The name of the open filter. -/
  key : String
  subfields : List Field

namespace Frame

variable (q : Frame)

/-- The filters with this literal in the open place. -/
def filters (l : Literal) : Literal :=
  .object (q.filtersBefore ++ (q.key, l) :: q.filtersAfter)

/-- The listing with this literal in the open place. -/
def field (l : Literal) : Field where
  alias? := q.alias?
  name := q.name
  arguments := q.before ++ ("filters", q.filters l) :: q.after
  subfields := q.subfields

/-- The tokens of the filters with this spelling in the open place. -/
def filterTokens (spelling : List (List Char)) : List (List Char) :=
  ['{'] :: (Literal.fieldTokens q.filtersBefore ++ q.key.toList :: [':'] ::
    (spelling ++ (Literal.fieldTokens q.filtersAfter ++ [['}']])))

/-- The tokens of a query for the listing alone. -/
def tokens (spelling : List (List Char)) : List (List Char) :=
  ['{'] :: (Field.aliasTokens q.alias? ++ q.name.toList :: ['('] ::
    (Literal.fieldTokens q.before ++ "filters".toList :: [':'] :: (q.filterTokens spelling ++
      (Literal.fieldTokens q.after ++ [')'] :: ['{'] ::
        (Field.listTokens q.subfields ++ [['}'], ['}']])))))

/-- All but the open place can be written. -/
structure Writable : Prop where
  alias? : q.alias?.all isName = true
  name : isName q.name = true
  before : Literal.allFields Literal.isWritable isName q.before = true
  after : Literal.allFields Literal.isWritable isName q.after = true
  filtersBefore : Literal.allFields Literal.isWritable isName q.filtersBefore = true
  filtersAfter : Literal.allFields Literal.isWritable isName q.filtersAfter = true
  key : isName q.key = true
  subfields : Field.allOf Field.isWritable q.subfields = true
  selected : q.subfields ≠ []

variable {q} {tokens : List (List Char)} {cs : List Char} {spelling : List (List Char)}
  {l : Literal}

/-- The filters are read with the literal that the open place spells. -/
theorem Writable.spells_filters (hq : q.Writable) (hl : Spells spelling l) :
    Spells (q.filterTokens spelling) (q.filters l) := by
  intro tokens cs fuel hfuel h
  simp only [filterTokens, List.cons_append, List.append_assoc, List.nil_append,
    List.length_cons, List.length_append, List.length_nil] at h hfuel
  obtain ⟨fuel, rfl⟩ : ∃ more, fuel = more + 1 := Nat.exists_eq_succ_of_ne_zero (by omega)
  obtain ⟨inner, hskip, hinner⟩ := exists_of_mark h
  have hmore : (Literal.fieldTokens q.filtersBefore ++ q.key.toList :: [':'] ::
      (spelling ++ Literal.fieldTokens q.filtersAfter)).length ≤ fuel := by
    simp only [List.length_append, List.length_cons]
    omega
  obtain ⟨rest, hfields, hrest⟩ := exists_of_spelled (.inl rfl) hq.filtersBefore hq.key hl
    hq.filtersAfter hmore hinner
  refine ⟨rest, ?_, hrest⟩
  rw [hskip, value?, hfields]
  rfl

theorem Writable.tokens_ne_nil (hq : q.Writable) (hne : ∀ token ∈ spelling, token ≠ []) :
    ∀ token ∈ q.tokens spelling, token ≠ [] := by
  have hmark (c : Char) : [c] ≠ [] := List.cons_ne_nil c []
  have halias : ∀ token ∈ Field.aliasTokens q.alias?, token ≠ [] := by
    have hname := hq.alias?
    revert hname
    cases q.alias? with
    | none => exact fun _ _ htoken => nomatch htoken
    | some a =>
        intro hname
        simp only [Field.aliasTokens, List.forall_mem_cons]
        exact ⟨toList_ne_nil_of_isName hname, hmark ':', fun _ htoken => nomatch htoken⟩
  have hfilters : ∀ token ∈ q.filterTokens spelling, token ≠ [] := by
    simp only [filterTokens, List.forall_mem_cons, List.forall_mem_append]
    exact ⟨hmark '{', Literal.fieldTokens_ne_nil hq.filtersBefore,
      toList_ne_nil_of_isName hq.key, hmark ':', hne,
      Literal.fieldTokens_ne_nil hq.filtersAfter, hmark '}', fun _ htoken => nomatch htoken⟩
  simp only [Frame.tokens, List.forall_mem_cons, List.forall_mem_append]
  exact ⟨hmark '{', halias, toList_ne_nil_of_isName hq.name, hmark '(',
    Literal.fieldTokens_ne_nil hq.before, by decide, hmark ':', hfilters,
    Literal.fieldTokens_ne_nil hq.after, hmark ')', hmark '{',
    Field.listTokens_ne_nil hq.subfields, hmark '}', hmark '}', fun _ htoken => nomatch htoken⟩

/-- The listing is read with that literal. -/
theorem Writable.exists_of_field (hq : q.Writable) (hl : Spells spelling l) {fuel : Nat}
    (hfuel : (q.tokens spelling).length ≤ fuel)
    (h : Layout ((q.tokens spelling).tail ++ tokens) cs) :
    ∃ rest, field? fuel (skipIgnored cs) = some (q.field l, rest) ∧
      Layout (['}'] :: tokens) rest := by
  simp only [Frame.tokens, List.tail_cons, List.cons_append, List.append_assoc, List.nil_append,
    List.length_cons, List.length_append, List.length_nil] at h hfuel
  obtain ⟨fuel, rfl⟩ : ∃ more, fuel = more + 1 := Nat.exists_eq_succ_of_ne_zero (by omega)
  obtain ⟨first, behind, rest, hread, hnamed, hrest⟩ :=
    exists_of_alias hq.alias? hq.name (opens_mark '(' []) (by decide) h
  obtain ⟨inner, hskip, hinner⟩ := exists_of_mark hrest
  have hmore : (Literal.fieldTokens q.before ++ "filters".toList :: [':'] ::
      (q.filterTokens spelling ++ Literal.fieldTokens q.after)).length ≤ fuel := by
    simp only [List.length_append, List.length_cons]
    omega
  obtain ⟨behind', hentries, hbehind'⟩ := exists_of_spelled (.inr rfl) hq.before
    (show isName "filters" = true by decide) (hq.spells_filters hl) hq.after hmore hinner
  have harguments : (arguments? fuel (skipIgnored rest)).getD ([], skipIgnored rest) =
      ((q.field l).arguments, behind') := by
    rw [hskip, arguments?, hentries]
    rfl
  obtain ⟨rest', hset, hrest'⟩ := exists_of_selectionSet hq.subfields hq.selected
    (show _ ≤ fuel by omega) hbehind'
  exact ⟨rest', field?_of_parts hread hnamed harguments (by rw [hset]; rfl), hrest'⟩

/-- Every layout of the query is read as the listing with that literal. -/
theorem Writable.document_eq (hq : q.Writable) (hl : Spells spelling l)
    (hne : ∀ token ∈ spelling, token ≠ []) (h : Layout (q.tokens spelling) cs) :
    document cs = .ok { selections := [q.field l] } := by
  have hlength := h.length_le (hq.tokens_ne_nil hne)
  obtain ⟨fuel, hfuel⟩ : ∃ fuel, 2 * cs.length + 2 = fuel + 2 := ⟨_, rfl⟩
  have hlayout : Layout (['{'] :: ((q.tokens spelling).tail ++ [])) cs := by
    rw [List.append_nil]
    exact h
  obtain ⟨inner, hskip, hinner⟩ := exists_of_mark hlayout
  obtain ⟨behind, hfield, hbehind⟩ := hq.exists_of_field hl (show _ ≤ fuel by omega) hinner
  obtain ⟨rest, hbrace, hrest⟩ := exists_of_mark hbehind
  have hclosed : fields fuel (skipIgnored behind) = ([], '}' :: rest) := by
    rw [hbrace]
    exact repeats_fields.stops (fun fuel => field?_closing fuel rest) fuel
  have hset : selectionSet (fuel + 2) ('{' :: inner) = .ok ([q.field l], rest) := by
    simp only [selectionSet, repeats_fields.goesOn hfield hclosed]
  have hnamed : named? (fuel + 2) ('{' :: inner) = none := rfl
  rw [document, hfuel, hskip, operation, hnamed, hset]
  simp only [Except.map, hrest.skipIgnored_eq_nil]

end Frame

end DexCache.Query
