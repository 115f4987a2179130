import DexCache.Proofs.Query.Writable
import DexCache.Query.Parser

/-!
# Reading a layout

Every layout of the tokens of an operation that can be written is read as that operation.

Each reader starts behind ignorable text and leaves the layout of the tokens that follow its
own.  A fuel of as many steps as there are tokens is enough for it.
-/

namespace DexCache.Query

namespace Parser

variable {tokens : List (List Char)} {cs : List Char}

/-- Skipping finds a punctuation mark. -/
theorem exists_of_mark {c : Char} (h : Layout ([c] :: tokens) cs)
    (hc : isSeparator c = false := by decide) (hcomment : c ≠ '#' := by decide) :
    ∃ rest, skipIgnored cs = c :: rest ∧ Layout tokens rest := by
  obtain ⟨rest, hskip, -, hrest⟩ := h.exists_skipIgnored_eq (opens_mark c [] hc hcomment)
  exact ⟨rest, hskip, hrest⟩

/-- Skipping finds a name, and the name is read. -/
theorem exists_of_name {s : String} (h : Layout (s.toList :: tokens) cs) (hs : isName s = true) :
    ∃ rest, name? (skipIgnored cs) = some (s, rest) ∧ Layout tokens rest := by
  obtain ⟨rest, hskip, hapart, hrest⟩ := h.exists_skipIgnored_eq (opens_of_isName hs)
  exact ⟨rest, by rw [hskip, name?_of_apart hs hapart], hrest⟩

section Repeating

variable {α : Type}

/-- A reader that reads as many as there are of what another reads. -/
structure Repeats (one : Nat → List Char → Option (α × List Char))
    (many : Nat → List Char → List α × List Char) : Prop where
  zero : ∀ cs, many 0 cs = ([], cs)
  succ : ∀ fuel cs, many (fuel + 1) cs =
    match one fuel cs with
    | none => ([], cs)
    | some (a, rest) =>
      let (more, rest) := many fuel (skipIgnored rest)
      (a :: more, rest)

theorem repeats_items : Repeats value? items where
  zero _ := by rw [items]
  succ fuel cs := by
    rw [items]
    cases value? fuel cs <;> rfl

theorem repeats_namedValues : Repeats namedValue? namedValues where
  zero _ := by rw [namedValues]
  succ fuel cs := by
    rw [namedValues]
    cases namedValue? fuel cs <;> rfl

theorem repeats_fields : Repeats field? fields where
  zero _ := by rw [fields]
  succ fuel cs := by
    rw [fields]
    cases field? fuel cs <;> rfl

theorem repeats_definitions : Repeats definition? definitions where
  zero _ := by rw [definitions]
  succ fuel cs := by
    rw [definitions]
    cases definition? fuel cs <;> rfl

variable {one : Nat → List Char → Option (α × List Char)}
  {many : Nat → List Char → List α × List Char} {cs behind : List Char} {fuel : Nat}

/-- Where there is none, none is read. -/
theorem Repeats.stops (hmany : Repeats one many) (h : ∀ fuel, one fuel cs = none) (fuel : Nat) :
    many fuel cs = ([], cs) := by
  cases fuel with
  | zero => exact hmany.zero cs
  | succ fuel => rw [hmany.succ, h]

/-- Behind the first the others are read. -/
theorem Repeats.goesOn (hmany : Repeats one many) {a : α} {as : List α} {middle : List Char}
    (hone : one fuel cs = some (a, middle))
    (hrest : many fuel (skipIgnored middle) = (as, behind)) :
    many (fuel + 1) cs = (a :: as, behind) := by
  rw [hmany.succ, hone]
  simp only [hrest]

/-- Where nothing is read the reader stays. -/
theorem Repeats.eq_of_nil (hmany : Repeats one many) (h : many fuel cs = ([], behind)) :
    behind = cs := by
  cases fuel with
  | zero =>
      rw [hmany.zero] at h
      exact (congrArg Prod.snd h).symm
  | succ fuel =>
      rw [hmany.succ] at h
      split at h
      · exact (congrArg Prod.snd h).symm
      · cases h

/-- The first was read, and behind it the others. -/
theorem Repeats.exists_of_cons (hmany : Repeats one many) {a : α} {as : List α}
    (h : many fuel cs = (a :: as, behind)) :
    ∃ fuel' middle, one fuel' cs = some (a, middle) ∧
      many fuel' (skipIgnored middle) = (as, behind) := by
  cases fuel with
  | zero =>
      rw [hmany.zero] at h
      cases h
  | succ fuel =>
      rw [hmany.succ] at h
      split at h
      · cases h
      · next middle hone =>
          cases h
          exact ⟨fuel, middle, hone, rfl⟩

end Repeating

/-- Where a bracket closes there is no literal. -/
theorem value?_closing (fuel : Nat) (rest : List Char) : value? fuel (']' :: rest) = none := by
  cases fuel with
  | zero => rfl
  | succ fuel => simp [value?, number?_eq_none, name?, isNameStart]

theorem namedValue?_closing {c : Char} (hc : c = '}' ∨ c = ')') (fuel : Nat) (rest : List Char) :
    namedValue? fuel (c :: rest) = none := by
  cases fuel with
  | zero => rfl
  | succ fuel =>
      rcases hc with rfl | rfl
      all_goals
        simp [namedValue?, name?, isNameStart]

theorem field?_closing (fuel : Nat) (rest : List Char) : field? fuel ('}' :: rest) = none := by
  cases fuel with
  | zero => rfl
  | succ fuel => simp [field?, name?, isNameStart]

/-- A text that starts like a name or a number is a number or a word. -/
theorem value?_sticky {c : Char} (hc : isSticky c = true) (fuel : Nat) (more : List Char) :
    value? (fuel + 1) (c :: more) =
      match number? (c :: more) with
      | some result => some result
      | none =>
        (name? (c :: more)).map fun (name, rest) =>
          (if name = "true" then .bool true
            else if name = "false" then .bool false
            else if name = "null" then .null
            else .enumValue name, rest) := by
  have hne {d : Char} (hd : isSticky d = false) (rest : List Char) :
      c :: more = d :: rest → False := by
    intro heq
    rw [(List.cons.inj heq).1, hd] at hc
    cases hc
  exact value?.eq_6 _ _ (hne (by decide)) (hne (by decide)) (hne (by decide)) (hne (by decide))

/-- Skipping finds a number, and the number is read. -/
theorem exists_of_number {text : List Char} {l : Literal} (h : Layout (text :: tokens) cs)
    (hsticky : ∀ c ∈ text, isSticky c = true) (hne : text ≠ [])
    (hread : ∀ rest : List Char, (∀ c ∈ rest.head?, isSticky c = false) →
      number? (text ++ rest) = some (l, rest)) (fuel : Nat) :
    ∃ rest, value? (fuel + 1) (skipIgnored cs) = some (l, rest) ∧ Layout tokens rest := by
  obtain ⟨c, more, rfl⟩ := List.exists_cons_of_ne_nil hne
  have hc := hsticky c List.mem_cons_self
  obtain ⟨rest, hskip, hapart, hrest⟩ := h.exists_skipIgnored_eq (opens_of_isSticky hc more)
  have hnumber := hread rest (hapart.not_isSticky hne hsticky)
  rw [List.cons_append] at hskip hnumber
  exact ⟨rest, by rw [hskip, value?_sticky hc, hnumber], hrest⟩

/-- Skipping finds a word, and the word is read. -/
theorem exists_of_word {word : String} (h : Layout (word.toList :: tokens) cs)
    (hword : isName word = true) (fuel : Nat) :
    ∃ rest, value? (fuel + 1) (skipIgnored cs) =
        some (if word = "true" then .bool true
          else if word = "false" then .bool false
          else if word = "null" then .null
          else .enumValue word, rest) ∧ Layout tokens rest := by
  obtain ⟨rest, hskip, hapart, hrest⟩ := h.exists_skipIgnored_eq (opens_of_isName hword)
  have hname := name?_of_apart hword hapart
  obtain ⟨c, more, heq, hc, -⟩ := exists_of_isName hword
  have hminus : c ≠ '-' := by
    rintro rfl
    cases hc
  have hdigit := not_isDigit_of_isNameStart hc
  rw [heq, List.cons_append] at hskip hname
  have hsticky := isSticky_of_isNameChar (isNameChar_of_isNameStart hc)
  refine ⟨rest, ?_, hrest⟩
  rw [hskip, value?_sticky hsticky, number?_eq_none hminus hdigit, hname]
  rfl

/-- Skipping finds a variable, and its name is read. -/
theorem exists_of_variable {s : String} (h : Layout (('$' :: s.toList) :: tokens) cs)
    (hs : isName s = true) :
    ∃ rest, (∃ more, skipIgnored cs = '$' :: more ∧ name? more = some (s, rest)) ∧
      Layout tokens rest := by
  obtain ⟨rest, hskip, hapart, hrest⟩ := h.exists_skipIgnored_eq
    (opens_mark '$' s.toList)
  -- the dollar is no part of the name, but the name ends where the token does
  have hname : Apart s.toList rest := by
    intro a ha b hb
    refine hapart a ?_ b hb
    rw [List.getLast?_cons, ha]
    rfl
  exact ⟨rest, ⟨s.toList ++ rest, hskip, name?_of_apart hs hname⟩, hrest⟩

/-- A literal without parts is read back. -/
theorem exists_of_atom {l : Literal} (h : Layout (l.chars :: tokens) cs)
    (hl : l.isWritable = true) (hlist : ∀ items, l ≠ .list items)
    (hobject : ∀ fields, l ≠ .object fields) (fuel : Nat) :
    ∃ rest, value? (fuel + 1) (skipIgnored cs) = some (l, rest) ∧ Layout tokens rest := by
  cases l with
  | null => exact exists_of_word h (show isName "null" = true by decide) fuel
  | bool value =>
      cases value with
      | true => exact exists_of_word h (show isName "true" = true by decide) fuel
      | false => exact exists_of_word h (show isName "false" = true by decide) fuel
  | int i =>
      exact exists_of_number h (fun c hc => isSticky_of_mem_intChars hc) (intChars_ne_nil _)
        (fun rest hrest => number?_int i hrest) fuel
  | float d =>
      have hd : d.isFinite = true := (Bool.and_eq_true_iff.1 hl).2
      exact exists_of_number h (fun c hc => isSticky_of_mem_double hd hc) (doubleChars_ne_nil hd)
        (fun rest hrest => number?_double hd hrest) fuel
  | str s =>
      obtain ⟨rest, hskip, -, hrest⟩ := h.exists_skipIgnored_eq
        (opens_mark '"' _)
      have hread := stringRest?_quoted s.toList rest
      refine ⟨rest, ?_, hrest⟩
      rw [hskip, Literal.chars, Text.jsonQuoted, List.cons_append, List.append_assoc,
        List.singleton_append, value?, hread]
      simp
  | enumValue name =>
      simp only [Literal.isWritable, Literal.isSpelled, Literal.isFinite, Bool.and_true,
        Bool.and_eq_true, Bool.not_eq_true', List.contains_eq_mem, decide_eq_false_iff_not,
        Literal.reserved, List.mem_cons, List.not_mem_nil, or_false, not_or] at hl
      obtain ⟨hname, htrue, hfalse, hnull⟩ := hl
      have hread := exists_of_word h hname fuel
      rw [if_neg htrue, if_neg hfalse, if_neg hnull] at hread
      exact hread
  | list items => exact absurd rfl (hlist items)
  | object fields => exact absurd rfl (hobject fields)
  | var name =>
      have hname : isName name = true := (Bool.and_eq_true_iff.1 hl).1
      obtain ⟨rest, hread, hrest⟩ := exists_of_variable h hname
      obtain ⟨more, hskip, hmore⟩ := hread
      refine ⟨rest, ?_, hrest⟩
      rw [hskip, value?, hmore]
      rfl

-- The readers of literals call one another, so their lemmas are proved together, by recursion
-- on the literal; the fuel only has to outlast its tokens.
mutual
/-- A literal is read back. -/
theorem exists_of_value : ∀ {l : Literal} {tokens : List (List Char)} {cs : List Char}
    {fuel : Nat}, l.all Literal.isWritable isName = true → l.tokens.length ≤ fuel →
    Layout (l.tokens ++ tokens) cs →
    ∃ rest, value? fuel (skipIgnored cs) = some (l, rest) ∧ Layout tokens rest
  | .list ls, tokens, cs, fuel, hl, hfuel, h => by
      simp only [Literal.tokens, List.cons_append, List.append_assoc, List.nil_append,
        List.length_cons, List.length_append, List.length_nil] at h hfuel
      obtain ⟨fuel, rfl⟩ : ∃ more, fuel = more + 1 := Nat.exists_eq_succ_of_ne_zero (by omega)
      obtain ⟨inner, hskip, hinner⟩ := exists_of_mark h
      obtain ⟨rest, hitems, hrest⟩ := exists_of_items hl (show _ < fuel by omega) hinner
      refine ⟨rest, ?_, hrest⟩
      rw [hskip, value?, hitems]
      rfl
  | .object fs, tokens, cs, fuel, hl, hfuel, h => by
      simp only [Literal.tokens, List.cons_append, List.append_assoc, List.nil_append,
        List.length_cons, List.length_append, List.length_nil] at h hfuel
      obtain ⟨fuel, rfl⟩ : ∃ more, fuel = more + 1 := Nat.exists_eq_succ_of_ne_zero (by omega)
      obtain ⟨inner, hskip, hinner⟩ := exists_of_mark h
      obtain ⟨rest, hfields, hrest⟩ := exists_of_fields (.inl rfl) hl (show _ ≤ fuel by omega)
        hinner
      refine ⟨rest, ?_, hrest⟩
      rw [hskip, value?, hfields]
      rfl
  | .null, _, _, fuel + 1, hl, _, h => exists_of_atom h hl (by simp) (by simp) fuel
  | .bool _, _, _, fuel + 1, hl, _, h => exists_of_atom h hl (by simp) (by simp) fuel
  | .int _, _, _, fuel + 1, hl, _, h => exists_of_atom h hl (by simp) (by simp) fuel
  | .float _, _, _, fuel + 1, hl, _, h => exists_of_atom h hl (by simp) (by simp) fuel
  | .str _, _, _, fuel + 1, hl, _, h => exists_of_atom h hl (by simp) (by simp) fuel
  | .enumValue _, _, _, fuel + 1, hl, _, h => exists_of_atom h hl (by simp) (by simp) fuel
  | .var _, _, _, fuel + 1, hl, _, h => exists_of_atom h hl (by simp) (by simp) fuel

/-- Literals up to the closing bracket are read back. -/
theorem exists_of_items : ∀ {ls : List Literal} {tokens : List (List Char)} {cs : List Char}
    {fuel : Nat}, Literal.allItems Literal.isWritable isName ls = true →
    (Literal.itemTokens ls).length < fuel →
    Layout (Literal.itemTokens ls ++ [']'] :: tokens) cs →
    ∃ rest, items fuel (skipIgnored cs) = (ls, ']' :: rest) ∧ Layout tokens rest
  | [], _, _, fuel, _, _, h => by
      obtain ⟨rest, hskip, hrest⟩ := exists_of_mark h
      refine ⟨rest, ?_, hrest⟩
      rw [hskip]
      exact repeats_items.stops (fun fuel => value?_closing fuel rest) fuel
  | l :: ls, tokens, cs, fuel + 1, hl, hfuel, h => by
      rw [Literal.allItems, Bool.and_eq_true] at hl
      have hpos := l.tokens_pos
      simp only [Literal.itemTokens, List.append_assoc, List.length_append] at h hfuel
      obtain ⟨behind, hvalue, hbehind⟩ := exists_of_value hl.1 (show _ ≤ fuel by omega) h
      obtain ⟨rest, hitems, hrest⟩ := exists_of_items hl.2 (show _ < fuel by omega) hbehind
      exact ⟨rest, repeats_items.goesOn hvalue hitems, hrest⟩

/-- Named literals up to the closing bracket are read back. -/
theorem exists_of_fields : ∀ {fs : List (String × Literal)} {c : Char}
    {tokens : List (List Char)} {cs : List Char} {fuel : Nat}, c = '}' ∨ c = ')' →
    Literal.allFields Literal.isWritable isName fs = true →
    (Literal.fieldTokens fs).length ≤ fuel →
    Layout (Literal.fieldTokens fs ++ [c] :: tokens) cs →
    ∃ rest, namedValues fuel (skipIgnored cs) = (fs, c :: rest) ∧ Layout tokens rest
  | [], c, _, _, fuel, hc, _, _, h => by
      have hmark : isSeparator c = false ∧ c ≠ '#' := by
        rcases hc with rfl | rfl
        · decide
        · decide
      obtain ⟨rest, hskip, hrest⟩ := exists_of_mark h hmark.1 hmark.2
      refine ⟨rest, ?_, hrest⟩
      rw [hskip]
      exact repeats_namedValues.stops (fun fuel => namedValue?_closing hc fuel rest) fuel
  | (name, l) :: fs, c, tokens, cs, fuel, hc, hl, hfuel, h => by
      simp only [Literal.allFields, Bool.and_eq_true] at hl
      simp only [Literal.fieldTokens, List.cons_append, List.append_assoc, List.length_cons,
        List.length_append] at h hfuel
      -- one step of fuel for the pair and one for its value
      obtain ⟨fuel, rfl⟩ : ∃ more, fuel = more + 2 := ⟨fuel - 2, by omega⟩
      obtain ⟨colon, hname, hcolon⟩ := exists_of_name h hl.1.1
      obtain ⟨before, hskip, hbefore⟩ := exists_of_mark hcolon
      obtain ⟨behind, hvalue, hbehind⟩ := exists_of_value hl.1.2 (show _ ≤ fuel by omega) hbefore
      obtain ⟨rest, hfields, hrest⟩ :=
        exists_of_fields hc hl.2 (show _ ≤ fuel + 1 by omega) hbehind
      have hnamed : namedValue? (fuel + 1) (skipIgnored cs) = some ((name, l), behind) := by
        simp [namedValue?, hname, hskip, word?, hvalue]
      exact ⟨rest, repeats_namedValues.goesOn hnamed hfields, hrest⟩
end

theorem aliased?_eq_none {cs : List Char} (h : cs.head? ≠ some ':') : aliased? cs = none :=
  aliased?.eq_2 _ fun _ heq => h (heq ▸ rfl)

theorem arguments?_eq_none {cs : List Char} (h : cs.head? ≠ some '(') (fuel : Nat) :
    arguments? fuel cs = none :=
  arguments?.eq_2 _ _ fun _ heq => h (heq ▸ rfl)

theorem selectionSet_eq_error {cs : List Char} (h : cs.head? ≠ some '{') (fuel : Nat) :
    selectionSet fuel cs = .error cs := by
  cases fuel with
  | zero => rfl
  | succ fuel => exact selectionSet.eq_3 _ _ fun _ heq => h (heq ▸ rfl)

/-- A token that no field goes on with. -/
structure Follows (token : List Char) : Prop where
  opens : Opens token
  colon : token.head? ≠ some ':'
  parenthesis : token.head? ≠ some '('
  brace : token.head? ≠ some '{'

/-- Arguments are read back where there are any. -/
theorem exists_of_arguments {arguments : List (String × Literal)} {token : List Char}
    {fuel : Nat} (hl : Literal.allFields Literal.isWritable isName arguments = true)
    (hfuel : (argumentTokens arguments).length ≤ fuel) (hopens : Opens token)
    (htoken : token.head? ≠ some '(')
    (h : Layout (argumentTokens arguments ++ token :: tokens) cs) :
    ∃ rest, (arguments? fuel (skipIgnored cs)).getD ([], skipIgnored cs) = (arguments, rest) ∧
      Layout (token :: tokens) rest := by
  cases arguments with
  | nil =>
      refine ⟨skipIgnored cs, ?_, h.skip hopens⟩
      rw [arguments?_eq_none]
      · rfl
      · rw [h.head?_skipIgnored hopens]
        exact htoken
  | cons a arguments =>
      simp only [argumentTokens, List.isEmpty_cons, Bool.false_eq_true, if_false,
        List.cons_append, List.append_assoc, List.nil_append, List.length_cons,
        List.length_append] at h hfuel
      obtain ⟨inner, hskip, hinner⟩ := exists_of_mark h
      obtain ⟨rest, hfields, hrest⟩ := exists_of_fields (.inr rfl) hl
        (show _ ≤ fuel by omega) hinner
      refine ⟨rest, ?_, hrest⟩
      rw [hskip, arguments?, hfields]
      rfl

theorem follows_brace : Follows ['}'] :=
  ⟨opens_mark '}' [], by decide, by decide, by decide⟩

theorem follows_name {s : String} (hs : isName s = true) : Follows s.toList := by
  obtain ⟨c, rest, heq, hc, -⟩ := exists_of_isName hs
  have hne {d : Char} (hd : isNameStart d = false) : s.toList.head? ≠ some d := by
    rw [heq, List.head?_cons]
    intro hcd
    rw [Option.some.inj hcd, hd] at hc
    cases hc
  exact ⟨opens_of_isName hs, hne (by decide), hne (by decide), hne (by decide)⟩

/-- The tokens of fields and a closing brace go on with no field in front of them. -/
theorem exists_follows {fs : List Field} (hfs : ∀ f ∈ fs, isName f.responseKey = true)
    (tokens : List (List Char)) : ∃ token more,
      Field.listTokens fs ++ ['}'] :: tokens = token :: more ∧ Follows token := by
  cases fs with
  | nil => exact ⟨_, _, rfl, follows_brace⟩
  | cons f fs =>
      obtain ⟨more, hmore⟩ := f.exists_tokens_eq
      refine ⟨f.responseKey.toList, more ++ (Field.listTokens fs ++ ['}'] :: tokens), ?_,
        follows_name (hfs f List.mem_cons_self)⟩
      rw [Field.listTokens, hmore, List.append_assoc, List.cons_append]

/-- The first token behind the name of a field is no colon. -/
theorem head?_of_behind (arguments : List (String × Literal)) (subfields : List Field)
    (tokens : List (List Char)) {token : List Char} (htoken : Follows token) :
    ∃ first more, argumentTokens arguments ++ ((if subfields.isEmpty then []
        else ['{'] :: (Field.listTokens subfields ++ [['}']])) ++ token :: tokens) =
      first :: more ∧ Opens first ∧ first.head? ≠ some ':' := by
  cases arguments with
  | cons a arguments => exact ⟨_, _, rfl, opens_mark '(' [], by decide⟩
  | nil =>
      cases subfields with
      | cons f fs => exact ⟨_, _, rfl, opens_mark '{' [], by decide⟩
      | nil => exact ⟨_, _, rfl, htoken.opens, htoken.colon⟩

/-- The alias and the name of a field are read back. -/
theorem exists_of_alias {alias? : Option String} {name : String} {token : List Char}
    (halias : alias?.all isName = true) (hname : isName name = true) (hopens : Opens token)
    (htoken : token.head? ≠ some ':')
    (h : Layout (Field.aliasTokens alias? ++ name.toList :: token :: tokens) cs) :
    ∃ first behind rest, name? (skipIgnored cs) = some (first, behind) ∧
      (match aliased? (skipIgnored behind) with
        | some (name, rest) => (some first, name, rest)
        | none => (none, first, skipIgnored behind)) = (alias?, name, rest) ∧
      Layout (token :: tokens) rest := by
  cases alias? with
  | none =>
      obtain ⟨behind, hread, hbehind⟩ := exists_of_name h hname
      refine ⟨name, behind, skipIgnored behind, hread, ?_, hbehind.skip hopens⟩
      rw [aliased?_eq_none]
      rw [hbehind.head?_skipIgnored hopens]
      exact htoken
  | some a =>
      obtain ⟨behind, hread, hbehind⟩ := exists_of_name h halias
      obtain ⟨inner, hskip, hinner⟩ := exists_of_mark hbehind
      obtain ⟨rest, hread', hrest⟩ := exists_of_name hinner hname
      refine ⟨a, behind, rest, hread, ?_, hrest⟩
      rw [hskip, aliased?, hread']

/-- A field is read part by part. -/
theorem field?_of_parts {fuel : Nat} {cs behind rest rest' rest'' : List Char} {first : String}
    {f : Field} (hread : name? cs = some (first, behind))
    (hnamed : (match aliased? (skipIgnored behind) with
        | some (name, rest) => (some first, name, rest)
        | none => (none, first, skipIgnored behind)) = (f.alias?, f.name, rest))
    (harguments : (arguments? fuel (skipIgnored rest)).getD ([], skipIgnored rest) =
      (f.arguments, rest'))
    (hsubfields : (match selectionSet fuel (skipIgnored rest') with
        | .ok (subfields, rest) => (subfields, rest)
        | .error _ => ([], skipIgnored rest')) = (f.subfields, rest'')) :
    field? (fuel + 1) cs = some (f, rest'') := by
  obtain ⟨alias?, name, arguments, subfields⟩ := f
  cases haliased : aliased? (skipIgnored behind)
  all_goals
    rw [haliased] at hnamed
    simp only [Prod.mk.injEq] at hnamed harguments
    obtain ⟨rfl, rfl, rfl⟩ := hnamed
    cases hset : selectionSet fuel (skipIgnored rest')
    all_goals
      rw [hset] at hsubfields
      simp only [Prod.mk.injEq] at hsubfields
      obtain ⟨rfl, rfl⟩ := hsubfields
      simp [field?, hread, haliased, harguments, hset]

mutual
/-- A field is read back. -/
theorem exists_of_field : ∀ {f : Field} {token : List Char} {tokens : List (List Char)}
    {cs : List Char} {fuel : Nat}, f.all Field.isWritable = true → f.tokens.length ≤ fuel →
    Follows token → Layout (f.tokens ++ token :: tokens) cs →
    ∃ rest, field? fuel (skipIgnored cs) = some (f, rest) ∧ Layout (token :: tokens) rest
  | ⟨alias?, name, arguments, subfields⟩, token, tokens, cs, fuel, hf, hfuel, htoken, h => by
      simp only [Field.all, Field.isWritable, Bool.and_eq_true] at hf
      obtain ⟨⟨⟨halias, hname⟩, harguments⟩, hsubfields⟩ := hf
      simp only [Field.tokens, List.append_assoc, List.cons_append, List.length_append,
        List.length_cons] at h hfuel
      obtain ⟨fuel, rfl⟩ : ∃ more, fuel = more + 1 := Nat.exists_eq_succ_of_ne_zero (by omega)
      obtain ⟨next, more, hmore, hopens, hcolon⟩ :=
        head?_of_behind arguments subfields tokens htoken
      rw [hmore] at h
      obtain ⟨first, behind, rest, hread, hnamed, hrest⟩ :=
        exists_of_alias halias hname hopens hcolon h
      rw [← hmore] at hrest
      cases hempty : subfields.isEmpty with
      | true =>
          rw [hempty] at hrest
          simp only [if_true, List.nil_append] at hrest
          obtain ⟨behind', hargs, hbehind'⟩ := exists_of_arguments harguments
            (show _ ≤ fuel by omega) htoken.opens htoken.parenthesis hrest
          refine ⟨skipIgnored behind', ?_, hbehind'.skip htoken.opens⟩
          -- no brace follows, so a set of fields is looked for in vain
          have hnone : selectionSet fuel (skipIgnored behind') = .error (skipIgnored behind') := by
            refine selectionSet_eq_error ?_ fuel
            rw [hbehind'.head?_skipIgnored htoken.opens]
            exact htoken.brace
          refine field?_of_parts hread hnamed hargs ?_
          rw [hnone, List.isEmpty_iff.1 hempty]
      | false =>
          rw [hempty] at hrest hfuel
          simp only [Bool.false_eq_true, if_false, List.cons_append, List.append_assoc,
            List.nil_append, List.length_cons, List.length_append] at hrest hfuel
          obtain ⟨behind', hargs, hbehind'⟩ := exists_of_arguments harguments
            (show _ ≤ fuel by omega) (opens_mark '{' []) (by decide) hrest
          obtain ⟨inner, hskip, hinner⟩ := exists_of_mark hbehind'
          obtain ⟨fuel, rfl⟩ : ∃ more, fuel = more + 1 :=
            Nat.exists_eq_succ_of_ne_zero (by omega)
          obtain ⟨rest', hlist, hrest'⟩ := exists_of_list hsubfields (show _ < fuel by omega) hinner
          refine ⟨rest', ?_, hrest'⟩
          have hset : selectionSet (fuel + 1) (skipIgnored behind') = .ok (subfields, rest') := by
            rw [hskip, selectionSet, hlist]
            cases subfields with
            | nil => cases hempty
            | cons f fs => rfl
          refine field?_of_parts hread hnamed hargs ?_
          rw [hset]

/-- Fields up to the closing brace are read back. -/
theorem exists_of_list : ∀ {fs : List Field} {tokens : List (List Char)} {cs : List Char}
    {fuel : Nat}, Field.allOf Field.isWritable fs = true →
    (Field.listTokens fs).length < fuel → Layout (Field.listTokens fs ++ ['}'] :: tokens) cs →
    ∃ rest, fields fuel (skipIgnored cs) = (fs, '}' :: rest) ∧ Layout tokens rest
  | [], tokens, cs, fuel + 1, _, _, h => by
      obtain ⟨rest, hskip, hrest⟩ := exists_of_mark h
      refine ⟨rest, ?_, hrest⟩
      rw [hskip]
      exact repeats_fields.stops (fun fuel => field?_closing fuel rest) (fuel + 1)
  | f :: fs, tokens, cs, fuel + 1, hfs, hfuel, h => by
      rw [Field.allOf, Bool.and_eq_true] at hfs
      have hpos := f.tokens_pos
      simp only [Field.listTokens, List.append_assoc, List.length_append] at h hfuel
      -- behind the first field stands the next one, or the closing brace
      have hnames (g : Field) (hg : g ∈ fs) : isName g.responseKey = true :=
        Field.isName_responseKey
          (Bool.and_eq_true_iff.1 (Field.all_iff.1 (Field.allOf_iff.1 hfs.2 g hg)).1).1
      obtain ⟨token, more, hmore, htoken⟩ := exists_follows hnames tokens
      rw [hmore] at h
      obtain ⟨behind, hfield, hbehind⟩ := exists_of_field hfs.1 (show _ ≤ fuel by omega) htoken h
      rw [← hmore] at hbehind
      obtain ⟨rest, hlist, hrest⟩ := exists_of_list hfs.2 (show _ < fuel by omega) hbehind
      exact ⟨rest, repeats_fields.goesOn hfield hlist, hrest⟩
end

/-- Fields in braces are read back. -/
theorem exists_of_selectionSet {fs : List Field} {fuel : Nat}
    (hfs : Field.allOf Field.isWritable fs = true) (hne : fs ≠ [])
    (hfuel : (Field.listTokens fs).length + 2 ≤ fuel)
    (h : Layout (['{'] :: (Field.listTokens fs ++ ['}'] :: tokens)) cs) :
    ∃ rest, selectionSet fuel (skipIgnored cs) = .ok (fs, rest) ∧ Layout tokens rest := by
  obtain ⟨fuel, rfl⟩ : ∃ more, fuel = more + 1 := Nat.exists_eq_succ_of_ne_zero (by omega)
  obtain ⟨inner, hskip, hinner⟩ := exists_of_mark h
  obtain ⟨rest, hlist, hrest⟩ := exists_of_list hfs (show _ < fuel by omega) hinner
  refine ⟨rest, ?_, hrest⟩
  rw [hskip, selectionSet, hlist]
  cases fs with
  | nil => exact absurd rfl hne
  | cons f fs => rfl

theorem endsType_of_layout {token : List Char} (h : Layout (token :: tokens) cs)
    (hopens : Opens token) (htoken : EndsType token) : EndsType cs := by
  cases h with
  | token hgap _ _ =>
      refine EndsType.ignorable_append hgap ?_
      obtain ⟨c, more, rfl, -⟩ := hopens
      exact htoken

/-- A declaration is read back. -/
theorem exists_of_definition {d : VariableDefinition} {token : List Char} {fuel : Nat}
    (hd : d.Writable) (hfuel : (defaultTokens d.default?).length ≤ fuel + 1) (hopens : Opens token)
    (htoken : EndsType token) (hequals : token.head? ≠ some '=')
    (h : Layout (d.tokens ++ token :: tokens) cs) :
    ∃ rest, definition? fuel (skipIgnored cs) = some (d, rest) ∧
      Layout (token :: tokens) rest := by
  obtain ⟨name, typeName, default?⟩ := d
  simp only [VariableDefinition.tokens, List.cons_append] at h
  obtain ⟨behind, ⟨more, hskip, hname⟩, hbehind⟩ := exists_of_variable h hd.name
  obtain ⟨before, hcolon, hbefore⟩ := exists_of_mark hbehind
  obtain ⟨rest, htypeSkip, -, hrest⟩ := hbefore.exists_skipIgnored_eq hd.typeName.opens
  cases default? with
  | none =>
      have hends := endsType_of_layout hrest hopens htoken
      have htype := typeRef?_append hd.typeName hends
      -- what follows is no equals sign, so no default value is read
      have hnone : (skipIgnored rest).head? ≠ some '=' := by
        rw [hrest.head?_skipIgnored hopens]
        exact hequals
      refine ⟨skipIgnored rest, ?_, hrest.skip hopens⟩
      rw [hskip, definition?, hname]
      simp only [Option.bind_eq_bind, Option.bind_some, hcolon, word?, if_true, htypeSkip, htype]
      split
      · next hvalue =>
          split at hvalue
          · next heq => exact absurd (heq ▸ rfl) hnone
          · cases hvalue
      · rfl
  | some l =>
      have hmark : Opens ['='] := opens_mark '=' []
      have hends := endsType_of_layout hrest hmark (.cons (by decide) (by decide) [])
      have htype := typeRef?_append hd.typeName hends
      obtain ⟨inner, hinnerSkip, hinner⟩ := exists_of_mark hrest
      have hlength : l.tokens.length ≤ fuel := by
        simp only [defaultTokens, List.length_cons] at hfuel
        omega
      obtain ⟨rest', hvalue, hrest'⟩ := exists_of_value (hd.value l rfl) hlength hinner
      refine ⟨rest', ?_, hrest'⟩
      rw [hskip, definition?, hname]
      simp [hcolon, word?, htypeSkip, htype, hinnerSkip, hvalue]

/-- The token behind a declaration: the next variable, or the closing parenthesis. -/
theorem exists_behind_definition (ds : List VariableDefinition) (tokens : List (List Char)) :
    ∃ token more, ds.flatMap VariableDefinition.tokens ++ [')'] :: tokens = token :: more ∧
      Opens token ∧ EndsType token ∧ token.head? ≠ some '=' := by
  cases ds with
  | nil => exact ⟨_, _, rfl, opens_mark ')' [], .cons (by decide) (by decide) _, by decide⟩
  | cons d ds => exact ⟨_, _, rfl, opens_mark '$' _, .cons (by decide) (by decide) _, by simp⟩

/-- Declarations up to the closing parenthesis are read back. -/
theorem exists_of_definitions : ∀ {ds : List VariableDefinition} {tokens : List (List Char)}
    {cs : List Char} {fuel : Nat}, (∀ d ∈ ds, d.Writable) →
    (ds.flatMap VariableDefinition.tokens).length ≤ fuel →
    Layout (ds.flatMap VariableDefinition.tokens ++ [')'] :: tokens) cs →
    ∃ rest, definitions fuel (skipIgnored cs) = (ds, ')' :: rest) ∧ Layout tokens rest := by
  intro ds
  induction ds with
  | nil =>
      intro tokens cs fuel _ _ h
      obtain ⟨rest, hskip, hrest⟩ := exists_of_mark h
      refine ⟨rest, ?_, hrest⟩
      rw [hskip]
      exact repeats_definitions.stops (fun _ => rfl) fuel
  | cons d ds ih =>
      intro tokens cs fuel hds hfuel h
      rw [List.flatMap_cons, List.append_assoc] at h
      rw [List.flatMap_cons, List.length_append] at hfuel
      obtain ⟨token, more, hmore, hopens, hends, hequals⟩ := exists_behind_definition ds tokens
      have hlength : (defaultTokens d.default?).length + 3 = d.tokens.length := rfl
      obtain ⟨fuel, rfl⟩ : ∃ more, fuel = more + 1 := Nat.exists_eq_succ_of_ne_zero (by omega)
      rw [hmore] at h
      obtain ⟨behind, hdefinition, hbehind⟩ := exists_of_definition
        (hds d List.mem_cons_self) (show _ ≤ fuel + 1 by omega) hopens hends hequals h
      rw [← hmore] at hbehind
      obtain ⟨rest, hrest, hlayout⟩ := ih (fun d hd => hds d (List.mem_cons_of_mem _ hd))
        (show _ ≤ fuel by omega) hbehind
      exact ⟨rest, repeats_definitions.goesOn hdefinition hrest, hlayout⟩

/-- Declarations are read back where there are any. -/
theorem exists_of_definitionList {ds : List VariableDefinition} {fuel : Nat}
    (hds : ∀ d ∈ ds, d.Writable) (hfuel : (Operation.definitionTokens ds).length ≤ fuel)
    (h : Layout (Operation.definitionTokens ds ++ ['{'] :: tokens) cs) :
    ∃ rest, (definitionList? fuel (skipIgnored cs)).getD ([], skipIgnored cs) = (ds, rest) ∧
      Layout (['{'] :: tokens) rest := by
  cases ds with
  | nil =>
      obtain ⟨rest, hskip, hrest⟩ := exists_of_mark h
      refine ⟨skipIgnored cs, ?_, h.skip (opens_mark '{' [])⟩
      rw [hskip]
      rfl
  | cons d ds =>
      simp only [Operation.definitionTokens, List.isEmpty_cons, Bool.false_eq_true, if_false,
        List.cons_append, List.append_assoc, List.nil_append, List.length_cons,
        List.length_append] at h hfuel
      obtain ⟨inner, hskip, hinner⟩ := exists_of_mark h
      obtain ⟨rest, hread, hrest⟩ := exists_of_definitions hds (show _ ≤ fuel by omega) hinner
      refine ⟨rest, ?_, hrest⟩
      rw [hskip, definitionList?, hread]
      rfl

/-- The word that opens an operation is read back. -/
theorem kind?_keyword (kind : Kind) (rest : List Char) :
    kind? (kind.keyword.toList ++ rest) = some (kind, rest) := by
  cases kind with
  | query => rfl
  | mutation => rfl
  | subscription => rfl

/-- The name of an operation is read back where it has one. -/
theorem exists_of_operationName {name : Option String} {token : List Char}
    (hname : ∀ s ∈ name, isName s = true) (hopens : Opens token)
    (htoken : ∀ c ∈ token.head?, isNameStart c = false)
    (h : Layout (name.toList.map String.toList ++ token :: tokens) cs) :
    ∃ rest, (match name? (skipIgnored cs) with
        | some (name, rest) => (some name, rest)
        | none => (none, skipIgnored cs)) = (name, rest) ∧ Layout (token :: tokens) rest := by
  cases name with
  | none =>
      obtain ⟨rest, hskip, -, -⟩ := h.exists_skipIgnored_eq hopens
      obtain ⟨c, more, rfl, -⟩ := id hopens
      refine ⟨skipIgnored cs, ?_, h.skip hopens⟩
      rw [hskip, List.cons_append, name?_eq_none (htoken c rfl)]
  | some s =>
      obtain ⟨rest, hread, hrest⟩ := exists_of_name h (hname s rfl)
      exact ⟨rest, by rw [hread], hrest⟩

theorem opens_keyword (kind : Kind) : Opens kind.keyword.toList := by
  cases kind with
  | query => exact opens_of_isName (show isName "query" = true by decide)
  | mutation => exact opens_of_isName (show isName "mutation" = true by decide)
  | subscription => exact opens_of_isName (show isName "subscription" = true by decide)

/-- The token behind the name of an operation: a parenthesis, or the brace of the fields. -/
theorem exists_behind_name (ds : List VariableDefinition) (tokens : List (List Char)) :
    ∃ token more, Operation.definitionTokens ds ++ ['{'] :: tokens = token :: more ∧
      Opens token ∧ ∀ c ∈ token.head?, isNameStart c = false := by
  cases ds with
  | nil => exact ⟨_, _, rfl, opens_mark '{' [], by simp; decide⟩
  | cons d ds => exact ⟨_, _, rfl, opens_mark '(' [], by simp; decide⟩

/-- An operation is read part by part. -/
theorem named?_of_parts {op : Operation} {fuel : Nat} {cs behind behind' behind'' rest : List Char}
    (hkind : cs = op.kind.keyword.toList ++ behind)
    (hname : (match name? (skipIgnored behind) with
        | some (name, rest) => (some name, rest)
        | none => (none, skipIgnored behind)) = (op.name, behind'))
    (hdefinitions : (definitionList? fuel (skipIgnored behind')).getD ([], skipIgnored behind') =
      (op.variableDefinitions, behind''))
    (hset : selectionSet fuel (skipIgnored behind'') = .ok (op.selections, rest)) :
    named? fuel cs = some (op, rest) := by
  obtain ⟨kind, name, ds, fs⟩ := op
  cases hread : name? (skipIgnored behind)
  all_goals
    rw [hread] at hname
    simp only [Prod.mk.injEq] at hname hdefinitions
    obtain ⟨rfl, rfl⟩ := hname
    simp [named?, hkind, kind?_keyword, hread, hdefinitions, hset]

/-- An operation is read back. -/
theorem exists_of_operation {op : Operation} {fuel : Nat} (hop : op.Writable)
    (hfuel : op.tokens.length ≤ fuel) (h : Layout (op.tokens ++ tokens) cs) :
    ∃ rest, operation fuel (skipIgnored cs) = .ok (op, rest) ∧ Layout tokens rest := by
  obtain ⟨kind, name, ds, fs⟩ := op
  have hds : ∀ d ∈ ds, d.Writable := hop.definitions
  have hfs : Field.allOf Field.isWritable fs = true := hop.selections
  simp only [Operation.tokens, List.cons_append, List.append_assoc, List.nil_append,
    List.length_cons, List.length_append] at h hfuel
  obtain ⟨behind, hskip, -, hbehind⟩ := h.exists_skipIgnored_eq (opens_keyword kind)
  obtain ⟨token, more, hmore, hopens, htoken⟩ :=
    exists_behind_name ds (Field.listTokens fs ++ ['}'] :: tokens)
  rw [hmore] at hbehind
  obtain ⟨behind', hname, hbehind'⟩ := exists_of_operationName hop.name hopens htoken hbehind
  rw [← hmore] at hbehind'
  obtain ⟨behind'', hlist, hbehind''⟩ :=
    exists_of_definitionList hds (show _ ≤ fuel by omega) hbehind'
  obtain ⟨rest, hset, hrest⟩ := exists_of_selectionSet hfs hop.selected
    (show _ ≤ fuel by omega) hbehind''
  refine ⟨rest, ?_, hrest⟩
  have hnamed := named?_of_parts hskip hname hlist hset
  rw [operation, hnamed]

/-- Every layout of the tokens of an operation is read as the operation. -/
theorem document_of_layout {op : Operation} (hop : op.Writable) {cs : List Char}
    (h : Layout op.tokens cs) : document cs = .ok op := by
  have hlength := h.length_le (Operation.tokens_ne_nil hop)
  rw [← List.append_nil op.tokens] at h
  obtain ⟨rest, hread, hrest⟩ := exists_of_operation hop
    (show _ ≤ 2 * cs.length + 2 by omega) h
  rw [document, hread]
  simp only [hrest.skipIgnored_eq_nil]

end Parser

end DexCache.Query
