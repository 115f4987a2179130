import DexCache.Proofs.Query.Number

/-!
# Names, strings and type references read back

Which texts are names and type references, and that each of these and each quoted string is
read back whole, whatever follows that does not run together with it.
-/

namespace DexCache.Query

/-- Is this a name of the grammar? -/
def isName (s : String) : Bool :=
  match s.toList with
  | [] => false
  | c :: rest => isNameStart c && rest.all isNameChar

section Names

theorem isNameChar_of_isNameStart {c : Char} (h : isNameStart c = true) : isNameChar c = true := by
  rw [isNameStart, Bool.or_eq_true] at h
  rcases h with h | h
  · simp [isNameChar, Char.isAlphanum, h]
  · simp [isNameChar, h]

theorem not_isDigit_of_isNameStart {c : Char} (h : isNameStart c = true) :
    c.isDigit = false := by
  rw [isNameStart, Bool.or_eq_true, decide_eq_true_eq] at h
  rcases h with h | rfl
  · change (decide (c.val ≥ 65 ∧ c.val ≤ 90) || (decide (c.val ≥ 97) && decide (c.val ≤ 122))) =
      true at h
    simp [Char.isDigit, UInt32.le_iff_toNat_le] at h ⊢
    omega
  · rfl

theorem isSticky_of_isNameChar {c : Char} (h : isNameChar c = true) : isSticky c = true := by
  rw [isNameChar, Bool.or_eq_true] at h
  rcases h with h | h
  · simp [isSticky, h]
  · simp [isSticky, h]

theorem exists_of_isName {s : String} (h : isName s = true) : ∃ c rest, s.toList = c :: rest ∧
    isNameStart c = true ∧ ∀ d ∈ rest, isNameChar d = true := by
  unfold isName at h
  split at h
  · cases h
  · next c rest heq =>
      rw [Bool.and_eq_true, List.all_eq_true] at h
      exact ⟨c, rest, heq, h⟩

/-- Behind sticky characters nothing sticky follows. -/
theorem Apart.not_isSticky {left right : List Char} (h : Apart left right) (hne : left ≠ [])
    (hsticky : ∀ c ∈ left, isSticky c = true) : ∀ c ∈ right.head?, isSticky c = false := by
  intro c hc
  have hboth := h _ (List.getLast?_eq_some_getLast hne) c hc
  rw [hsticky _ (List.getLast_mem hne)] at hboth
  simpa using hboth

theorem isSticky_of_mem_name {s : String} (h : isName s = true) :
    ∀ c ∈ s.toList, isSticky c = true := by
  obtain ⟨c, rest, heq, hc, hrest⟩ := exists_of_isName h
  intro d hd
  rw [heq] at hd
  rcases List.mem_cons.1 hd with rfl | hd
  · exact isSticky_of_isNameChar (isNameChar_of_isNameStart hc)
  · exact isSticky_of_isNameChar (hrest d hd)

theorem toList_ne_nil_of_isName {s : String} (h : isName s = true) : s.toList ≠ [] := by
  obtain ⟨c, rest, heq, -⟩ := exists_of_isName h
  rw [heq]
  exact List.cons_ne_nil c rest

/-- A name is read back. -/
theorem name?_append {s : String} (h : isName s = true) {rest : List Char}
    (hrest : ∀ c ∈ rest.head?, isNameChar c = false) :
    name? (s.toList ++ rest) = some (s, rest) := by
  obtain ⟨c, cs, heq, hc, hcs⟩ := exists_of_isName h
  rw [heq, List.cons_append, name?, if_pos hc, span_append hcs hrest]
  simp only
  rw [← heq, String.ofList_toList]

theorem name?_of_apart {s : String} (h : isName s = true) {rest : List Char}
    (hapart : Apart s.toList rest) : name? (s.toList ++ rest) = some (s, rest) := by
  refine name?_append h fun c hc => ?_
  have hsticky := hapart.not_isSticky (toList_ne_nil_of_isName h) (isSticky_of_mem_name h) c hc
  cases hname : isNameChar c with
  | false => rfl
  | true =>
      rw [isSticky_of_isNameChar hname] at hsticky
      cases hsticky

/-- What is read as a name is one. -/
theorem isName_of_name? {cs rest : List Char} {s : String} (h : name? cs = some (s, rest)) :
    isName s = true ∧ cs = s.toList ++ rest := by
  cases cs with
  | nil => cases h
  | cons c cs =>
      rw [name?] at h
      split at h
      · next hc =>
          simp only [Option.some.injEq, Prod.mk.injEq] at h
          obtain ⟨rfl, rfl⟩ := h
          refine ⟨?_, ?_⟩
          · simp [isName, hc]
          · rw [String.toList_ofList, List.span_eq_takeWhile_dropWhile, List.cons_append,
              List.takeWhile_append_dropWhile]
      · cases h

theorem name?_eq_none {c : Char} (hc : isNameStart c = false) (rest : List Char) :
    name? (c :: rest) = none := by
  simp [name?, hc]

end Names

section Strings

theorem unicodeEscape?_hex4 : ∀ code < 32,
    (match Text.hex4 code with
      | [a, b, c, d] => unicodeEscape? a b c d
      | _ => none) = some (Char.ofNat code) := by
  decide

/-- A character of a quoted text is read back. -/
theorem stringRest?_jsonChar (c : Char) {cs rest more : List Char}
    (h : stringRest? rest = some (cs, more)) :
    stringRest? (Text.jsonChar c ++ rest) = some (c :: cs, more) := by
  unfold Text.jsonChar
  split
  · next hc => simp [stringRest?, simpleEscape?, h, hc]
  split
  · next hc => simp [stringRest?, simpleEscape?, h, hc]
  split
  · next hc => simp [stringRest?, simpleEscape?, h, hc]
  split
  · next hc => simp [stringRest?, simpleEscape?, h, hc]
  split
  · next hc => simp [stringRest?, simpleEscape?, h, hc]
  split
  · next hc => simp [stringRest?, simpleEscape?, h, hc]
  split
  · next hc => simp [stringRest?, simpleEscape?, h, hc]
  split
  -- a control character is written as the escape of its code
  · next hcode =>
      have hescape := unicodeEscape?_hex4 c.toNat hcode
      rw [Char.ofNat_toNat] at hescape
      simp only [Text.hex4, List.map_cons, List.map_nil] at hescape
      simp [Text.hex4, stringRest?, hescape, h]
  · next _ hslash _ _ _ _ _ _ => simp [stringRest?, hslash, h]

/-- A quoted text is read back up to its closing quote. -/
theorem stringRest?_quoted (cs rest : List Char) :
    stringRest? (cs.flatMap Text.jsonChar ++ '"' :: rest) = some (cs, rest) := by
  induction cs with
  | nil => rfl
  | cons c cs ih =>
      rw [List.flatMap_cons, List.append_assoc]
      exact stringRest?_jsonChar c ih

end Strings

section Types

/-- The text of a type reference: a name, or a reference in brackets, and then perhaps an
exclamation mark. -/
inductive TypeText : List Char → Prop
  | name {s : String} {mark : List Char} (hs : isName s = true)
      (hmark : mark = [] ∨ mark = ['!']) : TypeText (s.toList ++ mark)
  | list {before item behind mark : List Char} (hbefore : Ignorable before)
      (hitem : TypeText item) (hbehind : Ignorable behind) (hmark : mark = [] ∨ mark = ['!']) :
      TypeText ('[' :: (before ++ (item ++ (behind ++ ']' :: mark))))

theorem TypeText.exists_cons {cs : List Char} (h : TypeText cs) :
    ∃ c rest, cs = c :: rest ∧ (isNameStart c = true ∨ c = '[') := by
  cases h with
  | name hs =>
      obtain ⟨c, rest, heq, hc, -⟩ := exists_of_isName hs
      exact ⟨c, rest ++ _, by rw [heq, List.cons_append], .inl hc⟩
  | list => exact ⟨_, _, rfl, .inr rfl⟩

theorem opens_of_isNameStart {c : Char} (hc : isNameStart c = true) (rest : List Char) :
    Opens (c :: rest) :=
  opens_of_isSticky (isSticky_of_isNameChar (isNameChar_of_isNameStart hc)) rest

theorem opens_of_isName {s : String} (h : isName s = true) : Opens s.toList := by
  obtain ⟨c, rest, heq, hc, -⟩ := exists_of_isName h
  rw [heq]
  exact opens_of_isNameStart hc rest

theorem TypeText.opens {cs : List Char} (h : TypeText cs) : Opens cs := by
  obtain ⟨c, rest, rfl, hc | rfl⟩ := h.exists_cons
  · exact opens_of_isNameStart hc rest
  · exact opens_mark '[' rest

/-- A text in front of which a type reference ends. -/
def EndsType (rest : List Char) : Prop :=
  ∀ c ∈ rest.head?, isNameChar c = false ∧ c ≠ '!'

theorem EndsType.cons {c : Char} (hname : isNameChar c = false) (hmark : c ≠ '!')
    (rest : List Char) : EndsType (c :: rest) := by
  intro d hd
  rw [List.head?_cons, Option.mem_some_iff] at hd
  exact hd ▸ ⟨hname, hmark⟩

theorem EndsType.ignorable_append {gap rest : List Char} (hgap : Ignorable gap)
    (h : EndsType rest) : EndsType (gap ++ rest) := by
  cases hgap with
  | nil => exact h
  | separator hc _ =>
      simp only [isSeparator, Bool.or_eq_true, decide_eq_true_eq] at hc
      obtain (((rfl | rfl) | rfl) | rfl) | rfl := hc
      all_goals exact .cons (by decide) (by decide) _
  | comment => exact .cons (by decide) (by decide) _

/-- What is read in front of the mark of a type reference. -/
def typeBody? (fuel : Nat) (cs : List Char) : Option (List Char) :=
  match cs with
  | '[' :: inner => (typeRest? fuel (skipIgnored inner)).bind fun rest =>
      word? [']'] (skipIgnored rest)
  | _ => (name? cs).map Prod.snd

/-- Drops a mark off the front. -/
def dropMark : List Char → List Char
  | '!' :: rest => rest
  | cs => cs

theorem typeRest?_eq (fuel : Nat) (cs : List Char) :
    typeRest? (fuel + 1) cs = (typeBody? fuel cs).map dropMark := by
  unfold typeBody?
  split
  · next inner =>
      rw [typeRest?]
      cases typeRest? fuel (skipIgnored inner) with
      | none => rfl
      | some behind =>
          cases hclose : word? [']'] (skipIgnored behind) with
          | none => simp [hclose]
          | some rest =>
              simp only [Option.bind_eq_bind, Option.bind_some, hclose, Option.map_some]
              split
              · rfl
              · next hmark => rw [dropMark.eq_2 _ hmark]; rfl
  · next hbracket =>
      rw [typeRest?.eq_3 _ _ hbracket]
      cases name? cs with
      | none => rfl
      | some found =>
          simp only [Option.bind_eq_bind, Option.bind_some, Option.map_some]
          split
          · next hmark => rw [hmark]; rfl
          · next hmark => rw [dropMark.eq_2 _ hmark]; rfl

theorem dropMark_append {mark rest : List Char} (hmark : mark = [] ∨ mark = ['!'])
    (hrest : EndsType rest) : dropMark (mark ++ rest) = rest := by
  rcases hmark with rfl | rfl
  · rw [List.nil_append, dropMark.eq_2]
    rintro more rfl
    exact (hrest '!' rfl).2 rfl
  · rfl

/-- A type reference is read whole. -/
theorem TypeText.typeRest?_append {cs : List Char} (h : TypeText cs) {fuel : Nat}
    (hfuel : cs.length ≤ fuel) {rest : List Char} (hrest : EndsType rest) :
    typeRest? fuel (cs ++ rest) = some rest := by
  induction h generalizing fuel rest with
  | @name s mark hs hmark =>
      obtain ⟨c, more, heq, hc, -⟩ := exists_of_isName hs
      have hbracket : ∀ inner, s.toList ++ (mark ++ rest) = '[' :: inner → False := by
        intro inner hcons
        rw [heq] at hcons
        rw [(List.cons.inj hcons).1] at hc
        cases hc
      -- the name ends at its mark, or else where the whole reference does
      have hend : ∀ d ∈ (mark ++ rest).head?, isNameChar d = false := by
        rcases hmark with rfl | rfl
        · exact fun d hd => (hrest d hd).1
        · intro d hd
          rw [List.singleton_append, List.head?_cons, Option.mem_some_iff] at hd
          exact hd ▸ by decide
      obtain ⟨fuel, rfl⟩ : ∃ more, fuel = more + 1 := by
        refine Nat.exists_eq_succ_of_ne_zero ?_
        rw [List.length_append, heq, List.length_cons] at hfuel
        omega
      rw [List.append_assoc, typeRest?_eq, typeBody?.eq_2 _ _ hbracket, name?_append hs hend]
      simp only [Option.map_some, dropMark_append hmark hrest]
  | @list before item behind mark hbefore hitem hbehind hmark ih =>
      simp only [List.length_cons, List.length_append] at hfuel
      obtain ⟨fuel, rfl⟩ : ∃ more, fuel = more + 1 :=
        Nat.exists_eq_succ_of_ne_zero (by omega)
      have hend : EndsType (']' :: (mark ++ rest)) := .cons (by decide) (by decide) _
      have hinner := ih (show _ ≤ fuel by omega) (hend.ignorable_append hbehind)
      have hbracket := Opens.skipIgnored_eq (opens_mark ']' []) (mark ++ rest)
      simp only [List.cons_append, List.append_assoc]
      rw [typeRest?_eq, typeBody?, hbefore.skipIgnored_append, hitem.opens.skipIgnored_eq, hinner,
        Option.bind_some, hbehind.skipIgnored_append]
      simp only [List.singleton_append] at hbracket
      rw [hbracket]
      simp [word?, dropMark_append hmark hrest]

/-- What is read as a type reference is one. -/
theorem exists_typeText_of_typeRest? {fuel : Nat} {cs rest : List Char}
    (h : typeRest? fuel cs = some rest) : ∃ text, TypeText text ∧ cs = text ++ rest := by
  induction fuel generalizing cs rest with
  | zero => cases h
  | succ fuel ih =>
      rw [typeRest?_eq, Option.map_eq_some_iff] at h
      obtain ⟨body, hbody, rfl⟩ := h
      obtain ⟨mark, hmark, hsplit⟩ : ∃ mark, (mark = [] ∨ mark = ['!']) ∧
          body = mark ++ dropMark body := by
        unfold dropMark
        split
        · exact ⟨['!'], .inr rfl, rfl⟩
        · exact ⟨[], .inl rfl, rfl⟩
      unfold typeBody? at hbody
      split at hbody
      · next inner =>
          obtain ⟨behind, hitem, hclose⟩ := Option.bind_eq_some_iff.1 hbody
          obtain ⟨item, htext, hinner⟩ := ih hitem
          have hskip : skipIgnored behind = ']' :: body := by
            revert hclose
            cases skipIgnored behind with
            | nil => simp [word?]
            | cons c more =>
                intro hclose
                simp only [word?] at hclose
                split at hclose
                · next hc =>
                    cases hclose
                    rw [hc]
                · cases hclose
          -- the item opens with no comment, so what was skipped in front of it is a gap
          obtain ⟨before, hbefore, hsource⟩ : ∃ before, Ignorable before ∧
              inner = before ++ (item ++ behind) := by
            obtain ⟨c, more, rfl, -, hc⟩ := htext.opens
            obtain ⟨before, hbefore, hsource⟩ := exists_ignorable hinner hc
            exact ⟨before, hbefore, hsource⟩
          obtain ⟨gap, hgap, hrest⟩ := exists_ignorable hskip (by decide)
          refine ⟨_, .list hbefore htext hgap hmark, ?_⟩
          rw [hsource, hrest]
          simp only [List.cons_append, List.append_assoc]
          rw [← hsplit]
      · obtain ⟨⟨s, more⟩, hname, rfl⟩ := Option.map_eq_some_iff.1 hbody
        obtain ⟨hs, hsource⟩ := isName_of_name? hname
        refine ⟨_, .name hs hmark, ?_⟩
        rw [List.append_assoc, ← hsplit]
        exact hsource

/-- A type reference is read back. -/
theorem typeRef?_append {typeName : String} (h : TypeText typeName.toList) {rest : List Char}
    (hrest : EndsType rest) : typeRef? (typeName.toList ++ rest) = some (typeName, rest) := by
  have hfuel : typeName.toList.length ≤ (typeName.toList ++ rest).length + 1 := by
    rw [List.length_append]
    omega
  have hread := h.typeRest?_append hfuel hrest
  rw [typeRef?, hread]
  simp

/-- What is read as a type reference is one. -/
theorem typeText_of_typeRef? {cs rest : List Char} {typeName : String}
    (h : typeRef? cs = some (typeName, rest)) : TypeText typeName.toList := by
  obtain ⟨more, hread, heq⟩ := Option.map_eq_some_iff.1 h
  obtain ⟨text, htext, rfl⟩ := exists_typeText_of_typeRest? hread
  cases heq
  simpa using htext

end Types

end DexCache.Query
