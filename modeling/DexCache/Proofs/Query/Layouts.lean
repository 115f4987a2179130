import DexCache.Proofs.Query.RoundTrip

/-!
# Every layout of an operation is read

However the tokens of an operation are laid out, with separators, line ends and comments in
front of them, between them and behind them, the parser reads the operation.  A query without
a name and without variables may leave out the word that opens it.
-/

namespace DexCache.Query

namespace Operation

/-- The tokens of a query without its opening word: the fields in braces. -/
def shortTokens (op : Operation) : List (List Char) :=
  ['{'] :: (Field.listTokens op.selections ++ [['}']])

/-- A text that spells the operation, a bare query with or without its opening word. -/
def SpelledBy (op : Operation) (cs : List Char) : Prop :=
  Layout op.tokens cs ∨ op = { selections := op.selections } ∧ Layout op.shortTokens cs

theorem shortTokens_ne_nil {op : Operation} (hop : op.Writable) :
    ∀ token ∈ op.shortTokens, token ≠ [] := by
  have hmark (c : Char) : [c] ≠ [] := List.cons_ne_nil c []
  simp only [shortTokens, List.forall_mem_cons, List.forall_mem_append]
  exact ⟨hmark '{', Field.listTokens_ne_nil hop.selections, hmark '}',
    fun _ htoken => nomatch htoken⟩

end Operation

/-- Every layout of the fields in braces is read as the query of these fields. -/
theorem Parser.document_of_shortTokens {op : Operation} (hop : op.Writable) {cs : List Char}
    (h : Layout op.shortTokens cs) : document cs = .ok { selections := op.selections } := by
  have hlength := h.length_le (Operation.shortTokens_ne_nil hop)
  obtain ⟨fuel, hfuel⟩ : ∃ fuel, 2 * cs.length + 2 = fuel + 2 := ⟨_, rfl⟩
  have hcount : (Field.listTokens op.selections).length + 2 ≤ fuel + 2 := by
    simp only [Operation.shortTokens, List.length_cons, List.length_append] at hlength
    omega
  obtain ⟨rest, hset, hrest⟩ := exists_of_selectionSet hop.selections hop.selected hcount h
  -- a brace is no word, so the fields are read without one
  obtain ⟨inner, hskip, -⟩ := exists_of_mark h
  have hnamed : named? (fuel + 2) (skipIgnored cs) = none := by
    rw [hskip]
    rfl
  rw [document, hfuel, operation, hnamed, hset]
  simp only [Except.map, hrest.skipIgnored_eq_nil]

/-- Every text that spells an operation with finite numbers is read as that operation. -/
theorem parse_of_spelledBy {op : Operation} (hspelled : op.Spelled) (hfinite : op.Finite)
    {document : String} (h : op.SpelledBy document.toList) :
    Operation.parse document = .ok op := by
  have hop := hspelled.writable hfinite
  have hread : Parser.document document.toList = .ok op := by
    rcases h with h | ⟨hplain, h⟩
    · exact Parser.document_of_layout hop h
    · rw [hplain]
      exact Parser.document_of_shortTokens hop h
  rw [Operation.parse, hread]

/-- The addresses of all pairs under a name of their own. -/
def namedAddresses : Operation where
  name := some "Pairs"
  selections := [.withSubfields "pairs" [.plain "address"]]

/-- The same query with comments, one of them without an end of line, and hardly a blank. -/
def commentedAddresses : String :=
  "#all\r\nquery,Pairs\x7bpairs#here\n\t\x7baddress\x7d\r\n\x7d,#end"

theorem parse_commentedAddresses :
    namedAddresses.SpelledBy commentedAddresses.toList ∧
      Operation.parse commentedAddresses = .ok namedAddresses := by
  have hend : Layout [] ([','] ++ '#' :: "end".toList) :=
    .comment (.separator rfl .nil) (by simp)
  have hclosed : Layout [['}'], ['}']]
      ('}' :: '\r' :: '\n' :: '}' :: ([','] ++ '#' :: "end".toList)) :=
    .mark (.separate rfl (.separate rfl (.mark hend)))
  have hhere : Ignorable ('#' :: ("here".toList ++ (['\n'] ++ ['\t']))) :=
    .comment (by simp) (.inl rfl) (.separator rfl .nil)
  have hfields : Layout (Field.listTokens namedAddresses.selections ++ [['}']]) _ :=
    .piece "pairs".toList (.prepend hhere (.mark (c := '{') (.piece "address".toList hclosed
      (loose_cons _)))) (loose_cons _)
  have hall : Ignorable ('#' :: ("all".toList ++ (['\r', '\n'] ++ []))) :=
    .comment (by simp) (.inr rfl) .nil
  have hlayout : namedAddresses.SpelledBy commentedAddresses.toList :=
    .inl (.prepend hall (.piece "query".toList (.separate (c := ',') rfl
      (.piece "Pairs".toList (.mark (c := '{') hfields) (loose_cons _))) (loose_cons _)))
  have hspelled : namedAddresses.Spelled :=
    ⟨by decide, fun _ hd => absurd hd List.not_mem_nil, by decide, by decide⟩
  exact ⟨hlayout, parse_of_spelledBy hspelled (by decide) hlayout⟩

end DexCache.Query
