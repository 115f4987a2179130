import DexCache.Proofs.Query.Parsed

/-!
# Writing an operation and reading it again

Among the operations with finite numbers, those that are read back from their text are
exactly those that are spelled in the grammar: names are names, type references are type
references, no enum value is a word of its own and there is something to select.  Whether the
operation was read or built makes no difference.

An infinite number can come from a document, but it is written as a name.
-/

namespace DexCache.Query

/-- An operation that can be written is read back from its text. -/
theorem parse_text {op : Operation} (hop : op.Writable) : Operation.parse op.text = .ok op := by
  rw [Operation.parse, Operation.text, String.toList_ofList, Parser.document_chars hop]

theorem spelled_of_parse {document : String} {op : Operation}
    (h : Operation.parse document = .ok op) : op.Spelled := by
  rw [Operation.parse] at h
  cases hread : Parser.document document.toList with
  | error rest => rw [hread] at h; cases h
  | ok found =>
      rw [hread] at h
      exact Except.ok.inj h ▸ Parser.spelled_of_document hread

/-- With finite numbers, an operation is read back from its text if and only if it is spelled
in the grammar. -/
theorem reads_back_iff {op : Operation} (hfinite : op.Finite) :
    Operation.parse op.text = .ok op ↔ op.Spelled :=
  ⟨spelled_of_parse, fun hspelled => parse_text (hspelled.writable hfinite)⟩

/-- An operation with an alias, declared variables and literals of every form. -/
def everyForm : Operation where
  name := some "Listing"
  variableDefinitions := [
    { name := "ids", typeName := "[ID!]!" },
    { name := "floor", typeName := "Float", default? := some (.float (.ofIndex false 1)) }]
  selections := [{
    alias? := some "cheap"
    name := "filteredPairs"
    arguments := [
      ("sorting", .object [("sortField", .enumValue "TVL"), ("reverse", .bool true)]),
      ("ids", .list [.str "a\"\\\n", .var "ids", .null]),
      ("floor", .var "floor"),
      ("first", .int (-3))]
    subfields := [.withSubfields "edges" [.withSubfields "node" [.plain "address"]]] }]

theorem reads_back_of_every_form : Operation.parse everyForm.text = .ok everyForm := by
  have hdeclared : ∀ d ∈ everyForm.variableDefinitions, d.Spelled := by
    intro d hd
    simp only [everyForm, List.mem_cons, List.not_mem_nil, or_false] at hd
    rcases hd with rfl | rfl
    · have hitem : TypeText "ID!".toList := .name (s := "ID") (by decide) (.inr rfl)
      exact ⟨by decide, .list .nil hitem .nil (.inr rfl), by simp⟩
    · exact ⟨by decide, .name (s := "Float") (by decide) (.inl rfl), by decide⟩
  exact (reads_back_iff (by decide)).2 ⟨by decide, hdeclared, by decide, by decide⟩

end DexCache.Query
