import DexCache.Proofs.Interception.Forwarding
import DexCache.Proofs.Pipeline.Recorded
import DexCache.Proofs.Query.Occurrence
import DexCache.Proofs.Store.Watched

/-!
# The request that goes out

Where the hook before execution has changed an operation, the resolver is asked for what is left
of it.  That request declares and carries the variables that are still used and no others, and the
arguments of every field are what they were.
-/

namespace DexCache

open Query (Field Operation)

namespace Query.Operation

variable {op : Operation}

/-- The definitions that are left are those of the variables that are referenced. -/
theorem prune_variableDefinitions (op : Operation) :
    op.prune.variableDefinitions =
      op.variableDefinitions.filter fun d => decide (op.prune.References d.name) :=
  List.filter_congr fun _ _ => decide_eq_decide.2 mem_referenced_iff

theorem prune_prune (op : Operation) : op.prune.prune = op.prune := by
  have hkept : op.prune.variableDefinitions.filter (fun d => decide (d.name ∈ op.referenced)) =
      op.prune.variableDefinitions := List.filter_eq_self.2 fun d hd => (List.mem_filter.1 hd).2
  exact congrArg (fun variableDefinitions => { op with variableDefinitions }) hkept

/-- A closed operation stays closed. -/
theorem Closed.prune (h : op.Closed) : op.prune.Closed := by
  intro name hname
  obtain ⟨d, hd, rfl⟩ := h name hname
  exact ⟨d, List.mem_filter.2 ⟨hd, decide_eq_true (mem_referenced_iff.2 hname)⟩, rfl⟩

end Query.Operation

/-- A request for selections of an operation that asks for them and nothing else, with the
meaning that they have in the request for the whole operation. -/
structure RequestsPart (request : Request) (op : Operation) (left : List Field) (sent : Request)
    (part : Operation) : Prop where
  written : sent.query = part.text
  kind : part.kind = op.kind
  name : part.name = op.name
  selections : part.selections = left
  definitions : part.variableDefinitions =
    op.variableDefinitions.filter fun d => decide (part.References d.name)
  values : sent.variableValues =
    request.variableValues.filter fun v => decide (part.References v.1)
  closed : op.Closed → part.Closed
  pruned : part.prune = part
  arguments : ∀ f : Field, f.Within part.selections →
    f.argumentsJson sent.variableValues = f.argumentsJson request.variableValues ∧
      ((∃ e, f.argumentsJson sent.variableValues = .error e) ↔
        ∃ name, f.Uses name ∧ request.variableValues.get? name = none)

/-- The arguments of a field are not changed by values for variables that it does not use. -/
theorem argumentsJson_filter (values : Json.Object) (op : Operation) {f : Field}
    (hf : f.Within op.selections) :
    f.argumentsJson (values.filter fun v => decide (op.References v.1)) =
      f.argumentsJson values :=
  Field.argumentsJson_congr_of_uses fun _ hname =>
    Json.Object.get?_filter (p := fun key => decide (op.References key)) values
      (decide_eq_true ⟨f, hf, hname⟩)

/-- What goes out for selections that use no other variables than the operation. -/
theorem requestsPart_forwarded (request : Request) {op : Operation} {left : List Field}
    (hleft : ∀ name, Operation.References { op with selections := left } name →
      op.References name) :
    RequestsPart request op left (Pipeline.forwarded request { op with selections := left })
      (Operation.prune { op with selections := left }) where
  written := rfl
  kind := rfl
  name := rfl
  selections := rfl
  definitions := Operation.prune_variableDefinitions { op with selections := left }
  values := List.filter_congr fun _ _ => decide_eq_decide.2 Operation.mem_referenced_iff
  closed h := Operation.Closed.prune fun name hname => h name (hleft name hname)
  pruned := Operation.prune_prune _
  arguments f hf := by
    have hvalues : (Pipeline.forwarded request { op with selections := left }).variableValues =
        request.variableValues.filter fun v =>
          decide (Operation.References { op with selections := left } v.1) :=
      List.filter_congr fun _ _ => decide_eq_decide.2 Operation.mem_referenced_iff
    rw [hvalues, argumentsJson_filter request.variableValues { op with selections := left } hf]
    exact ⟨rfl, Field.exists_argumentsJson_error_iff⟩

namespace Interception

variable {s : Store} {now : Int} {supplied : Json.Object}

/-- What is left of selections uses no variable that they do not use. -/
theorem references_of_left {op : Operation}
    (hclaims : ∀ f ∈ op.selections, claim s now supplied f = .ok (taken s now supplied f))
    {name : String} (h : Operation.References
      { op with selections := op.selections.filterMap (leftOf s now supplied) } name) :
    op.References name := by
  by_contra hnot
  -- no field uses the variable, a test that does not look below a field
  let p (f : Field) : Bool := !(Query.Literal.fieldVariables f.arguments).contains name
  have hp : Query.Shallow p := ⟨fun _ _ => rfl, fun _ _ _ => rfl⟩
  have hiff {f : Field} : p f = true ↔ ¬ f.Uses name := by
    simp [p, Field.Uses, Query.Literal.mem_fieldVariables_iff]
  have hall : Field.allOf p op.selections = true :=
    Field.allOf_iff_within.2 fun f hf => hiff.2 fun huses => hnot ⟨f, hf, huses⟩
  have hleft : Field.allOf p (op.selections.filterMap (leftOf s now supplied)) = true := by
    refine Field.allOf_iff.2 fun g hg => ?_
    obtain ⟨f, hf, hfg⟩ := List.mem_filterMap.1 hg
    exact all_leftOf hp (hclaims f hf) hfg (Field.allOf_iff.1 hall f hf)
  obtain ⟨g, hg, huses⟩ := h
  exact hiff.1 (Field.allOf_iff_within.1 hleft g hg) huses

open Pipeline (opened serve)

/-- Where the hook before execution changes an operation, the resolver is first asked for what it
leaves of the selections: the variables that these use are declared and supplied as they were, and
no others; nothing can be pruned any more; and every field has the arguments that it had, unless it
uses a variable that was not supplied.  With finite numbers the resolver reads just that. -/
theorem rewritten_requestsPart (views : Nat → View) (answers : List (Except Failure Response))
    {request : Request} {op : Operation} (hparse : Operation.parse request.query = .ok op)
    {context : Context Pipeline.Notes}
    (hopened : opened (views 0) request op = (.ok .proceed, context))
    (hchanged : context.operation ≠ op) :
    ∃ sent part, (serve views answers request).2.asked.head? = some sent ∧
      RequestsPart request op context.operation.selections sent part ∧
      (op.Finite → Operation.parse sent.query = .ok part) := by
  rcases before_cases (views 0) (⟨op, request.variableValues, {}⟩ : Context Pipeline.Notes) with
    ⟨hsame, -⟩ | ⟨p, hacting⟩
  · have hcontext : context = ⟨op, request.variableValues, {}⟩ := by
      rw [← hsame]
      exact (congrArg Prod.snd hopened).symm
    exact absurd (congrArg Context.operation hcontext) hchanged
  rcases hacting.before_cases with ⟨-, hanswered⟩ | ⟨hleft, hproceeds⟩
  · rw [opened, hanswered] at hopened
    cases hopened
  · rw [opened, hproceeds] at hopened
    cases hopened
    have hasked := Pipeline.asked_serve views answers hparse
    rw [opened, hproceeds] at hasked
    simp only [Pipeline.outgoing, if_neg hchanged] at hasked
    refine ⟨_, _, ?_, requestsPart_forwarded request fun name => references_of_left hacting.claims,
      fun hfinite => parse_left hparse hfinite hacting.claims rfl hleft⟩
    rcases hasked with hasked | hasked <;> rw [hasked] <;> rfl

/-- Tokens that the store answers, next to pairs whose collector it never holds: the number of
pairs is still declared and supplied, the number of tokens is not. -/
theorem rewritten_requestsPart_of_one_pair :
    let view := (Watched.onePair { address := "a" } 0).view 0
    let pairs (fields : List Field) : Field :=
      { name := "pairs", arguments := [("limit", .var "pairs")], subfields := fields }
    let op : Operation :=
      { variableDefinitions := [⟨"tokens", "Int", some (.int 1)⟩, ⟨"pairs", "Int", none⟩]
        selections := [
          { name := "tokens", arguments := [("limit", .var "tokens")]
            subfields := [.plain "identifier"] },
          pairs [.plain "feesCollector"]] }
    let request : Request :=
      { query := op.text
        variableValues := [("pairs", .int 5), ("tokens", .int 2), ("other", .null)] }
    ∃ sent part, (serve (fun _ => view) [] request).2.asked.head? = some sent ∧
      RequestsPart request op [pairs [.plain "feesCollector", .plain "address"]] sent part ∧
      Operation.parse sent.query = .ok part ∧
      part.variableDefinitions = [⟨"pairs", "Int", none⟩] ∧
      sent.variableValues = [("pairs", .int 5)] := by
  intro view pairs op request
  have hdefinitions : ∀ d ∈ op.variableDefinitions, d.Writable := by
    intro d hd
    simp only [op, List.mem_cons, List.not_mem_nil, or_false] at hd
    rcases hd with rfl | rfl
    · exact ⟨by decide, .name (s := "Int") (by decide) (.inl rfl), by decide +kernel⟩
    · exact ⟨by decide, .name (s := "Int") (by decide) (.inl rfl), by simp⟩
  have hwritable : op.Writable := ⟨by simp [op], hdefinitions, by simp [op], by decide +kernel⟩
  have hparse : Operation.parse request.query = .ok op := Query.parse_text hwritable
  have hproceeds : (opened view request op).1 = .ok .proceed := by rfl
  have hleft : (opened view request op).2.operation.selections =
      [pairs [.plain "feesCollector", .plain "address"]] := by decide +kernel
  have hchanged : (opened view request op).2.operation ≠ op := by decide +kernel
  obtain ⟨sent, part, hasked, hpart, hreads⟩ := rewritten_requestsPart (fun _ => view) [] hparse
    (show opened view request op = (.ok .proceed, (opened view request op).2) from
      Prod.ext hproceeds rfl) hchanged
  rw [hleft] at hpart
  have hfinite : op.Finite := by decide +kernel
  have hreferences (name : String) : part.References name ↔ name = "pairs" := by
    rw [← Operation.mem_referenced_iff, Operation.referenced, hpart.selections]
    exact List.mem_singleton
  refine ⟨sent, part, hasked, hpart, hreads hfinite, ?_, ?_⟩
  · simp [hpart.definitions, hreferences, op]
  · simp [hpart.values, hreferences, request]

end Interception

end DexCache
