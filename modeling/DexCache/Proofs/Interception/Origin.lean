import DexCache.Failure
import DexCache.Interception.Claim
import DexCache.Pipeline.Basic
import DexCache.Proofs.Query.Variables

/-!
# A resolver with the same data

The resolver behind an interceptor is taken to answer each top-level field on its own.  It
answers a listing from the entities of the store, with values of its own for the fields that
the store never holds, or with null and a report if it rejects the arguments; what it answers
to any other field depends on the field and on the variables in it.

An operation that is sent without the variables that nothing uses has the same answer.
-/

namespace DexCache.Interception

open Json (Object)
open Query (Field Operation VariableDefinition)

/-- What a resolver answers beyond the store. -/
structure Origin where
  pairExtras : Pair → Object
  tokenExtras : Token → Object
  /-- The report of arguments that are rejected. -/
  report : Field → Query.Error → Json
  /-- The answer to a field that is no listing, and what went wrong with it. -/
  other : Field → List VariableDefinition → Object → Json × List Json
  pairExtras_missing : ∀ p, ∀ key ∈ (pairExtras p).keys, key ∈ pairMissingFields
  tokenExtras_missing : ∀ t, ∀ key ∈ (tokenExtras t).keys, key ∈ tokenMissingFields

/-- A catalogue that shows entities with further fields. -/
def extended {α F K : Type} (c : Catalogue α F K) (extras : α → Object) : Catalogue α F K :=
  { c with toJson := fun a => (c.toJson a).fillFrom (.obj (extras a)) }

namespace Origin

variable (o : Origin) (s : Store)

/-- The answer of a listing over the entities of the store. -/
def respond (kind : EntityKind) (name : String) (args : Object) (fields : List Field) :
    Except Query.Error Json :=
  match kind with
  | .pair => (extended pairCatalogue o.pairExtras).respond s.pairs.all name args fields
  | .token => (extended tokenCatalogue o.tokenExtras).respond s.tokens.all name args fields

/-- The answer to a top-level field that is a listing, and what went wrong with it. -/
def listed (kind : EntityKind) (values : Object) (f : Field) : Json × List Json :=
  match f.argumentsJson values >>= fun args => o.respond s kind f.name args f.subfields with
  | .ok value => (value, [])
  | .error e => (.null, [o.report f e])

/-- The answer to a top-level field, and what went wrong with it. -/
def field (definitions : List VariableDefinition) (values : Object) (f : Field) :
    Json × List Json :=
  match listing? f.name with
  | some (kind, _) => o.listed s kind values f
  | none =>
    o.other f (definitions.filter fun d => d.name ∈ f.variableNames)
      (values.filter fun v => v.1 ∈ f.variableNames)

/-- The answers to top-level fields, each under its key. -/
def entries (definitions : List VariableDefinition) (values : Object) (fields : List Field) :
    Object :=
  fields.map fun f => (f.responseKey, (o.field s definitions values f).1)

/-- What went wrong with top-level fields. -/
def faults (definitions : List VariableDefinition) (values : Object) (fields : List Field) :
    List Json :=
  fields.flatMap fun f => (o.field s definitions values f).2

/-- The answer to an operation. -/
def answer (op : Operation) (values : Object) : Response where
  data := some (.ofEntries (o.entries s op.variableDefinitions values op.selections))
  errors := o.faults s op.variableDefinitions values op.selections

/-- Does a resolver answer every query like this? -/
def Answers {m : Type → Type} [Monad m] (resolve : Resolver m) : Prop :=
  ∀ request op, Operation.parse request.query = .ok op → op.kind = .query →
    resolve request = pure (.ok (o.answer s op request.variableValues))

/-- A resolver that answers like this, and has no answer to what it cannot read. -/
def resolver {m : Type → Type} [Monad m] : Resolver m := fun request =>
  match Operation.parse request.query with
  | .ok op => pure (.ok (o.answer s op request.variableValues))
  | .error stop => pure (.error (.query (.document stop)))

theorem answers_resolver {m : Type → Type} [Monad m] : o.Answers s (o.resolver s (m := m)) := by
  intro request op hparse _
  rw [resolver, hparse]

variable {o s}

/-- What a field does not use does not matter to its answer. -/
theorem field_filter {names : List String} {f : Field} (h : ∀ name ∈ f.variableNames, name ∈ names)
    (definitions : List VariableDefinition) (values : Object) :
    o.field s (definitions.filter fun d => d.name ∈ names)
        (values.filter fun v => v.1 ∈ names) f =
      o.field s definitions values f := by
  unfold field
  cases listing? f.name with
  | some found =>
      have harguments : f.argumentsJson (values.filter fun v => v.1 ∈ names) =
          f.argumentsJson values := by
        refine Field.argumentsJson_congr fun name hname => ?_
        exact Object.get?_filter (p := fun key => decide (key ∈ names)) values
          (decide_eq_true (h name hname))
      simp only [listed, harguments]
  | none =>
      -- filtering by the names of the operation first makes no difference to a field of it
      have hfilter {β : Type} (key : β → String) (xs : List β) :
          (xs.filter fun x => key x ∈ names).filter (fun x => key x ∈ f.variableNames) =
            xs.filter fun x => key x ∈ f.variableNames := by
        rw [List.filter_filter]
        refine List.filter_congr fun x _ => ?_
        by_cases hx : key x ∈ f.variableNames
        · simp [hx, h _ hx]
        · simp [hx]
      simp only [hfilter VariableDefinition.name, hfilter (Prod.fst (β := Json))]

/-- An operation without the variables that it does not use has the same answer. -/
theorem answer_prune (op : Operation) (values : Object) :
    o.answer s op.prune (values.filter fun v => v.1 ∈ op.referenced) = o.answer s op values := by
  have hfield : ∀ f ∈ op.selections,
      o.field s op.prune.variableDefinitions
          (values.filter fun v => v.1 ∈ op.referenced) f =
        o.field s op.variableDefinitions values f := by
    intro f hf
    exact field_filter (fun _ => Field.mem_allVariables hf) op.variableDefinitions values
  have hentries : o.entries s op.prune.variableDefinitions
      (values.filter fun v => v.1 ∈ op.referenced) op.selections =
        o.entries s op.variableDefinitions values op.selections :=
    List.map_congr_left fun f hf => by rw [hfield f hf]
  have hfaults : o.faults s op.prune.variableDefinitions
      (values.filter fun v => v.1 ∈ op.referenced) op.selections =
        o.faults s op.variableDefinitions values op.selections :=
    List.flatMap_congr fun f hf => by rw [hfield f hf]
  have hselections : op.prune.selections = op.selections := rfl
  rw [answer, answer, hselections, hentries, hfaults]

/-- With distinct keys the data are the answers to the fields. -/
theorem data_answer {op : Operation} (h : (op.selections.map Field.responseKey).Nodup)
    (values : Object) :
    (o.answer s op values).data =
      some (o.entries s op.variableDefinitions values op.selections) := by
  have hkeys : ((o.entries s op.variableDefinitions values op.selections).map Prod.fst).Nodup := by
    rw [entries, List.map_map]
    exact h
  rw [answer, Object.ofEntries_of_nodup hkeys]

end Origin

end DexCache.Interception
