import DexCache.Failure
import DexCache.Pipeline.Request
import DexCache.Query.Printer

/-!
# The query pipeline

A request is parsed and passed through interceptors; what they leave of the operation goes
to a resolver, and its response passes through them again in the opposite order.

A hook that fails never fails the request.  If it failed before execution its changes to
the operation are undone and it is left out after execution; if it failed after execution
the response is dropped and the resolver answers the request as it came.
-/

namespace DexCache

open Query (Operation)

/-- What interceptors share about one request; `extension` is for what they note. -/
structure Context (X : Type) where
  operation : Operation
  variableValues : Json.Object
  extension : X
deriving Repr

/-- What a hook before execution decides. -/
inductive Before where
  | proceed
  /-- The data are complete, and the resolver is not asked. -/
  | answered (data : Json.Object)
deriving DecidableEq, Repr

/-- A pair of hooks around the execution of a request. -/
structure Interceptor (m : Type → Type) (X : Type) where
  before : Context X → m (Except Failure Before × Context X)
  after : Context X → Response → m (Except Failure Unit × Context X × Response)

/-- What answers the requests that are not answered here. -/
abbrev Resolver (m : Type → Type) := Request → m (Except Failure Response)

namespace Pipeline

variable {m : Type → Type} [Monad m] {X : Type}

/-- A request after the hooks before execution. -/
structure Prepared (m : Type → Type) (X : Type) where
  context : Context X
  /-- The interceptors whose hook has succeeded, the last one first. -/
  active : List (Interceptor m X)
  answer : Option Json.Object

/-- Runs the hooks before execution, up to the first that has the answer. -/
def before (active : List (Interceptor m X)) :
    List (Interceptor m X) → Context X → m (Prepared m X)
  | [], context => return ⟨context, active, none⟩
  | i :: rest, context => do
    match ← i.before context with
    | (.ok .proceed, changed) => before (i :: active) rest changed
    | (.ok (.answered data), changed) => return ⟨changed, i :: active, some data⟩
    | (.error _, changed) =>
      before active rest { changed with operation := context.operation }

/-- Runs the hooks after execution. -/
def after : List (Interceptor m X) → Context X → Response → m (Except Failure Response)
  | [], _, response => return .ok response
  | i :: rest, context, response => do
    match ← i.after context response with
    | (.ok (), context, response) => after rest context response
    | (.error e, _, _) => return .error e

/-- The request for what is left of an operation: without the variables that nothing uses
any more. -/
def forwarded (request : Request) (operation : Operation) : Request where
  query := operation.prune.text
  variableValues := request.variableValues.filter fun v => v.1 ∈ operation.referenced

/-- What the resolver is asked: the request as it came, unless its operation was changed. -/
def outgoing (request : Request) (asked changed : Operation) : Request :=
  if changed = asked then request else forwarded request changed

/-- Executes a request. -/
def execute (chain : List (Interceptor m X)) (resolve : Resolver m) (extension : X)
    (request : Request) : m (Except Failure Response) := do
  match Operation.parse request.query with
  | .error _ => resolve request
  | .ok operation =>
    let prepared ← before [] chain ⟨operation, request.variableValues, extension⟩
    let resolved ← match prepared.answer with
      | some data => pure (.ok { data := some data })
      | none => resolve (outgoing request operation prepared.context.operation)
    match resolved with
    | .error e => return .error e
    | .ok response =>
      match ← after prepared.active prepared.context response with
      | .ok response => return .ok response
      | .error _ => resolve request

end Pipeline

end DexCache
