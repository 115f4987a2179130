import DexCache.Pipeline.Basic

/-!
# A chain of one interceptor

Executing a request with a single interceptor, spelled out: the hook before execution runs
on the parsed operation, the resolver is asked unless there is an answer, and the hook after
execution runs on what came back.  A hook that fails leads to the resolver's answer to the
request as it came.
-/

namespace DexCache.Pipeline

open Query (Operation)

variable {m : Type → Type} [Monad m] {X : Type}

/-- What becomes of a response in the hook after execution. -/
def settle (i : Interceptor m X) (resolve : Resolver m) (request : Request) (context : Context X)
    (response : Response) : m (Except Failure Response) := do
  match ← i.after context response with
  | (.ok (), _, response) => return .ok response
  | (.error _, _, _) => resolve request

/-- What becomes of a request after the hook before execution. -/
def follow (i : Interceptor m X) (resolve : Resolver m) (request : Request) (asked : Operation) :
    Except Failure Before × Context X → m (Except Failure Response)
  | (.error _, _) => resolve request
  | (.ok (.answered data), context) => settle i resolve request context { data := some data }
  | (.ok .proceed, context) => do
    match ← resolve (outgoing request asked context.operation) with
    | .error e => return .error e
    | .ok response => settle i resolve request context response

/-- A response that has passed the hooks; without one, the resolver's answer. -/
def recover (resolve : Resolver m) (request : Request) :
    Except Failure Response → m (Except Failure Response)
  | .ok response => return .ok response
  | .error _ => resolve request

/-- A document that cannot be read goes to the resolver. -/
theorem execute_of_parse_error {request : Request} {stop : Query.Stop}
    (h : Operation.parse request.query = .error stop) (chain : List (Interceptor m X))
    (resolve : Resolver m) (extension : X) :
    execute chain resolve extension request = resolve request := by
  rw [execute, h]

/-- An operation that was read goes through the hooks of the interceptor. -/
theorem execute_single [LawfulMonad m] {request : Request} {op : Operation}
    (h : Operation.parse request.query = .ok op) (i : Interceptor m X) (resolve : Resolver m)
    (extension : X) :
    execute [i] resolve extension request =
      i.before ⟨op, request.variableValues, extension⟩ >>= follow i resolve request op := by
  rw [execute, h]
  simp only [before, bind_assoc]
  congr 1
  funext opened
  obtain ⟨decided, context⟩ := opened
  cases decided with
  | error e =>
      -- the operation is put back, so the request goes out as it came
      simp only [pure_bind, outgoing, if_true, after, follow]
      refine Eq.trans ?_ (bind_pure (resolve request))
      congr 1
      funext resolved
      cases resolved <;> rfl
  | ok decision =>
      have hsettle (response : Response) :
          after [i] context response >>= recover resolve request =
            settle i resolve request context response := by
        simp only [after, settle, bind_assoc]
        congr 1
        funext settled
        obtain ⟨outcome, _, _⟩ := settled
        cases outcome <;> simp [recover]
      cases decision with
      | answered data =>
          simp only [pure_bind, follow]
          exact hsettle { data := some data }
      | proceed =>
          simp only [pure_bind, follow]
          congr 1
          funext resolved
          cases resolved with
          | error e => rfl
          | ok response => exact hsettle response

end DexCache.Pipeline
