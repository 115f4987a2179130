import DexCache.Pipeline.Script
import DexCache.Proofs.Pipeline.Single

/-!
# Requests with a record of what the resolver was asked

A request runs through the interceptor of the store alone, and the resolver keeps every
request that it gets.  The resolver may answer anything each time, and the cache may change
whenever the resolver is asked.  The statements below say which requests are recorded,
in terms of what the hook before execution has decided.
-/

namespace DexCache.Pipeline

open Query (Operation)
open Interception (View interceptor)

/-- A look at a cache that may change whenever the resolver is asked. -/
def lookAt (views : Nat → View) : StateM Prompter View := fun p =>
  (views p.asked.length, p)

/-- The answer to a request behind the interceptor of the store, and what the resolver was
asked for it. -/
def serve (views : Nat → View) (answers : List (Except Failure Response)) (request : Request) :
    Except Failure Response × Prompter :=
  execute [interceptor (lookAt views)] Prompter.resolve ({} : Notes) request { answers }

/-- What the hook before execution makes of a request. -/
def opened (view : View) (request : Request) (operation : Operation) :
    Except Failure Before × Context Notes :=
  Interception.before view ⟨operation, request.variableValues, {}⟩

variable {views : Nat → View} {answers : List (Except Failure Response)} {request : Request}

theorem asked_serve_of_parse_error {stop : Query.Stop}
    (h : Operation.parse request.query = .error stop) :
    (serve views answers request).2.asked = [request] := by
  rw [serve, execute_of_parse_error h]
  rfl

theorem serve_of_parse {op : Operation} (h : Operation.parse request.query = .ok op) :
    serve views answers request =
      follow (interceptor (lookAt views)) Prompter.resolve request op
        (opened (views 0) request op) { answers } := by
  rw [serve, execute_single h]
  rfl

/-- After the hooks the resolver has been asked nothing more, or the request as it came. -/
theorem asked_settle {i : Interceptor (StateM Prompter) Notes} {context : Context Notes}
    {response : Response} {p : Prompter} {outcome : Except Failure Unit}
    {rest : Context Notes × Response} (hafter : i.after context response p = ((outcome, rest), p)) :
    (settle i Prompter.resolve request context response p).2.asked = p.asked ∨
      (settle i Prompter.resolve request context response p).2.asked = p.asked ++ [request] := by
  unfold settle
  cases outcome with
  | ok _ =>
      refine .inl ?_
      simp only [bind, StateT.bind, hafter]
      rfl
  | error e => exact .inr (by simp [bind, StateT.bind, hafter, Prompter.resolve])

/-- The first request that the resolver gets, if it gets any, is the one that goes out; after
that it gets only the request as it came. -/
theorem asked_serve (views : Nat → View) (answers : List (Except Failure Response))
    {op : Operation} (h : Operation.parse request.query = .ok op) :
    match opened (views 0) request op with
    | (.error _, _) => (serve views answers request).2.asked = [request]
    | (.ok (.answered _), _) => ∀ r ∈ (serve views answers request).2.asked, r = request
    | (.ok .proceed, context) =>
      (serve views answers request).2.asked = [outgoing request op context.operation] ∨
        (serve views answers request).2.asked =
          [outgoing request op context.operation, request] := by
  rw [serve_of_parse h]
  rcases opened (views 0) request op with ⟨decided, context⟩
  cases decided with
  | error e => rfl
  | ok decision =>
      cases decision with
      -- nothing has been asked yet, so only the hook after execution can ask
      | answered data =>
          intro r hr
          have hafter : (interceptor (lookAt views)).after context { data := some data }
              ({ answers } : Prompter) =
                (Interception.after (views 0) context { data := some data }, { answers }) := rfl
          rcases asked_settle hafter with hasked | hasked
          · rw [follow, hasked] at hr
            cases hr
          · rw [follow, hasked] at hr
            simpa using hr
      | proceed =>
          let p : Prompter := { answers, asked := [outgoing request op context.operation] }
          cases hresolved : Prompter.current { answers } with
          | error e =>
              refine .inl ?_
              simp only [follow, bind, StateT.bind, Prompter.resolve, hresolved]
              rfl
          | ok response =>
              have hfollow : follow (interceptor (lookAt views)) Prompter.resolve request op
                  (.ok .proceed, context) { answers } =
                  settle (interceptor (lookAt views)) Prompter.resolve request context response
                    p := by
                simp [follow, bind, StateT.bind, Prompter.resolve, hresolved, p]
              rw [hfollow]
              exact asked_settle rfl

/-- If the operation is left as it is, the resolver gets the request as it came and nothing
else. -/
theorem asked_serve_of_unchanged
    (h : ∀ op, Operation.parse request.query = .ok op →
      (opened (views 0) request op).2.operation = op ∧
        ∀ data, (opened (views 0) request op).1 ≠ .ok (.answered data)) :
    request ∈ (serve views answers request).2.asked ∧
      ∀ r ∈ (serve views answers request).2.asked, r = request := by
  cases hparse : Operation.parse request.query with
  | error stop => simp [asked_serve_of_parse_error hparse]
  | ok op =>
      obtain ⟨hoperation, hunanswered⟩ := h op hparse
      have hasked := asked_serve views answers hparse
      rcases hopened : opened (views 0) request op with ⟨decided, context⟩
      rw [hopened] at hasked hoperation hunanswered
      cases decided with
      | error e => simp [hasked]
      | ok decision =>
          cases decision with
          | answered data => exact absurd rfl (hunanswered data)
          | proceed =>
              have hout : outgoing request op context.operation = request := if_pos hoperation
              simp only [hout] at hasked
              rcases hasked with hasked | hasked <;> simp [hasked]

end DexCache.Pipeline
