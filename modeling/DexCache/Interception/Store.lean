import DexCache.Interception.Claim
import DexCache.Pipeline.Basic
import DexCache.Readiness

/-!
# The interceptor of the store

Before execution the store claims what it can answer, provided that the cache is ready and
the operation is a query; after execution it completes the response.
-/

namespace DexCache.Interception

/-- What a hook sees of the cache. -/
structure View where
  store : Store
  status : Readiness
  now : Int
deriving Repr

/-- A place where the hook before execution leaves its plan. -/
class PlanSlot (X : Type) where
  plan? : X → Option Plan
  setPlan : Option Plan → X → X

/-- The hook before execution. -/
def before {X : Type} [PlanSlot X] (v : View) (context : Context X) :
    Except Failure Before × Context X :=
  if context.operation.kind ≠ .query ∨ v.status ≠ .done then (.ok .proceed, context)
  else
    match plan v.store v.now context.variableValues context.operation.selections with
    | .error e => (.error (.query e), context)
    | .ok (remaining, p) =>
      if p.isEmpty then (.ok .proceed, context)
      else if remaining.isEmpty then (.ok (.answered (Json.Object.ofEntries p.answered)), context)
      else
        (.ok .proceed,
          { context with
            operation := { context.operation with selections := remaining }
            extension := PlanSlot.setPlan (some p) context.extension })

/-- The hook after execution. -/
def after {X : Type} [PlanSlot X] (v : View) (context : Context X) (response : Response) :
    Except Failure Unit × Context X × Response :=
  match PlanSlot.plan? context.extension with
  | none => (.ok (), context, response)
  | some p =>
    let context := { context with extension := PlanSlot.setPlan none context.extension }
    match p.complete v.store (response.data.getD []) with
    | .error e => (.error (.query e), context, response)
    | .ok data => (.ok (), context, { response with data := some data })

/-- The interceptor of a store that is looked at in every hook. -/
def interceptor {m : Type → Type} [Monad m] {X : Type} [PlanSlot X] (look : m View) :
    Interceptor m X where
  before context := do return Interception.before (← look) context
  after context response := do return Interception.after (← look) context response

end DexCache.Interception
