import DexCache.Event
import DexCache.Pipeline.Script

/-!
# The interceptor of the store, access by access

The hooks of the store look at the cache several times: at its readiness, for each field at the
freshness of the store and then perhaps at its contents, and for each shared field at the contents
again, after the resolver has been asked.  The cache does not stand still meanwhile.  Here the hooks
are written over a probe, which makes one access at a time, and anything can happen to the cache
before each access: events are applied, a readiness is published, time passes.

A run notes its accesses in their order.  What happens before each of them is given beforehand, so
that a statement about all courses is one about every way in which the accesses of a query and the
changes of the cache can come one after the other.
-/

namespace DexCache.Interception

open Query (Field)

/-- A read of the store: what a listing is asked for. -/
structure Read where
  kind : EntityKind
  name : String
  arguments : Json.Object
  fields : List Field
deriving DecidableEq, Repr

/-- What a read finds. -/
def Read.answer (r : Read) (s : Store) : Except Query.Error Json :=
  s.respond r.kind r.name r.arguments r.fields

/-- The read of a shared field, with these selections. -/
def Shared.read (part : Shared) (fields : List Field) : Read :=
  ⟨part.kind, part.asked.name, part.arguments, fields⟩

/-- The accesses of the hooks to the cache. -/
structure Probe (m : Type → Type) where
  status : m Readiness
  isFreshFor : EntityKind → List Field → m Bool
  read : Read → m (Except Query.Error Json)

/-- A cache that stands still. -/
def Probe.still {m : Type → Type} [Monad m] (v : View) : Probe m where
  status := pure v.status
  isFreshFor kind fields := pure (v.store.isFreshFor kind fields v.now)
  read r := pure (r.answer v.store)

/-! ### The hooks -/

/-- A plan with a field put in front as it was claimed, and what is left for the resolver. -/
def Claim.onto (field : Field) (claimed : Claim) (planned : List Field × Plan) :
    List Field × Plan :=
  let p := { planned.2 with order := field.responseKey :: planned.2.order }
  match claimed with
  | .declined => (field :: planned.1, p)
  | .answered value =>
    (planned.1, { p with answered := (field.responseKey, value) :: p.answered })
  | .shared sent part => (sent :: planned.1, { p with shared := part :: p.shared })

/-- What the hook before execution does once there is a plan, or why there is none. -/
def act {X : Type} [PlanSlot X] (context : Context X) :
    Except Query.Error (List Field × Plan) → Except Failure Before × Context X
  | .error e => (.error (.query e), context)
  | .ok (remaining, p) =>
    if p.isEmpty then (.ok .proceed, context)
    else if remaining.isEmpty then (.ok (.answered (Json.Object.ofEntries p.answered)), context)
    else
      (.ok .proceed,
        { context with
          operation := { context.operation with selections := remaining }
          extension := PlanSlot.setPlan (some p) context.extension })

namespace Probe

variable {m : Type → Type} [Monad m] (p : Probe m)

/-- What is to be done with a top-level field. -/
def claim (supplied : Json.Object) (field : Field) : m (Except Query.Error Claim) :=
  match listing? field.name with
  | none => return .ok .declined
  | some (kind, l) =>
    let fields := l.entityFields field
    if fields.isEmpty then return .ok .declined
    else do
      let fresh ← p.isFreshFor kind (fields.filter fun f => !l.isMissing f.name)
      if !fresh then return .ok .declined
      else
        match field.argumentsJson supplied with
        | .error e => return .error e
        | .ok arguments =>
          if fields.all fun f => !l.isMissing f.name then
            return (← p.read ⟨kind, field.name, arguments, field.subfields⟩).map .answered
          else return .ok (share kind l field arguments)

/-- Claims fields in order, up to the first that fails. -/
def plan (supplied : Json.Object) : List Field → m (Except Query.Error (List Field × Plan))
  | [] => return .ok ([], {})
  | field :: rest => do
    match ← p.claim supplied field with
    | .error e => return .error e
    | .ok claimed => return (← plan supplied rest).map (claimed.onto field)

/-- Adds the store's part of a shared field to a response. -/
def addShared (data : Json.Object) (part : Shared) : m (Except Query.Error Json.Object) :=
  match (data.get? part.key).getD .null with
  | .null => do
    return (← p.read (part.read part.asked.subfields)).map fun value => data.insert part.key value
  | resolved => do
    return (← p.read (part.read part.localFields)).map fun here =>
      data.insert part.key (merge part.listing part.forced resolved here)

/-- Adds the parts of all shared fields in order, up to the first that fails. -/
def addAll : List Shared → Json.Object → m (Except Query.Error Json.Object)
  | [], data => return .ok data
  | part :: parts, data => do
    match ← p.addShared data part with
    | .error e => return .error e
    | .ok data => addAll parts data

/-- Completes a response by a plan. -/
def complete (planned : Plan) (data : Json.Object) : m (Except Query.Error Json.Object) := do
  return (← p.addAll planned.shared data).map fun data =>
    reorder (planned.answered.foldl (fun data a => data.insert a.1 a.2) data) planned.order

variable {X : Type} [PlanSlot X]

/-- The hook before execution. -/
def before (context : Context X) : m (Except Failure Before × Context X) :=
  if context.operation.kind ≠ .query then return (.ok .proceed, context)
  else do
    if (← p.status) ≠ .done then return (.ok .proceed, context)
    else return act context (← p.plan context.variableValues context.operation.selections)

/-- The hook after execution. -/
def after (context : Context X) (response : Response) :
    m (Except Failure Unit × Context X × Response) :=
  match PlanSlot.plan? context.extension with
  | none => return (.ok (), context, response)
  | some planned => do
    let context := { context with extension := PlanSlot.setPlan none context.extension }
    match ← p.complete planned (response.data.getD []) with
    | .error e => return (.error (.query e), context, response)
    | .ok data => return (.ok (), context, { response with data := some data })

/-- The interceptor of the store over a probe. -/
def interceptor : Interceptor m X where
  before := p.before
  after := p.after

end Probe

/-! ### What happens meanwhile -/

/-- Something that happens to a cache. -/
inductive Move where
  | event (e : StoreEvent)
  | publish (status : Readiness)
  | pass (duration : Nat)
deriving DecidableEq, Repr

namespace View

/-- What there is to see after a move. -/
def move (v : View) : Move → View
  | .event e => { v with store := e.apply v.now v.store }
  | .publish status => { v with status }
  | .pass duration => { v with now := v.now + duration }

/-- What there is to see after some moves. -/
def later (v : View) (moves : List Move) : View :=
  moves.foldl move v

end View

/-- A cache from some view on, with what happens before each access. -/
structure Course where
  start : View
  gaps : Nat → List Move

/-- What an access finds. -/
def Course.view (c : Course) : Nat → View
  | 0 => c.start.later (c.gaps 0)
  | n + 1 => (c.view n).later (c.gaps (n + 1))

/-! ### A run -/

/-- One step of the execution of a query. -/
inductive Access where
  | status
  | check (kind : EntityKind) (fields : List Field)
  | read (r : Read)
  | resolve (request : Request)
deriving DecidableEq, Repr

/-- The accesses so far, and the resolver. -/
structure Record where
  accesses : List Access := []
  prompter : Pipeline.Prompter
deriving Repr

/-- Notes an access. -/
def Record.note (r : Record) (a : Access) : Record :=
  { r with accesses := r.accesses ++ [a] }

namespace Course

variable (c : Course)

/-- What the next access finds. -/
def next (r : Record) : View :=
  c.view r.accesses.length

/-- A cache that goes on while it is accessed. -/
def probe : Probe (StateM Record) where
  status r := ((c.next r).status, r.note .status)
  isFreshFor kind fields r :=
    ((c.next r).store.isFreshFor kind fields (c.next r).now, r.note (.check kind fields))
  read reading r := (reading.answer (c.next r).store, r.note (.read reading))

/-- A resolver that is asked as one step among the others. -/
def resolver : Resolver (StateM Record) := fun request r =>
  let (answer, prompter) := r.prompter.resolve request
  (answer, { r.note (.resolve request) with prompter })

/-- The answer to a request while the cache goes on, and the accesses for it. -/
def serve (answers : List (Except Failure Response)) (request : Request) :
    Except Failure Response × Record :=
  Pipeline.execute [c.probe.interceptor] resolver ({} : Pipeline.Notes) request
    { prompter := { answers } }

/-- The accesses for a request, in their order. -/
def accesses (answers : List (Except Failure Response)) (request : Request) : List Access :=
  (c.serve answers request).2.accesses

end Course

end DexCache.Interception
