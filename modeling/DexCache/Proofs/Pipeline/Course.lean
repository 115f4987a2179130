import DexCache.Proofs.Pipeline.Single
import Mathlib.Data.List.Forall2

/-!
# The course of an execution

An execution is watched through the calls that it makes: every hook and the resolver write down
what they were called for and what came back.  Hooks may change the operation, the response and
whatever world they share with the resolver, so a call depends on all calls before it.

`course` spells an execution out as a recursion over the chain, with no monad: the hooks before
execution in the order of the chain, then the resolver, then the hooks after execution in the
opposite order.  A chain that writes down its calls follows this course, and so does the chain
itself.
-/

namespace DexCache.Pipeline

open Query (Operation)

variable {N V W X : Type}

/-- A call that is made during an execution, and what came back; hooks go by the name of their
interceptor. -/
inductive Call (N : Type) where
  | before (name : N) (decided : Except Failure Before)
  | after (name : N) (outcome : Except Failure Unit)
  | resolve (request : Request) (answer : Except Failure Response)

namespace Call

/-- The interceptor whose hook before execution is called. -/
def opened? : Call N → Option N
  | .before name _ => some name
  | _ => none

/-- The interceptor whose hook before execution is called and succeeds. -/
def succeeded? : Call N → Option N
  | .before name (.ok _) => some name
  | _ => none

/-- Does the hook that is called have the answer? -/
def answers : Call N → Bool
  | .before _ (.ok (.answered _)) => true
  | _ => false

/-- The interceptor whose hook after execution is called. -/
def closed? : Call N → Option N
  | .after name _ => some name
  | _ => none

/-- Is it the resolver that is called? -/
def isResolve : Call N → Bool
  | .resolve _ _ => true
  | _ => false

/-- Does the resolver fail, or a hook after execution? -/
def fails : Call N → Bool
  | .after _ (.error _) => true
  | .resolve _ (.error _) => true
  | _ => false

end Call

/-- Interceptors that share a world, with their names. -/
abbrev Chain (N W X : Type) := List (N × Interceptor (StateM W) X)

/-- What comes of a request: the result, the world that is left, and the calls in order. -/
structure Run (N W : Type) where
  result : Except Failure Response
  world : W
  calls : List (Call N)

/-- The same run with calls before it. -/
def Run.behind (earlier : List (Call N)) (r : Run N W) : Run N W :=
  { r with calls := earlier ++ r.calls }

section Logged

/-- An action on a world that writes down the call that it is. -/
def logged {A : Type} (call : A → Call N) (action : StateM W A) : StateM (W × List (Call N)) A :=
  fun p => ((action p.1).1, (action p.1).2, p.2 ++ [call (action p.1).1])

/-- An interceptor that writes down the calls of its hooks. -/
def loggedHooks (name : N) (i : Interceptor (StateM W) X) :
    Interceptor (StateM (W × List (Call N))) X where
  before context := logged (fun r => .before name r.1) (i.before context)
  after context response := logged (fun r => .after name r.1) (i.after context response)

/-- A resolver that writes down its calls. -/
def loggedResolver (resolve : Resolver (StateM W)) : Resolver (StateM (W × List (Call N))) :=
  fun request => logged (.resolve request) (resolve request)

/-- The execution of a request by a chain that writes down its calls. -/
def run (chain : Chain N W X) (resolve : Resolver (StateM W)) (extension : X) (request : Request)
    (w : W) : Run N W :=
  let (result, world, calls) := execute (chain.map fun e => loggedHooks e.1 e.2)
    (loggedResolver resolve) extension request (w, [])
  ⟨result, world, calls⟩

end Logged

/-- What the hooks before execution leave: their calls, the interceptors that go on to the hook
after execution in the order of the chain, and the answer if there is one. -/
structure Opening (N W X : Type) where
  calls : List (Call N)
  succeeded : Chain N W X
  context : Context X
  answer : Option Json.Object
  world : W

/-- The hooks before execution, up to the first that has the answer. -/
def opening : Chain N W X → Context X → W → Opening N W X
  | [], context, w => ⟨[], [], context, none, w⟩
  | (name, i) :: rest, context, w =>
    match i.before context w with
    | ((.ok .proceed, changed), w) =>
      let o := opening rest changed w
      { o with
        calls := .before name (.ok .proceed) :: o.calls
        succeeded := (name, i) :: o.succeeded }
    | ((.ok (.answered data), changed), w) =>
      ⟨[.before name (.ok (.answered data))], [(name, i)], changed, some data, w⟩
    | ((.error e, changed), w) =>
      let o := opening rest { changed with operation := context.operation } w
      { o with calls := .before name (.error e) :: o.calls }

/-- The hooks after execution, up to the first that fails; there the resolver answers instead. -/
def closing (resolve : Resolver (StateM W)) (request : Request) :
    Chain N W X → Context X → Response → W → Run N W
  | [], _, response, w => ⟨.ok response, w, []⟩
  | (name, i) :: rest, context, response, w =>
    match i.after context response w with
    | ((.ok (), context, response), w) =>
      (closing resolve request rest context response w).behind [.after name (.ok ())]
    | ((.error e, _, _), w) =>
      ⟨(resolve request w).1, (resolve request w).2,
        [.after name (.error e), .resolve request (resolve request w).1]⟩

/-- What comes of a request whose hooks before execution have run. -/
def follows (resolve : Resolver (StateM W)) (request : Request) (asked : Operation)
    (o : Opening N W X) : Run N W :=
  match o.answer with
  | some data => closing resolve request o.succeeded.reverse o.context { data := some data } o.world
  | none =>
    let sent := outgoing request asked o.context.operation
    match resolve sent o.world with
    | (.error e, w) => ⟨.error e, w, [.resolve sent (.error e)]⟩
    | (.ok response, w) =>
      (closing resolve request o.succeeded.reverse o.context response w).behind
        [.resolve sent (.ok response)]

/-- What comes of a request. -/
def course (chain : Chain N W X) (resolve : Resolver (StateM W)) (extension : X)
    (request : Request) (asked : Operation) (w : W) : Run N W :=
  let o := opening chain ⟨asked, request.variableValues, extension⟩ w
  (follows resolve request asked o).behind o.calls

section Tracking

/-- Hooks that do to another world what an interceptor does to its own, the worlds standing in a
relation that may know the calls so far. -/
structure Tracks (T : V → W → List (Call N) → Prop) (j : Interceptor (StateM V) X)
    (e : N × Interceptor (StateM W) X) : Prop where
  before : ∀ {v w calls}, T v w calls → ∀ context, ∃ v',
    j.before context v = ((e.2.before context w).1, v') ∧
      T v' (e.2.before context w).2 (calls ++ [.before e.1 (e.2.before context w).1.1])
  after : ∀ {v w calls}, T v w calls → ∀ context response, ∃ v',
    j.after context response v = ((e.2.after context response w).1, v') ∧
      T v' (e.2.after context response w).2
        (calls ++ [.after e.1 (e.2.after context response w).1.1])

/-- A resolver that does to another world what a resolver does to its own. -/
def TracksResolver (T : V → W → List (Call N) → Prop) (answer : Resolver (StateM V))
    (resolve : Resolver (StateM W)) : Prop :=
  ∀ v w calls, T v w calls → ∀ request, ∃ v', answer request v = ((resolve request w).1, v') ∧
    T v' (resolve request w).2 (calls ++ [.resolve request (resolve request w).1])

variable {T : V → W → List (Call N) → Prop} {js : List (Interceptor (StateM V) X)}
  {chain : Chain N W X} {answer : Resolver (StateM V)} {resolve : Resolver (StateM W)}
  {v : V} {w : W} {calls : List (Call N)}

theorem exists_before (hchain : List.Forall₂ (Tracks T) js chain) (h : T v w calls)
    (active : List (Interceptor (StateM V) X)) (context : Context X) :
    ∃ v' succeeded, List.Forall₂ (Tracks T) succeeded (opening chain context w).succeeded ∧
      before active js context v = (⟨(opening chain context w).context,
        succeeded.reverse ++ active, (opening chain context w).answer⟩, v') ∧
      T v' (opening chain context w).world (calls ++ (opening chain context w).calls) := by
  induction hchain generalizing v w calls active context with
  | nil => exact ⟨v, [], .nil, rfl, by simpa [opening] using h⟩
  | @cons j e js chain hfirst hrest ih =>
      obtain ⟨name, i⟩ := e
      obtain ⟨v', hbefore, hv'⟩ := hfirst.before h context
      rw [opening]
      rcases hopened : i.before context w with ⟨⟨decided, changed⟩, w'⟩
      simp only [hopened] at hbefore hv'
      cases decided with
      | error e =>
          obtain ⟨v'', succeeded, hsucceeded, hrun, hT⟩ :=
            ih hv' active { changed with operation := context.operation }
          refine ⟨v'', succeeded, hsucceeded, ?_, by simpa using hT⟩
          simpa [before, bind, StateT.bind, hbefore] using hrun
      | ok decision =>
          cases decision with
          | answered data =>
              refine ⟨v', [j], .cons hfirst .nil, ?_, hv'⟩
              simp only [before, bind, StateT.bind, hbefore]
              rfl
          | proceed =>
              obtain ⟨v'', succeeded, hsucceeded, hrun, hT⟩ := ih hv' (j :: active) changed
              refine ⟨v'', j :: succeeded, .cons hfirst hsucceeded, ?_, by simpa using hT⟩
              simpa [before, bind, StateT.bind, hbefore] using hrun

theorem exists_after (hchain : List.Forall₂ (Tracks T) js chain)
    (hresolve : TracksResolver T answer resolve) (h : T v w calls) (request : Request)
    (context : Context X) (response : Response) :
    ∃ v', (after js context response >>= recover answer request) v =
        ((closing resolve request chain context response w).result, v') ∧
      T v' (closing resolve request chain context response w).world
        (calls ++ (closing resolve request chain context response w).calls) := by
  induction hchain generalizing v w calls context response with
  | nil => exact ⟨v, rfl, by simpa [closing] using h⟩
  | @cons j e js chain hfirst hrest ih =>
      obtain ⟨name, i⟩ := e
      obtain ⟨v', hafter, hv'⟩ := hfirst.after h context response
      rw [closing]
      rcases hclosed : i.after context response w with ⟨⟨outcome, changed, response'⟩, w'⟩
      simp only [hclosed] at hafter hv'
      cases outcome with
      | ok _ =>
          obtain ⟨v'', hrun, hT⟩ := ih hv' changed response'
          refine ⟨v'', ?_, by simpa [Run.behind] using hT⟩
          simpa [after, bind, StateT.bind, hafter, Run.behind] using hrun
      | error e =>
          obtain ⟨v'', hrun, hT⟩ := hresolve _ _ _ hv' request
          refine ⟨v'', ?_, by simpa using hT⟩
          simp only [after, bind, StateT.bind, hafter]
          exact hrun

/-- Whatever tracks a chain and its resolver takes the course of the chain. -/
theorem exists_execute (hchain : List.Forall₂ (Tracks T) js chain)
    (hresolve : TracksResolver T answer resolve) (h : T v w []) {request : Request} {op : Operation}
    (hparse : Operation.parse request.query = .ok op) (extension : X) :
    ∃ v', execute js answer extension request v =
        ((course chain resolve extension request op w).result, v') ∧
      T v' (course chain resolve extension request op w).world
        (course chain resolve extension request op w).calls := by
  obtain ⟨v₁, succeeded, hsucceeded, hbefore, hv₁⟩ :=
    exists_before hchain h [] ⟨op, request.variableValues, extension⟩
  rw [execute, hparse]
  unfold course follows
  generalize opening chain ⟨op, request.variableValues, extension⟩ w = o at *
  obtain ⟨earlier, chain', context, answered, w₁⟩ := o
  simp only [List.nil_append] at hv₁
  simp only [List.append_nil] at hbefore
  have hreverse := List.rel_reverse hsucceeded
  cases answered with
  | some data =>
      obtain ⟨v₂, hafter, hv₂⟩ := exists_after hreverse hresolve hv₁ request context
        { data := some data }
      refine ⟨v₂, ?_, hv₂⟩
      simp only [bind, StateT.bind, hbefore] at hafter ⊢
      exact hafter
  | none =>
      obtain ⟨v₂, hsent, hv₂⟩ := hresolve _ _ _ hv₁ (outgoing request op context.operation)
      rcases hresolved : resolve (outgoing request op context.operation) w₁ with ⟨resolved, w₂⟩
      simp only [hresolved] at hsent hv₂ ⊢
      cases resolved with
      | error e =>
          refine ⟨v₂, ?_, hv₂⟩
          simp only [bind, StateT.bind, hbefore, hsent]
          rfl
      | ok response =>
          obtain ⟨v₃, hafter, hv₃⟩ := exists_after hreverse hresolve hv₂ request context response
          refine ⟨v₃, ?_, by simpa [Run.behind] using hv₃⟩
          simp only [bind, StateT.bind, hbefore, hsent] at hafter ⊢
          exact hafter

end Tracking

section Course

/-- One and the same world, whatever the calls. -/
def Same (v w : W) (_ : List (Call N)) : Prop := v = w

/-- A chain tracks itself. -/
theorem tracks_same (chain : Chain N W X) :
    List.Forall₂ (Tracks Same) (chain.map Prod.snd) chain := by
  rw [List.forall₂_map_left_iff]
  refine List.forall₂_same.2 fun e _ => ⟨?_, ?_⟩
  · rintro v w calls rfl context
    exact ⟨_, rfl, rfl⟩
  · rintro v w calls rfl context response
    exact ⟨_, rfl, rfl⟩

variable {chain : Chain N W X} {resolve : Resolver (StateM W)} {extension : X} {request : Request}
  {op : Operation} {w : W}

/-- A chain that writes down its calls takes the course of the chain. -/
theorem run_eq_course (hparse : Operation.parse request.query = .ok op) :
    run chain resolve extension request w = course chain resolve extension request op w := by
  let T (p : W × List (Call N)) (w : W) (calls : List (Call N)) : Prop := p = (w, calls)
  have hchain : List.Forall₂ (Tracks T) (chain.map fun e => loggedHooks e.1 e.2) chain := by
    rw [List.forall₂_map_left_iff]
    refine List.forall₂_same.2 fun e _ => ⟨?_, ?_⟩
    · rintro p w calls rfl context
      exact ⟨_, rfl, rfl⟩
    · rintro p w calls rfl context response
      exact ⟨_, rfl, rfl⟩
  have hresolve : TracksResolver T (loggedResolver resolve) resolve := by
    rintro p w calls rfl request
    exact ⟨_, rfl, rfl⟩
  obtain ⟨p, hrun, hp⟩ :=
    exists_execute hchain hresolve (show T (w, []) w [] from rfl) hparse extension
  rw [run, hrun, hp]

/-- So does the chain itself. -/
theorem execute_eq_course (hparse : Operation.parse request.query = .ok op) :
    execute (chain.map Prod.snd) resolve extension request w =
      ((course chain resolve extension request op w).result,
        (course chain resolve extension request op w).world) := by
  have hresolve : TracksResolver (N := N) Same resolve resolve := by
    rintro v w calls rfl request
    exact ⟨_, rfl, rfl⟩
  have hsame : Same w w ([] : List (Call N)) := rfl
  obtain ⟨v, hrun, rfl⟩ := exists_execute (tracks_same chain) hresolve hsame hparse extension
  exact hrun

end Course

end DexCache.Pipeline
