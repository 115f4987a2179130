import DexCache.Pipeline.Script
import DexCache.Proofs.Pipeline.Course
import DexCache.Proofs.Query.RoundTrip

/-!
# The discipline of the hooks

Which hooks are called, in which order, and what a failure changes, read off the course of an
execution.  The hooks before execution open it and leave the interceptors that go on; between
them and the hooks after execution the resolver is called at most once; a hook that fails after
execution leaves the last word to the resolver.
-/

namespace DexCache.Pipeline

open Query (Operation)

variable {N W X : Type}

section Opening

variable (chain : Chain N W X) (context : Context X) (w : W)

/-- Before execution only hooks before execution are called. -/
theorem calls_opening :
    ∀ call ∈ (opening chain context w).calls, ∃ name decided, call = .before name decided := by
  fun_induction opening chain context w with
  | case1 => simp
  | case2 _ _ _ _ _ _ _ _ _ ih => exact List.forall_mem_cons.2 ⟨⟨_, _, rfl⟩, ih⟩
  | case3 => exact List.forall_mem_cons.2 ⟨⟨_, _, rfl⟩, by simp⟩
  | case4 _ _ _ _ _ _ _ _ _ _ ih => exact List.forall_mem_cons.2 ⟨⟨_, _, rfl⟩, ih⟩

/-- The hooks are called in the order of the chain, and none is left out but at the end. -/
theorem opened_opening :
    (opening chain context w).calls.filterMap Call.opened? <+: chain.map Prod.fst := by
  fun_induction opening chain context w with
  | case1 => exact List.nil_prefix
  | case2 _ _ _ _ _ _ _ _ _ ih => exact List.cons_prefix_cons.2 ⟨rfl, ih⟩
  | case3 => exact List.cons_prefix_cons.2 ⟨rfl, List.nil_prefix⟩
  | case4 _ _ _ _ _ _ _ _ _ _ ih => exact List.cons_prefix_cons.2 ⟨rfl, ih⟩

/-- The interceptors that go on are those whose hook succeeds. -/
theorem succeeded_opening :
    (opening chain context w).calls.filterMap Call.succeeded? =
      (opening chain context w).succeeded.map Prod.fst := by
  fun_induction opening chain context w with
  | case1 => rfl
  | case2 _ _ _ _ _ _ _ _ _ ih => exact congrArg (List.cons _) ih
  | case3 => rfl
  | case4 _ _ _ _ _ _ _ _ _ _ ih => exact ih

/-- Behind a hook that has the answer no hook before execution is called. -/
theorem pairwise_opening :
    (opening chain context w).calls.Pairwise fun a b => a.answers = true → b.opened? = none := by
  fun_induction opening chain context w with
  | case1 => exact .nil
  | case2 _ _ _ _ _ _ _ _ _ ih => exact .cons (fun _ _ h => nomatch h) ih
  | case3 => exact .cons (by simp) .nil
  | case4 _ _ _ _ _ _ _ _ _ _ ih => exact .cons (fun _ _ h => nomatch h) ih

end Opening

section Closing

variable (resolve : Resolver (StateM W)) (request : Request) (chain : Chain N W X)
  (context : Context X) (response : Response) (w : W)

/-- All hooks after execution succeed, or one fails behind others that succeed and the resolver
has the last word. -/
theorem closing_cases :
    let r := closing resolve request chain context response w
    r.calls = chain.map (fun e => .after e.1 (.ok ())) ∨
      ∃ (passed : List N) (name : N) (e : Failure) (w' : W),
        r.calls = passed.map (fun n => .after n (.ok ())) ++
          [.after name (.error e), .resolve request r.result] ∧
        resolve request w' = (r.result, r.world) := by
  fun_induction closing resolve request chain context response w with
  | case1 => exact .inl rfl
  | case2 _ _ _ _ _ _ _ _ _ _ ih =>
      rcases ih with hall | ⟨passed, failed, e, w', hcalls, hanswer⟩
      · exact .inl (congrArg (List.cons _) hall)
      · exact .inr ⟨_ :: passed, failed, e, w', congrArg (List.cons _) hcalls, hanswer⟩
  | case3 => exact .inr ⟨[], _, _, _, rfl, rfl⟩

end Closing

section Discipline

variable {chain : Chain N W X} {resolve : Resolver (StateM W)} {extension : X} {request : Request}
  {op : Operation} {w : W}

/-- Behind the hooks before execution the resolver is called at most once; then all hooks after
execution succeed, or the resolver fails and none is called, or one of them fails. -/
theorem course_cases (chain : Chain N W X) (resolve : Resolver (StateM W)) (extension : X)
    (request : Request) (op : Operation) (w : W) :
    let o := opening chain ⟨op, request.variableValues, extension⟩ w
    let r := course chain resolve extension request op w
    ∃ sent rest, r.calls = o.calls ++ (sent ++ rest) ∧ sent.length ≤ 1 ∧
      (∀ call ∈ sent, ∃ asked answer, call = .resolve asked answer) ∧
      (rest = o.succeeded.reverse.map (fun e => .after e.1 (.ok ())) ∨
        (rest = [] ∧ ∃ asked e, .resolve asked (.error e) ∈ sent) ∨
        ∃ (passed : List N) (name : N) (e : Failure) (w' : W),
          rest = passed.map (fun n => .after n (.ok ())) ++
            [.after name (.error e), .resolve request r.result] ∧
          resolve request w' = (r.result, r.world)) := by
  unfold course follows
  generalize opening chain ⟨op, request.variableValues, extension⟩ w = o
  obtain ⟨earlier, succeeded, context, answered, w₁⟩ := o
  cases answered with
  | some data =>
      refine ⟨[], _, rfl, Nat.zero_le _, by simp, ?_⟩
      rcases closing_cases resolve request succeeded.reverse context { data := some data } w₁
        with hall | hfailed
      · exact .inl hall
      · exact .inr (.inr hfailed)
  | none =>
      rcases hresolved : resolve (outgoing request op context.operation) w₁ with ⟨resolved, w₂⟩
      simp only [hresolved]
      cases resolved with
      | error e =>
          exact ⟨[.resolve (outgoing request op context.operation) (.error e)], [], rfl,
            Nat.le_refl _, by simp, .inr (.inl ⟨rfl, _, e, List.mem_cons_self⟩)⟩
      | ok response =>
          refine ⟨[_], _, rfl, Nat.le_refl _, by simp, ?_⟩
          rcases closing_cases resolve request succeeded.reverse context response w₂
            with hall | hfailed
          · exact .inl hall
          · exact .inr (.inr hfailed)

/-- Behind hooks that leave no answer the next hooks open on what those leave. -/
def Opening.append (o : Opening N W X) (later : Chain N W X) : Opening N W X :=
  match o.answer with
  | some _ => o
  | none =>
    let o' := opening later o.context o.world
    { o' with calls := o.calls ++ o'.calls, succeeded := o.succeeded ++ o'.succeeded }

theorem opening_append (first later : Chain N W X) (context : Context X) (w : W) :
    opening (first ++ later) context w = (opening first context w).append later := by
  fun_induction opening first context w with
  | case1 => rfl
  | case2 name i rest context w changed w' hproceed o ih =>
      rw [List.cons_append, opening, hproceed]
      simp only [ih, o]
      rcases opening rest changed w' with ⟨_, _, _, _ | _, _⟩ <;> rfl
  | case3 name i rest context w data changed w' hanswered =>
      rw [List.cons_append, opening, hanswered]
      rfl
  | case4 name i rest context w e changed w' hfailed o ih =>
      rw [List.cons_append, opening, hfailed]
      simp only [ih, o]
      rcases opening rest _ w' with ⟨_, _, _, _ | _, _⟩ <;> rfl

/-- The hook before execution fails here, and has changed nothing but the operation. -/
def FailsQuietly (i : Interceptor (StateM W) X) (context : Context X) (w : W) : Prop :=
  ∃ e operation, i.before context w = ((.error e, { context with operation }), w)

/-- The hook before execution fails quietly, if the execution gets to it behind these others. -/
def FailsBehind (earlier : Chain N W X) (i : Interceptor (StateM W) X) (extension : X)
    (request : Request) (op : Operation) (w : W) : Prop :=
  let (prepared, w') :=
    before [] (earlier.map Prod.snd) ⟨op, request.variableValues, extension⟩ w
  prepared.answer = none → FailsQuietly i prepared.context w'

/-- The hooks before execution of the chain leave what its opening does. -/
theorem exists_before_eq (chain : Chain N W X) (context : Context X) (w : W) :
    let o := opening chain context w
    ∃ succeeded, before [] (chain.map Prod.snd) context w =
      (⟨o.context, succeeded, o.answer⟩, o.world) := by
  have hsame : Same w w ([] : List (Call N)) := rfl
  obtain ⟨v, succeeded, -, hbefore, rfl⟩ := exists_before (tracks_same chain) hsame [] context
  exact ⟨_, hbefore⟩

/-- A hook that fails quietly leaves only its call. -/
theorem opening_of_failsQuietly {i : Interceptor (StateM W) X} {context : Context X} {w : W}
    (h : FailsQuietly i context w) (name : N) (later : Chain N W X) :
    ∃ e, opening ((name, i) :: later) context w =
      { opening later context w with
        calls := .before name (.error e) :: (opening later context w).calls } := by
  obtain ⟨e, operation, hfails⟩ := h
  exact ⟨e, by rw [opening, hfails]⟩

/-- Without an interceptor that fails quietly the chain leaves the same, but for its call. -/
theorem opening_of_failsBehind {earlier : Chain N W X} {i : Interceptor (StateM W) X}
    (h : FailsBehind earlier i extension request op w) (name : N) (later : Chain N W X) :
    let context : Context X := ⟨op, request.variableValues, extension⟩
    ∃ calls, opening (earlier ++ (name, i) :: later) context w =
        { opening (earlier ++ later) context w with calls } ∧
      calls.filter Call.isResolve =
        (opening (earlier ++ later) context w).calls.filter Call.isResolve := by
  intro context
  obtain ⟨succeeded, hprepared⟩ := exists_before_eq earlier context w
  rw [FailsBehind, hprepared] at h
  simp only [opening_append]
  generalize opening earlier context w = o at h ⊢
  obtain ⟨calls, succeeded, changed, _ | data, w'⟩ := o
  · obtain ⟨e, hopening⟩ := opening_of_failsQuietly (h rfl) name later
    refine ⟨calls ++ .before name (.error e) :: (opening later changed w').calls, ?_, ?_⟩
    · simp only [Opening.append, hopening]
    · simp [Opening.append, Call.isResolve]
  · exact ⟨_, rfl, rfl⟩

/-- A run without an interceptor that fails quietly is the same, but for the call of its hook. -/
theorem course_of_failsBehind {earlier : Chain N W X} {i : Interceptor (StateM W) X}
    (h : FailsBehind earlier i extension request op w) (name : N) (later : Chain N W X) :
    let r := course (earlier ++ (name, i) :: later) resolve extension request op w
    let r' := course (earlier ++ later) resolve extension request op w
    r.result = r'.result ∧ r.world = r'.world ∧
      r.calls.filter Call.isResolve = r'.calls.filter Call.isResolve := by
  obtain ⟨calls, hopening, hcalls⟩ := opening_of_failsBehind h name later
  simp only [course, hopening]
  refine ⟨rfl, rfl, ?_⟩
  simp only [Run.behind, List.filter_append, hcalls]
  rfl

/-- Behind the hooks before execution none of them is called. -/
theorem opened_course (chain : Chain N W X) (resolve : Resolver (StateM W)) (extension : X)
    (request : Request) (op : Operation) (w : W) :
    let o := opening chain ⟨op, request.variableValues, extension⟩ w
    ∃ rest, (course chain resolve extension request op w).calls = o.calls ++ rest ∧
      ∀ call ∈ rest, call.opened? = none := by
  obtain ⟨sent, rest, hcalls, -, hsent, hrest⟩ :=
    course_cases chain resolve extension request op w
  refine ⟨sent ++ rest, hcalls, fun call hcall => ?_⟩
  rcases List.mem_append.1 hcall with hmem | hmem
  · obtain ⟨_, _, rfl⟩ := hsent call hmem
    rfl
  · rcases hrest with rfl | ⟨rfl, -⟩ | ⟨passed, name, e, w', rfl, -⟩
    · obtain ⟨_, -, rfl⟩ := List.mem_map.1 hmem
      rfl
    · cases hmem
    · simp only [List.mem_append, List.mem_map, List.mem_cons, List.not_mem_nil, or_false] at hmem
      obtain ⟨_, -, rfl⟩ | rfl | rfl := hmem <;> rfl

/-- The hooks before execution are called in the order of the chain, and none behind one that has
the answer. -/
theorem course_opens (chain : Chain N W X) (resolve : Resolver (StateM W)) (extension : X)
    (request : Request) (op : Operation) (w : W) :
    let r := course chain resolve extension request op w
    r.calls.filterMap Call.opened? <+: chain.map Prod.fst ∧
      r.calls.Pairwise fun a b => a.answers = true → b.opened? = none := by
  obtain ⟨rest, hcalls, hrest⟩ := opened_course chain resolve extension request op w
  simp only [hcalls]
  constructor
  · rw [List.filterMap_append, List.filterMap_eq_nil_iff.2 hrest, List.append_nil]
    exact opened_opening ..
  · have hlater : rest.Pairwise fun a b => a.answers = true → b.opened? = none :=
      List.pairwise_of_forall_mem_list fun _ _ call hcall _ => hrest call hcall
    exact List.pairwise_append.2
      ⟨pairwise_opening .., hlater, fun _ _ call hcall _ => hrest call hcall⟩

/-- If neither the resolver nor a hook after execution fails, the hooks after execution of those
that have succeeded are called in the opposite order, and the resolver at most once. -/
theorem course_closes (chain : Chain N W X) (resolve : Resolver (StateM W)) (extension : X)
    (request : Request) (op : Operation) (w : W) :
    let r := course chain resolve extension request op w
    (∀ call ∈ r.calls, call.fails = false) →
      r.calls.filterMap Call.closed? = (r.calls.filterMap Call.succeeded?).reverse ∧
        (r.calls.filter Call.isResolve).length ≤ 1 := by
  intro r hfails
  obtain ⟨sent, rest, hcalls, hlength, hsent, hrest⟩ :=
    course_cases chain resolve extension request op w
  have hopening := calls_opening chain ⟨op, request.variableValues, extension⟩ w
  have hsucceeded := succeeded_opening chain ⟨op, request.variableValues, extension⟩ w
  have hbehind (call : Call N) (h : call ∈ sent ++ rest) : call.fails = false :=
    hfails call (hcalls ▸ List.mem_append_right _ h)
  rcases hrest with rfl | ⟨-, asked, e, hfailed⟩ | ⟨passed, name, e, w', rfl, -⟩
  · rw [hcalls]
    generalize opening chain ⟨op, request.variableValues, extension⟩ w = o at *
    have hbefore : o.calls.filterMap Call.closed? = [] ∧ o.calls.filter Call.isResolve = [] := by
      constructor
      · refine List.filterMap_eq_nil_iff.2 fun call hcall => ?_
        obtain ⟨_, _, rfl⟩ := hopening call hcall
        rfl
      · refine List.filter_eq_nil_iff.2 fun call hcall => ?_
        obtain ⟨_, _, rfl⟩ := hopening call hcall
        exact Bool.false_ne_true
    have hasked : sent.filterMap Call.closed? = [] ∧ sent.filterMap Call.succeeded? = [] := by
      constructor
      all_goals
        refine List.filterMap_eq_nil_iff.2 fun call hcall => ?_
        obtain ⟨_, _, rfl⟩ := hsent call hcall
        rfl
    constructor
    · simp [List.filterMap_append, hbefore.1, hasked, hsucceeded, Function.comp_def,
        Call.closed?, Call.succeeded?]
    · simpa [List.filter_append, hbefore.2, List.filter_map, Function.comp_def, Call.isResolve]
        using Nat.le_trans (List.length_filter_le _ sent) hlength
  · cases hbehind _ (List.mem_append_left _ hfailed)
  · cases hbehind (.after name (.error e)) (by simp)

/-- If a hook after execution fails, the resolver has the last word. -/
theorem course_recovers (chain : Chain N W X) (resolve : Resolver (StateM W)) (extension : X)
    (request : Request) (op : Operation) (w : W) :
    let r := course chain resolve extension request op w
    ∀ name e, .after name (.error e) ∈ r.calls →
      ∃ earlier w', r.calls = earlier ++ [.after name (.error e), .resolve request r.result] ∧
        resolve request w' = (r.result, r.world) := by
  intro r name e hmem
  obtain ⟨sent, rest, hcalls, -, hsent, hrest⟩ :=
    course_cases chain resolve extension request op w
  rw [hcalls] at hmem
  rcases List.mem_append.1 hmem with hopening | hmem
  · obtain ⟨_, _, h⟩ := calls_opening chain _ w _ hopening
    cases h
  rcases List.mem_append.1 hmem with hasked | hmem
  · obtain ⟨_, _, h⟩ := hsent _ hasked
    cases h
  rcases hrest with rfl | ⟨rfl, -⟩ | ⟨passed, failed, e', w', rfl, hanswer⟩
  · obtain ⟨_, -, h⟩ := List.mem_map.1 hmem
    cases h
  · cases hmem
  · have hlast : Call.after name (.error e) = .after failed (.error e') := by simpa using hmem
    cases hlast
    exact ⟨_, w', by rw [hcalls, ← List.append_assoc, ← List.append_assoc], hanswer⟩

/-- The discipline of the hooks.  What a chain makes of a request that can be read is told by the
calls of its hooks and of the resolver:

* an interceptor whose hook before execution fails, and has changed nothing but the operation,
  can be left out: the resolver is called the same and the result is the same;
* the hooks before execution are called in the order of the chain, and none behind one that has
  the answer;
* if neither the resolver nor a hook after execution fails, the hooks after execution are those
  of the interceptors whose hook before execution has succeeded, in the opposite order, and the
  resolver is called at most once;
* if a hook after execution fails, only the resolver is called behind it, for the request as it
  came, and its answer is the result. -/
theorem hooks_disciplined (chain : Chain N W X) (resolve : Resolver (StateM W)) (extension : X)
    {request : Request} {op : Operation} (hparse : Operation.parse request.query = .ok op) (w : W) :
    let r := run chain resolve extension request w
    execute (chain.map Prod.snd) resolve extension request w = (r.result, r.world) ∧
      (∀ earlier name i later, chain = earlier ++ (name, i) :: later →
        FailsBehind earlier i extension request op w →
          let r' := run (earlier ++ later) resolve extension request w
          r.result = r'.result ∧ r.world = r'.world ∧
            r.calls.filter Call.isResolve = r'.calls.filter Call.isResolve) ∧
      (r.calls.filterMap Call.opened? <+: chain.map Prod.fst ∧
        r.calls.Pairwise fun a b => a.answers = true → b.opened? = none) ∧
      ((∀ call ∈ r.calls, call.fails = false) →
        r.calls.filterMap Call.closed? = (r.calls.filterMap Call.succeeded?).reverse ∧
          (r.calls.filter Call.isResolve).length ≤ 1) ∧
      ∀ name e, .after name (.error e) ∈ r.calls →
        ∃ earlier w', r.calls = earlier ++ [.after name (.error e), .resolve request r.result] ∧
          resolve request w' = (r.result, r.world) := by
  simp only [run_eq_course hparse]
  refine ⟨execute_eq_course hparse, ?_, course_opens .., course_closes chain resolve _ _ _ w,
    course_recovers chain resolve _ _ _ w⟩
  rintro earlier name i later rfl h
  exact course_of_failsBehind h name later

/-- A hook that drops a selection and then fails, between one that keeps a note and one that fails
after execution. -/
theorem hooks_disciplined_of_broken_hooks :
    let keeper : Script := { before := [.note "kept"], after := [.takeNote "note"] }
    let broken : Script := { before := [.drop 0, .fail "broken"] }
    let late : Script := { after := [.set "note" .null, .fail "late"] }
    let op : Operation := { selections := [.plain "a", .withSubfields "b" [.plain "c"]] }
    let request : Request := { query := op.text }
    let chain : Chain String Prompter Notes :=
      [("keeper", keeper.interceptor), ("broken", broken.interceptor), ("late", late.interceptor)]
    let r := run chain Prompter.resolve {} request { answers := [] }
    let r' := run (chain.eraseIdx 1) Prompter.resolve {} request { answers := [] }
    Operation.parse request.query = .ok op ∧
      FailsBehind (chain.take 1) broken.interceptor {} request op { answers := [] } ∧
      Call.after "late" (.error (.reported "late")) ∈ r.calls ∧
      (r.result = r'.result ∧ r.calls.filter Call.isResolve = r'.calls.filter Call.isResolve) ∧
      ∃ earlier w', r.calls =
          earlier ++ [.after "late" (.error (.reported "late")), .resolve request r.result] ∧
        Prompter.resolve request w' = (r.result, r.world) := by
  intro keeper broken late op request chain r r'
  have hparse : Operation.parse request.query = .ok op := by
    exact Query.parse_text ⟨by simp [op], by simp [op], by simp [op], by decide +kernel⟩
  have hfails : FailsBehind (chain.take 1) broken.interceptor {} request op { answers := [] } :=
    fun _ => ⟨_, _, rfl⟩
  have hlate : Call.after "late" (.error (.reported "late")) ∈ r.calls := by
    simp only [r, run_eq_course hparse]
    exact List.mem_of_getElem? (i := 4) rfl
  obtain ⟨-, hquiet, -, -, hrecovers⟩ :=
    hooks_disciplined chain Prompter.resolve {} hparse { answers := [] }
  obtain ⟨hresult, -, hcalls⟩ := hquiet (chain.take 1) "broken" _ (chain.drop 2) rfl hfails
  exact ⟨hparse, hfails, hlate, ⟨hresult, hcalls⟩, hrecovers _ _ hlate⟩

end Discipline

end DexCache.Pipeline
