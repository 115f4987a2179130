import DexCache.Proofs.Interception.Transparency
import DexCache.Proofs.Listing.Answers

/-!
# Queries that the store fails on

The store can fail on a field that it would claim: a variable is not supplied, an argument
cannot be read, or a cursor is bad.  On a field that it would answer alone it fails while the
query is planned; on a shared field it may fail only when the resolver has already answered
what was left of the query.  Either way nothing of the plan is kept: neither the answers of
other fields nor what the resolver gave first, and the resolver answers the query as it came.
-/

namespace DexCache

open Query (Field Operation)

/-- Whether a listing can be answered does not depend on what is selected in it. -/
theorem Catalogue.respond_eq_error {α F K : Type} {c : Catalogue α F K} {entities : List α}
    {name : String} {args : Json.Object} {fields : List Field} {e : Query.Error}
    (h : c.respond entities name args fields = .error e) (fields' : List Field) :
    c.respond entities name args fields' = .error e := by
  rw [respond_eq] at h ⊢
  cases hcut : c.cut entities name args with
  | error e' =>
      rw [hcut] at h
      exact h
  | ok found =>
      rw [hcut] at h
      cases h

theorem Store.respond_eq_error {s : Store} {kind : EntityKind} {name : String}
    {args : Json.Object} {fields : List Field} {e : Query.Error}
    (h : s.respond kind name args fields = .error e) (fields' : List Field) :
    s.respond kind name args fields' = .error e := by
  cases kind with
  | pair => exact Catalogue.respond_eq_error h fields'
  | token => exact Catalogue.respond_eq_error h fields'

namespace Interception

variable {s : Store} {now : Int} {supplied : Json.Object} {f : Field}

/-- The store would claim this field, but a variable is not supplied or it has no answer. -/
structure Failing (s : Store) (now : Int) (supplied : Json.Object) (f : Field)
    (kind : EntityKind) (l : Listing) : Prop where
  listed : listing? f.name = some (kind, l)
  selected : l.entityFields f ≠ []
  fresh : s.isFreshFor kind (heldFields l f) now = true
  fails : ∃ e, (do
    let arguments ← f.argumentsJson supplied
    s.respond kind f.name arguments f.subfields) = .error e

/-- The store has no value for a shared field, whatever the resolver gave for it. -/
def Shared.Fails (s : Store) (part : Shared) : Prop :=
  ∀ resolved, ∃ e, part.value s resolved = .error e

theorem Shared.fails_of_respond {part : Shared} {e : Query.Error}
    (h : ∀ fields, s.respond part.kind part.asked.name part.arguments fields = .error e) :
    part.Fails s := by
  intro resolved
  refine ⟨e, ?_⟩
  by_cases hnull : resolved = .null
  · rw [hnull]
    exact h part.asked.subfields
  · rw [part.value_of_ne_null hnull, h]
    rfl

/-- The store fails on a field when it is claimed, or later on the part that it takes of it. -/
theorem Failing.claim_cases {kind : EntityKind} {l : Listing}
    (h : Failing s now supplied f kind l) :
    (∃ e, claim s now supplied f = .error e) ∨
      ∃ sent part, claim s now supplied f = .ok (.shared sent part) ∧ part.Fails s := by
  obtain ⟨e, hfails⟩ := h.fails
  have hclaim : claim s now supplied f = (do
      let arguments ← f.argumentsJson supplied
      if (l.entityFields f).all fun g => !l.isMissing g.name then
        return .answered (← s.respond kind f.name arguments f.subfields)
      else
        return share kind l f arguments) := by
    have hopen : ((l.entityFields f).isEmpty || !s.isFreshFor kind (heldFields l f) now) =
        false := by
      simp [h.selected, h.fresh]
    rw [heldFields] at hopen
    simp only [claim, h.listed, hopen, Bool.false_eq_true, if_false]
  rw [hclaim]
  cases hsupplied : f.argumentsJson supplied with
  | error e' => exact .inl ⟨e', rfl⟩
  | ok arguments =>
      rw [hsupplied] at hfails
      have hrespond : s.respond kind f.name arguments f.subfields = .error e := hfails
      simp only [bind, Except.bind, hrespond]
      split
      · exact .inl ⟨e, rfl⟩
      · refine .inr ⟨_, _, rfl, Shared.fails_of_respond (e := e) fun fields => ?_⟩
        exact Store.respond_eq_error hrespond fields

/-- Shared fields are added to a response only if each of them has a value. -/
theorem value_of_foldlM_addShared {parts : List Shared} {data result : Json.Object}
    (h : parts.foldlM (addShared s) data = .ok result) {part : Shared} (hpart : part ∈ parts) :
    ∃ resolved value, part.value s resolved = .ok value := by
  induction parts generalizing data with
  | nil => cases hpart
  | cons first rest ih =>
      rw [List.foldlM_cons] at h
      obtain ⟨next, hnext, h⟩ := Outcome.bind_eq_ok_iff.1 h
      rcases List.mem_cons.1 hpart with rfl | hpart
      · obtain ⟨value, hvalue, -⟩ := addShared_eq_ok_iff.1 hnext
        exact ⟨_, value, hvalue⟩
      · exact ih h hpart

/-- A plan with a part that fails completes no response. -/
theorem Plan.complete_eq_error {p : Plan} {part : Shared} (hpart : part ∈ p.shared)
    (hfails : part.Fails s) (data : Json.Object) : ∃ e, p.complete s data = .error e := by
  cases hcomplete : p.complete s data with
  | error e => exact ⟨e, rfl⟩
  | ok result =>
      obtain ⟨added, hadded, -⟩ := Outcome.bind_eq_ok_iff.1 hcomplete
      obtain ⟨resolved, value, hvalue⟩ := value_of_foldlM_addShared hadded hpart
      obtain ⟨e, he⟩ := hfails resolved
      rw [hvalue] at he
      cases he

section Execution

open Pipeline (Notes execute follow outgoing settle)

variable {m : Type → Type} [Monad m] [LawfulMonad m] {view : View} {request : Request}
  {op : Operation}

/-- Without a plan the resolver is asked at once. -/
theorem execute_of_plan_error (resolve : Resolver m)
    (hparse : Operation.parse request.query = .ok op) (hkind : op.kind = .query)
    (hready : view.status = .done) {e : Query.Error}
    (hplan : plan view.store view.now request.variableValues op.selections = .error e) :
    execute [interceptor (pure view)] resolve ({} : Notes) request = resolve request := by
  have hbefore : before view ⟨op, request.variableValues, ({} : Notes)⟩ =
      (.error (.query e), ⟨op, request.variableValues, {}⟩) := by
    unfold before
    rw [if_neg (by simp [hkind, hready]), hplan]
  rw [execute_of_parse hparse, hbefore]
  rfl

/-- With a shared field that fails the resolver is asked for what is left of the query, and
then, whatever it gave, for the query as it came. -/
theorem execute_of_part_fails (answer : Request → m Response)
    (hparse : Operation.parse request.query = .ok op) {p : Plan}
    (hacting : Acting view (⟨op, request.variableValues, {}⟩ : Context Notes) p)
    {part : Shared} (hpart : part ∈ p.shared) (hfails : part.Fails view.store) :
    let left := op.selections.filterMap (leftOf view.store view.now request.variableValues)
    execute [interceptor (pure view)] (fun r => .ok <$> answer r) ({} : Notes) request =
      answer (outgoing request op { op with selections := left }) *>
        .ok <$> answer request := by
  intro left
  rcases hacting.before_cases with ⟨hnone, -⟩ | ⟨-, hbefore⟩
  -- something is left of the field with the part, so the store has not answered every field
  · rw [hacting.planned] at hpart
    obtain ⟨f, hf, hc⟩ := List.mem_filterMap.1 hpart
    have hleft := List.filterMap_eq_nil_iff.1 hnone f hf
    unfold leftOf at hleft
    cases htaken : taken view.store view.now request.variableValues f with
    | shared sent part => simp [htaken, Claim.left] at hleft
    | _ => simp [htaken, Claim.part?] at hc
  · have hsettle (response : Response) :
        settle (interceptor (pure view)) (fun r => .ok <$> answer r) request
          (⟨{ op with selections := left }, request.variableValues, { plan := some p }⟩ :
            Context Notes) response = .ok <$> answer request := by
      obtain ⟨e, hcomplete⟩ := Plan.complete_eq_error hpart hfails (response.data.getD [])
      rw [settle_of_plan rfl, hcomplete]
    rw [execute_of_parse hparse, hbefore, follow, bind_map_left, seqRight_eq_bind]
    exact bind_congr hsettle

/-- If the store fails on a field that it would claim, the response is the resolver's answer to
the query as it came; before it the resolver may have been asked for a part of the query, and
what it gave then is dropped. -/
theorem execute_of_failing (answer : Request → m Response)
    (hparse : Operation.parse request.query = .ok op) (hkind : op.kind = .query)
    (hready : view.status = .done) (hf : f ∈ op.selections) {kind : EntityKind} {l : Listing}
    (h : Failing view.store view.now request.variableValues f kind l) :
    let resolve : Resolver m := fun r => .ok <$> answer r
    execute [interceptor (pure view)] resolve ({} : Notes) request = resolve request ∨
      ∃ left : Request, execute [interceptor (pure view)] resolve ({} : Notes) request =
        answer left *> resolve request := by
  intro resolve
  cases hplan : plan view.store view.now request.variableValues op.selections with
  | error e => exact .inl (execute_of_plan_error resolve hparse hkind hready hplan)
  | ok made =>
      have hclaims := claims_of_plan hplan
      rcases h.claim_cases with ⟨e, hclaim⟩ | ⟨sent, part, hclaim, hfails⟩
      -- a plan was made, so every field was claimed without an error
      · have hclaimed := hclaims f hf
        rw [hclaim] at hclaimed
        cases hclaimed
      · have hpart : part ∈
            (planOf view.store view.now request.variableValues op.selections).shared :=
          List.mem_filterMap.2 ⟨f, hf, by rw [taken_of_ok hclaim]; rfl⟩
        have hnonempty :
            (planOf view.store view.now request.variableValues op.selections).isEmpty =
              false := by
          simp [Plan.isEmpty, List.ne_nil_of_mem hpart]
        exact .inr ⟨_, execute_of_part_fails answer hparse
          ⟨hkind, hready, hclaims, rfl, hnonempty⟩ hpart hfails⟩

/-- A page of pairs with a bad cursor, shared for the collector, next to a page of tokens that
the store has answered: the resolver answers both. -/
theorem execute_of_failing_cursor :
    let view := (Watched.onePair { address := "a", info := { state := some "Active" } } 0).view 0
    let page (fields : List Field) : List Field :=
      [.withSubfields "edges" [.withSubfields "node" fields]]
    let f : Field := {
      name := "filteredPairs"
      arguments := [("pagination", .object [("after", .str "?")])]
      subfields := page [.plain "state", .plain "feesCollector"] }
    let op : Operation :=
      { selections := [.withSubfields "filteredTokens" (page [.plain "name"]), f] }
    let request : Request := { query := op.text }
    let resolve : Resolver Id := fun r => .ok { data := some [("asked", .str r.query)] }
    Operation.parse request.query = .ok op ∧
      (∃ value, taken view.store 0 [] (.withSubfields "filteredTokens" (page [.plain "name"])) =
        .answered value) ∧
      (∃ l, Failing view.store 0 [] f .pair l) ∧
      execute [interceptor (pure view)] resolve ({} : Notes) request = resolve request := by
  intro view page f op request resolve
  have hwritable : op.Writable :=
    ⟨by simp [op], by simp [op], by simp [op], by decide +kernel⟩
  have hparse : Operation.parse request.query = .ok op := Query.parse_text hwritable
  have hfailing : ∃ l, Failing view.store 0 [] f .pair l :=
    ⟨_, rfl, by decide +kernel, by decide +kernel, _, rfl⟩
  obtain ⟨l, hf⟩ := hfailing
  refine ⟨hparse, ⟨_, rfl⟩, ⟨l, hf⟩, ?_⟩
  rcases execute_of_failing (fun r => ({ data := some [("asked", .str r.query)] } : Response))
    (m := Id) hparse rfl (by decide +kernel) (by simp [op]) hf with h | ⟨left, h⟩
  · exact h
  · exact h

end Execution

end Interception

end DexCache
