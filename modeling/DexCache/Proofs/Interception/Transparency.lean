import DexCache.Pipeline.Script
import DexCache.Proofs.Interception.Completion
import DexCache.Proofs.Interception.Forwarding
import DexCache.Proofs.Interception.Mirroring
import DexCache.Proofs.Pipeline.Single

/-!
# Interception is transparent

A query that runs through the interceptor of the store has the same answer as without it, if
the resolver has the data of the store and the selections are regular.  For each top-level
field the value that it gets on its way, from the store, from the resolver or from both, is
like the value that the resolver gives it; the plan then puts these values in the order of the
query.  Where a hook fails the resolver answers the query as it came.
-/

namespace DexCache

open Query (Field Operation VariableDefinition)

/-- Are two responses the same when the objects in their data are taken as maps?  Their data
have the same keys in the same order. -/
structure Response.Alike (r r' : Response) : Prop where
  data : Option.Rel (List.Forall₂ fun a b => a.1 = b.1 ∧ Json.Alike a.2 b.2) r.data r'.data
  errors : r.errors = r'.errors

theorem Response.Alike.rfl {r : Response} : r.Alike r := by
  refine ⟨?_, Eq.refl _⟩
  cases r.data with
  | none => exact .none
  | some data => exact .some (List.forall₂_same.2 fun a _ => ⟨Eq.refl _, .refl _⟩)

namespace Interception

open Json (Alike Object)

/-- A query with finite numbers in which response keys are distinct and the listings leave no
doubt about their parts. -/
@[mk_iff]
structure Regular (op : Operation) : Prop where
  isQuery : op.kind = .query
  finite : op.Finite
  distinct : (op.selections.map Field.responseKey).Nodup
  listings : ∀ f ∈ op.selections, ∀ found ∈ listing? f.name, found.2.Regular f

instance (op : Operation) : Decidable (Regular op) :=
  decidable_of_iff' _ (regular_iff op)

section Fields

variable {o : Origin} {s : Store} {now : Int} {values : Object} {kind : EntityKind} {l : Listing}
  {f : Field} {arguments : Object}

theorem field_of_ok (hlisted : listing? f.name = some (kind, l))
    (hsupplied : f.argumentsJson values = .ok arguments) {value : Json}
    (h : o.respond s kind f.name arguments f.subfields = .ok value)
    (definitions : List VariableDefinition) :
    o.field s definitions values f = (value, []) := by
  simp [Origin.field, Origin.listed, hlisted, hsupplied, bind, Except.bind, h]

theorem field_of_error (hlisted : listing? f.name = some (kind, l))
    (hsupplied : f.argumentsJson values = .ok arguments) {e : Query.Error}
    (h : o.respond s kind f.name arguments f.subfields = .error e)
    (definitions : List VariableDefinition) :
    o.field s definitions values f = (.null, [o.report f e]) := by
  simp [Origin.field, Origin.listed, hlisted, hsupplied, bind, Except.bind, h]

/-- What the store answers alone is like what the resolver answers. -/
theorem field_answered (hmirrors : o.Mirrors s) (hregular : l.Regular f)
    (hclaimable : Claimable s now values f kind l arguments) (hmissing : missingFields l f = [])
    {value : Json} (hvalue : s.respond kind f.name arguments f.subfields = .ok value)
    (definitions : List VariableDefinition) :
    ∃ whole, o.field s definitions values f = (whole, []) ∧ Alike value whole := by
  have hheld : ∀ g ∈ l.entityFields f, l.isMissing g.name = false := by
    simpa [missingFields, List.filter_eq_nil_iff] using hmissing
  obtain ⟨whole, hwhole, halike⟩ := (hmirrors hclaimable.listed arguments).answered hregular
    hclaimable.selected hheld hvalue
  exact ⟨whole, field_of_ok hclaimable.listed hclaimable.supplied hwhole definitions, halike⟩

/-- What the store and the resolver answer together is like what the resolver answers alone. -/
theorem field_shared (hmirrors : o.Mirrors s) (hregular : l.Regular f)
    (hclaimable : Claimable s now values f kind l arguments) {sent : Field} {part : Shared}
    (hshare : share kind l f arguments = .shared sent part)
    {definitions : List VariableDefinition} {value : Json}
    (hvalue : part.value s (o.field s definitions values sent).1 = .ok value) :
    ∃ whole, o.field s definitions values f = (whole, []) ∧
      (o.field s definitions values sent).2 = [] ∧ Alike value whole := by
  have hlisted := hclaimable.listed
  obtain ⟨rfl, rfl⟩ := Claim.shared.inj hshare
  let sent := l.withEntityFields f (sentFields l (l.entityFields f))
  have hsentListed : listing? sent.name = some (kind, l) := hlisted
  have hsentSupplied : sent.argumentsJson values = .ok arguments := hclaimable.supplied
  rcases (hmirrors hlisted arguments).shared hregular hclaimable.selected
    (identifierField_ne_typename hlisted) with ⟨e, hhere, hthere⟩ | hfound
  · have hsent := field_of_error hsentListed hsentSupplied (hthere _) definitions
    rw [hsent, Shared.value, hhere] at hvalue
    cases hvalue
  · obtain ⟨resolved, held, whole, hresolved, hnull, hheld, hwhole, halike⟩ := hfound
    have hsent := field_of_ok hsentListed hsentSupplied hresolved definitions
    rw [hsent, Shared.value_of_ne_null _ hnull] at hvalue
    obtain ⟨here, hhere, hvalue⟩ := Outcome.bind_eq_ok_iff.1 hvalue
    refine ⟨whole, field_of_ok hlisted hclaimable.supplied hwhole definitions, ?_, ?_⟩
    · exact congrArg Prod.snd hsent
    · rw [← Outcome.pure_eq_ok_iff.1 hvalue, Except.ok.inj (hhere.symm.trans hheld)]
      exact halike

end Fields

section Plan

variable {o : Origin} {s : Store} {now : Int} {values : Object} {fields : List Field}

/-- What becomes of a field: it is left as it is, or its answer is like the resolver's, or it
is sent in part and whatever is made of both parts is like the resolver's answer. -/
theorem taken_cases (hmirrors : o.Mirrors s)
    (hregular : ∀ f ∈ fields, ∀ found ∈ listing? f.name, found.2.Regular f)
    (hclaims : ∀ f ∈ fields, claim s now values f = .ok (taken s now values f))
    (definitions : List VariableDefinition) {f : Field} (hf : f ∈ fields) :
    taken s now values f = .declined ∨
      (∃ value whole, taken s now values f = .answered value ∧
        o.field s definitions values f = (whole, []) ∧ Alike value whole) ∨
      ∃ sent part, taken s now values f = .shared sent part ∧
        sent.responseKey = f.responseKey ∧ part.key = f.responseKey ∧
        ∀ value, part.value s (o.field s definitions values sent).1 = .ok value →
          ∃ whole, o.field s definitions values f = (whole, []) ∧
            (o.field s definitions values sent).2 = [] ∧ Alike value whole := by
  rcases claim_cases (hclaims f hf) with hdeclined | ⟨kind, l, arguments, hclaimable, htaken⟩
  · exact .inl hdeclined
  · have hlistingRegular := hregular f hf (kind, l) hclaimable.listed
    rcases htaken with ⟨hmissing, value, hvalue, htaken⟩ | ⟨-, htaken⟩
    · obtain ⟨whole, hwhole⟩ := field_answered hmirrors hlistingRegular hclaimable hmissing
        hvalue definitions
      exact .inr (.inl ⟨value, whole, htaken, hwhole⟩)
    · exact .inr (.inr ⟨_, _, htaken, rfl, rfl, fun value hvalue =>
        field_shared hmirrors hlistingRegular hclaimable rfl hvalue⟩)

theorem responseKey_of_leftOf
    (hclaims : ∀ f ∈ fields, claim s now values f = .ok (taken s now values f)) :
    ∀ f ∈ fields, ∀ g ∈ leftOf s now values f, g.responseKey = f.responseKey := by
  intro f hf g hg
  rcases leftOf_cases (hclaims f hf) hg with ⟨-, rfl⟩ | ⟨_, _, _, -, -, rfl⟩
  · rfl
  · rfl

theorem key_of_part?
    (hclaims : ∀ f ∈ fields, claim s now values f = .ok (taken s now values f)) :
    ∀ f ∈ fields, ∀ part ∈ (taken s now values f).part?, part.key = f.responseKey := by
  intro f hf part hpart
  rcases claim_cases (hclaims f hf) with hc | ⟨_, _, _, -, ⟨-, _, -, hc⟩ | ⟨-, hc⟩⟩
  · rw [hc] at hpart
    cases hpart
  · rw [hc] at hpart
    cases hpart
  · rw [hc] at hpart
    cases hpart
    rfl

theorem key_of_answer? : ∀ f ∈ fields, ∀ a ∈ (taken s now values f).answer?.map
    (fun value => (f.responseKey, value)), a.1 = f.responseKey := by
  intro f _ a ha
  obtain ⟨_, -, rfl⟩ := Option.map_eq_some_iff.1 ha
  rfl

theorem not_mem_answered (hdistinct : (fields.map Field.responseKey).Nodup) {f : Field}
    (hf : f ∈ fields) (h : (taken s now values f).answer? = none) :
    f.responseKey ∉ (planOf s now values fields).answered.map Prod.fst := by
  intro hmem
  have hsome := (Distinct.mem_map_filterMap_iff key_of_answer? hdistinct hf).1 hmem
  rw [h] at hsome
  cases hsome

theorem not_mem_shared (hdistinct : (fields.map Field.responseKey).Nodup)
    (hclaims : ∀ f ∈ fields, claim s now values f = .ok (taken s now values f)) {f : Field}
    (hf : f ∈ fields) (h : (taken s now values f).part? = none) :
    f.responseKey ∉ (planOf s now values fields).shared.map Shared.key := by
  intro hmem
  have hsome := (Distinct.mem_map_filterMap_iff (key_of_part? hclaims) hdistinct hf).1 hmem
  rw [h] at hsome
  cases hsome

/-- The key of each field is answered, shared or left for the resolver. -/
theorem mem_order_planOf_iff (hdistinct : (fields.map Field.responseKey).Nodup)
    (hclaims : ∀ f ∈ fields, claim s now values f = .ok (taken s now values f)) (key : String) :
    key ∈ (planOf s now values fields).order ↔
      key ∈ (planOf s now values fields).answered.map Prod.fst ∨
        key ∈ (planOf s now values fields).shared.map Shared.key ∨
          key ∈ (fields.filterMap (leftOf s now values)).map Field.responseKey := by
  have hleftKey := responseKey_of_leftOf hclaims
  have hpartKey := key_of_part? hclaims
  constructor
  · intro hkey
    obtain ⟨f, hf, rfl⟩ := List.mem_map.1 hkey
    cases hc : taken s now values f with
    | answered value =>
        refine .inl ((Distinct.mem_map_filterMap_iff key_of_answer? hdistinct hf).2 ?_)
        rw [hc]
        rfl
    | declined =>
        refine .inr (.inr ((Distinct.mem_map_filterMap_iff hleftKey hdistinct hf).2 ?_))
        rw [leftOf, hc]
        rfl
    | shared sent part =>
        refine .inr (.inr ((Distinct.mem_map_filterMap_iff hleftKey hdistinct hf).2 ?_))
        rw [leftOf, hc]
        rfl
  · rintro (hkey | hkey | hkey)
    · exact (Distinct.sublist_map_filterMap key_of_answer?).subset hkey
    · exact (Distinct.sublist_map_filterMap hpartKey).subset hkey
    · exact (Distinct.sublist_map_filterMap hleftKey).subset hkey

@[simp] theorem keys_entries (definitions : List VariableDefinition) (fields : List Field) :
    (o.entries s definitions values fields).keys = fields.map Field.responseKey := by
  simp [Origin.entries, Object.keys]

/-- The resolver's answer to what is left of a field stands under the key of the field. -/
theorem get?_entries_leftOf (hdistinct : (fields.map Field.responseKey).Nodup)
    (hclaims : ∀ f ∈ fields, claim s now values f = .ok (taken s now values f))
    (definitions : List VariableDefinition) {f g : Field} (hf : f ∈ fields)
    (hg : leftOf s now values f = some g) :
    (o.entries s definitions values (fields.filterMap (leftOf s now values))).get?
      f.responseKey = some (o.field s definitions values g).1 := by
  have hleftKey := responseKey_of_leftOf hclaims
  have hleft : (o.entries s definitions values
      (fields.filterMap (leftOf s now values))).keys.Nodup := by
    rw [keys_entries]
    exact hdistinct.sublist (Distinct.sublist_map_filterMap hleftKey)
  rw [Object.get?_eq_some_iff hleft, ← hleftKey f hf g hg]
  exact List.mem_map.2 ⟨g, List.mem_filterMap.2 ⟨f, hf, hg⟩, rfl⟩

/-- When each claimed field has its value, the response is like the resolver's. -/
theorem complete_alike (hmirrors : o.Mirrors s)
    (hdistinct : (fields.map Field.responseKey).Nodup)
    (hregular : ∀ f ∈ fields, ∀ found ∈ listing? f.name, found.2.Regular f)
    (hclaims : ∀ f ∈ fields, claim s now values f = .ok (taken s now values f))
    (definitions : List VariableDefinition) {result : Object}
    (h : (planOf s now values fields).complete s (o.entries s definitions values
      (fields.filterMap (leftOf s now values))) = .ok result) :
    List.Forall₂ (fun a b => a.1 = b.1 ∧ Alike a.2 b.2) result
        (o.entries s definitions values fields) ∧
      o.faults s definitions values (fields.filterMap (leftOf s now values)) =
        o.faults s definitions values fields := by
  have hleft : (o.entries s definitions values
      (fields.filterMap (leftOf s now values))).keys.Nodup := by
    rw [keys_entries]
    exact hdistinct.sublist (Distinct.sublist_map_filterMap (responseKey_of_leftOf hclaims))
  have hkeys (key : String) : key ∈ (planOf s now values fields).order ↔
      key ∈ (planOf s now values fields).answered.map Prod.fst ∨
        key ∈ (planOf s now values fields).shared.map Shared.key ∨
          key ∈ (o.entries s definitions values
            (fields.filterMap (leftOf s now values))).keys := by
    rw [keys_entries]
    exact mem_order_planOf_iff hdistinct hclaims key
  obtain ⟨value, rfl, hanswers, hshares, hothers⟩ := Plan.complete_eq_ok hleft
    (hdistinct.sublist (Distinct.sublist_map_filterMap (key_of_part? hclaims)))
    (hdistinct.sublist (Distinct.sublist_map_filterMap key_of_answer?)) hdistinct hkeys h
  have hfield : ∀ f ∈ fields, Alike (value f.responseKey) (o.field s definitions values f).1 ∧
      (leftOf s now values f).toList.flatMap (fun g => (o.field s definitions values g).2) =
        (o.field s definitions values f).2 := by
    intro f hf
    rcases taken_cases hmirrors hregular hclaims definitions hf with
      hc | ⟨answer, whole, hc, hwhole, halike⟩ | ⟨sent, part, hc, -, hkey, hmade⟩
    -- the field is left as it is, so its value is the resolver's own
    · have hg : leftOf s now values f = some f := by rw [leftOf, hc]; rfl
      have hvalue := hothers f.responseKey (not_mem_answered hdistinct hf (by rw [hc]; rfl))
        (not_mem_shared hdistinct hclaims hf (by rw [hc]; rfl))
      rw [hvalue, get?_entries_leftOf hdistinct hclaims definitions hf hg, hg]
      exact ⟨.refl _, List.flatMap_singleton ..⟩
    -- the field is answered, and the resolver is not asked for it
    · have hg : leftOf s now values f = none := by rw [leftOf, hc]; rfl
      have hmem : (f.responseKey, answer) ∈ (planOf s now values fields).answered :=
        List.mem_filterMap.2 ⟨f, hf, by rw [hc]; rfl⟩
      rw [hanswers _ hmem, hg, hwhole]
      exact ⟨halike, rfl⟩
    -- the field is shared, and the value is made of both parts
    · have hg : leftOf s now values f = some sent := by rw [leftOf, hc]; rfl
      have hmem : part ∈ (planOf s now values fields).shared :=
        List.mem_filterMap.2 ⟨f, hf, by rw [hc]; rfl⟩
      have hvalue := hshares part hmem
        (hkey.symm ▸ not_mem_answered hdistinct hf (by rw [hc]; rfl))
      rw [hkey, get?_entries_leftOf hdistinct hclaims definitions hf hg] at hvalue
      obtain ⟨whole, hwhole, hfaults, halike⟩ := hmade _ hvalue
      rw [hg, hwhole]
      exact ⟨halike, (List.flatMap_singleton ..).trans hfaults⟩
  refine ⟨?_, ?_⟩
  · rw [planOf, List.map_map, Origin.entries]
    refine List.forall₂_map_left_iff.2 (List.forall₂_map_right_iff.2 ?_)
    exact List.forall₂_same.2 fun f hf => ⟨rfl, (hfield f hf).1⟩
  · rw [Origin.faults, Origin.faults, List.filterMap_eq_flatMap_toList, List.flatMap_assoc]
    exact List.flatMap_congr fun f hf => (hfield f hf).2

/-- When every field is answered, the answers are like the resolver's. -/
theorem answered_alike (hmirrors : o.Mirrors s)
    (hdistinct : (fields.map Field.responseKey).Nodup)
    (hregular : ∀ f ∈ fields, ∀ found ∈ listing? f.name, found.2.Regular f)
    (hclaims : ∀ f ∈ fields, claim s now values f = .ok (taken s now values f))
    (definitions : List VariableDefinition)
    (hnone : fields.filterMap (leftOf s now values) = []) :
    List.Forall₂ (fun a b => a.1 = b.1 ∧ Alike a.2 b.2)
        (Object.ofEntries (planOf s now values fields).answered)
        (o.entries s definitions values fields) ∧
      o.faults s definitions values fields = [] := by
  have hfield : ∀ f ∈ fields, ∃ answer whole, taken s now values f = .answered answer ∧
      o.field s definitions values f = (whole, []) ∧ Alike answer whole := by
    intro f hf
    have hleft := List.filterMap_eq_nil_iff.1 hnone f hf
    rcases taken_cases hmirrors hregular hclaims definitions hf with
      hc | hanswered | ⟨_, _, hc, -⟩
    · rw [leftOf, hc] at hleft
      cases hleft
    · exact hanswered
    · rw [leftOf, hc] at hleft
      cases hleft
  let answer (f : Field) : Json := ((taken s now values f).answer?).getD .null
  have hanswers : (planOf s now values fields).answered =
      fields.map fun f => (f.responseKey, answer f) := by
    rw [← List.filterMap_eq_map]
    refine List.filterMap_congr fun f hf => ?_
    obtain ⟨value, _, hc, -⟩ := hfield f hf
    simp [answer, hc, Claim.answer?]
  have hkeys : ((planOf s now values fields).answered.map Prod.fst).Nodup :=
    hdistinct.sublist (Distinct.sublist_map_filterMap key_of_answer?)
  refine ⟨?_, ?_⟩
  · rw [Object.ofEntries_of_nodup hkeys, hanswers, Origin.entries]
    refine List.forall₂_map_left_iff.2 (List.forall₂_map_right_iff.2 ?_)
    refine List.forall₂_same.2 fun f hf => ⟨rfl, ?_⟩
    obtain ⟨value, whole, hc, hwhole, halike⟩ := hfield f hf
    rw [show answer f = value by simp [answer, hc, Claim.answer?], hwhole]
    exact halike
  · refine List.flatMap_eq_nil_iff.2 fun f hf => ?_
    obtain ⟨_, _, -, hwhole, -⟩ := hfield f hf
    rw [hwhole]

end Plan

section Execution

open Pipeline (Notes execute follow forwarded outgoing settle)

variable {m : Type → Type} [Monad m] {o : Origin} {s : Store} {resolve : Resolver m}
  {request : Request} {op : Operation}

/-- What is left of a query is answered like a part of the query. -/
theorem resolve_outgoing (hanswers : o.Answers s resolve)
    (hparse : Operation.parse request.query = .ok op) (hregular : Regular op) {now : Int}
    (hclaims : ∀ f ∈ op.selections, claim s now request.variableValues f =
      .ok (taken s now request.variableValues f))
    {left : List Field}
    (hleft : op.selections.filterMap (leftOf s now request.variableValues) = left)
    (hselected : left ≠ []) :
    resolve (outgoing request op { op with selections := left }) =
      pure (.ok (o.answer s { op with selections := left } request.variableValues)) := by
  unfold outgoing
  split
  · next hsame =>
      rw [hsame]
      exact hanswers request op hparse hregular.isQuery
  · have hread := parse_left hparse hregular.finite hclaims hleft hselected
    rw [hanswers (forwarded request { op with selections := left }) _ hread hregular.isQuery]
    have hprune : o.answer s ({ op with selections := left } : Operation).prune
        (forwarded request { op with selections := left }).variableValues =
          o.answer s { op with selections := left } request.variableValues :=
      Origin.answer_prune _ request.variableValues
    rw [hprune]

variable [LawfulMonad m] {view : View}

/-- An operation that was read is looked at by the hook before execution. -/
theorem execute_of_parse (hparse : Operation.parse request.query = .ok op) :
    execute [interceptor (pure view)] resolve ({} : Notes) request =
      follow (interceptor (pure view)) resolve request op
        (before view ⟨op, request.variableValues, ({} : Notes)⟩) := by
  rw [Pipeline.execute_single hparse]
  simp [interceptor]

/-- Without a plan a response stays as it is. -/
theorem settle_of_no_plan {context : Context Notes} (h : context.extension.plan = none)
    (response : Response) :
    settle (interceptor (pure view)) resolve request context response =
      pure (.ok response) := by
  have hafter : after view context response = (.ok (), context, response) := by
    unfold after
    rw [show PlanSlot.plan? context.extension = none from h]
  simp [settle, interceptor, hafter]

/-- With a plan a response is completed, or the resolver is asked again. -/
theorem settle_of_plan {context : Context Notes} {p : Plan}
    (h : context.extension.plan = some p) (response : Response) :
    settle (interceptor (pure view)) resolve request context response =
      match p.complete view.store (response.data.getD []) with
      | .ok data => pure (.ok { response with data := some data })
      | .error _ => resolve request := by
  have hplan : PlanSlot.plan? context.extension = some p := h
  cases hdata : p.complete view.store (response.data.getD []) with
  | error e => simp [settle, interceptor, after, hplan, hdata]
  | ok data => simp [settle, interceptor, after, hplan, hdata]

/-- A query that a plan takes something of has an answer like the resolver's. -/
theorem settle_alike (hmirrors : o.Mirrors view.store) (hregular : Regular op)
    (hclaims : ∀ f ∈ op.selections, claim view.store view.now request.variableValues f =
      .ok (taken view.store view.now request.variableValues f))
    (hresolve : resolve request =
      pure (.ok (o.answer view.store op request.variableValues)))
    {left : List Field} (hleft : op.selections.filterMap
      (leftOf view.store view.now request.variableValues) = left)
    {context : Context Notes} (hplan : context.extension.plan =
      some (planOf view.store view.now request.variableValues op.selections)) :
    ∃ r, settle (interceptor (pure view)) resolve request context
        (o.answer view.store { op with selections := left } request.variableValues) =
        pure (.ok r) ∧ r.Alike (o.answer view.store op request.variableValues) := by
  subst hleft
  have hdistinct := hregular.distinct.sublist
    (Distinct.sublist_map_filterMap (responseKey_of_leftOf hclaims))
  rw [settle_of_plan hplan, Origin.data_answer hdistinct]
  simp only [Option.getD_some]
  split
  · next data hcomplete =>
      refine ⟨_, rfl, ?_⟩
      obtain ⟨halike, hfaults⟩ := complete_alike hmirrors hregular.distinct hregular.listings
        hclaims op.variableDefinitions hcomplete
      refine ⟨?_, hfaults⟩
      rw [Origin.data_answer hregular.distinct]
      exact .some halike
  -- the plan fails, and the resolver answers the query as it came
  · exact ⟨_, hresolve, .rfl⟩

/-- A query has an answer like the resolver's if the resolver mirrors the store. -/
theorem execute_alike_of_mirrors (view : View) (hmirrors : o.Mirrors view.store)
    (hanswers : o.Answers view.store resolve)
    (hparse : Operation.parse request.query = .ok op) (hregular : Regular op) :
    ∃ r, execute [interceptor (pure view)] resolve ({} : Notes) request = pure (.ok r) ∧
      r.Alike (o.answer view.store op request.variableValues) := by
  have hresolve := hanswers request op hparse hregular.isQuery
  let context : Context Notes := ⟨op, request.variableValues, {}⟩
  rw [execute_of_parse hparse]
  rcases before_cases view context with ⟨hcontext, hdecided⟩ | ⟨p, hacting⟩
  -- the hook leaves the query alone, so the resolver answers it as it came
  · refine ⟨_, ?_, .rfl⟩
    rcases hopened : before view context with ⟨decided, changed⟩
    rw [hopened] at hcontext hdecided
    simp only at hcontext hdecided
    rcases hdecided with rfl | ⟨e, rfl⟩
    · have hout : outgoing request op changed.operation = request := by
        rw [hcontext]
        exact if_pos rfl
      rw [follow, hout, hresolve, pure_bind]
      refine settle_of_no_plan ?_ _
      rw [hcontext]
    · exact hresolve
  · have hclaims := hacting.claims
    obtain rfl := hacting.planned
    rcases hacting.before_cases with ⟨hnone, hbefore⟩ | ⟨hsome, hbefore⟩
    -- every field is answered, and the resolver is not asked at all
    · obtain ⟨halike, hfaults⟩ := answered_alike hmirrors hregular.distinct hregular.listings
        hclaims op.variableDefinitions hnone
      rw [hbefore, follow, settle_of_no_plan rfl]
      refine ⟨_, rfl, ?_, hfaults.symm⟩
      rw [Origin.data_answer hregular.distinct]
      exact .some halike
    · rw [hbefore, follow, resolve_outgoing hanswers hparse hregular hclaims rfl hsome, pure_bind]
      exact settle_alike hmirrors hregular hclaims hresolve rfl rfl

/-- For every state that a store and its monitor can reach, a regular query has the answer
behind the interceptor of the store that a resolver with the data of the store gives to the
query itself: like data, with the keys in one order, and the same errors. -/
theorem execute_alike (o : Origin) (pairs : Thresholds PairGroup) (tokens : Thresholds TokenGroup)
    (history : List Watched.Step) (now : Int)
    (hanswers : o.Answers (Watched.ofHistory pairs tokens history).store resolve)
    (hparse : Operation.parse request.query = .ok op) (hregular : Regular op) :
    ∃ r r' : Response,
      execute [interceptor (pure ((Watched.ofHistory pairs tokens history).view now))] resolve
        ({} : Notes) request = pure (.ok r) ∧
      resolve request = pure (.ok r') ∧ r.Alike r' := by
  obtain ⟨r, hexecute, halike⟩ := execute_alike_of_mirrors
    ((Watched.ofHistory pairs tokens history).view now) (o.mirrors pairs tokens history)
    hanswers hparse hregular
  exact ⟨r, _, hexecute, hanswers request op hparse hregular.isQuery, halike⟩

/-- A query for the state and the collector of pairs, a page of tokens and a field that is no
listing: the pairs are shared, the page is answered and the field is left. -/
theorem execute_alike_of_one_pair :
    let w := Watched.onePair { address := "a", info := { state := some "Active" } } 0
    let o : Origin := {
      pairExtras := fun _ => [("feesCollector", .str "c")]
      tokenExtras := fun _ => []
      report := fun _ _ => .null
      other := fun f _ _ => (.str f.name, [])
      pairExtras_missing := fun _ => by decide
      tokenExtras_missing := fun _ => by decide }
    let op : Operation := { selections := [
      .withSubfields "pairs" [.plain "state", .plain "feesCollector"],
      .withSubfields "filteredTokens"
        [.withSubfields "edges" [.withSubfields "node" [.plain "name"]]],
      .plain "farms"] }
    let request : Request := { query := op.text }
    Operation.parse request.query = .ok op ∧ Regular op ∧ ∃ r r' : Response,
      execute [interceptor (pure (w.view 0))] (o.resolver w.store (m := Id)) ({} : Notes)
        request = pure (.ok r) ∧
      o.resolver w.store (m := Id) request = pure (.ok r') ∧ r.Alike r' := by
  intro w o op request
  have hwritable : op.Writable :=
    ⟨by simp [op], by simp [op], by simp [op], by decide +kernel⟩
  have hparse : Operation.parse request.query = .ok op := Query.parse_text hwritable
  have hregular : Regular op := by decide +kernel
  exact ⟨hparse, hregular,
    execute_alike o {} {} _ 0 (o.answers_resolver w.store) hparse hregular⟩

end Execution

end Interception

end DexCache
