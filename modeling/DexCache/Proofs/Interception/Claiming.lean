import DexCache.Interception.Store
import DexCache.Proofs.Outcome
import Mathlib.Data.List.Basic

/-!
# What claiming a field and planning a query can do

For each top-level field there are three outcomes: it is declined, it is answered, or it is
shared with the resolver.  `claim_cases` says everything that each of them needs;
`plan_eq_ok` says that a plan is the list of these outcomes, field by field; `before_cases`
says when the hook before execution acts at all.  Later statements about interception cite
these and open no definition.
-/

namespace DexCache.Interception

open Query (Field)

variable {s : Store} {now : Int} {supplied : Json.Object}

/-- The selections on entities that the store holds. -/
def heldFields (l : Listing) (field : Field) : List Field :=
  (l.entityFields field).filter fun f => !l.isMissing f.name

/-- The selections on entities that the store never holds. -/
def missingFields (l : Listing) (field : Field) : List Field :=
  (l.entityFields field).filter fun f => l.isMissing f.name

/-- What a field must be like for the store to have a part in its answer. -/
structure Claimable (s : Store) (now : Int) (supplied : Json.Object) (field : Field)
    (kind : EntityKind) (l : Listing) (arguments : Json.Object) : Prop where
  listed : listing? field.name = some (kind, l)
  selected : l.entityFields field ≠ []
  fresh : s.isFreshFor kind (heldFields l field) now = true
  supplied : field.argumentsJson supplied = .ok arguments

/-- A field is declined; or its part of the store is fresh, and it is answered if nothing is
missing and shared if something is. -/
theorem claim_cases {field : Field} {c : Claim} (h : claim s now supplied field = .ok c) :
    c = .declined ∨
    ∃ kind l arguments, Claimable s now supplied field kind l arguments ∧
      ((missingFields l field = [] ∧ ∃ value,
          s.respond kind field.name arguments field.subfields = .ok value ∧
          c = .answered value) ∨
        (missingFields l field ≠ [] ∧ c = share kind l field arguments)) := by
  unfold claim at h
  cases hlisted : listing? field.name with
  | none =>
      rw [hlisted] at h
      exact .inl (Except.ok.inj h).symm
  | some found =>
      obtain ⟨kind, l⟩ := found
      rw [hlisted] at h
      simp only at h
      split at h
      · exact .inl (Except.ok.inj h).symm
      -- the field selects entities, and the part that is held is fresh
      · next hfresh =>
          obtain ⟨arguments, hsupplied, h⟩ := Outcome.bind_eq_ok_iff.1 h
          have hclaimable : Claimable s now supplied field kind l arguments := by
            simp only [Bool.or_eq_true, not_or, Bool.not_eq_true', List.isEmpty_iff,
              Bool.not_eq_false] at hfresh
            exact ⟨hlisted, hfresh.1, hfresh.2, hsupplied⟩
          refine .inr ⟨kind, l, arguments, hclaimable, ?_⟩
          split at h
          -- nothing is missing, so the store answers the field alone
          · next hall =>
              obtain ⟨value, hvalue, h⟩ := Outcome.bind_eq_ok_iff.1 h
              refine .inl ⟨?_, value, hvalue, (Outcome.pure_eq_ok_iff.1 h).symm⟩
              simpa [missingFields, List.filter_eq_nil_iff, List.all_eq_true] using hall
          · next hall =>
              refine .inr ⟨?_, (Outcome.pure_eq_ok_iff.1 h).symm⟩
              simpa [missingFields, List.filter_eq_nil_iff, List.all_eq_true] using hall

/-- The outcome of claiming a field; one that fails stops the whole plan, so nothing is taken
from it. -/
def taken (s : Store) (now : Int) (supplied : Json.Object) (field : Field) : Claim :=
  match claim s now supplied field with
  | .ok c => c
  | .error _ => .declined

/-- What a claim leaves of its field for the resolver. -/
def Claim.left (field : Field) : Claim → Option Field
  | .declined => some field
  | .answered _ => none
  | .shared sent _ => some sent

/-- The answer in a claim. -/
def Claim.answer? : Claim → Option Json
  | .answered value => some value
  | _ => none

/-- The shared part in a claim. -/
def Claim.part? : Claim → Option Shared
  | .shared _ part => some part
  | _ => none

/-- What is left of a field for the resolver. -/
def leftOf (s : Store) (now : Int) (supplied : Json.Object) (field : Field) : Option Field :=
  (taken s now supplied field).left field

theorem taken_of_ok {field : Field} {c : Claim} (h : claim s now supplied field = .ok c) :
    taken s now supplied field = c := by
  rw [taken, h]

/-- The plan that the outcomes of these fields make up. -/
def planOf (s : Store) (now : Int) (supplied : Json.Object) (fields : List Field) : Plan where
  order := fields.map Field.responseKey
  answered := fields.filterMap fun f =>
    (taken s now supplied f).answer?.map fun value => (f.responseKey, value)
  shared := fields.filterMap fun f => (taken s now supplied f).part?

/-- If every field can be claimed the plan is made. -/
theorem plan_of_claims {fields : List Field}
    (h : ∀ f ∈ fields, claim s now supplied f = .ok (taken s now supplied f)) :
    plan s now supplied fields =
      .ok (fields.filterMap (leftOf s now supplied), planOf s now supplied fields) := by
  induction fields with
  | nil => rfl
  | cons f rest ih =>
      obtain ⟨hf, hrest⟩ := List.forall_mem_cons.1 h
      rw [plan, hf, ih hrest]
      -- each outcome extends the plan of the rest in its own way
      cases htaken : taken s now supplied f with
      | declined => simp [bind, Except.bind, pure, Except.pure, planOf, leftOf, htaken, Claim.left,
          Claim.answer?, Claim.part?]
      | answered value => simp [bind, Except.bind, pure, Except.pure, planOf, leftOf, htaken,
          Claim.left, Claim.answer?, Claim.part?]
      | shared sent part => simp [bind, Except.bind, pure, Except.pure, planOf, leftOf, htaken,
          Claim.left, Claim.answer?, Claim.part?]

/-- No plan is made if some field cannot be claimed. -/
theorem claims_of_plan {fields : List Field} {made : List Field × Plan}
    (h : plan s now supplied fields = .ok made) :
    ∀ f ∈ fields, claim s now supplied f = .ok (taken s now supplied f) := by
  induction fields generalizing made with
  | nil => simp
  | cons f rest ih =>
      rw [plan] at h
      obtain ⟨c, hc, h⟩ := Outcome.bind_eq_ok_iff.1 h
      obtain ⟨_, hrest, -⟩ := Outcome.bind_eq_ok_iff.1 h
      exact List.forall_mem_cons.2 ⟨by rw [hc, taken_of_ok hc], ih hrest⟩

/-- A plan that is made is the list of the outcomes of its fields, in order. -/
theorem plan_eq_ok {fields remaining : List Field} {p : Plan}
    (h : plan s now supplied fields = .ok (remaining, p)) :
    (∀ f ∈ fields, claim s now supplied f = .ok (taken s now supplied f)) ∧
      remaining = fields.filterMap (leftOf s now supplied) ∧
      p = planOf s now supplied fields := by
  have hclaims := claims_of_plan h
  rw [plan_of_claims hclaims] at h
  cases h
  exact ⟨hclaims, rfl, rfl⟩

/-- An empty plan declines every field. -/
theorem taken_of_isEmpty {fields : List Field}
    (h : (planOf s now supplied fields).isEmpty = true) {f : Field} (hf : f ∈ fields) :
    taken s now supplied f = .declined := by
  simp only [Plan.isEmpty, planOf, Bool.and_eq_true, List.isEmpty_iff,
    List.filterMap_eq_nil_iff, Option.map_eq_none_iff] at h
  have hanswer := h.1 f hf
  have hpart := h.2 f hf
  cases hc : taken s now supplied f with
  | declined => rfl
  | answered value => simp [hc, Claim.answer?] at hanswer
  | shared sent part => simp [hc, Claim.part?] at hpart

/-- Nothing is left out of a query that no claim takes anything of. -/
theorem leftOf_eq_self {fields : List Field}
    (h : (planOf s now supplied fields).isEmpty = true) {f : Field} (hf : f ∈ fields) :
    leftOf s now supplied f = some f := by
  rw [leftOf, taken_of_isEmpty h hf]
  rfl

variable {X : Type}

/-- What the hook before execution does with a field: what its claim says, if the hook gets to
a plan at all. -/
def handled (v : View) (context : Context X) (field : Field) : Claim :=
  if context.operation.kind ≠ .query ∨ v.status ≠ .done then .declined
  else
    match plan v.store v.now context.variableValues context.operation.selections with
    | .error _ => .declined
    | .ok _ => taken v.store v.now context.variableValues field

/-- A field is handled in one of the three ways of claiming it. -/
theorem handled_cases (v : View) (context : Context X) {field : Field}
    (hfield : field ∈ context.operation.selections) :
    handled v context field = .declined ∨
      claim v.store v.now context.variableValues field = .ok (handled v context field) := by
  unfold handled
  split
  · exact .inl rfl
  · split
    · exact .inl rfl
    · next hplan => exact .inr ((plan_eq_ok hplan).1 field hfield)

/-- The selections that the hook before execution leaves for the resolver. -/
def forResolver (opened : Except Failure Before × Context X) : List Field :=
  match opened.1 with
  | .ok (.answered _) => []
  | _ => opened.2.operation.selections

/-- When the hook before execution may act. -/
structure Acting (v : View) (context : Context X) (p : Plan) : Prop where
  isQuery : context.operation.kind = .query
  ready : v.status = .done
  claims : ∀ f ∈ context.operation.selections,
    claim v.store v.now context.variableValues f =
      .ok (taken v.store v.now context.variableValues f)
  planned : p = planOf v.store v.now context.variableValues context.operation.selections
  nonempty : p.isEmpty = false

variable {v : View} {context : Context X} {p : Plan}

/-- A hook that acts handles every field as it is claimed. -/
theorem Acting.handled_eq (h : Acting v context p) (field : Field) :
    handled v context field = taken v.store v.now context.variableValues field := by
  unfold handled
  rw [if_neg (by simp [h.isQuery, h.ready]), plan_of_claims h.claims]

/-- A hook that takes anything of a field acts. -/
theorem exists_acting {field : Field} (hfield : field ∈ context.operation.selections)
    (h : handled v context field ≠ .declined) : ∃ p, Acting v context p := by
  unfold handled at h
  split at h
  · exact absurd rfl h
  · next hgate =>
      rw [not_or, Decidable.not_not, Decidable.not_not] at hgate
      split at h
      · exact absurd rfl h
      · next hplan =>
          refine ⟨_, hgate.1, hgate.2, claims_of_plan hplan, rfl, ?_⟩
          rw [← Bool.not_eq_true]
          exact fun hempty => h (taken_of_isEmpty hempty hfield)

variable [PlanSlot X]

/-- What is left for the resolver is what the handling of each field leaves of it. -/
theorem forResolver_before (v : View) (context : Context X) :
    forResolver (before v context) =
      context.operation.selections.filterMap fun f => (handled v context f).left f := by
  unfold before handled
  split
  · simp [forResolver, Claim.left]
  · cases hplan : plan v.store v.now context.variableValues context.operation.selections with
    | error e => simp [forResolver, Claim.left]
    | ok found =>
        obtain ⟨remaining, p⟩ := found
        obtain ⟨-, hremaining, hp⟩ := plan_eq_ok hplan
        have hleft : remaining = context.operation.selections.filterMap fun f =>
            (taken v.store v.now context.variableValues f).left f := hremaining
        simp only
        split
        -- an empty plan changes nothing, because every claim leaves its field as it is
        · next hempty =>
            rw [hp] at hempty
            have hall : context.operation.selections.filterMap
                (leftOf v.store v.now context.variableValues) = context.operation.selections := by
              rw [List.filterMap_congr fun f hf => leftOf_eq_self hempty hf]
              exact List.filterMap_some
            exact hall.symm
        · split
          · next hnone => rw [← hleft, List.isEmpty_iff.1 hnone]; rfl
          · exact hleft

/-- What a hook that acts leaves for the resolver is what its claims leave. -/
theorem Acting.forResolver_eq (h : Acting v context p) :
    forResolver (before v context) = context.operation.selections.filterMap
      (leftOf v.store v.now context.variableValues) := by
  rw [forResolver_before]
  exact List.filterMap_congr fun f _ => by rw [h.handled_eq, leftOf]

/-- A hook that acts answers all of a query or takes something of it. -/
theorem Acting.before_cases (h : Acting v context p) :
    (context.operation.selections.filterMap
          (leftOf v.store v.now context.variableValues) = [] ∧
        before v context = (.ok (.answered (Json.Object.ofEntries p.answered)), context)) ∨
      (context.operation.selections.filterMap
          (leftOf v.store v.now context.variableValues) ≠ [] ∧
        before v context = (.ok .proceed,
          { context with
            operation := { context.operation with
              selections := context.operation.selections.filterMap
                (leftOf v.store v.now context.variableValues) }
            extension := PlanSlot.setPlan (some p) context.extension })) := by
  unfold before
  rw [if_neg (by simp [h.isQuery, h.ready]), plan_of_claims h.claims, ← h.planned]
  simp only [h.nonempty, Bool.false_eq_true, if_false]
  split
  · next hnone => exact .inl ⟨List.isEmpty_iff.1 hnone, rfl⟩
  · next hsome => exact .inr ⟨fun h => hsome (List.isEmpty_iff.2 h), rfl⟩

/-- The hook before execution leaves the query as it is, unless it acts. -/
theorem before_cases (v : View) (context : Context X) :
    (before v context).2 = context ∧
        ((before v context).1 = .ok .proceed ∨ ∃ e, (before v context).1 = .error e) ∨
      ∃ p, Acting v context p := by
  by_cases hacting : ∃ p, Acting v context p
  · exact .inr hacting
  · refine .inl ?_
    unfold before
    split
    · exact ⟨rfl, .inl rfl⟩
    -- the operation is a query and the cache is ready
    · next hgate =>
        rw [not_or, Decidable.not_not, Decidable.not_not] at hgate
        cases hplan : plan v.store v.now context.variableValues context.operation.selections with
        | error e => exact ⟨rfl, .inr ⟨_, rfl⟩⟩
        | ok found =>
            obtain ⟨remaining, p⟩ := found
            obtain ⟨hclaims, -, hp⟩ := plan_eq_ok hplan
            simp only
            cases hempty : p.isEmpty with
            | true => exact ⟨rfl, .inl rfl⟩
            | false => exact absurd ⟨p, hgate.1, hgate.2, hclaims, hp, hempty⟩ hacting

end DexCache.Interception
