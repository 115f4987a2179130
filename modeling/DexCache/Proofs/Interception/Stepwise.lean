import DexCache.Interception.Stepwise

/-!
# Nothing between the accesses

Over a cache that stands still the hooks that make one access at a time do what the hooks do that
are given the cache at once.  So the interceptor of the store is the stepwise one whose cache is
looked at once for each hook.
-/

namespace DexCache.Interception

open Query (Field)

/-- A plan is the claim of its first field on top of the plan of the others. -/
theorem plan_cons (s : Store) (now : Int) (supplied : Json.Object) (field : Field)
    (rest : List Field) :
    plan s now supplied (field :: rest) =
      match claim s now supplied field with
      | .error e => .error e
      | .ok claimed => (plan s now supplied rest).map (claimed.onto field) := by
  rw [plan]
  cases claim s now supplied field with
  | error e => rfl
  | ok claimed =>
      cases plan s now supplied rest with
      | error e => rfl
      | ok planned =>
          obtain ⟨remaining, p⟩ := planned
          cases claimed <;> rfl

/-- The hook before execution acts on its plan. -/
theorem before_eq_act {X : Type} [PlanSlot X] {v : View} {context : Context X}
    (hquery : context.operation.kind = .query) (hready : v.status = .done) :
    before v context =
      act context (plan v.store v.now context.variableValues context.operation.selections) := by
  unfold before
  rw [if_neg (by simp [hquery, hready])]
  cases plan v.store v.now context.variableValues context.operation.selections <;> rfl

namespace Probe

variable {m : Type → Type} [Monad m] [LawfulMonad m] (v : View)

theorem claim_still (supplied : Json.Object) (field : Field) :
    (still v : Probe m).claim supplied field =
      pure (Interception.claim v.store v.now supplied field) := by
  unfold claim Interception.claim
  cases listing? field.name with
  | none => rfl
  | some found =>
      obtain ⟨kind, l⟩ := found
      simp only [still, pure_bind]
      cases (l.entityFields field).isEmpty with
      | true => rfl
      | false =>
          cases v.store.isFreshFor kind
              ((l.entityFields field).filter fun f => !l.isMissing f.name) v.now with
          | false => rfl
          | true =>
              cases field.argumentsJson supplied with
              | error e => rfl
              | ok arguments =>
                  simp only [Bool.false_eq_true, if_false, Bool.not_true, Bool.or_self, bind,
                    Except.bind]
                  split
                  · simp only [Read.answer]
                    cases v.store.respond kind field.name arguments field.subfields <;> rfl
                  · rfl

theorem plan_still (supplied : Json.Object) (fields : List Field) :
    (still v : Probe m).plan supplied fields =
      pure (Interception.plan v.store v.now supplied fields) := by
  induction fields with
  | nil => rfl
  | cons field rest ih =>
      rw [plan, claim_still, plan_cons, pure_bind]
      cases Interception.claim v.store v.now supplied field with
      | error e => rfl
      | ok claimed => simp [ih]

theorem addShared_still (data : Json.Object) (part : Shared) :
    (still v : Probe m).addShared data part = pure (Interception.addShared v.store data part) := by
  unfold addShared Interception.addShared
  cases (data.get? part.key).getD .null <;>
    simp only [still, pure_bind, Read.answer, Shared.read] <;> rfl

theorem addAll_still (parts : List Shared) (data : Json.Object) :
    (still v : Probe m).addAll parts data =
      pure (parts.foldlM (Interception.addShared v.store) data) := by
  induction parts generalizing data with
  | nil => rfl
  | cons part parts ih =>
      rw [addAll, addShared_still, pure_bind, List.foldlM_cons]
      cases Interception.addShared v.store data part with
      | error e => rfl
      | ok data => exact ih data

theorem complete_still (planned : Plan) (data : Json.Object) :
    (still v : Probe m).complete planned data = pure (planned.complete v.store data) := by
  rw [complete, addAll_still, pure_bind, Plan.complete]
  cases planned.shared.foldlM (Interception.addShared v.store) data <;> rfl

variable {X : Type} [PlanSlot X]

theorem before_still (context : Context X) :
    (still v : Probe m).before context = pure (Interception.before v context) := by
  unfold before
  by_cases hquery : context.operation.kind = .query
  · have hstatus : (still v : Probe m).status = pure v.status := rfl
    simp only [if_neg (Decidable.not_not.2 hquery), hstatus, pure_bind]
    by_cases hready : v.status = .done
    · rw [if_neg (Decidable.not_not.2 hready), plan_still, pure_bind, before_eq_act hquery hready]
    · rw [if_pos hready, Interception.before, if_pos (.inr hready)]
  · rw [if_pos hquery, Interception.before, if_pos (.inl hquery)]

theorem after_still (context : Context X) (response : Response) :
    (still v : Probe m).after context response =
      pure (Interception.after v context response) := by
  unfold after Interception.after
  cases PlanSlot.plan? context.extension with
  | none => rfl
  | some planned =>
      simp only [complete_still, pure_bind]
      cases planned.complete v.store (response.data.getD []) <;> rfl

/-- The interceptor of a store that is looked at in every hook makes the accesses of each hook to
what it saw there. -/
theorem interceptor_still (look : m View) :
    (Interception.interceptor look : Interceptor m X) =
      { before := fun context => look >>= fun v => (still v : Probe m).interceptor.before context
        after := fun context response =>
          look >>= fun v => (still v : Probe m).interceptor.after context response } := by
  simp [Interception.interceptor, interceptor, before_still, after_still]

end Probe

end DexCache.Interception
