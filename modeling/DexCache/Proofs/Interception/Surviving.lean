import DexCache.Proofs.Interception.ResponseKeys

/-!
# What a completed response keeps

The hook after execution completes whatever the resolver gave: data without some of the fields that
it was asked for, data with other keys, or none at all.  The fields that were answered before have
their answers, a shared field that the resolver left out is answered in full, and all else is as it
was; the errors stay.  The hook fails only where the listing of a shared field refuses its
arguments, and this does not depend on the resolver.
-/

namespace DexCache

open Json (Object)
open Query (Field)

namespace Catalogue

variable {α F K : Type}

/-- Whether a listing is answered does not depend on what is selected. -/
theorem exists_respond_iff (c : Catalogue α F K) (entities : List α) (name : String)
    (args : Object) (fields : List Field) :
    (∃ value, c.respond entities name args fields = .ok value) ↔
      ∃ found, c.cut entities name args = .ok found := by
  simp [c.respond_eq, Outcome.map_eq_ok_iff]

end Catalogue

/-- A listing is answered if it finds entities, or finds that there are none. -/
theorem Store.exists_respond_iff (s : Store) (kind : EntityKind) (name : String) (args : Object)
    (fields : List Field) :
    (∃ value, s.respond kind name args fields = .ok value) ↔
      ∃ names, s.namesFound kind name args = .ok names := by
  cases kind with
  | pair =>
      refine (pairCatalogue.exists_respond_iff s.pairs.all name args fields).trans ?_
      simp [Store.namesFound, Outcome.map_eq_ok_iff]
  | token =>
      refine (tokenCatalogue.exists_respond_iff s.tokens.all name args fields).trans ?_
      simp [Store.namesFound, Outcome.map_eq_ok_iff]

namespace Interception

open Pipeline (Notes)

/-- A shared field has a value if its listing accepts its arguments, whatever the resolver
gave. -/
theorem Shared.exists_value_iff (s : Store) (part : Shared) (resolved : Json) :
    (∃ value, part.value s resolved = .ok value) ↔
      ∃ names, s.namesFound part.kind part.asked.name part.arguments = .ok names := by
  by_cases hnull : resolved = .null
  · subst hnull
    exact s.exists_respond_iff ..
  · rw [part.value_of_ne_null hnull, ← s.exists_respond_iff _ _ _ part.localFields]
    simp only [Outcome.bind_eq_ok_iff, Outcome.pure_eq_ok_iff]
    constructor
    · rintro ⟨_, here, hhere, -⟩
      exact ⟨here, hhere⟩
    · rintro ⟨here, hhere⟩
      exact ⟨_, here, hhere, rfl⟩

/-- A plan is carried out on any data if the listings of its shared fields accept their
arguments. -/
theorem Plan.exists_complete_iff {p : Plan} (hshared : (p.shared.map Shared.key).Nodup)
    (s : Store) (data : Object) :
    (∃ result, p.complete s data = .ok result) ↔ ∀ part ∈ p.shared,
      ∃ names, s.namesFound part.kind part.asked.name part.arguments = .ok names := by
  constructor
  · rintro ⟨result, h⟩ part hpart
    obtain ⟨added, hadded, -⟩ := Outcome.bind_eq_ok_iff.1 h
    obtain ⟨value, hvalue, -⟩ := (foldlM_addShared_eq_ok hshared hadded).1 part hpart
    exact (part.exists_value_iff s _).1 ⟨value, hvalue⟩
  · intro h
    obtain ⟨added, hadded⟩ := exists_foldlM_addShared
      (fun part hpart resolved => (part.exists_value_iff s resolved).2 (h part hpart)) data
    rw [Plan.complete, hadded]
    exact ⟨_, rfl⟩

section Hook

variable {X : Type} {v : View} {context : Context X} {p : Plan}

/-- Is this the response key of a field that the hook before execution claims? -/
def ClaimedKey (v : View) (context : Context X) (key : String) : Prop :=
  ∃ f ∈ context.operation.selections, handled v context f ≠ .declined ∧ f.responseKey = key

/-- Do data keep what the store and the resolver gave for them?  Each answer of the store is under
its key; a shared field is answered in full where the resolver gave nothing, and otherwise both
parts are joined; no other key is changed or added. -/
structure Survives (v : View) (context : Context X) (data result : Object) : Prop where
  distinct : result.keys.Nodup
  answered : ∀ f ∈ context.operation.selections, ∀ value, handled v context f = .answered value →
    result.get? f.responseKey = some value
  filled : ∀ f ∈ context.operation.selections, ∀ sent part,
    handled v context f = .shared sent part →
    data.get? f.responseKey = none ∨ data.get? f.responseKey = some .null →
    ∃ kind l arguments full, Claimable v.store v.now context.variableValues f kind l arguments ∧
      v.store.respond kind f.name arguments f.subfields = .ok full ∧
      result.get? f.responseKey = some full
  joined : ∀ f ∈ context.operation.selections, ∀ sent part,
    handled v context f = .shared sent part →
    ∀ resolved, data.get? f.responseKey = some resolved → resolved ≠ .null →
    ∃ here, v.store.respond part.kind f.name part.arguments part.localFields = .ok here ∧
      result.get? f.responseKey = some (merge part.listing part.forced resolved here)
  kept : ∀ key ∈ data.keys, ¬ ClaimedKey v context key → result.get? key = data.get? key
  keys : ∀ key, key ∈ result.keys ↔ key ∈ data.keys ∨ ClaimedKey v context key

/-- The keys of a plan are those of the fields that are claimed. -/
theorem Acting.claimedKey_iff (h : Acting v context p)
    (hdistinct : (context.operation.selections.map Field.responseKey).Nodup) (key : String) :
    ClaimedKey v context key ↔ key ∈ p.answered.map Prod.fst ∨ key ∈ p.shared.map Shared.key := by
  have hpartKey := key_of_part? h.claims
  rw [h.planned]
  constructor
  · rintro ⟨f, hf, hclaimed, rfl⟩
    rw [h.handled_eq] at hclaimed
    refine Or.imp (Distinct.mem_map_filterMap_iff key_of_answer? hdistinct hf).2
      (Distinct.mem_map_filterMap_iff hpartKey hdistinct hf).2 ?_
    cases hc : taken v.store v.now context.variableValues f with
    | declined => exact absurd hc hclaimed
    | answered value => exact .inl rfl
    | shared sent part => exact .inr rfl
  · rintro (hkey | hkey)
    · obtain ⟨a, ha, rfl⟩ := List.mem_map.1 hkey
      obtain ⟨f, hf, ha⟩ := List.mem_filterMap.1 ha
      refine ⟨f, hf, fun hc => ?_, (key_of_answer? f hf a ha).symm⟩
      rw [← h.handled_eq, hc] at ha
      cases ha
    · obtain ⟨part, hpart, rfl⟩ := List.mem_map.1 hkey
      obtain ⟨f, hf, hpart⟩ := List.mem_filterMap.1 hpart
      refine ⟨f, hf, fun hc => ?_, (hpartKey f hf part hpart).symm⟩
      rw [← h.handled_eq, hc] at hpart
      cases hpart

/-- Carrying out a plan on any data keeps them. -/
theorem Acting.survives (h : Acting v context p)
    (hdistinct : (context.operation.selections.map Field.responseKey).Nodup) {data result : Object}
    (hdata : data.keys.Nodup) (hcomplete : p.complete v.store data = .ok result) :
    Survives v context data result := by
  have hpartKey := key_of_part? h.claims
  have hclaimedKey := h.claimedKey_iff hdistinct
  obtain rfl := h.planned
  have hshared := hdistinct.sublist (Distinct.sublist_map_filterMap hpartKey)
  have hanswered : ((planOf v.store v.now context.variableValues
      context.operation.selections).answered.map Prod.fst).Nodup :=
    hdistinct.sublist (Distinct.sublist_map_filterMap key_of_answer?)
  obtain ⟨hnodup, hanswers, hshares, hothers⟩ :=
    Plan.get?_complete hdata hshared hanswered hcomplete
  -- a shared field has the value that its part makes of what the resolver gave
  have hpart {f : Field} (hf : f ∈ context.operation.selections) {sent : Field} {part : Shared}
      (hc : handled v context f = .shared sent part) : ∃ kind l arguments value,
        Claimable v.store v.now context.variableValues f kind l arguments ∧
        share kind l f arguments = .shared sent part ∧
        part.value v.store ((data.get? f.responseKey).getD .null) = .ok value ∧
        result.get? f.responseKey = some value := by
    have hclaimed : handled v context f ≠ .declined := by simp [hc]
    rcases h.handled_cases hf hclaimed with
      ⟨_, _, _, hc', -⟩ | ⟨sent', part', kind, l, arguments, hc', hclaimable, -, hshare⟩
    · cases hc.symm.trans hc'
    · obtain ⟨rfl, rfl⟩ := Claim.shared.inj (hc.symm.trans hc')
      rw [h.handled_eq] at hc
      have hkey : part.key = f.responseKey := hpartKey f hf part (by rw [hc]; rfl)
      obtain ⟨value, hvalue, hresult⟩ := hshares part
        (List.mem_filterMap.2 ⟨f, hf, by rw [hc]; rfl⟩)
        (hkey ▸ not_mem_answered hdistinct hf (by rw [hc]; rfl))
      rw [hkey] at hvalue hresult
      exact ⟨kind, l, arguments, value, hclaimable, hshare, hvalue, hresult⟩
  refine ⟨hnodup, ?_, ?_, ?_, ?_, ?_⟩
  · intro f hf value hc
    rw [h.handled_eq] at hc
    exact hanswers (f.responseKey, value) (List.mem_filterMap.2 ⟨f, hf, by rw [hc]; rfl⟩)
  · intro f hf sent part hc hnull
    obtain ⟨kind, l, arguments, full, hclaimable, hshare, hfull, hvalue⟩ := hpart hf hc
    obtain ⟨-, rfl⟩ := Claim.shared.inj hshare
    have hgiven : (data.get? f.responseKey).getD .null = .null := by
      rcases hnull with hnull | hnull <;> rw [hnull] <;> rfl
    rw [hgiven] at hfull
    exact ⟨kind, l, arguments, full, hclaimable, hfull, hvalue⟩
  · intro f hf sent part hc resolved hgiven hnull
    obtain ⟨kind, l, arguments, value, -, hshare, hmade, hvalue⟩ := hpart hf hc
    obtain ⟨-, rfl⟩ := Claim.shared.inj hshare
    rw [hgiven, Option.getD_some, Shared.value_of_ne_null _ hnull] at hmade
    obtain ⟨here, hhere, hmerge⟩ := Outcome.bind_eq_ok_iff.1 hmade
    obtain rfl := Outcome.pure_eq_ok_iff.1 hmerge
    exact ⟨here, hhere, hvalue⟩
  · intro key _ hkey
    rw [hclaimedKey, not_or] at hkey
    exact hothers key hkey.1 hkey.2
  · intro key
    rw [Plan.mem_keys_complete hdata hshared hanswered hcomplete, hclaimedKey, ← or_assoc, or_comm]

variable [PlanSlot X]

/-- The hook after execution carries out the plan that it finds. -/
theorem after_of_plan (h : PlanSlot.plan? context.extension = some p) (response : Response) :
    after v context response =
      match p.complete v.store (response.data.getD []) with
      | .error e => (.error (.query e),
          { context with extension := PlanSlot.setPlan none context.extension }, response)
      | .ok data => (.ok (),
          { context with extension := PlanSlot.setPlan none context.extension },
          { response with data := some data }) := by
  unfold after
  split
  · next hnone => cases h.symm.trans hnone
  · next q hq =>
      obtain rfl := Option.some.inj (h.symm.trans hq)
      rfl

end Hook

section Notes

variable {v v' : View} {context context' : Context Notes} {response : Response}

/-- Where the hook before execution has taken something of a query, the hook after execution
succeeds on every response of the resolver exactly if the listings of the shared fields accept their
arguments.  Then the errors stay, every answer of the store is under its key, a shared field that
the resolver left out is answered in full, and nothing else is changed or added. -/
theorem after_survives (hdistinct : (context.operation.selections.map Field.responseKey).Nodup)
    (hproceeds : (before v context).1 = .ok .proceed) (hclaimed : ∃ key, ClaimedKey v context key)
    (hplan : context'.extension.plan = (before v context).2.extension.plan)
    (hstore : v'.store = v.store) (hdata : ∀ data ∈ response.data, Object.keys data |>.Nodup) :
    ((after v' context' response).1 = .ok () ↔
      ∀ f ∈ context.operation.selections, ∀ part ∈ (handled v context f).part?,
        ∃ names, v.store.namesFound part.kind part.asked.name part.arguments = .ok names) ∧
    ((after v' context' response).1 = .ok () →
      ∃ result, (after v' context' response).2.2 = { response with data := some result } ∧
        Survives v context (response.data.getD []) result) := by
  obtain ⟨_, f, hf, hne, -⟩ := hclaimed
  obtain ⟨p, hacting⟩ := exists_acting hf hne
  have hleft : context'.extension.plan = some p := by
    rcases hacting.before_cases with ⟨-, hbefore⟩ | ⟨-, hbefore⟩
    · rw [hbefore] at hproceeds
      cases hproceeds
    · rw [hplan, hbefore]
      rfl
  have hkeys : (response.data.getD []).keys.Nodup := by
    cases hgiven : response.data with
    | none => exact List.nodup_nil
    | some data => exact hdata data hgiven
  have hshared : (p.shared.map Shared.key).Nodup := by
    rw [hacting.planned]
    exact hdistinct.sublist (Distinct.sublist_map_filterMap (key_of_part? hacting.claims))
  have hparts : (∀ part ∈ p.shared,
        ∃ names, v.store.namesFound part.kind part.asked.name part.arguments = .ok names) ↔
      ∀ f ∈ context.operation.selections, ∀ part ∈ (handled v context f).part?,
        ∃ names, v.store.namesFound part.kind part.asked.name part.arguments = .ok names := by
    simp only [hacting.planned, hacting.handled_eq, planOf, List.mem_filterMap]
    constructor
    · intro h f hf part hpart
      exact h part ⟨f, hf, hpart⟩
    · rintro h part ⟨f, hf, hpart⟩
      exact h f hf part hpart
  rw [← hparts, ← Plan.exists_complete_iff hshared v.store (response.data.getD []),
    after_of_plan hleft, hstore]
  cases hcomplete : p.complete v.store (response.data.getD []) with
  | error e => simp
  | ok result =>
      refine ⟨iff_of_true rfl ⟨result, rfl⟩, fun _ => ⟨result, rfl, ?_⟩⟩
      exact hacting.survives hdistinct hkeys hcomplete

/-- A resolver that leaves out the pairs and the farms, answers a page that it was not asked for,
and reports an error. -/
theorem after_survives_of_no_pairs :
    let pairs : Field := .withSubfields "pairs" [.plain "state", .plain "feesCollector"]
    let page : Field := { alias? := some "page", name := "filteredPairs", subfields :=
      [.withSubfields "edges" [.withSubfields "node" [.plain "address"]]] }
    let context : Context Notes := ⟨{ selections := [pairs, page, .plain "farms"] }, [], {}⟩
    let response : Response :=
      { data := some [("extra", .int 1), ("page", .str "other"), ("pairs", .null)]
        errors := [.str "late"] }
    ∃ result : Object,
      (after stateView (before stateView context).2 response).2.2 =
        { data := some result, errors := [.str "late"] } ∧
      result.get? "pairs" =
        some (.arr [.obj [("state", .str "Active"), ("feesCollector", .null)]]) ∧
      result.get? "page" =
        some (.obj [("edges", .arr [.obj [("node", .obj [("address", .str "a")])]])]) ∧
      result.get? "extra" = some (.int 1) ∧ "farms" ∉ result.keys := by
  intro pairs page context response
  have hpairs : handled stateView context pairs =
      share .pair pairCatalogue.listings[0] pairs [] := rfl
  have hpage : handled stateView context page =
      .answered (.obj [("edges", .arr [.obj [("node", .obj [("address", .str "a")])]])]) := rfl
  have hfarms : handled stateView context (.plain "farms") = .declined := rfl
  have hall {P : Field → Prop} : (∀ f ∈ context.operation.selections, P f) ↔
      P pairs ∧ P page ∧ P (.plain "farms") := by simp [context]
  have hclaimed (key : String) :
      ClaimedKey stateView context key → key = "pairs" ∨ key = "page" := by
    rintro ⟨f, hf, hne, rfl⟩
    revert f
    exact hall.2 ⟨fun _ => .inl rfl, fun _ => .inr rfl, fun hne => absurd hfarms hne⟩
  have hpairsClaimed : ClaimedKey stateView context "pairs" :=
    ⟨pairs, List.mem_cons_self, by rw [hpairs]; exact Claim.noConfusion, rfl⟩
  have hgiven : ∀ data ∈ response.data, Object.keys data |>.Nodup := by
    rintro _ ⟨rfl⟩
    decide
  have hproceeds : (before stateView context).1 = .ok .proceed := rfl
  have hstore : stateView.store = stateView.store := rfl
  obtain ⟨hok, hresult⟩ := after_survives (by decide) hproceeds ⟨_, hpairsClaimed⟩
    (Eq.refl (before stateView context).2.extension.plan) hstore hgiven
  have hnames : ∀ f ∈ context.operation.selections, ∀ part ∈ (handled stateView context f).part?,
      ∃ names, stateView.store.namesFound part.kind part.asked.name part.arguments = .ok names := by
    refine hall.2 ⟨fun part hpart => ?_, fun part hpart => ?_, fun part hpart => ?_⟩
    · rw [hpairs] at hpart
      obtain rfl := Option.some.inj hpart
      exact ⟨_, namesFound_stateView⟩
    · rw [hpage] at hpart
      cases hpart
    · rw [hfarms] at hpart
      cases hpart
  obtain ⟨result, hafter, survives⟩ := hresult (hok.2 hnames)
  obtain ⟨kind, l, arguments, full, hclaimable, hfull, hvalue⟩ :=
    survives.filled pairs List.mem_cons_self _ _ hpairs (.inr rfl)
  obtain ⟨rfl, rfl⟩ := Prod.mk.inj (Option.some.inj hclaimable.listed)
  obtain rfl := Except.ok.inj hclaimable.supplied
  obtain rfl := Except.ok.inj hfull
  refine ⟨result, hafter, hvalue, ?_, ?_, ?_⟩
  · exact survives.answered page (by simp [context]) _ hpage
  · exact survives.kept "extra" (by decide) fun h => absurd (hclaimed _ h) (by decide)
  · rw [survives.keys]
    rintro (h | h)
    · exact absurd h (by decide)
    · exact absurd (hclaimed _ h) (by decide)

end Notes

end Interception

end DexCache
