import DexCache.Proofs.Store.Lifecycle
import DexCache.Proofs.Sync.Refreshing

/-!
# How a cache becomes ready again

A round runs every refresh task once, and the events of each are applied before the next begins.
Each task writes its own group.  The first goes over the pairs of the registry, the others over what
is stored or named by stored pairs, so what a later task asks for does not depend on the tasks
before it: they write tracked cells and leave tracked what was tracked.

After a round in which no read has failed everything tracked is fresh, but for the tokens and farms
of the stored pairs that the registry does not list any more.  The cache is ready exactly if these
are fresh too.
-/

namespace DexCache

/-- The task that keeps a cell fresh. -/
def Cell.task : Cell → RefreshTask
  | .pair _ .tokensAndFarms => .pairTokensAndFarms
  | .pair _ .info => .pairInfo
  | .pair _ .prices => .pairPrices
  | .pair _ .analytics => .pairAnalytics
  | .token _ .metadata => .tokenMetadata
  | .token _ .prices => .tokenPrices
  | .token _ .analytics => .tokenAnalytics

/-- The first task keeps fresh the tokens and farms of pairs, and nothing else. -/
theorem Cell.task_eq_first_iff {cell : Cell} :
    cell.task = .pairTokensAndFarms ↔ ∃ address, cell = .pair address .tokensAndFarms := by
  rcases cell with ⟨address, _ | _ | _ | _⟩ | ⟨identifier, _ | _ | _⟩
  all_goals simp [task]

namespace Store

/-- Is a cell one of a stored pair, or of a token that is stored or named by a stored pair? -/
def Tracks (s : Store) : Cell → Prop
  | .pair address _ => address ∈ s.pairs.ids
  | .token identifier _ => identifier ∈ s.trackedTokens

/-- Nothing is stored twice under one identifier. -/
structure Sound (s : Store) : Prop where
  pairs : s.pairs.ids.Nodup
  tokens : s.tokens.ids.Nodup

/-- What writes of entities leave alone. -/
def settings (s : Store) : Thresholds PairGroup × Thresholds TokenGroup × Bool :=
  (s.pairs.thresholds, s.tokens.thresholds, s.populated)

theorem threshold_of_settings {s s' : Store} (h : s'.settings = s.settings) (cell : Cell) :
    s'.threshold cell = s.threshold cell := by
  obtain ⟨hpairs, hrest⟩ := Prod.mk.inj h
  cases cell with
  | pair address g => exact congrArg (fun t => Thresholds.of t g) hpairs
  | token identifier g => exact congrArg (fun t => Thresholds.of t g) (Prod.mk.inj hrest).1

end Store

section Rounds

variable {s : Store} {task : RefreshTask} {cell : Cell} {registry : List String}
  {events : List StoreEvent}

/-- Every task but the first asks for its own cells among those that are tracked. -/
theorem RefreshTask.mem_asked_iff (htask : task ≠ .pairTokensAndFarms) :
    cell ∈ task.asked registry s ↔ cell.task = task ∧ s.Tracks cell := by
  cases task with
  | pairTokensAndFarms => exact absurd rfl htask
  | _ =>
      rcases cell with ⟨address, _ | _ | _ | _⟩ | ⟨identifier, _ | _ | _⟩ <;>
        simp [asked, Cell.task, Store.Tracks]

/-- The events of every task but the first write exactly its tracked cells. -/
theorem Covers.mem_iff (h : Covers s (task.asked registry s) events)
    (htask : task ≠ .pairTokensAndFarms) :
    cell ∈ events.flatMap StoreEvent.cells ↔ cell.task = task ∧ s.Tracks cell := by
  rw [← RefreshTask.mem_asked_iff htask]
  refine ⟨fun hcell => ?_, h.asked cell⟩
  rcases h.only cell hcell with hasked | ⟨address, g, -, -, hfirst⟩
  · exact hasked
  · rw [RefreshTask.mem_asked_iff htask] at hfirst
    exact absurd hfirst.1.symm htask

theorem Store.mem_trackedTokens_iff {name : String} :
    name ∈ s.trackedTokens ↔ name ∈ s.tokens.ids ∨
      ∃ p ∈ s.pairs.all, name ∈ p.tokenIds ++ p.lpTokenId?.toList := by
  simp only [Store.trackedTokens, List.mem_eraseDups, List.mem_append, List.mem_flatMap]

theorem Collection.mem_all_iff {α G P : Type} [FieldGroup G] [Entity α G P] {c : Collection α G}
    (h : c.ids.Nodup) {a : α} : a ∈ c.all ↔ c.get? (Entity.id a) = some a := by
  constructor
  · intro ha
    obtain ⟨e, he, rfl⟩ := List.mem_map.1 ha
    rw [get?, find?_of_mem h he]
    rfl
  · intro ha
    obtain ⟨e, he, rfl⟩ := Option.map_eq_some_iff.1 ha
    exact List.mem_map_of_mem (List.mem_of_find?_eq_some he)

/-- What a stored pair names it names in a store that has the same value of its tokens. -/
theorem Store.named_of_value?_eq {s' : Store} (hs : s.Sound)
    (hsame : ∀ address, s.value? (.pair address .tokensAndFarms) =
      s'.value? (.pair address .tokensAndFarms)) (name : String)
    (h : ∃ p ∈ s.pairs.all, name ∈ p.tokenIds ++ p.lpTokenId?.toList) :
    ∃ p ∈ s'.pairs.all, name ∈ p.tokenIds ++ p.lpTokenId?.toList := by
  obtain ⟨p, hp, hname⟩ := h
  have hvalue := hsame p.address
  rw [Store.value?, show s.pairs.get? p.address = some p from
    (Collection.mem_all_iff hs.pairs).1 hp] at hvalue
  obtain ⟨p', hp', hpart⟩ := Option.map_eq_some_iff.1 hvalue.symm
  obtain ⟨e, he, rfl⟩ := Option.map_eq_some_iff.1 hp'
  have htokens : e.snapshot.tokens = p.tokens := by simpa [Parted.part] using hpart
  refine ⟨e.snapshot, List.mem_map_of_mem (List.mem_of_find?_eq_some he), ?_⟩
  simpa [Pair.tokenIds, Pair.firstTokenId?, Pair.secondTokenId?, Pair.lpTokenId?, htokens]
    using hname

theorem Store.value?_pair_isSome_iff {address : String} {g : PairGroup} :
    (s.value? (.pair address g)).isSome = true ↔ address ∈ s.pairs.ids := by
  rw [Collection.mem_ids_iff, Store.value?, Option.isSome_map, Collection.get?, Option.isSome_map]

namespace StoreEvent

variable {now : Int}

theorem sound_applyAll (hs : s.Sound) (events : List StoreEvent) (now : Int) :
    (applyAll events now s).Sound := by
  have hnodup := applyAll_keeps now s events (fun s => s.pairs.ids.Nodup ∧ s.tokens.ids.Nodup)
    (fun e s h => e.nodup_ids_apply now s h) ⟨hs.pairs, hs.tokens⟩
  exact ⟨hnodup.1, hnodup.2⟩

theorem settings_applyAll (events : List StoreEvent) (now : Int) (s : Store) :
    (applyAll events now s).settings = s.settings := by
  refine applyAll_keeps now s events (fun s' => s'.settings = s.settings) (fun e s' h => ?_) rfl
  rw [← h]
  cases e <;> rfl

/-- Writing tracked cells makes nothing tracked that was not, nor loses anything, so long as the
tokens of no pair are written. -/
theorem tracks_applyAll (hs : s.Sound)
    (htracked : ∀ cell ∈ events.flatMap cells, s.Tracks cell)
    (htokens : ∀ address, .pair address .tokensAndFarms ∉ events.flatMap cells) (cell : Cell) :
    (applyAll events now s).Tracks cell ↔ s.Tracks cell := by
  have hpairs (address : String) :
      address ∈ (applyAll events now s).pairs.ids ↔ address ∈ s.pairs.ids := by
    rw [mem_pairs_ids_applyAll]
    exact or_iff_left_of_imp fun ⟨g, hg⟩ => htracked _ hg
  cases cell with
  | pair address g => exact hpairs address
  | token identifier g =>
      have hsame (address : String) : s.value? (.pair address .tokensAndFarms) =
          (applyAll events now s).value? (.pair address .tokensAndFarms) := by
        cases hvalue : s.value? (.pair address .tokensAndFarms) with
        | some value => exact (value?_applyAll now s events (htokens address) hvalue).symm
        | none =>
            have hnew : address ∉ (applyAll events now s).pairs.ids := by
              rw [hpairs, ← Store.value?_pair_isSome_iff (g := .tokensAndFarms), hvalue]
              exact Bool.false_ne_true
            rw [← Store.value?_pair_isSome_iff (g := .tokensAndFarms)] at hnew
            exact (Option.not_isSome_iff_eq_none.1 hnew).symm
      have hnamed := Iff.intro (Store.named_of_value?_eq hs hsame identifier)
        (Store.named_of_value?_eq (sound_applyAll hs events now)
          (fun address => (hsame address).symm) identifier)
      show identifier ∈ (applyAll events now s).trackedTokens ↔ identifier ∈ s.trackedTokens
      rw [Store.mem_trackedTokens_iff, Store.mem_trackedTokens_iff, ← hnamed,
        mem_tokens_ids_applyAll]
      refine ⟨?_, Or.imp_left .inl⟩
      rintro ((hstored | ⟨g, hg⟩) | hnamed)
      · exact .inl hstored
      · exact Store.mem_trackedTokens_iff.1 (htracked _ hg)
      · exact .inr hnamed

end StoreEvent

/-- A store before and after some of the later tasks have refreshed it at one time. -/
structure Refreshed (now : Int) (tasks : List RefreshTask) (s s' : Store) : Prop where
  sound : s'.Sound
  settings : s'.settings = s.settings
  tracks : ∀ cell, s'.Tracks cell ↔ s.Tracks cell
  written : ∀ cell, s.Tracks cell → cell.task ∈ tasks → s'.lastUpdate? cell = some now
  others : ∀ cell, cell.task ∉ tasks → s'.lastUpdate? cell = s.lastUpdate? cell

theorem Refreshed.refl {now : Int} (hs : s.Sound) : Refreshed now [] s s :=
  ⟨hs, rfl, fun _ => .rfl, by simp, fun _ _ => rfl⟩

/-- A task whose events cover what it asks for refreshes its cells. -/
theorem Covers.refreshed {now : Int} (hs : s.Sound) (htask : task ≠ .pairTokensAndFarms)
    (h : Covers s (task.asked registry s) events) :
    Refreshed now [task] s (StoreEvent.applyAll events now s) where
  sound := StoreEvent.sound_applyAll hs events now
  settings := StoreEvent.settings_applyAll events now s
  tracks := by
    refine StoreEvent.tracks_applyAll hs (fun cell hcell => ((h.mem_iff htask).1 hcell).2) ?_
    exact fun address hcell => htask ((h.mem_iff htask).1 hcell).1.symm
  written cell htracked hcell := by
    rw [StoreEvent.lastUpdate?_applyAll, if_pos]
    exact (h.mem_iff htask).2 ⟨List.mem_singleton.1 hcell, htracked⟩
  others cell hcell := by
    rw [StoreEvent.lastUpdate?_applyAll, if_neg]
    exact fun hwritten => hcell (List.mem_singleton.2 ((h.mem_iff htask).1 hwritten).1)

theorem Refreshed.cons {now : Int} {tasks : List RefreshTask} {s₁ s₂ : Store}
    (h : Refreshed now [task] s s₁) (hrest : Refreshed now tasks s₁ s₂) :
    Refreshed now (task :: tasks) s s₂ where
  sound := hrest.sound
  settings := hrest.settings.trans h.settings
  tracks cell := (hrest.tracks cell).trans (h.tracks cell)
  written cell htracked hcell := by
    by_cases hlater : cell.task ∈ tasks
    · exact hrest.written cell ((h.tracks cell).2 htracked) hlater
    · have hfirst : cell.task = task := (List.mem_cons.1 hcell).resolve_right hlater
      rw [hrest.others cell hlater]
      exact h.written cell htracked (List.mem_singleton.2 hfirst)
  others cell hcell := by
    rw [List.mem_cons, not_or] at hcell
    rw [hrest.others cell hcell.2]
    exact h.others cell (by simpa using hcell.1)

end Rounds

namespace Cache

/-- Runs a pass of each of some tasks; the events of each are applied before the next begins. -/
def refreshAll {m : Type → Type} [Monad m] (src : Source m) (policy : ReadPolicy) (now : Int) :
    List RefreshTask → Cache → m (List (Except Failure RefreshOutcome) × Cache)
  | [], c => pure ([], c)
  | task :: rest, c => do
    let (outcome, c) ← c.refresh src policy task
    let (outcomes, c) ← refreshAll src policy now rest (c.drain now).2
    return (outcome :: outcomes, c)

theorem foldl_applyOne_fst (now : Int) (events : List StoreEvent)
    (state : Store × InvalidationBus) : (events.foldl (EventFeed.applyOne now) state).1 =
      StoreEvent.applyAll events now state.1 := by
  induction events generalizing state with
  | nil => rfl
  | cons e events ih => exact ih _

theorem store_drain (c : Cache) (now : Int) :
    (c.drain now).2.store = StoreEvent.applyAll c.feed.waiting now c.store :=
  foldl_applyOne_fst now c.feed.waiting (c.store, c.bus)

/-- A cache with more events waiting behind those that wait already. -/
def queued (c : Cache) (events : List StoreEvent) : Cache :=
  { c with feed := { c.feed with waiting := c.feed.waiting ++ events } }

/-- Events that wait behind others are applied after them. -/
theorem store_drain_queued (c : Cache) (events : List StoreEvent) (now : Int) :
    ((c.queued events).drain now).2.store =
      StoreEvent.applyAll events now (c.drain now).2.store := by
  rw [store_drain, store_drain]
  exact List.foldl_append

end Cache

/-- A pass in which no read has failed. -/
def RefreshOutcome.Full (outcome : Except Failure RefreshOutcome) : Prop :=
  ∃ updated, outcome = .ok ⟨updated, 0⟩

instance (outcome : Except Failure RefreshOutcome) : Decidable (RefreshOutcome.Full outcome) :=
  match outcome with
  | .ok ⟨updated, 0⟩ => isTrue ⟨updated, rfl⟩
  | .ok ⟨_, _ + 1⟩ => isFalse (by simp [RefreshOutcome.Full])
  | .error _ => isFalse (by simp [RefreshOutcome.Full])

namespace Cache

variable {S : Type} {src : Source (StateM S)} {policy : ReadPolicy} {now : Int} {c : Cache} {st : S}
  {registry : List String}

open ColdStart (found failures)

/-- A task leaves its events waiting behind those that wait already. -/
theorem leads_refresh {task : RefreshTask} (hopen : c.feed.isOpen = true)
    (hregistry : task = .pairTokensAndFarms →
      (retry policy.retries src.pairAddresses st).1 = .ok registry) :
    Leads (c.refresh src policy task) st fun out _ =>
      ∃ events, (src.Answers → RefreshOutcome.Full out.1) ∧
        (RefreshOutcome.Full out.1 → Covers c.store (task.asked registry c.store) events) ∧
        out.2 = c.queued events := by
  refine (DexCache.leads_refresh hopen hregistry).bind fun out st' h => ?_
  obtain ⟨results, hfitting, rfl⟩ := h
  refine ⟨found results, fun hanswers => ?_, fun hfull => ?_, rfl⟩
  · refine ⟨_, congrArg Except.ok (congrArg _ ?_)⟩
    refine ColdStart.failures_eq_zero_iff.2 fun r hr => ?_
    obtain ⟨cell, -, hfit⟩ := hfitting.exists_asked hr
    exact hfit.succeeds hanswers
  · obtain ⟨updated, houtcome⟩ := hfull
    exact hfitting.covers (congrArg RefreshOutcome.failed (Except.ok.inj houtcome))

/-- Later tasks that run without failures refresh their cells. -/
theorem leads_refreshAll {tasks : List RefreshTask} (htasks : .pairTokensAndFarms ∉ tasks)
    (hopen : c.feed.isOpen = true) (hwaiting : c.feed.waiting = []) (hs : c.store.Sound) :
    Leads (refreshAll src policy now tasks c) st fun out _ =>
      (src.Answers → ∀ o ∈ out.1, RefreshOutcome.Full o) ∧
        ((∀ o ∈ out.1, RefreshOutcome.Full o) → Refreshed now tasks c.store out.2.store) ∧
        out.2.monitor = c.monitor := by
  induction tasks generalizing c st with
  | nil => exact ⟨fun _ o ho => (List.not_mem_nil ho).elim, fun _ => .refl hs, rfl⟩
  | cons task rest ih =>
      rw [List.mem_cons, not_or] at htasks
      obtain ⟨hfirst, hrest⟩ := htasks
      have hregistry : task = .pairTokensAndFarms →
          (retry policy.retries src.pairAddresses st).1 = .ok [] := fun h => absurd h.symm hfirst
      refine (leads_refresh hopen hregistry).bind fun out st' h => ?_
      obtain ⟨outcome, ended⟩ := out
      obtain ⟨events, hanswers, hcovers, rfl⟩ := h
      -- the store that the next task finds, with nothing waiting
      let next := ((c.queued events).drain now).2
      have hnext : next.store = StoreEvent.applyAll events now c.store := by
        refine (store_drain_queued c events now).trans ?_
        rw [store_drain, hwaiting]
        rfl
      have hsound : next.store.Sound := hnext ▸ StoreEvent.sound_applyAll hs events now
      refine (ih hrest (c := next) hopen rfl hsound).bind fun out st'' h => ?_
      obtain ⟨hanswersRest, hrefreshed, hmonitor⟩ := h
      refine ⟨fun h => ?_, fun hfull => ?_, hmonitor⟩
      · exact List.forall_mem_cons.2 ⟨hanswers h, hanswersRest h⟩
      · obtain ⟨hthis, hothers⟩ := List.forall_mem_cons.1 hfull
        exact (hnext ▸ (hcovers hthis).refreshed hs (Ne.symm hfirst)).cons (hrefreshed hothers)

end Cache

section Recovered

variable {now : Int} {registry : List String} {s before after : Store} {tasks : List RefreshTask}

/-- A store before and after a round of all tasks: what is tracked was refreshed, but for the tokens
of pairs that are not registered, which are as they were before. -/
structure Recovered (now : Int) (registry : List String) (before after : Store) : Prop where
  sound : after.Sound
  settings : after.settings = before.settings
  rest : ∀ cell, after.Tracks cell → cell.task ≠ .pairTokensAndFarms →
    after.lastUpdate? cell = some now
  registered : ∀ address ∈ registry,
    after.lastUpdate? (.pair address .tokensAndFarms) = some now
  dropped : ∀ address ∉ registry, (address ∈ after.pairs.ids ↔ address ∈ before.pairs.ids) ∧
    after.lastUpdate? (.pair address .tokensAndFarms) =
      before.lastUpdate? (.pair address .tokensAndFarms)

/-- The first task and then the others make a round. -/
theorem Covers.recovered {events : List StoreEvent}
    (h : Covers s (RefreshTask.pairTokensAndFarms.asked registry s) events)
    (hrest : Refreshed now tasks (StoreEvent.applyAll events now before) after)
    (htasks : ∀ cell : Cell, cell.task ∈ tasks ↔ cell.task ≠ .pairTokensAndFarms) :
    Recovered now registry before after := by
  have hasked (address : String) (g : PairGroup) :
      .pair address g ∈ events.flatMap StoreEvent.cells → address ∈ registry := by
    intro hcell
    rcases h.only _ hcell with hcell | ⟨address', g', hsame, -, hcell⟩
    · obtain ⟨a, ha, hsame⟩ := List.mem_map.1 hcell
      cases hsame
      exact ha
    · cases hsame
      obtain ⟨a, ha, hsame⟩ := List.mem_map.1 hcell
      cases hsame
      exact ha
  have hkept (address : String) : after.lastUpdate? (.pair address .tokensAndFarms) =
      (StoreEvent.applyAll events now before).lastUpdate? (.pair address .tokensAndFarms) :=
    hrest.others _ fun hmem => (htasks _).1 hmem rfl
  refine ⟨hrest.sound, ?_, ?_, ?_, ?_⟩
  · exact hrest.settings.trans (StoreEvent.settings_applyAll events now before)
  · intro cell htracked hcell
    exact hrest.written cell ((hrest.tracks cell).1 htracked) ((htasks cell).2 hcell)
  · intro address hregistered
    rw [hkept, StoreEvent.lastUpdate?_applyAll, if_pos]
    exact h.asked _ (List.mem_map_of_mem hregistered)
  · intro address hdropped
    refine ⟨(hrest.tracks (.pair address .tokensAndFarms)).trans ?_, ?_⟩
    · refine (StoreEvent.mem_pairs_ids_applyAll now before events).trans (or_iff_left ?_)
      rintro ⟨g, hg⟩
      exact hdropped (hasked address g hg)
    · rw [hkept, StoreEvent.lastUpdate?_applyAll, if_neg]
      exact fun hcell => hdropped (hasked address _ hcell)

theorem Store.mem_tokens_ids_of_lastUpdate? {identifier : String} {g : TokenGroup} {time : Int}
    (h : s.lastUpdate? (.token identifier g) = some time) : identifier ∈ s.tokens.ids :=
  Collection.mem_ids_of_lastUpdate? h

theorem Store.Sound.fresh_pair_iff (hs : s.Sound) {e : Stored Pair PairGroup}
    (he : e ∈ s.pairs.entries) (g : PairGroup) :
    s.Fresh now (.pair (Entity.id e.snapshot) g) ↔ ∃ time,
      e.stamps.at? g = some time ∧ now - time ≤ s.pairs.thresholds.of g := by
  rw [Store.Fresh, Store.lastUpdate?, Collection.lastUpdate?, Collection.find?_of_mem hs.pairs he]
  rfl

theorem Store.Sound.fresh_token_iff (hs : s.Sound) {e : Stored Token TokenGroup}
    (he : e ∈ s.tokens.entries) (g : TokenGroup) :
    s.Fresh now (.token (Entity.id e.snapshot) g) ↔ ∃ time,
      e.stamps.at? g = some time ∧ now - time ≤ s.tokens.thresholds.of g := by
  rw [Store.Fresh, Store.lastUpdate?, Collection.lastUpdate?, Collection.find?_of_mem hs.tokens he]
  rfl

/-- Sound stores are settled if all cells of stored entities are fresh and the tokens that pairs
need are stored. -/
theorem settled_of_fresh (hs : s.Sound)
    (hpairs : ∀ address ∈ s.pairs.ids, ∀ g, s.Fresh now (.pair address g))
    (htokens : ∀ identifier ∈ s.tokens.ids, ∀ g, s.Fresh now (.token identifier g))
    (hneeded : ∀ p ∈ s.pairs.all, ∀ name ∈ p.tokenIds, name ∈ s.tokens.ids) : Settled s now where
  pairs _ he g := (hs.fresh_pair_iff he g).1 (hpairs _ (List.mem_map_of_mem he) g)
  tokens _ he g := (hs.fresh_token_iff he g).1 (htokens _ (List.mem_map_of_mem he) g)
  needed p hp name hname := Collection.mem_ids_iff.1 (hneeded p hp name hname)

/-- In a settled store the pairs are fresh. -/
theorem Settled.fresh_pair (h : Settled s now) (hs : s.Sound) {address : String}
    (haddress : address ∈ s.pairs.ids) (g : PairGroup) : s.Fresh now (.pair address g) := by
  obtain ⟨e, he, rfl⟩ := List.mem_map.1 haddress
  exact (hs.fresh_pair_iff he g).2 (h.pairs e he g)

/-- A round settles a store exactly if the stored pairs that are no longer registered have fresh
tokens. -/
theorem Recovered.settled_iff (h : Recovered now registry before after)
    (hpairs : ∀ g, 0 ≤ before.pairs.thresholds.of g)
    (htokens : ∀ g, 0 ≤ before.tokens.thresholds.of g) :
    Settled after now ↔ ∀ address ∈ before.pairs.ids, address ∉ registry →
      before.Fresh now (.pair address .tokensAndFarms) := by
  have hthreshold := Store.threshold_of_settings h.settings
  have hnow {cell : Cell} (htime : after.lastUpdate? cell = some now) : after.Fresh now cell := by
    refine ⟨now, htime, ?_⟩
    rw [hthreshold, Int.sub_self]
    cases cell with
    | pair address g => exact hpairs g
    | token identifier g => exact htokens g
  have hdropped (address : String) (hout : address ∉ registry) :
      after.Fresh now (.pair address .tokensAndFarms) ↔
        before.Fresh now (.pair address .tokensAndFarms) := by
    rw [Store.Fresh, Store.Fresh, (h.dropped address hout).2, hthreshold]
  constructor
  · intro hsettled address haddress hout
    rw [← hdropped address hout]
    exact hsettled.fresh_pair h.sound (((h.dropped address hout).1).2 haddress) _
  · intro hfresh
    refine settled_of_fresh h.sound (fun address haddress g => ?_) (fun identifier hstored g => ?_)
      fun p hp name hname => ?_
    · by_cases hg : g = .tokensAndFarms
      · subst hg
        by_cases hin : address ∈ registry
        · exact hnow (h.registered address hin)
        · rw [hdropped address hin]
          exact hfresh address (((h.dropped address hin).1).1 haddress) hin
      · exact hnow (h.rest (.pair address g) haddress (by simp [Cell.task_eq_first_iff, hg]))
    · refine hnow (h.rest (.token identifier g) ?_ (by simp [Cell.task_eq_first_iff]))
      exact Store.mem_trackedTokens_iff.2 (.inl hstored)
    -- a token that a pair needs was refreshed, so it is stored
    · have htracked : after.Tracks (.token name .metadata) :=
        Store.mem_trackedTokens_iff.2 (.inr ⟨p, hp, List.mem_append_left _ hname⟩)
      exact Store.mem_tokens_ids_of_lastUpdate?
        (h.rest _ htracked (by simp [Cell.task_eq_first_iff]))

/-- After a round a running cache is ready exactly if its store is settled. -/
theorem Recovered.check_done_iff (h : Recovered now registry before after)
    (hpopulated : before.populated = true) {m : Monitor} (hrunning : m.status.Running)
    (hpairs : ∀ g, 0 ≤ before.pairs.thresholds.of g)
    (htokens : ∀ g, 0 ≤ before.tokens.thresholds.of g) :
    (m.check after now).status = .done ↔ ∀ address ∈ before.pairs.ids, address ∉ registry →
      before.Fresh now (.pair address .tokensAndFarms) := by
  have hpopulated' : after.populated = true :=
    (congrArg (fun settings => settings.2.2) h.settings).trans hpopulated
  rw [m.check_done_iff, isFresh_inspect_iff, h.settled_iff hpairs htokens]
  exact ⟨fun h => h.2.2, fun h => ⟨hrunning, hpopulated', h⟩⟩

end Recovered

section ColdStarted

theorem Store.Sound.putPair {s : Store} (h : s.Sound) (p : Pair) (time : Int) :
    Store.Sound { s with pairs := s.pairs.put p time } :=
  ⟨Collection.nodup_ids_apply h.pairs (.put p time), h.tokens⟩

theorem Store.Sound.putToken {s : Store} (h : s.Sound) (t : Token) (time : Int) :
    Store.Sound { s with tokens := s.tokens.put t time } :=
  ⟨h.pairs, Collection.nodup_ids_apply h.tokens (.put t time)⟩

/-- A cold start stores nothing twice. -/
theorem ColdStart.sound_visit {c : ColdStart} (h : c.store.Sound) (checkpoint : Option Checkpoint)
    (address : String) : (c.visit checkpoint address).store.Sound := by
  have htoken (time : Int) (c : ColdStart) (h : c.store.Sound) (t : Token) :
      (restoreToken time c t).store.Sound := by
    unfold restoreToken
    split
    · exact h
    · exact h.putToken t time
  unfold visit
  split
  · next cp p tokens _ =>
      exact List.foldlRecOn tokens _ (motive := fun c : ColdStart => c.store.Sound) h
        fun c h t _ => htoken _ c h t
  · exact h

theorem ColdStart.sound_finish {c : ColdStart} (h : c.store.Sound) : c.finish.Sound := by
  refine ⟨?_, h.tokens⟩
  exact List.foldlRecOn (c.registry.eraseDups.filterMap c.pair?) _
    (motive := fun pairs : Collection Pair PairGroup => pairs.ids.Nodup) h.pairs
    fun pairs h p _ => Collection.nodup_ids_apply h (.put p.1 p.2)

theorem ColdStart.sound_complete {S : Type} (src : Source (StateM S)) (policy : ReadPolicy)
    (now : Int) {c : ColdStart} (h : c.store.Sound) (st : S) :
    (c.complete src policy now st).1.store.Sound := by
  obtain ⟨refs, tokens, pairs, -, hended⟩ := complete_eq src policy now c st
  rw [hended, loaded, foldl_keeps store (store_acceptPair now), filled]
  refine List.foldlRecOn tokens _ (motive := fun c : ColdStart => c.store.Sound) h fun c h r _ => ?_
  cases r with
  | error e => exact h
  | ok t => exact h.putToken t now

theorem sound_coldStart {S : Type} (src : Source (StateM S)) (policy : ReadPolicy)
    (checkpoint : Option Checkpoint) (now : Int) {s : Store} (h : s.Sound) (monitor : Monitor)
    (st : S) :
    Leads (coldStart src policy checkpoint now s monitor) st fun out _ => out.2.1.Sound := by
  have hread : Leads (retry policy.retries src.pairAddresses) st fun _ _ => True := trivial
  refine hread.bind fun r st' _ => ?_
  cases r with
  | error e => exact h
  | ok registry =>
      have hstart : (ColdStart.ofRegistry s checkpoint registry).store.Sound :=
        List.foldlRecOn registry _ (motive := fun c : ColdStart => c.store.Sound) h
          fun c h address _ => ColdStart.sound_visit h checkpoint address
      exact ColdStart.sound_finish (ColdStart.sound_complete src policy now hstart st')

end ColdStarted

namespace Cache

/-- The caches that cold starts, refresh passes, applied events and checks lead to. -/
inductive Reached : Cache → Prop
  | new (c : Cache) (pairs : Thresholds PairGroup) (tokens : Thresholds TokenGroup)
      (hstore : c.store = .empty pairs tokens) (hfeed : c.feed = {}) : Reached c
  | coldStart {S : Type} {c : Cache} (h : Reached c) (src : Source (StateM S))
      (policy : ReadPolicy) (now : Int) (st : S) : Reached (c.coldStart src policy now st).1.2
  | refresh {S : Type} {c : Cache} (h : Reached c) (src : Source (StateM S)) (policy : ReadPolicy)
      (task : RefreshTask) (st : S) : Reached (c.refresh src policy task st).1.2
  | applyFirst {c : Cache} (h : Reached c) (now : Int) {e : StoreEvent} {rest : List StoreEvent}
      (hwaiting : c.feed.waiting = e :: rest) :
      Reached { (c.apply e now).2 with
        feed := { c.feed with waiting := rest }, bus := (c.bus.publish e.keys).2 }
  | drain {c : Cache} (h : Reached c) (now : Int) : Reached (c.drain now).2
  | check {c : Cache} (h : Reached c) (now : Int) :
      Reached { c with monitor := c.monitor.check c.store now }

theorem isOpen_sendAll (f : EventFeed) (done : RefreshOutcome)
    (results : List (Except Failure StoreEvent)) :
    (f.sendAll done results).2.isOpen = f.isOpen := by
  induction results generalizing f done with
  | nil => rfl
  | cons r rest ih =>
      cases r with
      | error e => exact ih f _
      | ok e =>
          rw [EventFeed.sendAll]
          split
          · rfl
          · next f' hsend =>
              obtain ⟨-, ⟨⟩⟩ := Option.ite_none_right_eq_some.1 hsend
              exact ih _ _

theorem isOpen_refresh {S : Type} {src : Source (StateM S)} {policy : ReadPolicy}
    {task : RefreshTask} {s : Store} {feed : EventFeed} (st : S) :
    Leads (DexCache.refresh src policy task s feed) st fun out _ =>
      out.2.isOpen = feed.isOpen := by
  have hpass : Leads (src.pass policy s
      (fun result => !feed.isOpen && result.toOption.isSome) task) st fun _ _ => True := trivial
  refine hpass.bind fun r st' _ => ?_
  cases r with
  | error e => rfl
  | ok results => exact isOpen_sendAll feed {} results

theorem Reached.sound {c : Cache} (h : c.Reached) : c.store.Sound ∧ c.feed.isOpen = true := by
  induction h with
  | new c pairs tokens hstore hfeed =>
      rw [hstore, hfeed]
      exact ⟨⟨List.nodup_nil, List.nodup_nil⟩, rfl⟩
  | @coldStart S c h src policy now st ih =>
      suffices hstarted : Leads (c.coldStart src policy now) st fun out _ =>
          out.2.store.Sound ∧ out.2.feed.isOpen = true from hstarted
      refine (sound_coldStart src policy _ now ih.1 c.monitor st).bind fun out st' hsound => ?_
      exact ⟨hsound, ih.2⟩
  | @refresh S c h src policy task st ih =>
      suffices hran : Leads (c.refresh src policy task) st fun out _ =>
          out.2.store.Sound ∧ out.2.feed.isOpen = true from hran
      refine (isOpen_refresh st).bind fun out st' hopen => ?_
      exact ⟨ih.1, hopen.trans ih.2⟩
  | applyFirst h now hwaiting ih =>
      exact ⟨StoreEvent.sound_applyAll ih.1 [_] now, ih.2⟩
  | drain h now ih =>
      rw [store_drain]
      exact ⟨StoreEvent.sound_applyAll ih.1 _ now, ih.2⟩
  | check h now ih => exact ih

/-- The tasks after the first one are those of the cells that the first does not write. -/
theorem task_mem_tail_iff (cell : Cell) :
    cell.task ∈ RefreshTask.all.tail ↔ cell.task ≠ .pairTokensAndFarms := by
  rcases cell with ⟨address, _ | _ | _ | _⟩ | ⟨identifier, _ | _ | _⟩ <;>
    simp [Cell.task, RefreshTask.all]

variable {S : Type} {src : Source (StateM S)} {policy : ReadPolicy} {c : Cache} {st : S}
  {registry : List String}

/-- A round of all tasks recovers the store that there is when the waiting events are applied. -/
theorem leads_round (hs : c.store.Sound) (hopen : c.feed.isOpen = true)
    (hregistry : (retry policy.retries src.pairAddresses st).1 = .ok registry) (now : Int) :
    Leads (refreshAll src policy now RefreshTask.all c) st fun out _ =>
      (src.Answers → ∀ outcome ∈ out.1, RefreshOutcome.Full outcome) ∧
        ((∀ outcome ∈ out.1, RefreshOutcome.Full outcome) →
          Recovered now registry (c.drain now).2.store out.2.store) ∧
        out.2.monitor = c.monitor := by
  refine (leads_refresh hopen fun _ => hregistry).bind fun out st' h => ?_
  obtain ⟨outcome, ended⟩ := out
  obtain ⟨events, hanswers, hcovers, rfl⟩ := h
  let next := ((c.queued events).drain now).2
  have hnext : next.store = StoreEvent.applyAll events now (c.drain now).2.store :=
    store_drain_queued c events now
  have hsound : next.store.Sound := by
    rw [hnext, store_drain]
    exact StoreEvent.sound_applyAll (StoreEvent.sound_applyAll hs _ now) _ now
  have hlater : .pairTokensAndFarms ∉ RefreshTask.all.tail := by decide
  refine (leads_refreshAll (c := next) hlater hopen rfl hsound).bind fun out st'' h => ?_
  obtain ⟨hanswersRest, hrefreshed, hmonitor⟩ := h
  refine ⟨fun h => ?_, fun hfull => ?_, hmonitor⟩
  · exact List.forall_mem_cons.2 ⟨hanswers h, hanswersRest h⟩
  · obtain ⟨hthis, hothers⟩ := List.forall_mem_cons.1 hfull
    exact (hcovers hthis).recovered (hnext ▸ hrefreshed hothers) task_mem_tail_iff

/-- A round of all tasks in which no read fails makes a cache ready exactly if the tokens of the
stored pairs that are not registered any more are fresh: the first task goes over the registry,
and no other writes them.  If the services answer every read, no read fails. -/
theorem check_refreshAll_done_iff (hreached : c.Reached) (hpopulated : c.store.populated = true)
    (hrunning : c.monitor.status.Running) (hpairs : ∀ g, 0 ≤ c.store.pairs.thresholds.of g)
    (htokens : ∀ g, 0 ≤ c.store.tokens.thresholds.of g)
    (hregistry : (retry policy.retries src.pairAddresses st).1 = .ok registry) (now : Int) :
    let round := (c.refreshAll src policy now RefreshTask.all st).1
    let applied := (c.drain now).2.store
    (src.Answers → ∀ outcome ∈ round.1, RefreshOutcome.Full outcome) ∧
      ((∀ outcome ∈ round.1, RefreshOutcome.Full outcome) →
        ((round.2.monitor.check round.2.store now).status = .done ↔
          ∀ address ∈ applied.pairs.ids, address ∉ registry →
            applied.Fresh now (.pair address .tokensAndFarms))) := by
  obtain ⟨hs, hopen⟩ := hreached.sound
  have hround := leads_round hs hopen hregistry now
  rw [Leads] at hround
  obtain ⟨hanswers, hrecovers, hmonitor⟩ := hround
  have hsettings : (c.drain now).2.store.settings = c.store.settings := by
    rw [store_drain]
    exact StoreEvent.settings_applyAll _ now c.store
  obtain ⟨hpairThresholds, hrest⟩ := Prod.mk.inj hsettings
  obtain ⟨htokenThresholds, hpopulated'⟩ := Prod.mk.inj hrest
  refine ⟨hanswers, fun hfull => ?_⟩
  rw [hmonitor]
  exact (hrecovers hfull).check_done_iff (hpopulated'.trans hpopulated) hrunning
    (hpairThresholds ▸ hpairs) (htokenThresholds ▸ htokens)

section Dropped

/-- A registry of pairs of the same two tokens. -/
def registryOf (addresses : List String) : TableSource where
  pairs := addresses.map fun a => (a, ⟨"T-1", "T-2", none, false, false, none, none⟩)

/-- Two pairs of the same two tokens, all written at the start. -/
def twoPairs : Store where
  pairs := .ofHistory {} [.put { pricedPair with address := "a2" } 0, .put pricedPair 0]
  tokens := .ofHistory {} [.put { identifier := "T-2" } 0, .put { identifier := "T-1" } 0]

/-- A cache that has restored the two pairs. -/
def restoredPairs : Cache :=
  (Cache.coldStart TableSource.source pricedPolicy
    { store := .empty {} {}, bus := .ofCapacity 1, checkpoints := ⟨[.capture twoPairs 7 100]⟩ } 150
    (registryOf ["a1", "a2"])).1.2

/-- A pair that the registry has dropped is still stored, so a round leaves the cache unready
although every read succeeds. -/
theorem check_refreshAll_one_dropped :
    let round := (restoredPairs.refreshAll TableSource.source pricedPolicy 200 RefreshTask.all
      (registryOf ["a1"])).1
    restoredPairs.monitor.status = .inProgress ∧
      (∀ outcome ∈ round.1, RefreshOutcome.Full outcome) ∧
      (round.2.monitor.check round.2.store 200).status ≠ .done := by
  have hreached : restoredPairs.Reached := .coldStart (.new _ {} {} rfl rfl) _ _ _ _
  have hstarted : restoredPairs.monitor.status = .inProgress := by decide +kernel
  have hpopulated : restoredPairs.store.populated = true := by decide +kernel
  have hpairs (g : PairGroup) : 0 ≤ restoredPairs.store.pairs.thresholds.of g := by
    cases g <;> decide +kernel
  have htokens (g : TokenGroup) : 0 ≤ restoredPairs.store.tokens.thresholds.of g := by
    cases g <;> decide +kernel
  have hregistry : (retry pricedPolicy.retries TableSource.source.pairAddresses
      (registryOf ["a1"])).1 = .ok ["a1"] := rfl
  obtain ⟨-, hdone⟩ := check_refreshAll_done_iff hreached hpopulated (.inl hstarted) hpairs htokens
    hregistry 200
  have hfull : ∀ outcome ∈ (restoredPairs.refreshAll TableSource.source pricedPolicy 200
      RefreshTask.all (registryOf ["a1"])).1.1, RefreshOutcome.Full outcome := by decide +kernel
  refine ⟨hstarted, hfull, fun hready => ?_⟩
  obtain ⟨time, htime, hage⟩ := (hdone hfull).1 hready "a2" (by decide +kernel) (by decide)
  have hbefore : (restoredPairs.drain 200).2.store.lastUpdate? (.pair "a2" .tokensAndFarms) =
      some 100 := by decide +kernel
  have hthreshold :
      (restoredPairs.drain 200).2.store.threshold (.pair "a2" .tokensAndFarms) = 0 := by
    decide +kernel
  rw [hbefore] at htime
  rw [hthreshold, ← Option.some.inj htime] at hage
  omega

end Dropped

end Cache

end DexCache
