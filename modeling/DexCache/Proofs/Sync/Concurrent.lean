import DexCache.Proofs.Store.Orders
import DexCache.Proofs.Sync.Recovery

/-!
# Passes that run at one time

Two refresh tasks may run over one store at once, and their events reach the store in any order.
Each cell has one task that writes it: the task of its group, or the first one, which stores new
pairs, if the pair is not stored yet.  So the events of two tasks write different cells, as those
of one task do that goes over no entity twice, and the order does not matter.
-/

namespace DexCache

section Asked

variable {task : RefreshTask} {registry : List String} {s : Store} {cell : Cell} {e : StoreEvent}

/-- A task asks for cells of its own. -/
theorem RefreshTask.task_of_mem_asked (h : cell ∈ task.asked registry s) : cell.task = task := by
  by_cases htask : task = .pairTokensAndFarms
  · subst htask
    obtain ⟨address, -, rfl⟩ := List.mem_map.1 h
    rfl
  · exact ((RefreshTask.mem_asked_iff htask).1 h).1

/-- No entity is asked for twice. -/
theorem RefreshTask.nodup_entities_asked (hpairs : s.pairs.ids.Nodup) (hregistry : registry.Nodup) :
    ((task.asked registry s).map Cell.entity).Nodup := by
  have hnodup {ids : List String} {cell : String → Cell} {kind : EntityKind} (hids : ids.Nodup)
      (hentity : ∀ id, (cell id).entity = (kind, id)) : ((ids.map cell).map Cell.entity).Nodup := by
    rw [List.map_map]
    refine hids.map fun a b heq => ?_
    have hsame := (hentity a).symm.trans (heq.trans (hentity b))
    exact (Prod.mk.inj hsame).2
  have htokens : s.trackedTokens.Nodup := Distinct.nodup_eraseDups _
  cases task with
  | pairTokensAndFarms => exact hnodup hregistry fun _ => rfl
  | pairInfo => exact hnodup hpairs fun _ => rfl
  | pairPrices => exact hnodup hpairs fun _ => rfl
  | pairAnalytics => exact hnodup hpairs fun _ => rfl
  | tokenMetadata => exact hnodup htokens fun _ => rfl
  | tokenPrices => exact hnodup htokens fun _ => rfl
  | tokenAnalytics => exact hnodup htokens fun _ => rfl

/-- The task that writes a cell: the first one if its pair is not stored. -/
def Store.writer (s : Store) : Cell → RefreshTask
  | .pair address g =>
    if address ∈ s.pairs.ids then (Cell.pair address g).task else .pairTokensAndFarms
  | .token identifier g => (Cell.token identifier g).task

namespace Source

/-- An event writes the entity that was asked for. -/
theorem Serves.entity_eq (h : Serves s cell e) : e.entity = cell.entity := by
  rcases h with hone | ⟨p, rfl, -, rfl⟩
  · exact (StoreEvent.entity_of_mem_cells (by rw [hone]; exact List.mem_singleton_self cell)).symm
  · rfl

/-- What an event writes that was asked for by a task is written by no other task. -/
theorem Serves.writer_eq (h : Serves s cell e) (hcell : cell ∈ task.asked registry s) {c : Cell}
    (hc : c ∈ e.cells) : s.writer c = task := by
  have htask := RefreshTask.task_of_mem_asked hcell
  rcases h with hone | ⟨p, rfl, hnew, rfl⟩
  · rw [hone, List.mem_singleton] at hc
    subst hc
    cases c with
    | pair address g =>
        rw [Store.writer]
        split
        · exact htask
        · next hnew =>
            -- only the first task asks for pairs that are not stored
            by_contra hfirst
            exact hnew ((RefreshTask.mem_asked_iff (Ne.symm hfirst)).1 hcell).2
    | token identifier g => exact htask
  · obtain ⟨g, -, rfl⟩ := List.mem_map.1 hc
    exact (if_neg hnew).trans htask

end Source

end Asked

open ColdStart (found failures mem_found_iff length_found_add_failures)

namespace Source.Fitting

variable {S S' : Type} {src : Source (StateM S)} {src' : Source (StateM S')}
  {task task' : RefreshTask} {registry : List String} {s : Store}
  {asked asked' : List Cell} {results results' : List (Except Failure StoreEvent)}

theorem length_eq (h : src.Fitting s asked results) :
    (found results).length + failures results = asked.length := by
  obtain ⟨ordered, hperm, hfits⟩ := h
  rw [length_found_add_failures, ← hperm.length_eq, hfits.length_eq]

/-- A pass that asks for no entity twice has one event for each entity at most. -/
theorem nodup_entities (h : src.Fitting s asked results)
    (hasked : (asked.map Cell.entity).Nodup) : ((found results).map StoreEvent.entity).Nodup := by
  obtain ⟨ordered, hperm, hfits⟩ := h
  have hsub : ((found ordered).map StoreEvent.entity).Sublist (asked.map Cell.entity) := by
    clear hperm hasked
    induction hfits with
    | nil => exact List.Sublist.refl _
    | @cons cell r asked ordered hfit hfits ih =>
        cases r with
        | error _ => exact ih.cons _
        | ok e =>
            have hentity := (hfit.serves e rfl).entity_eq
            show (e.entity :: _).Sublist (cell.entity :: _)
            rw [hentity]
            exact ih.cons_cons _
  have hfound : (found ordered).Perm (found results) := hperm.filterMap _
  exact (hfound.map _).nodup_iff.1 (hasked.sublist hsub)

/-- Events of one pass write different cells. -/
theorem apart (h : src.Fitting s asked results) (hasked : (asked.map Cell.entity).Nodup) :
    StoreEvent.Apart (found results) := by
  intro e he e' he' hne cell hcell hcell'
  refine hne (Distinct.eq_of_key (h.nodup_entities hasked) he he' ?_)
  exact (StoreEvent.entity_of_mem_cells hcell).symm.trans (StoreEvent.entity_of_mem_cells hcell')

/-- Events of the passes of two tasks write different cells. -/
theorem apart_of_ne (h : src.Fitting s (task.asked registry s) results)
    (h' : src'.Fitting s (task'.asked registry s) results') (hne : task ≠ task') :
    ∀ e ∈ found results, ∀ e' ∈ found results', ∀ cell ∈ e.cells, cell ∉ e'.cells := by
  intro e he e' he' c hc hc'
  obtain ⟨cell, hcell, hfit⟩ := h.exists_asked (mem_found_iff.1 he)
  obtain ⟨cell', hcell', hfit'⟩ := h'.exists_asked (mem_found_iff.1 he')
  have hwriter : s.writer c = task := (hfit.serves e rfl).writer_eq hcell hc
  have hwriter' : s.writer c = task' := (hfit'.serves e' rfl).writer_eq hcell' hc'
  exact hne (hwriter.symm.trans hwriter')

end Source.Fitting

/-- Whatever two sources answer, the passes of two different tasks over one store, with a registry
that lists no pair twice and an open feed, count each entity that they go over as updated or failed.
A pass sends one event for each entity at most, and no event of one writes a cell that an
event of the other writes.  So in whatever order and at whatever times the events of both reach a
store, it shows the same in every cell, and all that they write is there. -/
theorem refreshes_apart {S S' : Type} (src : Source (StateM S)) (src' : Source (StateM S'))
    (policy policy' : ReadPolicy) {s : Store} (hs : s.Sound) {registry : List String}
    (hregistry : registry.Nodup) {task task' : RefreshTask} (hne : task ≠ task')
    {feed feed' : EventFeed} (hopen : feed.isOpen = true) (hopen' : feed'.isOpen = true)
    (st : S) (st' : S')
    (hread : task = .pairTokensAndFarms →
      (retry policy.retries src.pairAddresses st).1 = .ok registry)
    (hread' : task' = .pairTokensAndFarms →
      (retry policy'.retries src'.pairAddresses st').1 = .ok registry) :
    ∃ events events' failed failed',
      (refresh src policy task s feed st).1 =
        (.ok ⟨events.length, failed⟩, { feed with waiting := feed.waiting ++ events }) ∧
      (refresh src' policy' task' s feed' st').1 =
        (.ok ⟨events'.length, failed'⟩, { feed' with waiting := feed'.waiting ++ events' }) ∧
      events.length + failed = (task.asked registry s).length ∧
      events'.length + failed' = (task'.asked registry s).length ∧
      (events.map StoreEvent.entity).Nodup ∧ (events'.map StoreEvent.entity).Nodup ∧
      (∀ e ∈ events, ∀ e' ∈ events', ∀ cell ∈ e.cells, cell ∉ e'.cells) ∧
      ∀ (order : List (StoreEvent × Int)), (order.map Prod.fst).Perm (events ++ events') →
        ∀ state : Store × InvalidationBus,
          (∀ order' : List (StoreEvent × Int), (order'.map Prod.fst).Perm (events ++ events') →
            (Applier.settle state order).1.value? = (Applier.settle state order').1.value?) ∧
          ∀ e ∈ events ++ events', ∀ cell ∈ e.cells,
            (Applier.settle state order).1.value? cell = e.gives? cell := by
  obtain ⟨results, hfitting, hout⟩ :=
    (leads_refresh hopen hread : Leads (refresh src policy task s feed) st _)
  obtain ⟨results', hfitting', hout'⟩ :=
    (leads_refresh hopen' hread' : Leads (refresh src' policy' task' s feed') st' _)
  have hasked : ((task.asked registry s).map Cell.entity).Nodup :=
    RefreshTask.nodup_entities_asked hs.pairs hregistry
  have hasked' : ((task'.asked registry s).map Cell.entity).Nodup :=
    RefreshTask.nodup_entities_asked hs.pairs hregistry
  have hcross := hfitting.apart_of_ne hfitting' hne
  have hapart : StoreEvent.Apart (found results ++ found results') := by
    intro e he e' he' heq
    rcases List.mem_append.1 he with he | he
    · rcases List.mem_append.1 he' with he' | he'
      · exact hfitting.apart hasked e he e' he' heq
      · exact hcross e he e' he'
    · rcases List.mem_append.1 he' with he' | he'
      · exact fun cell hcell hcell' => hcross e' he' e he cell hcell' hcell
      · exact hfitting'.apart hasked' e he e' he' heq
  refine ⟨found results, found results', failures results, failures results', hout, hout',
    hfitting.length_eq, hfitting'.length_eq, hfitting.nodup_entities hasked,
    hfitting'.nodup_entities hasked', hcross, fun order horder state => ?_⟩
  have horderApart : StoreEvent.Apart (order.map Prod.fst) := fun e he e' he' =>
    hapart e (horder.mem_iff.1 he) e' (horder.mem_iff.1 he')
  constructor
  · intro order' horder'
    exact Applier.value?_settle_perm horderApart (horder.trans horder'.symm) state
  · intro e he cell hcell
    exact Applier.value?_settle_of_mem horderApart (horder.mem_iff.2 he) hcell state

/-- The first task over the pair "a1", when "a2" is registered too. -/
def newPairPass : Except Failure RefreshOutcome × EventFeed :=
  (refresh TableSource.source pricedPolicy .pairTokensAndFarms pricedStore {}
    (Cache.registryOf ["a1", "a2"])).1

/-- The task that keeps the reserves of pairs fresh, over the same store. -/
def infoPass : Except Failure RefreshOutcome × EventFeed :=
  (refresh TableSource.source pricedPolicy .pairInfo pricedStore {}
    (Cache.registryOf ["a1", "a2"])).1

/-- The new pair, the tokens of the old one and its reserves may come in any order. -/
theorem refreshes_apart_newPair :
    newPairPass.2.waiting.map StoreEvent.entity = [(.pair, "a1"), (.pair, "a2")] ∧
      infoPass.2.waiting.map StoreEvent.entity = [(.pair, "a1")] ∧
      ∀ (first second : Int) (state : Store × InvalidationBus),
        (Applier.settle state
          ((newPairPass.2.waiting ++ infoPass.2.waiting).map fun e => (e, first))).1.value? =
        (Applier.settle state
          ((infoPass.2.waiting ++ newPairPass.2.waiting).map fun e => (e, second))).1.value? := by
  have hsound : pricedStore.Sound := ⟨by decide +kernel, by decide +kernel⟩
  have hnodup : ["a1", "a2"].Nodup := by decide
  have hne : RefreshTask.pairTokensAndFarms ≠ .pairInfo := by decide
  have hopen : ({} : EventFeed).isOpen = true := rfl
  have hread : (retry pricedPolicy.retries TableSource.source.pairAddresses
      (Cache.registryOf ["a1", "a2"])).1 = .ok ["a1", "a2"] := rfl
  obtain ⟨events, events', failed, failed', hfirst, hsecond, -, -, -, -, -, horders⟩ :=
    refreshes_apart TableSource.source TableSource.source pricedPolicy pricedPolicy hsound hnodup
      hne hopen hopen (Cache.registryOf ["a1", "a2"]) (Cache.registryOf ["a1", "a2"])
      (fun _ => hread) (fun h => absurd h.symm hne)
  have hevents : newPairPass.2.waiting = events := by
    rw [newPairPass, hfirst]
    rfl
  have hevents' : infoPass.2.waiting = events' := by
    rw [infoPass, hsecond]
    rfl
  refine ⟨by decide +kernel, by decide +kernel, fun first second state => ?_⟩
  rw [hevents, hevents']
  refine (horders _ (by simp [Function.comp_def]) state).1 _ ?_
  simpa [Function.comp_def] using List.perm_append_comm

end DexCache
