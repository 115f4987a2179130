import DexCache.Proofs.Store.Orders

/-!
# What the applier applies

Whatever the order of the moves, the events that were sent are those that were applied followed by
those that wait, and the store is what the applied events make of it one after the other.  Once the
feed is closed no place of it is granted any more, and the applier stops only when all granted
places are filled and nothing waits; so by then all that was sent is applied.

The keys that are published for an event are those of the cells whose time it sets.  These cells get
the values of the event, and everything else that is stored stays as it is.
-/

namespace DexCache

namespace Applier

variable {a b : Applier} {origin : Store × InvalidationBus}

/-- What a state has made of the events that were sent so far. -/
structure Accounts (origin : Store × InvalidationBus) (sent : List StoreEvent) (a : Applier) :
    Prop where
  sent_eq : sent = a.applied.map Prod.fst ++ a.feed.waiting
  state_eq : (a.store, a.bus) = settle origin a.applied
  closed : a.phase = .draining ∨ a.phase = .stopped → a.feed.isOpen = false
  done : a.phase = .stopped → a.feed.waiting = [] ∧ a.granted = 0

theorem settle_concat (events : List (StoreEvent × Int)) (e : StoreEvent) (now : Int) :
    settle origin (events ++ [(e, now)]) = EventFeed.applyOne now (settle origin events) e :=
  List.foldl_concat ..

/-- Applying takes the event that came first and touches neither the places nor the phase. -/
theorem applyNext_eq_some {now : Int} (h : a.applyNext now = some b) :
    ∃ e rest, a.feed.waiting = e :: rest ∧ b.feed = { a.feed with waiting := rest } ∧
      b.applied = a.applied ++ [(e, now)] ∧
      (b.store, b.bus) = EventFeed.applyOne now (a.store, a.bus) e ∧
      b.phase = a.phase ∧ b.granted = a.granted := by
  unfold applyNext at h
  split at h
  · cases h
  · next e rest hwaiting =>
      obtain rfl := Option.some.inj h
      exact ⟨e, rest, hwaiting, rfl, rfl, rfl, rfl, rfl⟩

/-- The accounts stay right with every move. -/
theorem Accounts.step {sent : List StoreEvent} (ha : Accounts origin sent a) {m : Move}
    (h : a.step m = some b) : Accounts origin (sent ++ m.sent?.toList) b := by
  obtain ⟨hsent, hstate, hclosed, hdone⟩ := ha
  cases m with
  | copySender =>
      obtain ⟨-, ⟨⟩⟩ := Option.ite_none_right_eq_some.1 h
      exact ⟨by simpa [Move.sent?] using hsent, hstate, hclosed, hdone⟩
  | dropSender =>
      obtain ⟨-, ⟨⟩⟩ := Option.ite_none_right_eq_some.1 h
      exact ⟨by simpa [Move.sent?] using hsent, hstate, hclosed, hdone⟩
  | grant =>
      obtain ⟨⟨-, hopen, -⟩, ⟨⟩⟩ := Option.ite_none_right_eq_some.1 h
      refine ⟨by simpa [Move.sent?] using hsent, hstate, hclosed, fun hstopped => ?_⟩
      exact absurd hopen (by simp [hclosed (.inr hstopped)])
  | send e =>
      obtain ⟨hgranted, ⟨⟩⟩ := Option.ite_none_right_eq_some.1 h
      refine ⟨by simp [Move.sent?, hsent], hstate, hclosed, fun hstopped => ?_⟩
      -- after the end there is no place left to be filled
      have hnone := (hdone hstopped).2
      omega
  | refuse e =>
      obtain ⟨-, ⟨⟩⟩ := Option.ite_none_right_eq_some.1 h
      exact ⟨by simpa [Move.sent?] using hsent, hstate, hclosed, hdone⟩
  | set value =>
      obtain ⟨-, ⟨⟩⟩ := Option.ite_none_right_eq_some.1 h
      exact ⟨by simpa [Move.sent?] using hsent, hstate, hclosed, hdone⟩
  | abandon =>
      obtain ⟨-, ⟨⟩⟩ := Option.ite_none_right_eq_some.1 h
      exact ⟨by simpa [Move.sent?] using hsent, hstate, hclosed, hdone⟩
  | apply now =>
      obtain ⟨hphase, hnext⟩ := Option.ite_none_right_eq_some.1 h
      obtain ⟨e, rest, hwaiting, hfeed, happlied, hwritten, hsame, hgranted⟩ :=
        applyNext_eq_some hnext
      refine ⟨?_, ?_, ?_, fun hstopped => ?_⟩
      · simp [Move.sent?, hsent, hwaiting, hfeed, happlied]
      · rw [hwritten, happlied, settle_concat, hstate]
      · rw [hsame, hfeed]
        exact hclosed
      · rw [hsame] at hstopped
        simp [hstopped] at hphase
  | hangUp =>
      obtain ⟨-, ⟨⟩⟩ := Option.ite_none_right_eq_some.1 h
      exact ⟨by simpa [Move.sent?] using hsent, hstate, by simp, by simp⟩
  | look =>
      obtain ⟨⟨hlistening, -⟩, ⟨⟩⟩ := Option.ite_none_right_eq_some.1 h
      refine ⟨by simpa [Move.sent?] using hsent, hstate, ?_, ?_⟩
      · cases a.switch.value <;> simp
      · cases a.switch.value <;> simp
  | giveUp =>
      obtain ⟨-, ⟨⟩⟩ := Option.ite_none_right_eq_some.1 h
      exact ⟨by simpa [Move.sent?] using hsent, hstate, by simp, by simp⟩
  | close =>
      obtain ⟨-, ⟨⟩⟩ := Option.ite_none_right_eq_some.1 h
      exact ⟨by simpa [Move.sent?, EventFeed.close] using hsent, hstate, fun _ => rfl, by simp⟩
  | stop =>
      obtain ⟨⟨hdraining, hempty, hgranted⟩, ⟨⟩⟩ := Option.ite_none_right_eq_some.1 h
      exact ⟨by simpa [Move.sent?] using hsent, hstate, fun _ => hclosed (.inl hdraining),
        fun _ => ⟨hempty, hgranted⟩⟩

/-- The accounts stay right along a run. -/
theorem Accounts.run {sent : List StoreEvent} (ha : Accounts origin sent a) {moves : List Move}
    (h : a.run moves = some b) : Accounts origin (sent ++ Applier.sent moves) b := by
  induction moves generalizing a sent with
  | nil =>
      obtain rfl := Option.some.inj h
      simpa [Applier.sent] using ha
  | cons m moves ih =>
      obtain ⟨next, hnext, hrest⟩ := Option.bind_eq_some_iff.1 h
      have hmoved := ih (ha.step hnext) hrest
      cases hm : m.sent? with
      | none => simpa [Applier.sent, hm] using hmoved
      | some e => simpa [Applier.sent, hm] using hmoved

theorem accounts_start (capacity senders : Nat) (switch : Switch) (s : Store)
    (bus : InvalidationBus) : Accounts (s, bus) [] (start capacity senders switch s bus) :=
  ⟨rfl, rfl, by simp [start], by simp [start]⟩

/-- Publishing the keys of an event sends them if there is anyone to hear of it. -/
theorem publish_keys (bus : InvalidationBus) (e : StoreEvent) :
    (bus.publish e.keys).2 =
      { bus with sent := bus.sent ++ if bus.positions = [] then [] else [⟨e.keys⟩] } := by
  have hkeys : e.keys ≠ [] := by
    cases e <;> simp [StoreEvent.keys, StoreEvent.allKeys, FieldGroup.all]
  obtain ⟨capacity, published, positions⟩ := bus
  cases positions with
  | nil => simp [InvalidationBus.publish]
  | cons position rest => simp [InvalidationBus.publish, hkeys]

/-- Events leave in the store what they write one after the other, and on the bus the keys of
each. -/
theorem settle_eq (s : Store) (bus : InvalidationBus) (events : List (StoreEvent × Int)) :
    settle (s, bus) events = (events.foldl (fun s e => e.1.apply e.2 s) s,
      { bus with sent := bus.sent ++
        if bus.positions = [] then [] else events.map fun e => ⟨e.1.keys⟩ }) := by
  induction events generalizing s bus with
  | nil => simp [settle]
  | cons e events ih =>
      have hfirst : EventFeed.applyOne e.2 (s, bus) e.1 = (e.1.apply e.2 s,
          { bus with sent := bus.sent ++ if bus.positions = [] then [] else [⟨e.1.keys⟩] }) :=
        congrArg (Prod.mk _) (publish_keys bus e.1)
      show settle (EventFeed.applyOne e.2 (s, bus) e.1) events = _
      rw [hfirst, ih, List.foldl_cons]
      by_cases hpositions : bus.positions = []
      · simp [hpositions]
      · simp [hpositions]

/-- An applier that no granted place keeps waiting ends with what draining its feed gives. -/
theorem run_drain (now : Int) (hphase : a.phase = .draining) (hgranted : a.granted = 0) :
    ∃ b, a.run (a.feed.waiting.map (fun _ => .apply now) ++ [.stop]) = some b ∧
      b.phase = .stopped ∧ (b.feed, b.store, b.bus) = a.feed.drain now a.store a.bus := by
  obtain ⟨waiting, hwaiting⟩ : ∃ waiting, a.feed.waiting = waiting := ⟨_, rfl⟩
  induction waiting generalizing a with
  | nil =>
      refine ⟨{ a with phase := .stopped }, ?_, rfl, ?_⟩
      · simp [hwaiting, run, step, hphase, hgranted]
      · rw [EventFeed.drain, hwaiting, List.foldl_nil, ← hwaiting]
  | cons e rest ih =>
      obtain ⟨next, hnext⟩ : ∃ next, a.applyNext now = some next := by simp [applyNext, hwaiting]
      obtain ⟨e', rest', hwaiting', hfeed, -, hwritten, hsame, hplaces⟩ := applyNext_eq_some hnext
      obtain ⟨rfl, rfl⟩ := List.cons.inj (hwaiting.symm.trans hwaiting')
      obtain ⟨b, hrun, hstopped, hdrain⟩ :=
        ih (hsame.trans hphase) (hplaces.trans hgranted) (by rw [hfeed])
      refine ⟨b, ?_, hstopped, ?_⟩
      · have hstep : a.step (.apply now) = some next := by simp [step, hphase, hnext]
        rw [hfeed] at hrun
        rw [hwaiting, List.map_cons, List.cons_append, run, hstep, Option.bind_some, hrun]
      · rw [hdrain, hfeed, EventFeed.drain, EventFeed.drain, hwaiting, hwritten, List.foldl_cons]

end Applier

/-- The keys of an event are those of the cells whose time it sets, each once.  It gives its values
to these cells, and leaves the time and the value of every other stored cell. -/
structure StoreEvent.Precise (e : StoreEvent) (s : Store) : Prop where
  nodup : e.keys.Nodup
  mem_keys_iff : ∀ key, key ∈ e.keys ↔ ∃ cell, e.Sets s cell ∧ cell.key = key
  written : ∀ now cell, e.Sets s cell →
    (e.gives? cell).isSome = true ∧ (e.apply now s).value? cell = e.gives? cell
  others : ∀ now cell, ¬ e.Sets s cell →
    (e.apply now s).lastUpdate? cell = s.lastUpdate? cell ∧
      ∀ value, s.value? cell = some value → (e.apply now s).value? cell = some value

theorem StoreEvent.precise (e : StoreEvent) (s : Store) : e.Precise s where
  nodup := by
    rw [keys_eq]
    exact e.nodup_cells.map Cell.key_injective
  mem_keys_iff key := by
    simp only [keys_eq, sets_iff, List.mem_map]
  written now cell hcell := by
    rw [sets_iff, ← gives?_isSome_iff] at hcell
    obtain ⟨value, hvalue⟩ := Option.isSome_iff_exists.1 hcell
    refine ⟨hcell, ?_⟩
    rw [e.value?_apply_eq_overlay now s, overlay, hvalue, Option.some_or]
  others now cell hcell := by
    rw [sets_iff] at hcell
    exact ⟨by rw [lastUpdate?_apply, if_neg hcell], fun _ h => e.value?_apply now s hcell h⟩

/-- Whatever the order of the moves, an applier has applied the events that were sent but for those
that wait, in their order and each once: the store is what they make of it one after the other, and
the keys of each were published.  When it has stopped none waits, and it can stop as soon as it
drains the feed and no place is granted.  The keys of an event are those of the cells that it
writes, and no two cells share a key. -/
theorem Applier.faithful :
    (∀ (capacity senders : Nat) (switch : Switch) (s : Store) (bus : InvalidationBus)
        (moves : List Move) (a : Applier),
      (start capacity senders switch s bus).run moves = some a →
        a.applied.map Prod.fst ++ a.feed.waiting = sent moves ∧
        a.store = a.applied.foldl (fun s e => e.1.apply e.2 s) s ∧
        a.bus = { bus with sent := bus.sent ++
          if bus.positions = [] then [] else a.applied.map fun e => ⟨e.1.keys⟩ } ∧
        (a.phase = .stopped → a.applied.map Prod.fst = sent moves) ∧
        (a.phase = .draining → a.granted = 0 → ∀ now, ∃ final,
          a.run (a.feed.waiting.map (fun _ => .apply now) ++ [.stop]) = some final ∧
            final.phase = .stopped)) ∧
      (∀ (e : StoreEvent) (s : Store), e.Precise s) ∧
      Function.Injective Cell.key := by
  refine ⟨?_, StoreEvent.precise, Cell.key_injective⟩
  intro capacity senders switch s bus moves a hrun
  have haccounts := (accounts_start capacity senders switch s bus).run hrun
  rw [List.nil_append] at haccounts
  have hstate := haccounts.state_eq
  rw [settle_eq] at hstate
  obtain ⟨hstore, hbus⟩ := Prod.mk.inj hstate
  refine ⟨haccounts.sent_eq.symm, hstore, hbus, fun hstopped => ?_,
    fun hdraining hgranted now => ?_⟩
  · rw [haccounts.sent_eq, (haccounts.done hstopped).1, List.append_nil]
  · obtain ⟨final, hrest, hstopped, -⟩ := run_drain now hdraining hgranted
    exact ⟨final, hrest, hstopped⟩

/-- A run in which the switch is set before the feed is closed, and a sender fills its place
after. -/
def Applier.closingRace : List Applier.Move :=
  [.grant, .send (.putToken { identifier := "T-1" }), .apply 10, .grant, .set true, .look, .close,
    .send (.patchPair "a1" (.prices {})), .refuse (.putPair { address := "a1" }), .apply 20, .stop]

/-- Both events of the race are in the store, each with the time of its own move, and what was
published for them is one event each. -/
theorem Applier.faithful_closingRace :
    ∃ final : Applier,
      (start 1 2 {} (.empty {} {}) { capacity := 1, positions := [0] }).run closingRace =
          some final ∧
        final.phase = .stopped ∧
        final.applied.map Prod.fst =
          [.putToken { identifier := "T-1" }, .patchPair "a1" (.prices {})] ∧
        final.store.lastUpdate? (.token "T-1" .prices) = some 10 ∧
        final.store.lastUpdate? (.pair "a1" .prices) = some 20 ∧
        final.bus.sent = [⟨["token.T-1.metadata", "token.T-1.prices", "token.T-1.analytics"]⟩,
          ⟨["pair.a1.prices"]⟩] := by
  obtain ⟨final, hrun, hstopped, happlied⟩ : ∃ final : Applier,
      (start 1 2 {} (.empty {} {}) { capacity := 1, positions := [0] }).run closingRace =
          some final ∧
        final.phase = .stopped ∧
        final.applied = [(.putToken { identifier := "T-1" }, 10),
          (.patchPair "a1" (.prices {}), 20)] := ⟨_, rfl, rfl, rfl⟩
  obtain ⟨-, hstore, hbus, hsent, -⟩ := faithful.1 1 2 {} _ _ closingRace final hrun
  rw [happlied] at hstore hbus
  refine ⟨final, hrun, hstopped, hsent hstopped, ?_, ?_, ?_⟩
  · rw [hstore]
    rfl
  · rw [hstore]
    rfl
  · rw [hbus]
    rfl

end DexCache
