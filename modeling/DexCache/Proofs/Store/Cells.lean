import DexCache.Event
import DexCache.Proofs.Store.Determined

/-!
# The cells that an event writes

A cell is one group of one entity.  A store gives each cell the time of its last write and, if the
entity is stored, a value; caches elsewhere hold what they took from a cell under its key.

An event writes some cells, all at one time, and leaves the time and the value of every other
stored cell alone.  Its keys are those of the cells that it writes.  Since neither kinds nor groups
have dots in their names, a key tells its cell, whatever the identifier is.
-/

namespace DexCache

/-- One group of one entity. -/
inductive Cell where
  | pair (address : String) (group : PairGroup)
  | token (identifier : String) (group : TokenGroup)
deriving DecidableEq, Repr

/-- The key under which caches elsewhere hold what they took from a cell. -/
def Cell.key : Cell → String
  | .pair address g => groupKey .pair address (FieldGroup.name g)
  | .token identifier g => groupKey .token identifier (FieldGroup.name g)

/-! ### A key tells its cell -/

theorem PairGroup.dot_notMem_name (g : PairGroup) : '.' ∉ (FieldGroup.name g).toList := by
  cases g <;> decide

theorem TokenGroup.dot_notMem_name (g : TokenGroup) : '.' ∉ (FieldGroup.name g).toList := by
  cases g <;> decide

theorem PairGroup.name_injective : Function.Injective (FieldGroup.name : PairGroup → String) := by
  intro g h
  cases g <;> cases h <;> decide

theorem TokenGroup.name_injective :
    Function.Injective (FieldGroup.name : TokenGroup → String) := by
  intro g h
  cases g <;> cases h <;> decide

/-- The last dot of a text tells what precedes it and what follows it. -/
theorem eq_of_append_dot_eq {before after before' after' : List Char} (hafter : '.' ∉ after)
    (hafter' : '.' ∉ after') (h : before ++ '.' :: after = before' ++ '.' :: after') :
    before = before' ∧ after = after' := by
  obtain ⟨gap, hbefore, hrest⟩ | ⟨gap, hbefore, hrest⟩ := List.append_eq_append_iff.1 h
  · cases gap with
    | nil => simpa [eq_comm] using And.intro hbefore hrest
    | cons c gap =>
        -- the dot of the other side would stand after this one
        refine absurd ?_ hafter
        simp [(List.cons.inj hrest).2]
  · cases gap with
    | nil => simpa [eq_comm] using And.intro hbefore hrest
    | cons c gap =>
        refine absurd ?_ hafter'
        simp [(List.cons.inj hrest).2]

/-- Groups without dots in their names can be told from the keys. -/
theorem groupKey_inj {kind : EntityKind} {name name' group group' : String}
    (hgroup : '.' ∉ group.toList) (hgroup' : '.' ∉ group'.toList)
    (h : groupKey kind name group = groupKey kind name' group') :
    name = name' ∧ group = group' := by
  have hchars : (kind.name.toList ++ '.' :: name.toList) ++ '.' :: group.toList =
      (kind.name.toList ++ '.' :: name'.toList) ++ '.' :: group'.toList := by
    simpa [groupKey] using congrArg String.toList h
  obtain ⟨hname, hgroups⟩ := eq_of_append_dot_eq hgroup hgroup' hchars
  exact ⟨String.toList_inj.1 (by simpa using hname), String.toList_inj.1 hgroups⟩

/-- The first characters of the kinds differ. -/
theorem groupKey_pair_ne_token (name name' group group' : String) :
    groupKey .pair name group ≠ groupKey .token name' group' := by
  intro h
  have hfirst := congrArg (fun key => key.toList.head?) h
  simp [groupKey, EntityKind.name] at hfirst

/-- No two cells share a key, whatever characters the identifiers have. -/
theorem Cell.key_injective : Function.Injective Cell.key := by
  rintro (⟨address, g⟩ | ⟨identifier, g⟩) (⟨address', g'⟩ | ⟨identifier', g'⟩) h
  · obtain ⟨rfl, hname⟩ := groupKey_inj g.dot_notMem_name g'.dot_notMem_name h
    rw [PairGroup.name_injective hname]
  · exact (groupKey_pair_ne_token _ _ _ _ h).elim
  · exact (groupKey_pair_ne_token _ _ _ _ h.symm).elim
  · obtain ⟨rfl, hname⟩ := groupKey_inj g.dot_notMem_name g'.dot_notMem_name h
    rw [TokenGroup.name_injective hname]

/-! ### What an event writes -/

namespace Store

/-- The last write of a cell. -/
def lastUpdate? (s : Store) : Cell → Option Int
  | .pair address g => s.pairs.lastUpdate? address g
  | .token identifier g => s.tokens.lastUpdate? identifier g

/-- The age up to which a cell is fresh. -/
def threshold (s : Store) : Cell → Int
  | .pair _ g => s.pairs.thresholds.of g
  | .token _ g => s.tokens.thresholds.of g

/-- Was a cell written, and no longer ago than its threshold? -/
def Fresh (s : Store) (now : Int) (cell : Cell) : Prop :=
  ∃ time, s.lastUpdate? cell = some time ∧ now - time ≤ s.threshold cell

/-- The value of a cell whose entity is stored. -/
def value? (s : Store) : Cell → Option (PairPatch ⊕ TokenPatch)
  | .pair address g => (s.pairs.get? address).map fun p => .inl (Parted.part g p)
  | .token identifier g => (s.tokens.get? identifier).map fun t => .inr (Parted.part g t)

end Store

namespace StoreEvent

/-- The cells that an event writes. -/
def cells : StoreEvent → List Cell
  | .putPair p => FieldGroup.all.map (.pair p.address)
  | .putToken t => FieldGroup.all.map (.token t.identifier)
  | .patchPair address p => [.pair address p.group]
  | .patchToken identifier p => [.token identifier p.group]

/-- Does applying an event set the time of a cell, whenever it is applied? -/
def Sets (e : StoreEvent) (s : Store) (cell : Cell) : Prop :=
  ∀ now, (e.apply now s).lastUpdate? cell = some now

theorem keys_eq (e : StoreEvent) : e.keys = e.cells.map Cell.key := by
  cases e <;> rfl

end StoreEvent

namespace Collection

variable {α G P : Type} [DecidableEq G] [FieldGroup G] [Entity α G P] {c : Collection α G}

omit [DecidableEq G] in
theorem get?_congr {c' : Collection α G} {name : String} (h : c.find? name = c'.find? name) :
    c.get? name = c'.get? name := by
  rw [get?, get?, h]

/-- A whole snapshot gives all its groups one time. -/
theorem lastUpdate?_put (c : Collection α G) (snapshot : α) (now : Int) (name : String) (g : G) :
    (c.put snapshot now).lastUpdate? name g =
      if Entity.id snapshot = name then some now else c.lastUpdate? name g := by
  by_cases h : name = Entity.id snapshot
  · subst h
    simp [lastUpdate?, find?_put_self]
  · simp [lastUpdate?, find?_put_of_ne c snapshot now h, Ne.symm h]

omit [DecidableEq G] in
theorem mem_ids_write {name other : String} {make : Option (Stored α G) → Stored α G}
    (hmake : Keeps name make) :
    other ∈ (write name make c.entries).map (fun e => Entity.id e.snapshot) ↔
      other ∈ c.ids ∨ other = name := by
  rw [ids_write hmake]
  split
  · next hthere =>
      refine ⟨.inl, ?_⟩
      rintro (h | rfl)
      · exact h
      · exact hthere
  · simp [ids]

omit [DecidableEq G] in
theorem mem_ids_put (c : Collection α G) (snapshot : α) (now : Int) {name : String} :
    name ∈ (c.put snapshot now).ids ↔ name ∈ c.ids ∨ name = Entity.id snapshot :=
  mem_ids_write (keeps_put snapshot now)

theorem mem_ids_patch (c : Collection α G) (patched : String) (value : P) (now : Int)
    {name : String} : name ∈ (c.patch patched value now).ids ↔ name ∈ c.ids ∨ name = patched :=
  mem_ids_write (keeps_patched patched value now)

/-- A patch leaves the other groups of a stored entity as they are, and all other entities. -/
theorem part_patch [Parted α G P] {patched name : String} {value : P} {g : G}
    (hg : name = patched → g ≠ Entity.groupOf α value) {V : Type} {f : P → V} {v : V}
    (h : (c.get? name).map (fun a => f (Parted.part g a)) = some v) (now : Int) :
    ((c.patch patched value now).get? name).map (fun a => f (Parted.part g a)) = some v := by
  by_cases hname : name = patched
  · subst hname
    obtain ⟨a, ha, rfl⟩ := Option.map_eq_some_iff.1 h
    obtain ⟨e, he, rfl⟩ := Option.map_eq_some_iff.1 ha
    rw [get?, find?_patch_self, he]
    exact congrArg (fun part => some (f part))
      (Parted.part_applyPatch_of_ne value e.snapshot g (hg rfl))
  · rwa [get?_congr (c.find?_patch_of_ne value now hname)]

end Collection

namespace StoreEvent

variable (e : StoreEvent) (now : Int) (s : Store)

/-- An event gives the cells that it writes its time, and leaves the times of all others. -/
theorem lastUpdate?_apply (cell : Cell) :
    (e.apply now s).lastUpdate? cell = if cell ∈ e.cells then some now else s.lastUpdate? cell := by
  cases e with
  | putPair p =>
      cases cell with
      | pair address g =>
          refine (s.pairs.lastUpdate?_put p now address g).trans ?_
          simp [cells, FieldGroup.mem_all, Entity.id, Store.lastUpdate?]
      | token identifier g => simp [cells, apply, Store.lastUpdate?]
  | putToken t =>
      cases cell with
      | pair address g => simp [cells, apply, Store.lastUpdate?]
      | token identifier g =>
          refine (s.tokens.lastUpdate?_put t now identifier g).trans ?_
          simp [cells, FieldGroup.mem_all, Entity.id, Store.lastUpdate?]
  | patchPair patched p =>
      cases cell with
      | pair address g =>
          refine (s.pairs.lastUpdate?_patch patched address p now g).trans ?_
          simp [cells, Entity.groupOf, Store.lastUpdate?, eq_comm]
      | token identifier g => simp [cells, apply, Store.lastUpdate?]
  | patchToken patched p =>
      cases cell with
      | pair address g => simp [cells, apply, Store.lastUpdate?]
      | token identifier g =>
          refine (s.tokens.lastUpdate?_patch patched identifier p now g).trans ?_
          simp [cells, Entity.groupOf, Store.lastUpdate?, eq_comm]

/-- The cells that an event writes are those whose time it sets. -/
theorem sets_iff {e : StoreEvent} {s : Store} {cell : Cell} : e.Sets s cell ↔ cell ∈ e.cells := by
  constructor
  · intro h
    by_contra hcell
    -- the time that was there before cannot be every time
    have hbefore (now : Int) : s.lastUpdate? cell = some now := by
      rw [← h now, lastUpdate?_apply, if_neg hcell]
    have hzero := (hbefore 0).symm.trans (hbefore 1)
    simp at hzero
  · intro hcell now
    rw [lastUpdate?_apply, if_pos hcell]

/-- An event leaves the value of every stored cell that it does not write. -/
theorem value?_apply {cell : Cell} (hcell : cell ∉ e.cells) {value : PairPatch ⊕ TokenPatch}
    (h : s.value? cell = some value) : (e.apply now s).value? cell = some value := by
  cases e with
  | putPair p =>
      cases cell with
      | pair address g =>
          have hne : address ≠ p.address := fun hid =>
            hcell (List.mem_map.2 ⟨g, FieldGroup.mem_all g, by rw [hid]⟩)
          have hsame := Collection.get?_congr (s.pairs.find?_put_of_ne p now hne)
          simpa [apply, Store.value?, hsame] using h
      | token identifier g => exact h
  | putToken t =>
      cases cell with
      | pair address g => exact h
      | token identifier g =>
          have hne : identifier ≠ t.identifier := fun hid =>
            hcell (List.mem_map.2 ⟨g, FieldGroup.mem_all g, by rw [hid]⟩)
          have hsame := Collection.get?_congr (s.tokens.find?_put_of_ne t now hne)
          simpa [apply, Store.value?, hsame] using h
  | patchPair patched p =>
      cases cell with
      | pair address g =>
          refine Collection.part_patch (fun hid hg => hcell ?_) h now
          simp [cells, hid, hg, Entity.groupOf]
      | token identifier g => exact h
  | patchToken patched p =>
      cases cell with
      | pair address g => exact h
      | token identifier g =>
          refine Collection.part_patch (fun hid hg => hcell ?_) h now
          simp [cells, hid, hg, Entity.groupOf]

/-- The cells of an event are without repetitions. -/
theorem nodup_cells : e.cells.Nodup := by
  cases e with
  | putPair p => exact List.Nodup.map (fun g h => by simp) (by decide)
  | putToken t => exact List.Nodup.map (fun g h => by simp) (by decide)
  | patchPair address p => exact List.nodup_singleton _
  | patchToken identifier p => exact List.nodup_singleton _

/-- An event that writes a cell of an entity stores the entity, and no event drops one. -/
theorem mem_pairs_ids_apply {address : String} :
    address ∈ (e.apply now s).pairs.ids ↔
      address ∈ s.pairs.ids ∨ ∃ g, .pair address g ∈ e.cells := by
  cases e with
  | putPair p =>
      rw [apply, s.pairs.mem_ids_put p now]
      simp [cells, FieldGroup.mem_all, Entity.id, eq_comm]
  | putToken t => simp [apply, cells]
  | patchPair patched p =>
      rw [apply, s.pairs.mem_ids_patch patched p now]
      simp [cells]
  | patchToken patched p => simp [apply, cells]

theorem mem_tokens_ids_apply {identifier : String} :
    identifier ∈ (e.apply now s).tokens.ids ↔
      identifier ∈ s.tokens.ids ∨ ∃ g, .token identifier g ∈ e.cells := by
  cases e with
  | putPair p => simp [apply, cells]
  | putToken t =>
      rw [apply, s.tokens.mem_ids_put t now]
      simp [cells, FieldGroup.mem_all, Entity.id, eq_comm]
  | patchPair patched p => simp [apply, cells]
  | patchToken patched p =>
      rw [apply, s.tokens.mem_ids_patch patched p now]
      simp [cells]

/-- Events store no identifier twice. -/
theorem nodup_ids_apply (h : s.pairs.ids.Nodup ∧ s.tokens.ids.Nodup) :
    (e.apply now s).pairs.ids.Nodup ∧ (e.apply now s).tokens.ids.Nodup := by
  cases e with
  | putPair p => exact ⟨Collection.nodup_ids_apply h.1 (.put p now), h.2⟩
  | putToken t => exact ⟨h.1, Collection.nodup_ids_apply h.2 (.put t now)⟩
  | patchPair address p => exact ⟨Collection.nodup_ids_apply h.1 (.patch address p now), h.2⟩
  | patchToken identifier p => exact ⟨h.1, Collection.nodup_ids_apply h.2 (.patch identifier p now)⟩

/-! ### Several events at one time -/

/-- The store after some events that are applied at one time. -/
def applyAll (events : List StoreEvent) (now : Int) (s : Store) : Store :=
  events.foldl (fun s e => e.apply now s) s

variable (events : List StoreEvent)

/-- Events that are applied at one time give the cells that any of them writes this time. -/
theorem lastUpdate?_applyAll (cell : Cell) :
    (applyAll events now s).lastUpdate? cell =
      if cell ∈ events.flatMap cells then some now else s.lastUpdate? cell := by
  induction events generalizing s with
  | nil => simp [applyAll]
  | cons e events ih =>
      refine (ih (e.apply now s)).trans ?_
      rw [lastUpdate?_apply]
      by_cases hrest : cell ∈ events.flatMap cells
      · simp [List.flatMap_cons, hrest]
      · simp [List.flatMap_cons, hrest]

theorem value?_applyAll {cell : Cell} (hcell : cell ∉ events.flatMap cells)
    {value : PairPatch ⊕ TokenPatch} (h : s.value? cell = some value) :
    (applyAll events now s).value? cell = some value := by
  induction events generalizing s with
  | nil => exact h
  | cons e events ih =>
      rw [List.flatMap_cons, List.mem_append, not_or] at hcell
      exact ih (e.apply now s) hcell.2 (e.value?_apply now s hcell.1 h)

theorem mem_pairs_ids_applyAll {address : String} :
    address ∈ (applyAll events now s).pairs.ids ↔
      address ∈ s.pairs.ids ∨ ∃ g, .pair address g ∈ events.flatMap cells := by
  induction events generalizing s with
  | nil => simp [applyAll]
  | cons e events ih =>
      refine (ih (e.apply now s)).trans ?_
      simp only [mem_pairs_ids_apply, List.flatMap_cons, List.mem_append, exists_or, or_assoc]

theorem mem_tokens_ids_applyAll {identifier : String} :
    identifier ∈ (applyAll events now s).tokens.ids ↔
      identifier ∈ s.tokens.ids ∨ ∃ g, .token identifier g ∈ events.flatMap cells := by
  induction events generalizing s with
  | nil => simp [applyAll]
  | cons e events ih =>
      refine (ih (e.apply now s)).trans ?_
      simp only [mem_tokens_ids_apply, List.flatMap_cons, List.mem_append, exists_or, or_assoc]

/-- What every event keeps, several keep. -/
theorem applyAll_keeps (kept : Store → Prop) (hkept : ∀ e s, kept s → kept (apply e now s))
    (h : kept s) : kept (applyAll events now s) := by
  induction events generalizing s with
  | nil => exact h
  | cons e events ih => exact ih (e.apply now s) (hkept e s h)

end StoreEvent

end DexCache
