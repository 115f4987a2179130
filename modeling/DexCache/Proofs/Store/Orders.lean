import DexCache.Proofs.Store.Cells
import DexCache.Sync.Applier

/-!
# Events in any order

A store shows a value for each cell whose entity is stored.  An event changes this view in a way
that depends on the view alone: the cells that it writes get its values, and the other cells of
its entity show what an empty entity has, unless they were there.  So events that write different
cells may be applied in any order and at any times, and all that they write is there in the end.
-/

namespace DexCache

/-- The entity of a cell. -/
def Cell.entity : Cell → EntityKind × String
  | .pair address _ => (.pair, address)
  | .token identifier _ => (.token, identifier)

/-- The value of a cell in an empty entity. -/
def Cell.blank : Cell → PairPatch ⊕ TokenPatch
  | .pair address g => .inl (Parted.part g (Entity.empty address : Pair))
  | .token identifier g => .inr (Parted.part g (Entity.empty identifier : Token))

namespace Collection

variable {α G P : Type} [DecidableEq G] [FieldGroup G] [Entity α G P] (c : Collection α G)

omit [DecidableEq G] in
theorem get?_put (snapshot : α) (now : Int) (name : String) :
    (c.put snapshot now).get? name =
      if Entity.id snapshot = name then some snapshot else c.get? name := by
  by_cases h : Entity.id snapshot = name
  · subst h
    simp [get?, find?_put_self]
  · rw [if_neg h, get?_congr (c.find?_put_of_ne snapshot now (Ne.symm h))]

/-- A patched entity is stored, with the patch in its group and nothing new in the others. -/
theorem map_part_get?_patch [Parted α G P] (patched : String) (value : P) (now : Int)
    (name : String) (g : G) {V : Type} (f : P → V) :
    ((c.patch patched value now).get? name).map (fun a => f (Parted.part g a)) =
      if name = patched then
        some (if g = Entity.groupOf α value then f value else f (c.part name g))
      else (c.get? name).map fun a => f (Parted.part g a) := by
  by_cases h : name = patched
  · subst h
    have hpart := c.part_apply (.patch name value now) name g
    rw [apply, part_of_find? (c.find?_patch_self name value now)] at hpart
    rw [get?, c.find?_patch_self, if_pos rfl, Option.map_some, Option.map_some, hpart]
    by_cases hg : g = Entity.groupOf α value
    · simp [Write.drops, Write.value?, hg]
    · simp [Write.drops, Write.value?, hg, Ne.symm hg]
  · rw [if_neg h, get?_congr (c.find?_patch_of_ne value now h)]

omit [DecidableEq G] in
theorem getD_map_part [Parted α G P] (name : String) (g : G) {V : Type} (f : P → V) :
    ((c.get? name).map fun a => f (Parted.part g a)).getD
      (f (Parted.part g (Entity.empty name : α))) = f (c.part name g) := by
  rw [part]
  cases c.get? name <;> rfl

end Collection

namespace StoreEvent

/-- The entity that an event writes. -/
def entity : StoreEvent → EntityKind × String
  | .putPair p => (.pair, p.address)
  | .putToken t => (.token, t.identifier)
  | .patchPair address _ => (.pair, address)
  | .patchToken identifier _ => (.token, identifier)

/-- The value that an event gives to a cell. -/
def gives? : StoreEvent → Cell → Option (PairPatch ⊕ TokenPatch)
  | .putPair p, .pair address g =>
    if p.address = address then some (.inl (Parted.part g p)) else none
  | .putToken t, .token identifier g =>
    if t.identifier = identifier then some (.inr (Parted.part g t)) else none
  | .patchPair patched p, .pair address g =>
    if address = patched ∧ g = p.group then some (.inl p) else none
  | .patchToken patched p, .token identifier g =>
    if identifier = patched ∧ g = p.group then some (.inr p) else none
  | _, _ => none

variable {e e' : StoreEvent} {cell : Cell}

/-- An event has values for the cells that it writes. -/
theorem gives?_isSome_iff : (e.gives? cell).isSome = true ↔ cell ∈ e.cells := by
  cases e <;> cases cell <;> simp [gives?, cells, FieldGroup.mem_all]

theorem gives?_eq_none (h : cell ∉ e.cells) : e.gives? cell = none := by
  rwa [← gives?_isSome_iff, Option.not_isSome_iff_eq_none] at h

/-- An event writes cells of one entity. -/
theorem entity_of_mem_cells (h : cell ∈ e.cells) : cell.entity = e.entity := by
  cases e <;> cases cell <;> simp_all [cells, Cell.entity, entity]

/-- What a view of the cells becomes with an event. -/
def overlay (e : StoreEvent) (view : Cell → Option (PairPatch ⊕ TokenPatch)) (cell : Cell) :
    Option (PairPatch ⊕ TokenPatch) :=
  (e.gives? cell).or
    (if cell.entity = e.entity then some ((view cell).getD cell.blank) else view cell)

/-- What a view of the cells becomes with an event does not depend on when it is applied. -/
theorem value?_apply_eq_overlay (e : StoreEvent) (now : Int) (s : Store) :
    (e.apply now s).value? = e.overlay s.value? := by
  funext cell
  cases e with
  | putPair p =>
      cases cell with
      | pair address g =>
          have hget := s.pairs.get?_put p now address
          by_cases h : p.address = address
          · simp [apply, Store.value?, overlay, gives?, hget, Entity.id, h]
          · simp [apply, Store.value?, overlay, gives?, hget, Entity.id, h, Cell.entity, entity,
              Ne.symm h]
      | token identifier g => rfl
  | putToken t =>
      cases cell with
      | pair address g => rfl
      | token identifier g =>
          have hget := s.tokens.get?_put t now identifier
          by_cases h : t.identifier = identifier
          · simp [apply, Store.value?, overlay, gives?, hget, Entity.id, h]
          · simp [apply, Store.value?, overlay, gives?, hget, Entity.id, h, Cell.entity, entity,
              Ne.symm h]
  | patchPair patched p =>
      cases cell with
      | pair address g =>
          refine (s.pairs.map_part_get?_patch patched p now address g _).trans ?_
          have hpart := s.pairs.getD_map_part address g (@Sum.inl PairPatch TokenPatch)
          by_cases h : address = patched
          · subst h
            by_cases hg : g = p.group
            · simp [overlay, gives?, hg, Entity.groupOf]
            · simpa [overlay, gives?, hg, Entity.groupOf, Cell.entity, entity, Store.value?,
                Cell.blank] using hpart.symm
          · simp [overlay, gives?, h, Cell.entity, entity, Store.value?]
      | token identifier g => rfl
  | patchToken patched p =>
      cases cell with
      | pair address g => rfl
      | token identifier g =>
          refine (s.tokens.map_part_get?_patch patched p now identifier g _).trans ?_
          have hpart := s.tokens.getD_map_part identifier g (@Sum.inr PairPatch TokenPatch)
          by_cases h : identifier = patched
          · subst h
            by_cases hg : g = p.group
            · simp [overlay, gives?, hg, Entity.groupOf]
            · simpa [overlay, gives?, hg, Entity.groupOf, Cell.entity, entity, Store.value?,
                Cell.blank] using hpart.symm
          · simp [overlay, gives?, h, Cell.entity, entity, Store.value?]

/-- Events that write different cells commute. -/
theorem overlay_comm (h : ∀ cell ∈ e.cells, cell ∉ e'.cells)
    (view : Cell → Option (PairPatch ⊕ TokenPatch)) :
    e.overlay (e'.overlay view) = e'.overlay (e.overlay view) := by
  funext cell
  by_cases hcell : cell ∈ e.cells
  · have hother := gives?_eq_none (h cell hcell)
    obtain ⟨value, hvalue⟩ := Option.isSome_iff_exists.1 (gives?_isSome_iff.2 hcell)
    simp [overlay, hother, hvalue]
  · have hnone := gives?_eq_none hcell
    cases hother : e'.gives? cell with
    | some value => simp [overlay, hnone, hother]
    | none =>
        simp only [overlay, hnone, hother, Option.none_or]
        split_ifs <;> rfl

/-- Do no two events of a list write one cell? -/
def Apart (events : List StoreEvent) : Prop :=
  ∀ e ∈ events, ∀ e' ∈ events, e ≠ e' → ∀ cell ∈ e.cells, cell ∉ e'.cells

theorem Apart.foldl_overlay_perm {events events' : List StoreEvent} (h : Apart events)
    (hperm : events.Perm events') (view : Cell → Option (PairPatch ⊕ TokenPatch)) :
    events.foldl (fun view e => e.overlay view) view =
      events'.foldl (fun view e => e.overlay view) view := by
  refine hperm.foldl_eq' (fun e he e' he' view => ?_) view
  by_cases heq : e = e'
  · rw [heq]
  · exact overlay_comm (h e' he' e he (Ne.symm heq)) view

end StoreEvent

namespace Applier

open StoreEvent (Apart)

variable {events : List (StoreEvent × Int)}

theorem value?_settle (state : Store × InvalidationBus) (events : List (StoreEvent × Int)) :
    (settle state events).1.value? =
      (events.map Prod.fst).foldl (fun view e => e.overlay view) state.1.value? := by
  induction events generalizing state with
  | nil => rfl
  | cons e events ih =>
      refine (ih (EventFeed.applyOne e.2 state e.1)).trans ?_
      rw [List.map_cons, List.foldl_cons, ← StoreEvent.value?_apply_eq_overlay e.1 e.2 state.1]
      rfl

/-- Events that write different cells leave the same values in every order and at all times. -/
theorem value?_settle_perm {events' : List (StoreEvent × Int)}
    (h : Apart (events.map Prod.fst)) (hperm : (events.map Prod.fst).Perm (events'.map Prod.fst))
    (state : Store × InvalidationBus) :
    (settle state events).1.value? = (settle state events').1.value? := by
  rw [value?_settle, value?_settle]
  exact h.foldl_overlay_perm hperm state.1.value?

/-- What events write that write different cells is there in the end. -/
theorem value?_settle_of_mem (h : Apart (events.map Prod.fst)) {e : StoreEvent}
    (he : e ∈ events.map Prod.fst) {cell : Cell} (hcell : cell ∈ e.cells)
    (state : Store × InvalidationBus) : (settle state events).1.value? cell = e.gives? cell := by
  obtain ⟨before, after, hsplit⟩ := List.mem_iff_append.1 he
  -- in the order in which the event comes last its value is the one that is seen
  have hlast : (events.map Prod.fst).Perm ((before ++ after) ++ [e]) := by
    rw [hsplit]
    exact List.perm_middle.trans (List.perm_append_singleton _ _).symm
  obtain ⟨value, hvalue⟩ := Option.isSome_iff_exists.1 (StoreEvent.gives?_isSome_iff.2 hcell)
  rw [value?_settle, h.foldl_overlay_perm hlast, List.foldl_append]
  simp [StoreEvent.overlay, hvalue]

end Applier

end DexCache
