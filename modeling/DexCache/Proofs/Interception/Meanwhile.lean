import DexCache.Interception.Stepwise
import DexCache.Proofs.Store.Cells

/-!
# What becomes of a fresh cell

While time passes and events are applied, the last write of a cell is the last one among the events,
or the one that there was before.  So a cell that was fresh, or whose entity was not stored yet, is
fresh later unless one of two things has happened: it has expired, its last write being too long ago
by then, or its entity has appeared without it, stored by events that write other groups only.
-/

namespace DexCache

theorem Collection.find?_eq_none {α G P : Type} [FieldGroup G] [Entity α G P] {c : Collection α G}
    {name : String} (h : name ∉ c.ids) : c.find? name = none :=
  List.find?_eq_none.2 fun e he hid => h (List.mem_map.2 ⟨e, he, by simpa using hid⟩)

namespace Store

/-- Is the entity of a cell stored? -/
def Holds (s : Store) : Cell → Prop
  | .pair address _ => address ∈ s.pairs.ids
  | .token identifier _ => identifier ∈ s.tokens.ids

/-- A cell without its entity was never written. -/
theorem lastUpdate?_of_not_holds {s : Store} {cell : Cell} (h : ¬ s.Holds cell) :
    s.lastUpdate? cell = none := by
  cases cell with
  | pair address g => simp [lastUpdate?, Collection.lastUpdate?, Collection.find?_eq_none h]
  | token identifier g => simp [lastUpdate?, Collection.lastUpdate?, Collection.find?_eq_none h]

end Store

theorem StoreEvent.threshold_apply (e : StoreEvent) (now : Int) (s : Store) (cell : Cell) :
    (e.apply now s).threshold cell = s.threshold cell := by
  cases e <;> cases cell <;> rfl

namespace Interception

/-- How long a move takes. -/
def Move.duration : Move → Nat
  | .pass duration => duration
  | _ => 0

/-- Does a move write a cell? -/
def Move.writes (cell : Cell) : Move → Bool
  | .event e => decide (cell ∈ e.cells)
  | _ => false

/-- How long some moves take. -/
def elapsed : List Move → Nat
  | [] => 0
  | move :: moves => move.duration + elapsed moves

/-- The time of the last of these moves that writes a cell; the first is made at a given time. -/
def written? (cell : Cell) : Int → List Move → Option Int
  | _, [] => none
  | now, move :: moves =>
    (written? cell (now + move.duration) moves).or (if move.writes cell then some now else none)

namespace View

/-- Was a cell written, and lately enough? -/
def Fresh (v : View) (cell : Cell) : Prop :=
  v.store.Fresh v.now cell

/-- After these moves, is the last write of a cell too long ago? -/
def Expires (v : View) (moves : List Move) (cell : Cell) : Prop :=
  ∃ time, (written? cell v.now moves).or (v.store.lastUpdate? cell) = some time ∧
    v.store.threshold cell < v.now + elapsed moves - time

/-- Is the entity of a cell not stored before these moves, and the cell not written by them? -/
def Appears (v : View) (moves : List Move) (cell : Cell) : Prop :=
  ¬ v.store.Holds cell ∧ written? cell v.now moves = none

theorem now_move (v : View) (move : Move) : (v.move move).now = v.now + move.duration := by
  cases move <;> simp [View.move, Move.duration]

theorem threshold_move (v : View) (move : Move) (cell : Cell) :
    (v.move move).store.threshold cell = v.store.threshold cell := by
  cases move with
  | event e => exact e.threshold_apply v.now v.store cell
  | _ => rfl

/-- A move writes a cell now or leaves its last write. -/
theorem lastUpdate?_move (v : View) (move : Move) (cell : Cell) :
    (v.move move).store.lastUpdate? cell =
      if move.writes cell then some v.now else v.store.lastUpdate? cell := by
  cases move with
  | event e => simp [View.move, e.lastUpdate?_apply, Move.writes]
  | _ => rfl

theorem now_later (v : View) (moves : List Move) : (v.later moves).now = v.now + elapsed moves := by
  induction moves generalizing v with
  | nil => simp [later, elapsed]
  | cons move moves ih =>
      refine (ih (v.move move)).trans ?_
      rw [now_move, elapsed]
      omega

theorem threshold_later (v : View) (moves : List Move) (cell : Cell) :
    (v.later moves).store.threshold cell = v.store.threshold cell := by
  induction moves generalizing v with
  | nil => rfl
  | cons move moves ih => exact (ih (v.move move)).trans (threshold_move v move cell)

/-- The last write of a cell is among the moves or was there before. -/
theorem lastUpdate?_later (v : View) (moves : List Move) (cell : Cell) :
    (v.later moves).store.lastUpdate? cell =
      (written? cell v.now moves).or (v.store.lastUpdate? cell) := by
  induction moves generalizing v with
  | nil => rfl
  | cons move moves ih =>
      refine (ih (v.move move)).trans ?_
      rw [lastUpdate?_move, now_move, written?, Option.or_assoc]
      split <;> rfl

/-- A cell that is fresh if its entity is stored is fresh later, unless it expires or appears
without being written. -/
theorem fresh_later_iff {v : View} {cell : Cell} (h : v.store.Holds cell → v.Fresh cell)
    (moves : List Move) :
    (v.later moves).Fresh cell ↔ ¬ v.Expires moves cell ∧ ¬ v.Appears moves cell := by
  rw [Fresh, Store.Fresh, lastUpdate?_later, threshold_later, now_later]
  cases hlast : (written? cell v.now moves).or (v.store.lastUpdate? cell) with
  | some time =>
      have happears : ¬ v.Appears moves cell := by
        rintro ⟨hstored, hwritten⟩
        rw [hwritten, Store.lastUpdate?_of_not_holds hstored] at hlast
        cases hlast
      simp [Expires, hlast, happears]
  | none =>
      have hnone := Option.or_eq_none_iff.1 hlast
      have hstored : ¬ v.store.Holds cell := by
        intro hholds
        obtain ⟨time, htime, -⟩ := h hholds
        rw [hnone.2] at htime
        cases htime
      simp [Expires, Appears, hstored, hnone.1]

end View

namespace Course

variable (c : Course)

/-- The moves between two accesses. -/
def between (i k : Nat) : List Move :=
  (List.range' (i + 1) (k - i)).flatMap c.gaps

theorem between_succ {i k : Nat} (h : i ≤ k) :
    c.between i (k + 1) = c.between i k ++ c.gaps (k + 1) := by
  have hlast : i + 1 + (k - i) = k + 1 := by omega
  rw [between, between, Nat.sub_add_comm h, List.range'_1_concat, List.flatMap_append, hlast,
    List.flatMap_singleton]

/-- What an access finds is what an earlier one has found after the moves between them. -/
theorem view_eq_later {i k : Nat} (h : i ≤ k) :
    c.view k = (c.view i).later (c.between i k) := by
  induction k, h using Nat.le_induction with
  | base => simp [between, View.later]
  | succ k hik ih => rw [view, ih, between_succ c hik, View.later, View.later, View.later,
      List.foldl_append]

end Course

end Interception

end DexCache
