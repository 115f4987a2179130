import DexCache.Proofs.Paging.Cursors
import DexCache.Proofs.Paging.Parts
import Mathlib.Data.List.Basic

/-!
# Windows are slices of the positions

A window between two positions holds the positions that are left of a list when those up to the
first position are dropped, then those from the second on, then all but a first number of them and
then all but a last number.  Its flags tell whether there are positions on the other sides of these
cuts.

Positions are words: a sum has to stop at the greatest one, and not every difference is a word.
Windows are worked out in words as well, and nothing is lost on the way.
-/

namespace DexCache.Paging

/-! ### Words -/

/-- The sum of two words, or the greatest word if the sum is none. -/
def cappedSum (m n : Nat) : Nat :=
  min (m + n) maxPosition

/-- The sum of two words, if it is a word. -/
def sum? (m n : Nat) : Option Nat :=
  if m + n ≤ maxPosition then some (m + n) else none

/-- The difference of two words, if it is a word. -/
def difference? (m n : Nat) : Option Nat :=
  if n ≤ m then some (m - n) else none

namespace Window

/-- The window that skips `offset` of `total` items and takes `limit`, in words. -/
def sliceInWords? (offset limit total : Nat) : Option Window := do
  let start := min offset total
  let stop := min (cappedSum start limit) total
  let length ← difference? stop start
  return ⟨start, length, decide (0 < start), decide (stop < total)⟩

/-- The window between two positions, in words. -/
def betweenInWords? (after before first last : Option Nat) (total defaultFirst : Nat) :
    Option Window := do
  let lower := (after.map (cappedSum · 1)).getD 0
  let upper := min (before.getD total) total
  let start := min lower total
  let stop := max upper start
  let first := if first.isNone && last.isNone then some defaultFirst else first
  let stop := match first with
    | some n => min stop (cappedSum start n)
    | none => stop
  let start := match last with
    | some n => max start (stop - n)
    | none => start
  let length ← difference? stop start
  return ⟨start, length, last.isSome && decide (lower < start),
    first.isSome && decide (stop < upper)⟩

/-- The first position behind a window, in words. -/
def stop? (w : Window) : Option Nat :=
  sum? w.offset w.limit

/-- A window that ends inside a list has an end in words. -/
theorem stop?_eq {w : Window} {total : Nat} (hinside : w.offset + w.limit ≤ total)
    (htotal : total ≤ maxPosition) : w.stop? = some (w.offset + w.limit) :=
  if_pos (Nat.le_trans hinside htotal)

/-- In words a slice is what it is in numbers. -/
theorem sliceInWords?_eq (offset limit : Nat) {total : Nat} (htotal : total ≤ maxPosition) :
    sliceInWords? offset limit total = some (slice offset limit total) := by
  have hstop : min (cappedSum (min offset total) limit) total =
      min (min offset total + limit) total := by
    unfold cappedSum
    omega
  have hle : min offset total ≤ min (min offset total + limit) total := by omega
  simp [sliceInWords?, slice, hstop, difference?, hle]

/-- A sum that stops at the greatest word cuts a list off where the sum itself does. -/
theorem min_cappedSum {stop total : Nat} (hstop : stop ≤ total) (htotal : total ≤ maxPosition)
    (m n : Nat) : min stop (cappedSum m n) = min stop (m + n) := by
  unfold cappedSum
  omega

/-- In words a window between two positions is what it is in numbers. -/
theorem betweenInWords?_eq (after before first last : Option Nat) {total : Nat}
    (defaultFirst : Nat) (htotal : total ≤ maxPosition) :
    betweenInWords? after before first last total defaultFirst =
      some (between after before first last total defaultFirst) := by
  have hstart : min ((after.map (cappedSum · 1)).getD 0) total =
      min ((after.map (· + 1)).getD 0) total := by
    cases after with
    | none => rfl
    | some a =>
        show min (cappedSum a 1) total = min (a + 1) total
        rw [Nat.min_comm, min_cappedSum (Nat.le_refl _) htotal, Nat.min_comm]
  have hbelow (start : Nat) (hle : start ≤ total) :
      (after.map (cappedSum · 1)).getD 0 < start ↔ (after.map (· + 1)).getD 0 < start := by
    cases after with
    | none => rfl
    | some a =>
        simp only [Option.map_some, Option.getD_some, cappedSum]
        omega
  -- the last difference is a word, whatever the window begins and ends with
  have hclose (start stop : Nat) (hle : start ≤ stop) (hstop : stop ≤ total)
      (isLast hasNext : Bool) :
      (do
        let length ← difference? stop start
        return (⟨start, length,
          isLast && decide ((after.map (cappedSum · 1)).getD 0 < start), hasNext⟩ : Window)) =
        some ⟨start, stop - start,
          isLast && decide ((after.map (· + 1)).getD 0 < start), hasNext⟩ := by
    simp [difference?, hle, hbelow start (Nat.le_trans hle hstop)]
  unfold betweenInWords? between
  simp only [hstart]
  generalize (if first.isNone && last.isNone then some defaultFirst else first) = size
  generalize hlower : min ((after.map (· + 1)).getD 0) total = start
  generalize hupper : min (before.getD total) total = upper
  have hstop : max upper start ≤ total := by omega
  cases size with
  | none =>
      cases last with
      | none => exact hclose start _ (by omega) hstop _ _
      | some n => exact hclose (max start (max upper start - n)) _ (by omega) hstop _ _
  | some m =>
      simp only [min_cappedSum hstop htotal]
      have hcut : min (max upper start) (start + m) ≤ total := by omega
      cases last with
      | none => exact hclose start _ (by omega) hcut _ _
      | some n =>
          exact hclose (max start (min (max upper start) (start + m) - n)) _ (by omega) hcut _ _

/-- The positions inside a window. -/
def positions (w : Window) : List Nat :=
  List.range' w.offset w.limit

/-- Of all positions of a list, a window that ends inside it cuts out its own. -/
theorem cut_range {w : Window} {total : Nat} (hinside : w.offset + w.limit ≤ total) :
    w.cut (List.range total) = w.positions := by
  have hlength : w.limit ≤ total - w.offset := by omega
  rw [cut, List.range_eq_range', List.drop_range', List.take_range'_of_length_ge hlength,
    Nat.zero_add, Nat.mul_one]
  rfl

end Window

/-! ### Positions -/

/-- The positions of a list that lie after one position and before another. -/
def positionsBetween (after before : Option Nat) (total : Nat) : List Nat :=
  ((List.range total).filter fun p => ∀ a ∈ after, a < p).filter fun p => ∀ b ∈ before, p < b

theorem filter_eq_take {α : Type} {p : α → Bool} {items : List α} {size : Nat}
    (hkept : ∀ a ∈ items.take size, p a = true) (hleft : ∀ a ∈ items.drop size, p a = false) :
    items.filter p = items.take size := by
  have hnone : (items.drop size).filter p = [] :=
    List.filter_eq_nil_iff.2 fun a ha => by simp [hleft a ha]
  calc items.filter p = (items.take size ++ items.drop size).filter p := by
        rw [List.take_append_drop]
    _ = items.take size := by
        rw [List.filter_append, List.filter_eq_self.2 hkept, hnone, List.append_nil]

theorem filter_eq_drop {α : Type} {p : α → Bool} {items : List α} {size : Nat}
    (hleft : ∀ a ∈ items.take size, p a = false) (hkept : ∀ a ∈ items.drop size, p a = true) :
    items.filter p = items.drop size := by
  have hnone : (items.take size).filter p = [] :=
    List.filter_eq_nil_iff.2 fun a ha => by simp [hleft a ha]
  calc items.filter p = (items.take size ++ items.drop size).filter p := by
        rw [List.take_append_drop]
    _ = items.drop size := by
        rw [List.filter_append, List.filter_eq_self.2 hkept, hnone, List.nil_append]

theorem mem_take_range_iff {total size p : Nat} :
    p ∈ (List.range total).take size ↔ p < total ∧ p < size := by
  rw [List.take_range, List.mem_range]
  omega

theorem mem_drop_range_iff {total size p : Nat} :
    p ∈ (List.range total).drop size ↔ p < total ∧ size ≤ p := by
  rw [List.range_eq_range', List.drop_range', List.mem_range'_1]
  omega

theorem forall_lt_iff (before : Option Nat) {p total : Nat} (hp : p < total) :
    (∀ b ∈ before, p < b) ↔ p < before.getD total := by
  cases before with
  | none => simpa using hp
  | some b => simp

theorem forall_gt_iff (after : Option Nat) (p : Nat) :
    (∀ a ∈ after, a < p) ↔ (after.map (· + 1)).getD 0 ≤ p := by
  cases after with
  | none => simp
  | some a =>
      simp only [Option.mem_some_iff, forall_eq', Option.map_some, Option.getD_some]
      exact Nat.lt_iff_add_one_le

/-- The positions before a position are so many from the front. -/
theorem filter_before (before : Option Nat) (total : Nat) :
    (List.range total).filter (fun p => ∀ b ∈ before, p < b) =
      (List.range total).take (before.getD total) := by
  refine filter_eq_take (fun p hp => ?_) fun p hp => ?_
  · rw [mem_take_range_iff] at hp
    exact decide_eq_true ((forall_lt_iff before hp.1).2 hp.2)
  · rw [mem_drop_range_iff] at hp
    exact decide_eq_false fun h => Nat.not_lt.2 hp.2 ((forall_lt_iff before hp.1).1 h)

/-- The positions after a position are those behind so many and one. -/
theorem filter_after (after : Option Nat) (total : Nat) :
    (List.range total).filter (fun p => ∀ a ∈ after, a < p) =
      (List.range total).drop ((after.map (· + 1)).getD 0) := by
  refine filter_eq_drop (fun p hp => ?_) fun p hp => ?_
  · rw [mem_take_range_iff] at hp
    exact decide_eq_false fun h => Nat.not_lt.2 ((forall_gt_iff after p).1 h) hp.2
  · rw [mem_drop_range_iff] at hp
    exact decide_eq_true ((forall_gt_iff after p).2 hp.2)

theorem positionsBetween_eq (after before : Option Nat) (total : Nat) :
    positionsBetween after before total =
      ((List.range total).take (before.getD total)).drop ((after.map (· + 1)).getD 0) := by
  rw [positionsBetween, List.filter_comm, filter_before, List.take_range, filter_after]

namespace Window

/-- The positions inside a window between two positions. -/
theorem positions_between (after before first last : Option Nat) (total defaultFirst : Nat) :
    (between after before first last total defaultFirst).positions =
      trailing last (leading (firstSize first last defaultFirst)
        (positionsBetween after before total)) := by
  have hcut := cut_between after before first last defaultFirst (List.range total)
  rw [List.length_range, cut_range (between_le ..)] at hcut
  rw [hcut, part, List.length_range, positionsBetween_eq]

/-- The positions inside a window from an offset and a limit. -/
theorem positions_slice (offset limit total : Nat) :
    (slice offset limit total).positions = ((List.range total).drop offset).take limit := by
  have hcut := cut_slice offset limit (List.range total)
  rwa [List.length_range, cut_range (slice_le ..)] at hcut

/-- The position behind a window. -/
def stop (w : Window) : Nat :=
  w.offset + w.limit

/-- A window that is cut to a first page size only ends where that cut is made. -/
theorem stop_between (after before : Option Nat) (size total defaultFirst : Nat) :
    (between after before (some size) none total defaultFirst).stop =
      stopOf (min ((after.map (· + 1)).getD 0) total) (min (before.getD total) total)
        (some size) := by
  obtain ⟨start, stop, rfl, rfl, hle, -, hoffset, hlimit⟩ :=
    between_eq after before (some size) none total defaultFirst
  rw [Window.stop, hoffset, hlimit]
  exact Nat.add_sub_cancel' hle

/-- There is a next page if the first page size cuts something off. -/
theorem hasNextPage_between_iff (after before first last : Option Nat)
    (total defaultFirst : Nat) :
    (between after before first last total defaultFirst).hasNextPage = true ↔
      ∃ size, firstSize first last defaultFirst = some size ∧
        ∃ p < total, (∀ b ∈ before, p < b) ∧
          (between after before (some size) none total defaultFirst).stop ≤ p := by
  rw [hasNextPage_between]
  cases firstSize first last defaultFirst with
  | none => simp
  | some size =>
      simp only [Option.elim, decide_eq_true_iff, Option.some.injEq, exists_eq_left',
        stop_between]
      constructor
      · intro hmore
        have hp : stopOf (min ((after.map (· + 1)).getD 0) total)
            (min (before.getD total) total) (some size) < total := by omega
        exact ⟨_, hp, (forall_lt_iff before hp).2 (by omega), Nat.le_refl _⟩
      · rintro ⟨p, hp, hbefore, hstop⟩
        rw [forall_lt_iff before hp] at hbefore
        omega

/-- There is a previous page if the last page size cuts something off. -/
theorem hasPreviousPage_between_iff (after before first last : Option Nat)
    (total defaultFirst : Nat) :
    (between after before first last total defaultFirst).hasPreviousPage = true ↔
      last.isSome = true ∧ ∃ p < total, (∀ a ∈ after, a < p) ∧
        p < (between after before first last total defaultFirst).offset := by
  let w := between after before first last total defaultFirst
  have hflag : w.hasPreviousPage =
      (last.isSome && decide ((after.map (· + 1)).getD 0 < w.offset)) := rfl
  have hinside : w.offset + w.limit ≤ total := between_le ..
  show w.hasPreviousPage = true ↔ _
  rw [hflag, Bool.and_eq_true, decide_eq_true_iff]
  refine and_congr_right fun _ => ⟨fun hmore => ?_, ?_⟩
  · exact ⟨_, by omega, (forall_gt_iff after _).2 (Nat.le_refl _), hmore⟩
  · rintro ⟨p, -, hafter, hp⟩
    exact Nat.lt_of_le_of_lt ((forall_gt_iff after p).1 hafter) hp

/-- The window of a paging argument holds the positions that the argument asks for: those after
the one cursor and before the other, of these the first so many and of these the last so many.
There is a next page if a position before the second cursor comes behind the first cut, and a
previous one if a position after the first cursor comes in front of the window.  No sum and no
difference that is taken on the way leaves the words. -/
theorem ofArgs_slices {args : PageArgs} {after before : Option Nat} {total : Nat}
    (hafter : args.after.mapM position = .ok after)
    (hbefore : args.before.mapM position = .ok before) (htotal : total ≤ maxPosition)
    (defaultFirst : Nat) :
    let size := firstSize args.first args.last defaultFirst
    let asked := positionsBetween after before total
    let byFirst (n : Nat) := between after before (some n) none total defaultFirst
    (∃ w, ofArgs args total defaultFirst = .ok w ∧
      betweenInWords? after before args.first args.last total defaultFirst = some w ∧
      w.stop? = some w.stop ∧ w.stop ≤ total ∧
      w.positions = trailing args.last (leading size asked) ∧
      (∀ n, size = some n → (byFirst n).positions = leading size asked ∧
        (w.hasNextPage = true ↔ ∃ p < total, (∀ b ∈ before, p < b) ∧ (byFirst n).stop ≤ p)) ∧
      (size = none → w.hasNextPage = false) ∧
      (args.last ≠ none →
        (w.hasPreviousPage = true ↔ ∃ p < total, (∀ a ∈ after, a < p) ∧ p < w.offset)) ∧
      (args.last = none → w.hasPreviousPage = false)) ∧
    ∀ offset limit, ∃ w, slice offset limit total = w ∧
      sliceInWords? offset limit total = some w ∧ w.stop? = some w.stop ∧ w.stop ≤ total ∧
      w.positions = ((List.range total).drop offset).take limit := by
  intro size asked byFirst
  let w := between after before args.first args.last total defaultFirst
  have hinside : w.stop ≤ total := between_le ..
  have hnext : w.hasNextPage = true ↔ _ := hasNextPage_between_iff ..
  have hprevious : w.hasPreviousPage = true ↔ _ := hasPreviousPage_between_iff ..
  refine ⟨⟨w, ?_, betweenInWords?_eq _ _ _ _ defaultFirst htotal, stop?_eq hinside htotal, hinside,
    positions_between .., fun n hn => ⟨?_, ?_⟩, fun hnone => ?_, fun hlast => ?_, fun hlast => ?_⟩,
    fun offset limit => ⟨_, rfl, sliceInWords?_eq offset limit htotal,
      stop?_eq (slice_le ..) htotal, slice_le .., positions_slice ..⟩⟩
  · simp [ofArgs, hafter, hbefore, bind, Except.bind, pure, Except.pure, w]
  · rw [hn]
    exact positions_between ..
  · rw [hnext]
    constructor
    · rintro ⟨m, hm, hmore⟩
      obtain rfl := Option.some.inj (hm.symm.trans hn)
      exact hmore
    · exact fun hmore => ⟨n, hn, hmore⟩
  · rw [← Bool.not_eq_true, hnext]
    rintro ⟨m, hm, -⟩
    cases hm.symm.trans hnone
  · rw [hprevious, Option.isSome_iff_ne_none]
    exact and_iff_right hlast
  · rw [← Bool.not_eq_true, hprevious, hlast]
    rintro ⟨hsome, -⟩
    cases hsome

/-- Of ten positions, three after the second and before the ninth, and of these the last two. -/
theorem ofArgs_slices_of_both_cursors :
    let args : PageArgs :=
      { first := some 3, after := some (cursor 1), last := some 2, before := some (cursor 8) }
    args.after.mapM position = .ok (some 1) ∧ args.before.mapM position = .ok (some 8) ∧
      10 ≤ maxPosition ∧ ∃ w, ofArgs args 10 25 = .ok w ∧ w.positions = [3, 4] ∧
        w.hasNextPage = true ∧ w.hasPreviousPage = true := by
  intro args
  have hafter : args.after.mapM position = .ok (some 1) := by
    show some <$> position (cursor 1) = _
    rw [position_cursor (by decide)]
    rfl
  have hbefore : args.before.mapM position = .ok (some 8) := by
    show some <$> position (cursor 8) = _
    rw [position_cursor (by decide)]
    rfl
  have htotal : 10 ≤ maxPosition := by decide
  obtain ⟨⟨w, hw, hwords, -, -, hpositions, hnext, -, hprevious, -⟩, -⟩ :=
    ofArgs_slices hafter hbefore htotal 25
  have hreckoned : betweenInWords? (some 1) (some 8) (some 3) (some 2) 10 25 =
      some ⟨3, 2, true, true⟩ := by decide
  have hoffset : w.offset = 3 :=
    congrArg Window.offset (Option.some.inj (hwords.symm.trans hreckoned))
  refine ⟨hafter, hbefore, htotal, w, hw, hpositions.trans (by decide), ?_, ?_⟩
  · exact ((hnext 3 rfl).2).2 ⟨5, by decide, by decide, by decide⟩
  · refine (hprevious (by simp [args])).2 ⟨2, by decide, by decide, ?_⟩
    rw [hoffset]
    decide

end Window

end DexCache.Paging
