import DexCache.Paging.Window

/-!
# The part of a list inside a window

Windows are clamped to the list they are for.  What they cut out is still what is asked for:
the items between two positions, of these the first so many and of these the last so many.
-/

namespace DexCache.Paging

variable {α : Type}

/-- The first so many items, or all. -/
def leading (size : Option Nat) (items : List α) : List α :=
  size.elim items items.take

/-- The last so many items, or all. -/
def trailing (size : Option Nat) (items : List α) : List α :=
  size.elim items fun n => items.drop (items.length - n)

/-- The first page size, which is `defaultFirst` when there is neither a first nor a last. -/
def firstSize (first last : Option Nat) (defaultFirst : Nat) : Option Nat :=
  first.or (if last.isNone then some defaultFirst else none)

/-- The items between two positions, cut to a first and then to a last page size. -/
def part (after before first last : Option Nat) (defaultFirst : Nat) (items : List α) :
    List α :=
  trailing last (leading (firstSize first last defaultFirst)
    ((items.take (before.getD items.length)).drop ((after.map (· + 1)).getD 0)))

/-- A stretch of a list is its items from a position that lie before another. -/
theorem drop_take_clamped (lower upper : Nat) (items : List α) :
    (items.take upper).drop lower = (items.drop (min lower items.length)).take
      (max (min upper items.length) (min lower items.length) - min lower items.length) := by
  rw [List.drop_take]
  rcases Nat.le_total lower items.length with hlower | hlower
  · rw [Nat.min_eq_left hlower]
    rcases Nat.le_total upper items.length with hupper | hupper
    · congr 1
      omega
    · rw [List.take_of_length_le (by rw [List.length_drop]; omega),
        List.take_of_length_le (by rw [List.length_drop]; omega)]
  · rw [Nat.min_eq_right hlower, List.drop_of_length_le hlower, List.drop_length, List.take_nil,
      List.take_nil]

theorem trailing_take (last : Option Nat) {size : Nat} {items : List α}
    (h : size ≤ items.length) :
    trailing last (items.take size) =
      (items.drop (last.elim 0 (size - ·))).take (size - last.elim 0 (size - ·)) := by
  cases last with
  | none => rfl
  | some n =>
      show (items.take size).drop ((items.take size).length - n) = _
      rw [List.length_take_of_le h, List.drop_take]
      rfl

namespace Window

/-- Where a window that begins at `start` ends, before the last page size is applied. -/
def stopOf (start upper : Nat) (size : Option Nat) : Nat :=
  size.elim (max upper start) fun n => min (max upper start) (start + n)

theorem le_stopOf (start upper : Nat) (size : Option Nat) : start ≤ stopOf start upper size := by
  cases size with
  | none => exact Nat.le_max_right _ _
  | some n =>
      simp only [stopOf, Option.elim]
      omega

theorem stopOf_le {start upper total : Nat} (hstart : start ≤ total) (hupper : upper ≤ total)
    (size : Option Nat) : stopOf start upper size ≤ total := by
  cases size with
  | none => exact Nat.max_le.2 ⟨hupper, hstart⟩
  | some n =>
      simp only [stopOf, Option.elim]
      omega

theorem leading_take (start upper : Nat) (size : Option Nat) (items : List α) :
    leading size (items.take (max upper start - start)) =
      items.take (stopOf start upper size - start) := by
  cases size with
  | none => rfl
  | some n =>
      simp only [leading, stopOf, Option.elim, List.take_take]
      congr 1
      omega

theorem max_sub_eq (start stop n : Nat) :
    max start (stop - n) = start + (stop - start - n) := by
  omega

/-- A window between two positions begins at the first of them or so far before its end, and
no subtraction is cut off. -/
theorem between_eq (after before first last : Option Nat) (total defaultFirst : Nat) :
    ∃ start stop, start = min ((after.map (· + 1)).getD 0) total ∧
      stop = stopOf start (min (before.getD total) total) (firstSize first last defaultFirst) ∧
      start ≤ stop ∧ stop ≤ total ∧
      (between after before first last total defaultFirst).offset =
        start + last.elim 0 (stop - start - ·) ∧
      (between after before first last total defaultFirst).limit =
        stop - start - last.elim 0 (stop - start - ·) := by
  let start := min ((after.map (· + 1)).getD 0) total
  let stop := stopOf start (min (before.getD total) total) (firstSize first last defaultFirst)
  have hle : start ≤ stop := le_stopOf _ _ _
  have htotal : stop ≤ total := stopOf_le (Nat.min_le_right _ _) (Nat.min_le_right _ _) _
  refine ⟨start, stop, rfl, rfl, hle, htotal, ?_⟩
  cases last with
  | none => cases first <;> exact ⟨rfl, rfl⟩
  | some n =>
      have hoffset : (between after before first (some n) total defaultFirst).offset =
          max start (stop - n) := by cases first <;> rfl
      have hlimit : (between after before first (some n) total defaultFirst).limit =
          stop - max start (stop - n) := by cases first <;> rfl
      rw [hoffset, hlimit, max_sub_eq]
      exact ⟨rfl, Nat.sub_add_eq _ _ _⟩

/-- There is a next page if the first page size ends the window before the second position. -/
theorem hasNextPage_between (after before first last : Option Nat) (total defaultFirst : Nat) :
    (between after before first last total defaultFirst).hasNextPage =
      (firstSize first last defaultFirst).elim false fun size =>
        decide (stopOf (min ((after.map (· + 1)).getD 0) total) (min (before.getD total) total)
          (some size) < min (before.getD total) total) := by
  cases first <;> cases last <;> rfl

/-- A window from an offset and a limit lies inside its list. -/
theorem slice_le (offset limit total : Nat) :
    (slice offset limit total).offset + (slice offset limit total).limit ≤ total := by
  simp only [slice]
  omega

/-- A window between two positions lies inside its list. -/
theorem between_le (after before first last : Option Nat) (total defaultFirst : Nat) :
    (between after before first last total defaultFirst).offset +
      (between after before first last total defaultFirst).limit ≤ total := by
  obtain ⟨start, stop, -, -, hle, htotal, hoffset, hlimit⟩ :=
    between_eq after before first last total defaultFirst
  rw [hoffset, hlimit]
  cases last with
  | none => simp only [Option.elim]; omega
  | some n => simp only [Option.elim]; omega

/-- A window cuts as many items out of its list as it is long. -/
theorem length_cut {w : Window} {items : List α} (h : w.offset + w.limit ≤ items.length) :
    (w.cut items).length = w.limit := by
  rw [cut, List.length_take, List.length_drop]
  omega

/-- Clamping an offset and a limit to a list loses nothing. -/
theorem cut_slice (offset limit : Nat) (items : List α) :
    (slice offset limit items.length).cut items = (items.drop offset).take limit := by
  have hclamped := drop_take_clamped offset (offset + limit) items
  rw [List.drop_take, Nat.add_sub_cancel_left] at hclamped
  rw [hclamped]
  simp only [slice, cut]
  congr 1
  omega

/-- Clamping positions and page sizes to a list loses nothing. -/
theorem cut_between (after before first last : Option Nat) (defaultFirst : Nat)
    (items : List α) :
    (between after before first last items.length defaultFirst).cut items =
      part after before first last defaultFirst items := by
  obtain ⟨start, stop, hstart, hstop, hle, htotal, hoffset, hlimit⟩ :=
    between_eq after before first last items.length defaultFirst
  have hlength : stop - start ≤ (items.drop start).length := by
    rw [List.length_drop]
    omega
  rw [part, drop_take_clamped, ← hstart, leading_take, ← hstop, trailing_take last hlength,
    List.drop_drop, cut, hoffset, hlimit]

/-- Cutting a window out of numbered items numbers the window from where it begins. -/
theorem zipIdx_cut (w : Window) (items : List α) :
    (w.cut items).zipIdx w.offset = w.cut items.zipIdx := by
  refine List.ext_getElem? fun i => ?_
  rw [cut, cut, List.getElem?_zipIdx, List.getElem?_take, List.getElem?_take]
  split
  · rw [List.getElem?_drop, List.getElem?_drop, List.getElem?_zipIdx]
    simp
  · rfl

end Window

end DexCache.Paging
