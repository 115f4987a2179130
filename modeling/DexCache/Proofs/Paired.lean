import Mathlib.Data.List.Forall2
import Mathlib.Data.List.Perm.Subperm

/-!
# Lists item by item

Two lists of which each item of one stands beside an item of the other: as one list of pairs,
from either side, as the outcome of a function that may fail, and as results for keys.
-/

namespace DexCache.Paired

variable {α β : Type}

section Zip

variable {R : α → α → Prop} {xs ys : List α}

/-- Related lists are the two sides of one list of related pairs. -/
theorem exists_zip (h : List.Forall₂ R xs ys) :
    ∃ zs : List (α × α), zs.map Prod.fst = xs ∧ zs.map Prod.snd = ys ∧ ∀ z ∈ zs, R z.1 z.2 := by
  induction h with
  | nil => exact ⟨[], rfl, rfl, by simp⟩
  | cons hxy _ ih =>
      obtain ⟨zs, rfl, rfl, hzs⟩ := ih
      exact ⟨(_, _) :: zs, rfl, rfl, List.forall_mem_cons.2 ⟨hxy, hzs⟩⟩

theorem forall₂_of_zip {zs : List (α × α)} (h : ∀ z ∈ zs, R z.1 z.2) :
    List.Forall₂ R (zs.map Prod.fst) (zs.map Prod.snd) :=
  List.forall₂_map_left_iff.2 (List.forall₂_map_right_iff.2 (List.forall₂_same.2 h))

end Zip

variable {R : α → β → Prop} {xs : List α} {ys : List β}

/-- Beside each item on the left there is one on the right. -/
theorem exists_right (h : List.Forall₂ R xs ys) {x : α} (hx : x ∈ xs) : ∃ y ∈ ys, R x y := by
  induction h with
  | nil => cases hx
  | cons hfirst _ ih =>
      rcases List.mem_cons.1 hx with rfl | hx
      · exact ⟨_, List.mem_cons_self, hfirst⟩
      · obtain ⟨y, hy, hxy⟩ := ih hx
        exact ⟨y, List.mem_cons_of_mem _ hy, hxy⟩

/-- Beside each item on the right there is one on the left. -/
theorem exists_left (h : List.Forall₂ R xs ys) {y : β} (hy : y ∈ ys) : ∃ x ∈ xs, R x y :=
  exists_right h.flip hy

theorem exists_mem_zip (h : List.Forall₂ R xs ys) {x : α} (hx : x ∈ xs) :
    ∃ y, (x, y) ∈ xs.zip ys := by
  rw [← List.map_fst_zip (Nat.le_of_eq h.length_eq)] at hx
  obtain ⟨⟨x, y⟩, hmem, rfl⟩ := List.mem_map.1 hx
  exact ⟨y, hmem⟩

/-- If something is found for every item, it stands beside the item that it was found for. -/
theorem forall₂_of_mapM {f : α → Option β} (h : xs.mapM f = some ys) :
    List.Forall₂ (fun x y => f x = some y) xs ys := by
  induction xs generalizing ys with
  | nil =>
      cases h
      exact .nil
  | cons x xs ih =>
      simp only [List.mapM_cons, Option.bind_eq_bind, Option.bind_eq_some_iff] at h
      obtain ⟨y, hy, ys', hys, h⟩ := h
      cases h
      exact .cons hy (ih hys)

/-- If each of some keys has an entity among as many results, every result is an entity. -/
theorem all_ok_of_keys {ε κ : Type} {keys : List κ} {results : List (Except ε β)} (key : β → κ)
    (hkeys : keys.Nodup) (hlength : keys.length = results.length)
    (h : ∀ k ∈ keys, ∃ b, .ok b ∈ results ∧ key b = k) : ∀ r ∈ results, ∃ b, r = .ok b := by
  let found := results.filterMap Except.toOption
  have hsub : keys ⊆ found.map key := by
    intro k hk
    obtain ⟨b, hb, rfl⟩ := h k hk
    exact List.mem_map_of_mem (List.mem_filterMap.2 ⟨_, hb, rfl⟩)
  have hle := hkeys.length_le_of_subset hsub
  rw [List.length_map] at hle
  intro r hr
  cases r with
  | ok b => exact ⟨b, rfl⟩
  | error e =>
      -- a failure leaves fewer entities than there are keys
      have hless : found.length < results.length :=
        List.length_filterMap_lt_length_iff_exists.2 ⟨_, hr, rfl⟩
      omega

end DexCache.Paired
