import DexCache.Proofs.Decimal.Order
import DexCache.Proofs.Listing.Answers

/-!
# Sorted lists

Sorting goes by the numbers that amounts stand for.  What has one number keeps its order in both
directions, so a list can be sorted in one way only.
-/

namespace DexCache

/-- May an item of the first number stand before one of the second? -/
def SortOrder.Le : SortOrder → ℚ → ℚ → Prop
  | .ascending, a, b => a ≤ b
  | .descending, a, b => b ≤ a

theorem SortOrder.Le.refl (order : SortOrder) (a : ℚ) : order.Le a a := by
  cases order with
  | ascending => exact le_refl a
  | descending => exact le_refl a

theorem SortOrder.Le.trans {order : SortOrder} {a b c : ℚ} (hab : order.Le a b)
    (hbc : order.Le b c) : order.Le a c := by
  cases order with
  | ascending => exact le_trans hab hbc
  | descending => exact le_trans hbc hab

theorem SortOrder.Le.total (order : SortOrder) (a b : ℚ) : order.Le a b ∨ order.Le b a := by
  cases order with
  | ascending => exact le_total a b
  | descending => exact le_total b a

theorem SortOrder.Le.antisymm {order : SortOrder} {a b : ℚ} (hab : order.Le a b)
    (hba : order.Le b a) : a = b := by
  cases order with
  | ascending => exact le_antisymm hab hba
  | descending => exact le_antisymm hba hab

namespace Sorting

variable {α : Type} (order : SortOrder) (key : α → Option Amount) (items : List α)

theorem inOrder_iff {a b : Option Amount} :
    inOrder order a b = true ↔ order.Le (Amount.rank a) (Amount.rank b) := by
  have hcmp (a b : Option Amount) :
      (Amount.cmpMissing a b != .gt) = true ↔ Amount.rank a ≤ Amount.rank b := by
    rw [Amount.cmpMissing_eq, bne_iff_ne, compare_le_iff_le]
  cases order with
  | ascending => exact hcmp a b
  | descending => exact hcmp b a

theorem inOrder_trans (a b c : α) (hab : inOrder order (key a) (key b) = true)
    (hbc : inOrder order (key b) (key c) = true) : inOrder order (key a) (key c) = true := by
  rw [inOrder_iff] at *
  exact hab.trans hbc

theorem inOrder_total (a b : α) :
    (inOrder order (key a) (key b) || inOrder order (key b) (key a)) = true := by
  rw [Bool.or_eq_true, inOrder_iff, inOrder_iff]
  exact SortOrder.Le.total order _ _

theorem pairwise_sortBy :
    (sortBy order key items).Pairwise fun a b =>
      order.Le (Amount.rank (key a)) (Amount.rank (key b)) := by
  rw [sortBy_eq_mergeSort]
  refine (List.pairwise_mergeSort (inOrder_trans order key) (inOrder_total order key) items).imp ?_
  exact fun h => (inOrder_iff order).1 h

/-- Items of one number keep their order. -/
theorem filter_sortBy (q : ℚ) :
    (sortBy order key items).filter (fun a => Amount.rank (key a) = q) =
      items.filter fun a => Amount.rank (key a) = q := by
  have hequal : (items.filter fun a => Amount.rank (key a) = q).Pairwise fun a b =>
      inOrder order (key a) (key b) = true := by
    refine List.pairwise_filter.2 (List.pairwise_of_forall fun a b ha hb => ?_)
    rw [inOrder_iff, of_decide_eq_true ha, of_decide_eq_true hb]
    exact SortOrder.Le.refl order q
  have hkept := List.sublist_mergeSort (inOrder_trans order key) (inOrder_total order key) hequal
    List.filter_sublist
  have hperm := (perm_sortBy order key items).filter fun a => Amount.rank (key a) = q
  have hsame := hkept.filter fun a => Amount.rank (key a) = q
  rw [List.filter_filter] at hsame
  simp only [Bool.and_self] at hsame
  rw [← sortBy_eq_mergeSort] at hsame
  exact (hsame.eq_of_length hperm.length_eq.symm).symm

section Unique

variable {order : SortOrder} {rank : α → ℚ} {xs ys : List α}

/-- The first item of a sorted list stands before each. -/
theorem le_of_mem_cons {a b : α} (h : (a :: xs).Pairwise fun a b => order.Le (rank a) (rank b))
    (hb : b ∈ a :: xs) : order.Le (rank a) (rank b) := by
  rcases List.mem_cons.1 hb with rfl | hb
  · exact SortOrder.Le.refl order _
  · exact (List.pairwise_cons.1 h).1 b hb

/-- The items of each number make up all items. -/
theorem mem_iff_of_classes
    (h : ∀ q : ℚ, xs.filter (fun a => rank a = q) = ys.filter fun a => rank a = q) (a : α) :
    a ∈ xs ↔ a ∈ ys := by
  have hclass : a ∈ xs.filter (fun b => rank b = rank a) ↔
      a ∈ ys.filter fun b => rank b = rank a := by rw [h]
  simpa using hclass

/-- Sorted lists are equal if they have the same items of each number, in the same order. -/
theorem eq_of_sorted (hxs : xs.Pairwise fun a b => order.Le (rank a) (rank b))
    (hys : ys.Pairwise fun a b => order.Le (rank a) (rank b))
    (h : ∀ q : ℚ, xs.filter (fun a => rank a = q) = ys.filter fun a => rank a = q) :
    xs = ys := by
  induction xs generalizing ys with
  | nil =>
      have hempty : ∀ a, a ∉ ys := fun a ha => nomatch (mem_iff_of_classes h a).2 ha
      exact (List.eq_nil_iff_forall_not_mem.2 hempty).symm
  | cons a xs ih =>
      cases ys with
      | nil => exact absurd ((mem_iff_of_classes h a).1 List.mem_cons_self) List.not_mem_nil
      | cons b ys =>
          have hab := le_of_mem_cons hxs ((mem_iff_of_classes h b).2 List.mem_cons_self)
          have hba := le_of_mem_cons hys ((mem_iff_of_classes h a).1 List.mem_cons_self)
          -- both lists begin with items of one number, so with the same item
          have hfirst := h (rank a)
          rw [List.filter_cons_of_pos (by simp),
            List.filter_cons_of_pos (by simpa using hba.antisymm hab)] at hfirst
          obtain ⟨rfl, -⟩ := List.cons.inj hfirst
          refine congrArg (a :: ·) (ih hxs.of_cons hys.of_cons fun q => ?_)
          have hq := h q
          by_cases hrank : rank a = q
          · rw [List.filter_cons_of_pos (by simpa using hrank),
              List.filter_cons_of_pos (by simpa using hrank)] at hq
            exact (List.cons.inj hq).2
          · rw [List.filter_cons_of_neg (by simpa using hrank),
              List.filter_cons_of_neg (by simpa using hrank)] at hq
            exact hq

end Unique

/-- An item that has to stand before sorted ones is put first. -/
theorem sortBy_concat {order : SortOrder} {key : α → Option Amount} {xs : List α} {a : α}
    (hxs : xs.Pairwise fun x y => inOrder order (key x) (key y) = true)
    (ha : ∀ x ∈ xs, inOrder order (key x) (key a) = false) :
    sortBy order key (xs ++ [a]) = a :: xs := by
  have hbefore : ∀ x ∈ xs, ¬ order.Le (Amount.rank (key x)) (Amount.rank (key a)) := by
    intro x hx hle
    rw [← inOrder_iff, ha x hx] at hle
    cases hle
  refine eq_of_sorted (pairwise_sortBy order key _) (List.pairwise_cons.2 ⟨?_, ?_⟩) fun q => ?_
  · exact fun x hx => (SortOrder.Le.total order _ _).resolve_right (hbefore x hx)
  · exact hxs.imp (inOrder_iff order).1
  · rw [filter_sortBy, List.filter_append, List.filter_cons]
    by_cases hq : Amount.rank (key a) = q
    · have hnone : xs.filter (fun x => Amount.rank (key x) = q) = [] := by
        refine List.filter_eq_nil_iff.2 fun x hx hrank => hbefore x hx ?_
        rw [of_decide_eq_true hrank, hq]
        exact SortOrder.Le.refl order q
      simp [hnone, hq]
    · simp [hq]

end Sorting

end DexCache
