import Mathlib.Data.List.Nodup

/-!
# Lists with distinct keys

Where no two entries have one key, a search by key finds the one entry that has it, from
either end.
-/

namespace DexCache.Distinct

variable {α β : Type}

/-- A search finds the only item that it can find. -/
theorem find?_of_unique {p : α → Bool} {a : α} {xs : List α} (ha : a ∈ xs) (hp : p a = true)
    (hone : ∀ b ∈ xs, p b = true → b = a) : xs.find? p = some a := by
  cases hfound : xs.find? p with
  | none => exact absurd hp (List.find?_eq_none.1 hfound a ha)
  | some b => exact congrArg some (hone b (List.mem_of_find?_eq_some hfound)
      (List.find?_some hfound))

/-- Items with one key are one item. -/
theorem eq_of_key {key : α → β} {xs : List α} (h : (xs.map key).Nodup) {a b : α} (ha : a ∈ xs)
    (hb : b ∈ xs) (heq : key a = key b) : a = b :=
  List.inj_on_of_nodup_map h ha hb heq

/-- A search by key finds the item that has the key. -/
theorem find?_key_iff [DecidableEq β] {key : α → β} {xs : List α} (h : (xs.map key).Nodup)
    {k : β} {a : α} : (xs.find? fun x => key x = k) = some a ↔ a ∈ xs ∧ key a = k := by
  constructor
  · intro hfind
    exact ⟨List.mem_of_find?_eq_some hfind, by simpa using List.find?_some hfind⟩
  · rintro ⟨hmem, rfl⟩
    refine find?_of_unique hmem (by simp) fun b hb hkey => ?_
    exact eq_of_key h hb hmem (by simpa using hkey)

/-- Erasing repetitions leaves none. -/
theorem nodup_eraseDups [DecidableEq α] (xs : List α) : xs.eraseDups.Nodup := by
  induction hn : xs.length using Nat.strongRecOn generalizing xs with
  | _ n ih =>
      subst hn
      cases xs with
      | nil => simp
      | cons x xs =>
          rw [List.eraseDups_cons, List.nodup_cons]
          constructor
          · simp [List.mem_eraseDups]
          · have hshorter := List.length_filter_le (fun y => !y == x) xs
            exact ih _ (by rw [List.length_cons]; omega) _ rfl

theorem eraseDups_eq_self [DecidableEq α] {xs : List α} (h : xs.Nodup) : xs.eraseDups = xs := by
  induction h with
  | nil => simp
  | cons hx _ ih =>
      rw [List.eraseDups_cons, List.filter_eq_self.2 fun y hy => by simpa using (hx y hy).symm, ih]

/-- What comes later in a list without repetitions is not among what comes before. -/
theorem not_mem_of_nodup {xs ys : List α} {a : α} (h : (xs ++ a :: ys).Nodup) : a ∉ xs :=
  fun ha => (List.nodup_cons.1 (List.nodup_middle.1 h)).1 (List.mem_append_left _ ha)

/-- What was taken out of a list and what is left make up the list. -/
theorem length_filter_not_mem [DecidableEq α] {xs taken : List α} (hxs : xs.Nodup)
    (h : taken.Sublist xs) : (xs.filter (· ∉ taken)).length + taken.length = xs.length := by
  have hperm : (xs.filter (· ∈ taken)).Perm taken := by
    refine (List.perm_ext_iff_of_nodup (hxs.filter _) (hxs.sublist h)).2 fun a => ?_
    rw [List.mem_filter, decide_eq_true_iff]
    exact ⟨fun ha => ha.2, fun ha => ⟨h.subset ha, ha⟩⟩
  have hsplit := xs.length_eq_length_filter_add (· ∈ taken)
  rw [hperm.length_eq] at hsplit
  simp only [decide_not] at hsplit ⊢
  omega

variable {γ : Type} {key : α → β} {key' : γ → β} {g : α → Option γ} {xs : List α}

/-- Items that are made of some items and keep their keys. -/
theorem sublist_map_filterMap (hkey : ∀ a ∈ xs, ∀ c ∈ g a, key' c = key a) :
    ((xs.filterMap g).map key').Sublist (xs.map key) := by
  induction xs with
  | nil => exact List.Sublist.refl _
  | cons a rest ih =>
      have hrest := ih fun b hb => hkey b (List.mem_cons_of_mem _ hb)
      cases hc : g a with
      | none =>
          rw [List.filterMap_cons_none hc]
          exact hrest.cons _
      | some c =>
          rw [List.filterMap_cons_some hc, List.map_cons, hkey a List.mem_cons_self c hc]
          exact hrest.cons_cons _

/-- With distinct keys the key of an item is there exactly if something is made of the item. -/
theorem mem_map_filterMap_iff (hkey : ∀ a ∈ xs, ∀ c ∈ g a, key' c = key a)
    (h : (xs.map key).Nodup) {a : α} (ha : a ∈ xs) :
    key a ∈ (xs.filterMap g).map key' ↔ (g a).isSome = true := by
  constructor
  · intro hmem
    obtain ⟨c, hc, heq⟩ := List.mem_map.1 hmem
    obtain ⟨b, hb, hbc⟩ := List.mem_filterMap.1 hc
    have hsame : b = a := eq_of_key h hb ha ((hkey b hb c hbc).symm.trans heq)
    rw [← hsame, hbc]
    rfl
  · intro hsome
    obtain ⟨c, hc⟩ := Option.isSome_iff_exists.1 hsome
    exact List.mem_map.2 ⟨c, List.mem_filterMap.2 ⟨a, ha, hc⟩, hkey a ha c hc⟩

end DexCache.Distinct
