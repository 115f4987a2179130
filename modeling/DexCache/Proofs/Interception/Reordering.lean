import DexCache.Interception.Merge
import DexCache.Proofs.Json.Objects
import Mathlib.Data.List.Induction

/-!
# What reordering does to an object

Keys that are asked for are brought to the front one after the other, and whenever a key is taken
out, the last entry of what is left moves into its place.  So nothing is lost, and the entries that
are asked for come first, in the order of their first request.  The others stand behind them by a
rule that looks at places only: an entry that nobody asks for keeps its place, and the place of the
first, second, third key that is taken out goes to the last, second last, third last entry, or, if
that one is taken out as well, to whatever comes to its place in turn.

The main statement gives this rule, and with it exactly when the others keep their order.
-/

namespace DexCache

namespace Json.Object

variable {data : Object} {order keys : List String}

/-- The entries that are asked for, in the order in which they are first asked for. -/
def asked (data : Object) (order : List String) : Object :=
  order.eraseDups.filterMap fun key => (data.get? key).map fun value => (key, value)

/-- The entries that are not asked for, in the order of the object. -/
def unasked (data : Object) (order : List String) : Object :=
  data.filter fun e => e.1 ∉ order

/-- An object after keys were taken out one after the other. -/
def eraseAll (data : Object) (keys : List String) : Object :=
  keys.foldl swapErase data

/-- Does an entry come to stand at a place when keys are taken out one after the other?  One that
stands there already stays; otherwise it comes to the place from which the hole is filled. -/
inductive ComesTo (data : Object) (keys : List String) : Nat → String × Json → Prop
  | stays {i : Nat} {e : String × Json} (there : data[i]? = some e) (left : e.1 ∉ keys) :
      ComesTo data keys i e
  | follows {i j : Nat} {hole e : String × Json} (there : data[i]? = some hole)
      (taken : keys[j]? = some hole.1) (next : ComesTo data keys (data.length - 1 - j) e) :
      ComesTo data keys i e

/-! ### What is asked for -/

theorem nodup_keys_asked (data : Object) (order : List String) :
    (data.asked order).keys.Nodup := by
  have hsub : (data.asked order).keys.Sublist (order.eraseDups.map id) :=
    Distinct.sublist_map_filterMap fun key _ e he => by
      obtain ⟨value, -, rfl⟩ := Option.map_eq_some_iff.1 he
      rfl
  rw [List.map_id] at hsub
  exact (Distinct.nodup_eraseDups order).sublist hsub

theorem mem_keys_asked_iff {key : String} :
    key ∈ (data.asked order).keys ↔ key ∈ order ∧ key ∈ data.keys := by
  constructor
  · intro hkey
    obtain ⟨e, he, rfl⟩ := List.mem_map.1 hkey
    obtain ⟨key, hasked, he⟩ := List.mem_filterMap.1 he
    obtain ⟨value, hvalue, rfl⟩ := Option.map_eq_some_iff.1 he
    exact ⟨List.mem_eraseDups.1 hasked, mem_keys_iff.2 ⟨value, hvalue⟩⟩
  · rintro ⟨hkey, hthere⟩
    obtain ⟨value, hvalue⟩ := mem_keys_iff.1 hthere
    refine List.mem_map.2 ⟨(key, value), List.mem_filterMap.2 ⟨key, ?_, ?_⟩, rfl⟩
    · exact List.mem_eraseDups.2 hkey
    · rw [hvalue, Option.map_some]

/-- One more request adds its entry, unless it is a repetition or asks for nothing that is there. -/
theorem asked_append_singleton (data : Object) (order : List String) (key : String) :
    data.asked (order ++ [key]) = data.asked order ++
      if key ∈ order then [] else ((data.get? key).map fun value => (key, value)).toList := by
  unfold asked
  rw [List.eraseDups_append, List.filterMap_append]
  by_cases h : key ∈ order
  · simp [h, List.removeAll]
  · cases hthere : data.get? key with
    | none => simp [h, List.removeAll, List.eraseDups_cons, hthere]
    | some value => simp [h, List.removeAll, List.eraseDups_cons, hthere]

/-! ### Taking keys out -/

theorem eraseAll_append_singleton (data : Object) (keys : List String) (key : String) :
    data.eraseAll (keys ++ [key]) = (data.eraseAll keys).swapErase key :=
  List.foldl_append

theorem nodup_keys_eraseAll (h : data.keys.Nodup) (keys : List String) :
    (data.eraseAll keys).keys.Nodup := by
  induction keys generalizing data with
  | nil => exact h
  | cons key rest ih => exact ih (nodup_keys_swapErase h key)

theorem get?_eraseAll (h : data.keys.Nodup) (keys : List String) (other : String) :
    (data.eraseAll keys).get? other = if other ∈ keys then none else data.get? other := by
  induction keys generalizing data with
  | nil => simp [eraseAll]
  | cons key rest ih =>
      rw [eraseAll, List.foldl_cons, ← eraseAll, ih (nodup_keys_swapErase h key), get?_swapErase h]
      by_cases hkey : other = key <;> simp [hkey]

theorem get?_unasked (data : Object) (order : List String) (key : String) :
    (data.unasked order).get? key = if key ∈ order then none else data.get? key := by
  split
  · next hkey =>
      rw [get?_eq_none_iff]
      intro hmem
      obtain ⟨e, he, rfl⟩ := List.mem_map.1 hmem
      exact of_decide_eq_true (List.mem_filter.1 he).2 hkey
  · next hkey => exact get?_filter data (p := fun key => decide (key ∉ order)) (by simpa using hkey)

/-- Taking out all that is asked for leaves what is not, in some order. -/
theorem perm_eraseAll (h : data.keys.Nodup) (order : List String) :
    (data.eraseAll (data.asked order).keys).Perm (data.unasked order) := by
  have hunasked : (data.unasked order).keys.Nodup := h.sublist (List.filter_sublist.map _)
  refine perm_of_get? (nodup_keys_eraseAll h _) hunasked fun key => ?_
  rw [get?_eraseAll h, get?_unasked]
  cases hthere : data.get? key with
  | none => simp
  | some value => simp [mem_keys_asked_iff, mem_keys_iff.2 ⟨value, hthere⟩]

/-! ### Who comes to a place -/

/-- Entries with one key stand at one place. -/
theorem place_unique (h : data.keys.Nodup) {i p : Nat} {e e' : String × Json}
    (hi : data[i]? = some e) (hp : data[p]? = some e') (heq : e.1 = e'.1) : i = p := by
  have hlt : i < data.keys.length := by
    rw [keys, List.length_map]
    exact (List.getElem?_eq_some_iff.1 hi).1
  rw [← List.getElem?_inj hlt h, keys, List.getElem?_map, List.getElem?_map, hi, hp,
    Option.map_some, Option.map_some, heq]

section Taken

variable {key : String} {value : Json} {p i : Nat} {e : String × Json}

theorem get?_of_getElem? (h : data.keys.Nodup) (hp : data[p]? = some (key, value)) :
    data.get? key = some value :=
  (get?_eq_some_iff h).2 (List.mem_of_getElem? hp)

/-- Who stood last stands in the place of the key that is taken out, all others where they were. -/
theorem getElem?_swapErase_of_ne (h : data.keys.Nodup) (hp : data[p]? = some (key, value))
    (hi : data[i]? = some e) (hne : e.1 ≠ key) :
    (data.swapErase key)[if i + 1 = data.length then p else i]? = some e := by
  have hilt := (List.getElem?_eq_some_iff.1 hi).1
  have hplt := (List.getElem?_eq_some_iff.1 hp).1
  have hplace : i ≠ p := by
    rintro rfl
    rw [hi, Option.some.injEq] at hp
    exact hne (congrArg Prod.fst hp)
  split
  · next hlast =>
      rw [getElem?_swapErase h hp (by omega), if_pos rfl, ← hlast, Nat.add_sub_cancel, hi]
  · next hlast => rw [getElem?_swapErase h hp (by omega), if_neg hplace, hi]

/-- Where an entry stood before a key was taken out. -/
theorem getElem?_of_swapErase (h : data.keys.Nodup) (hp : data[p]? = some (key, value))
    (hi : (data.swapErase key)[i]? = some e) :
    data[if i = p then data.length - 1 else i]? = some e ∧ e.1 ≠ key := by
  have hilt := (List.getElem?_eq_some_iff.1 hi).1
  have hlength := length_swapErase (get?_of_getElem? h hp)
  have hthere : data[if i = p then data.length - 1 else i]? = some e := by
    rw [← hi, getElem?_swapErase h hp (by omega), apply_ite (data[·]?)]
  refine ⟨hthere, fun heq => ?_⟩
  have hplace := place_unique h hthere hp heq
  split at hplace <;> omega

/-- The first key that is taken out does not change who comes to the other places. -/
theorem ComesTo.swapErase (h : data.keys.Nodup) (hkeys : (key :: keys).Nodup)
    (hp : data[p]? = some (key, value)) (hcomes : ComesTo data (key :: keys) i e) :
    ComesTo (data.swapErase key) keys (if i + 1 = data.length then p else i) e := by
  have hlength := length_swapErase (get?_of_getElem? h hp)
  induction hcomes with
  | stays there left =>
      rw [List.mem_cons, not_or] at left
      exact .stays (getElem?_swapErase_of_ne h hp there left.1) left.2
  | @follows i j hole e there taken next ih =>
      have hilt := (List.getElem?_eq_some_iff.1 there).1
      cases j with
      | zero =>
          -- the place of the key itself goes to the last entry
          obtain rfl : i = p := place_unique h there hp (by simpa using taken.symm)
          simpa [show data.length - 1 + 1 = data.length by omega] using ih
      | succ j =>
          have htaken : keys[j]? = some hole.1 := taken
          have hne : hole.1 ≠ key := fun heq =>
            (List.nodup_cons.1 hkeys).1 (heq ▸ List.mem_of_getElem? htaken)
          have hthere := getElem?_swapErase_of_ne h hp there hne
          have hmore : 1 < data.length := by
            have := (List.getElem?_eq_some_iff.1 hthere).1
            omega
          rw [if_neg (by omega)] at ih
          refine .follows hthere htaken ?_
          rwa [show (data.swapErase key).length - 1 - j = data.length - 1 - (j + 1) by omega]

theorem ComesTo.of_swapErase (h : data.keys.Nodup) (hp : data[p]? = some (key, value))
    (hcomes : ComesTo (data.swapErase key) keys i e) : ComesTo data (key :: keys) i e := by
  have hlength := length_swapErase (get?_of_getElem? h hp)
  -- whoever comes to the last place comes to the place of the key as well
  have honward {i : Nat} {e : String × Json}
      (hcomes : ComesTo data (key :: keys) (if i = p then data.length - 1 else i) e) :
      ComesTo data (key :: keys) i e := by
    split at hcomes
    · next hplace => exact hplace ▸ .follows (j := 0) hp rfl hcomes
    · exact hcomes
  induction hcomes with
  | stays there left =>
      obtain ⟨hthere, hne⟩ := getElem?_of_swapErase h hp there
      exact honward (.stays hthere (by simp [hne, left]))
  | @follows i j hole e there taken next ih =>
      obtain ⟨hthere, -⟩ := getElem?_of_swapErase h hp there
      have htaken : (key :: keys)[j + 1]? = some hole.1 := taken
      rw [show (data.swapErase key).length - 1 - j = data.length - 1 - (j + 1) by omega] at ih
      exact honward (.follows hthere htaken ih)

end Taken

/-- What stands at a place after keys were taken out is what comes to it. -/
theorem getElem?_eraseAll_iff (h : data.keys.Nodup) (hkeys : keys.Nodup)
    (hthere : ∀ key ∈ keys, key ∈ data.keys) {i : Nat} {e : String × Json} :
    (data.eraseAll keys)[i]? = some e ↔ i + keys.length < data.length ∧ ComesTo data keys i e := by
  induction keys generalizing data with
  | nil =>
      constructor
      · exact fun he => ⟨(List.getElem?_eq_some_iff.1 he).1, .stays he List.not_mem_nil⟩
      · rintro ⟨-, he⟩
        cases he with
        | stays there _ => exact there
        | follows _ taken _ => cases taken
  | cons key keys ih =>
      rw [List.forall_mem_cons] at hthere
      obtain ⟨value, hvalue⟩ := mem_keys_iff.1 hthere.1
      obtain ⟨p, hp⟩ := List.mem_iff_getElem?.1 (mem_of_get? hvalue)
      have hlength := length_swapErase hvalue
      have hleft : ∀ other ∈ keys, other ∈ (data.swapErase key).keys := by
        intro other hother
        have hne : other ≠ key := fun heq => (List.nodup_cons.1 hkeys).1 (heq ▸ hother)
        obtain ⟨found, hfound⟩ := mem_keys_iff.1 (hthere.2 other hother)
        exact mem_keys_iff.2 ⟨found, by rw [get?_swapErase h, if_neg hne, hfound]⟩
      rw [eraseAll, List.foldl_cons, ← eraseAll,
        ih (nodup_keys_swapErase h key) (List.nodup_cons.1 hkeys).2 hleft, List.length_cons]
      constructor
      · rintro ⟨hi, hcomes⟩
        exact ⟨by omega, hcomes.of_swapErase h hp⟩
      · rintro ⟨hi, hcomes⟩
        have hmoved := hcomes.swapErase h hkeys hp
        rw [if_neg (by omega)] at hmoved
        exact ⟨by omega, hmoved⟩

end Json.Object

namespace Interception

open Json (Object)

/-- One step of bringing keys into an order: a key that is there moves to the end of the
front. -/
def moveKey (parts : Object × Object) (key : String) : Object × Object :=
  match parts.2.get? key with
  | some value => (parts.1 ++ [(key, value)], parts.2.swapErase key)
  | none => parts

theorem reorder_eq_foldl (data : Object) (order : List String) :
    reorder data order =
      (order.foldl moveKey ([], data)).1 ++ (order.foldl moveKey ([], data)).2 := rfl

theorem perm_moveKey (parts : Object × Object) (key : String) :
    ((moveKey parts key).1 ++ (moveKey parts key).2).Perm (parts.1 ++ parts.2) := by
  unfold moveKey
  cases hthere : parts.2.get? key with
  | none => exact List.Perm.refl _
  | some value =>
      simp only [List.append_assoc, List.singleton_append]
      exact List.Perm.append_left parts.1 (Object.perm_swapErase hthere)

/-- Bringing keys into an order loses nothing and adds nothing. -/
theorem perm_reorder (data : Object) (order : List String) : (reorder data order).Perm data := by
  have hfold (parts : Object × Object) :
      ((order.foldl moveKey parts).1 ++ (order.foldl moveKey parts).2).Perm
        (parts.1 ++ parts.2) := by
    induction order generalizing parts with
    | nil => exact List.Perm.refl _
    | cons key order ih => exact (ih (moveKey parts key)).trans (perm_moveKey parts key)
  exact hfold ([], data)

variable {data : Object}

/-- Reordering takes the keys that are asked for out and puts their entries in front. -/
theorem foldl_moveKey (h : data.keys.Nodup) (order : List String) :
    order.foldl moveKey ([], data) =
      (data.asked order, data.eraseAll (data.asked order).keys) := by
  induction order using List.reverseRecOn with
  | nil => simp [Object.asked, Object.eraseAll, Object.keys]
  | append_singleton order key ih =>
      rw [List.foldl_append, ih, Object.asked_append_singleton, List.foldl_cons, List.foldl_nil,
        moveKey, Object.get?_eraseAll h]
      cases hthere : data.get? key with
      | none => simp
      | some value =>
          have hkey : key ∈ (data.asked order).keys ↔ key ∈ order := by
            rw [Object.mem_keys_asked_iff, Object.mem_keys_iff]
            exact and_iff_left ⟨value, hthere⟩
          -- a key that was asked for before is there no more
          by_cases hagain : key ∈ order
          · simp [hkey, hagain]
          · have hkeys : Object.keys (data.asked order ++ [(key, value)]) =
                (data.asked order).keys ++ [key] := List.map_append
            simp [mt hkey.1 hagain, hagain, hkeys, Object.eraseAll_append_singleton]

theorem reorder_eq_append (h : data.keys.Nodup) (order : List String) :
    reorder data order = data.asked order ++ data.eraseAll (data.asked order).keys := by
  rw [reorder_eq_foldl, foldl_moveKey h]

/-- Bringing all keys of an object into an order. -/
theorem reorder_eq {data : Object} {order : List String} (hdata : data.keys.Nodup)
    (horder : order.Nodup) (hkeys : ∀ key, key ∈ data.keys ↔ key ∈ order) :
    reorder data order = order.map fun key => (key, (data.get? key).getD .null) := by
  have hasked : data.asked order = order.map fun key => (key, (data.get? key).getD .null) := by
    rw [Object.asked, Distinct.eraseDups_eq_self horder, ← List.filterMap_eq_map]
    refine List.filterMap_congr fun key hkey => ?_
    obtain ⟨value, hvalue⟩ := Object.mem_keys_iff.1 ((hkeys key).2 hkey)
    simp [hvalue]
  -- nothing is left behind the keys
  have hleft := Object.perm_eraseAll hdata order
  have hnone : data.unasked order = [] := by
    refine List.filter_eq_nil_iff.2 fun e he => ?_
    simpa using (hkeys e.1).1 (List.mem_map_of_mem he)
  rw [hnone] at hleft
  rw [reorder_eq_append hdata, hleft.eq_nil, hasked, List.append_nil]

/-- Reordering keeps every entry and puts those that are asked for first, in the order of their
first request.  Behind them each place has the entry that comes to it, and the others keep their
order exactly if that is, for each of them, the place that it has among them. -/
theorem reorder_stable_iff (h : data.keys.Nodup) (order : List String) :
    (reorder data order).Perm data ∧
      data.asked order <+: reorder data order ∧
      (∀ i e, (reorder data order)[(data.asked order).length + i]? = some e ↔
        (data.asked order).length + i < data.length ∧
          data.ComesTo (data.asked order).keys i e) ∧
      (reorder data order = data.asked order ++ data.unasked order ↔
        ∀ i e, (data.unasked order)[i]? = some e →
          data.ComesTo (data.asked order).keys i e) := by
  have heq := reorder_eq_append h order
  have hplaces (i : Nat) (e : String × Json) :
      (data.eraseAll (data.asked order).keys)[i]? = some e ↔
        (data.asked order).length + i < data.length ∧
          data.ComesTo (data.asked order).keys i e := by
    have hthere : ∀ key ∈ (data.asked order).keys, key ∈ data.keys :=
      fun key hkey => (Object.mem_keys_asked_iff.1 hkey).2
    rw [Object.getElem?_eraseAll_iff h (Object.nodup_keys_asked data order) hthere, Object.keys,
      List.length_map, Nat.add_comm]
  refine ⟨perm_reorder data order, ?_, fun i e => ?_, ?_⟩
  · rw [heq]
    exact List.prefix_append _ _
  · rw [heq, List.getElem?_append_right (Nat.le_add_right _ _), Nat.add_sub_cancel_left]
    exact hplaces i e
  · rw [heq, List.append_cancel_left_eq]
    have hleft := (Object.perm_eraseAll h order).length_eq
    have hall := (perm_reorder data order).length_eq
    rw [heq, List.length_append] at hall
    constructor
    · intro hkept i e he
      exact ((hplaces i e).1 (hkept ▸ he)).2
    · intro hcomes
      refine List.ext_getElem? fun i => ?_
      cases he : (data.unasked order)[i]? with
      | none =>
          rw [List.getElem?_eq_none_iff] at he ⊢
          omega
      | some e =>
          have hi := (List.getElem?_eq_some_iff.1 he).1
          exact (hplaces i e).2 ⟨by omega, hcomes i e he⟩

/-- Of two keys that nobody asked for the second is moved to the place of a key in front of both, so
they change their order. -/
theorem reorder_stable_iff_of_two_unasked :
    let data : Object := [("x", .int 1), ("u", .int 2), ("v", .int 3), ("pairs", .arr [])]
    data.keys.Nodup ∧
      reorder data ["pairs", "x"] =
        [("pairs", .arr []), ("x", .int 1), ("v", .int 3), ("u", .int 2)] ∧
      data.ComesTo ["pairs", "x"] 0 ("v", .int 3) ∧
      reorder data ["pairs", "x"] ≠
        data.asked ["pairs", "x"] ++ data.unasked ["pairs", "x"] := by
  intro data
  have hkeys : data.keys.Nodup := by decide
  obtain ⟨-, -, hplaces, hkept⟩ := reorder_stable_iff hkeys ["pairs", "x"]
  refine ⟨hkeys, rfl, ((hplaces 0 ("v", .int 3)).1 rfl).2, fun heq => ?_⟩
  have hfirst := hkept.1 heq 0 ("u", .int 2) rfl
  exact absurd ((hplaces 0 ("u", .int 2)).2 ⟨by decide, hfirst⟩) (by decide)

/-- The order of the requests decides: taken out the other way round, two keys leave the others as
they were. -/
example :
    let data : Object := [("a", .null), ("b", .null), ("x", .null), ("y", .null)]
    (reorder data ["a", "b"]).keys = ["a", "b", "y", "x"] ∧
      (reorder data ["b", "a"]).keys = ["b", "a", "x", "y"] := by
  decide

end Interception

end DexCache
