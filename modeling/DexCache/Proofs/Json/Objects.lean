import DexCache.Json.Value
import DexCache.Proofs.Distinct
import Mathlib.Data.List.Perm.Basic
import Mathlib.Data.List.TakeDrop
import Mathlib.Data.List.TakeWhile

/-!
# Objects as maps

An object with distinct keys is a map, and its order of keys carries nothing else.  This
module gives the look-ups and the keys after each operation on objects, and the likeness of
values: two values are alike if they are equal when every object in them is taken as a map.
-/

namespace DexCache

namespace Json

namespace Object

theorem get?_eq_none_iff {o : Object} {key : String} : o.get? key = none ↔ key ∉ o.keys := by
  induction o with
  | nil => simp [keys]
  | cons e rest ih =>
      obtain ⟨k, v⟩ := e
      by_cases h : k = key
      · simp [get?, keys, h]
      · have h' : ¬ key = k := fun heq => h heq.symm
        simp only [get?, h, if_false, keys, List.map_cons, List.mem_cons, h', false_or]
        exact ih

theorem mem_keys_iff {o : Object} {key : String} :
    key ∈ o.keys ↔ ∃ value, o.get? key = some value := by
  rw [← Option.ne_none_iff_exists', Ne, get?_eq_none_iff, not_not]

theorem mem_of_get? {o : Object} {key : String} {value : Json} (h : o.get? key = some value) :
    (key, value) ∈ o := by
  induction o with
  | nil => cases h
  | cons e rest ih =>
      obtain ⟨k, v⟩ := e
      by_cases hk : k = key
      · simp only [get?, hk, if_true, Option.some.injEq] at h
        simp [hk, h]
      · simp only [get?, hk, if_false] at h
        exact List.mem_cons_of_mem _ (ih h)

/-- In an object with distinct keys a look-up finds every entry. -/
theorem get?_eq_some_iff {o : Object} (h : o.keys.Nodup) {key : String} {value : Json} :
    o.get? key = some value ↔ (key, value) ∈ o := by
  refine ⟨mem_of_get?, ?_⟩
  intro hmem
  induction o with
  | nil => cases hmem
  | cons e rest ih =>
      obtain ⟨k, v⟩ := e
      rw [keys, List.map_cons, List.nodup_cons] at h
      rcases List.mem_cons.1 hmem with heq | hrest
      · cases heq
        simp [get?]
      · have hne : k ≠ key := by
          intro heq
          exact h.1 (List.mem_map.2 ⟨_, hrest, heq.symm⟩)
        simp [get?, hne, ih h.2 hrest]

/-- Each key of an object that is made key by key has the value made for it. -/
theorem get?_map_keys {names : List String} (h : names.Nodup) {name : String}
    (hname : name ∈ names) (value : String → Json) :
    Object.get? (names.map fun name => (name, value name)) name = some (value name) := by
  refine (get?_eq_some_iff ?_).2 (List.mem_map.2 ⟨name, hname, rfl⟩)
  rw [keys, List.map_map]
  exact (List.map_id _).symm ▸ h

/-- The order of entries does not matter to look-ups. -/
theorem get?_of_perm {o p : Object} (h : o.Perm p) (ho : o.keys.Nodup) (key : String) :
    o.get? key = p.get? key := by
  have hp : p.keys.Nodup := (h.map Prod.fst).nodup_iff.1 ho
  refine Option.ext fun value => ?_
  rw [get?_eq_some_iff ho, get?_eq_some_iff hp, h.mem_iff]

theorem nodup_keys_insert {o : Object} (h : o.keys.Nodup) (key : String) (value : Json) :
    (o.insert key value).keys.Nodup := by
  rw [keys_insert]
  split
  · exact h
  · next hnew =>
      refine List.nodup_append.2 ⟨h, by simp, ?_⟩
      intro a ha b hb heq
      rw [List.mem_singleton] at hb
      exact hnew (hb ▸ heq ▸ ha)

theorem nodup_keys_foldl_insert (entries : List (String × Json)) {o : Object}
    (h : o.keys.Nodup) :
    (Object.keys (entries.foldl (fun o e => Object.insert o e.1 e.2) o)).Nodup := by
  induction entries generalizing o with
  | nil => exact h
  | cons e rest ih => exact ih (nodup_keys_insert h e.1 e.2)

theorem mem_insert {o : Object} {key : String} {value : Json} {e : String × Json}
    (h : e ∈ o.insert key value) : e = (key, value) ∨ e ∈ o := by
  induction o with
  | nil => exact .inl (List.mem_singleton.1 h)
  | cons d rest ih =>
      obtain ⟨k, v⟩ := d
      rw [insert] at h
      split at h
      · rcases List.mem_cons.1 h with rfl | h
        · exact .inl rfl
        · exact .inr (List.mem_cons_of_mem _ h)
      · rcases List.mem_cons.1 h with rfl | h
        · exact .inr List.mem_cons_self
        · exact (ih h).imp_right (List.mem_cons_of_mem _)

/-- Every entry after setting entries is one of them or was there. -/
theorem forall_mem_foldl_insert {p : String × Json → Prop} {entries : List (String × Json)}
    (h : ∀ e ∈ entries, p e) {o : Object} (ho : ∀ e ∈ o, p e) :
    ∀ e ∈ entries.foldl (fun o e => Object.insert o e.1 e.2) o, p e := by
  induction entries generalizing o with
  | nil => exact ho
  | cons d rest ih =>
      rw [List.forall_mem_cons] at h
      refine ih h.2 fun e he => ?_
      rcases mem_insert he with rfl | he
      · exact h.1
      · exact ho e he

theorem insert_of_not_mem {o : Object} {key : String} (h : key ∉ o.keys) (value : Json) :
    o.insert key value = o ++ [(key, value)] := by
  induction o with
  | nil => rfl
  | cons e rest ih =>
      obtain ⟨k, v⟩ := e
      simp only [keys, List.map_cons, List.mem_cons, not_or] at h
      simp [insert, Ne.symm h.1, ih h.2]

/-- Entries with distinct keys make up the object as they are. -/
theorem ofEntries_of_nodup {entries : List (String × Json)}
    (h : (entries.map Prod.fst).Nodup) : ofEntries entries = entries := by
  -- what has been added so far has to vary, since every step adds to it
  have hfold : ∀ (rest done : Object), (done ++ rest).keys.Nodup →
      rest.foldl (fun o e => o.insert e.1 e.2) done = done ++ rest := by
    intro rest
    induction rest with
    | nil => simp
    | cons e rest ih =>
        intro done hdone
        have hnew : e.1 ∉ done.keys := by
          simp only [keys, List.map_append, List.map_cons] at hdone
          intro hmem
          exact (List.nodup_append.1 hdone).2.2 _ hmem _ List.mem_cons_self rfl
        rw [List.foldl_cons, insert_of_not_mem hnew]
        have happend : done ++ [(e.1, e.2)] ++ rest = done ++ e :: rest := by simp
        rw [ih _ (happend ▸ hdone), happend]
  exact hfold entries [] h

/-- Filling keeps the entries of the target and adds those of the source. -/
theorem get?_fill (target source : Object) (key : String) :
    (fill target source).get? key = (target.get? key).or (source.get? key) := by
  induction source generalizing target with
  | nil => simp [fill]
  | cons e rest ih =>
      obtain ⟨k, v⟩ := e
      have hstep := ih (if target.contains k then target else target.insert k v)
      rw [fill, List.foldl_cons]
      refine hstep.trans ?_
      cases hthere : target.get? k with
      | some old =>
          simp only [contains, hthere, Option.isSome_some, if_true]
          by_cases hk : k = key
          · subst hk
            simp [hthere]
          · simp [get?, hk]
      | none =>
          simp only [contains, hthere, Option.isSome_none, Bool.false_eq_true, if_false]
          by_cases hk : k = key
          · subst hk
            simp [get?_insert_self, get?, hthere]
          · simp [get?_insert_of_ne _ v (Ne.symm hk), get?, hk]

theorem nodup_keys_fill {target : Object} (h : target.keys.Nodup) (source : Object) :
    (fill target source).keys.Nodup := by
  induction source generalizing target with
  | nil => exact h
  | cons e rest ih =>
      rw [fill, List.foldl_cons]
      refine ih ?_
      split
      · exact h
      · exact nodup_keys_insert h e.1 e.2

theorem exists_of_get? {o : Object} {key : String} {value : Json}
    (h : o.get? key = some value) :
    ∃ before after, o = before ++ (key, value) :: after ∧ ∀ e ∈ before, e.1 ≠ key := by
  induction o with
  | nil => cases h
  | cons e rest ih =>
      obtain ⟨k, v⟩ := e
      by_cases hk : k = key
      · subst hk
        simp only [get?, if_true, Option.some.injEq] at h
        exact ⟨[], rest, by simp [h], by simp⟩
      · simp only [get?, hk, if_false] at h
        obtain ⟨before, after, rfl, hbefore⟩ := ih h
        exact ⟨(k, v) :: before, after, rfl, by simpa [hk] using hbefore⟩

/-- The last entry takes the place of the key that is taken out; where that is the last entry
itself, nothing moves. -/
theorem swapErase_append_cons {before : Object} {key : String} (h : ∀ e ∈ before, e.1 ≠ key)
    (value : Json) (after : Object) : swapErase (before ++ (key, value) :: after) key =
      before ++ (after.getLast?.toList ++ after.dropLast) := by
  have hspan : (before ++ (key, value) :: after).span (fun e => decide (e.1 ≠ key)) =
      (before, (key, value) :: after) := by
    have hall : ∀ e ∈ before, decide (e.1 ≠ key) = true := by simpa using h
    rw [List.span_eq_takeWhile_dropWhile, List.takeWhile_append_of_pos hall,
      List.dropWhile_append_of_pos hall]
    simp
  rw [swapErase, hspan]
  rcases List.eq_nil_or_concat after with rfl | ⟨init, last, rfl⟩
  · simp
  · simp [List.concat_eq_append]

/-- Taking a key out leaves the other entries, in another order. -/
theorem perm_swapErase {o : Object} {key : String} {value : Json}
    (h : o.get? key = some value) : ((key, value) :: o.swapErase key).Perm o := by
  obtain ⟨before, after, rfl, hbefore⟩ := exists_of_get? h
  rw [swapErase_append_cons hbefore]
  refine List.Perm.trans ?_ List.perm_middle.symm
  refine List.Perm.cons _ (List.Perm.append_left before ?_)
  rcases List.eq_nil_or_concat after with rfl | ⟨init, last, rfl⟩
  · exact List.Perm.refl _
  · rw [List.concat_eq_append, List.getLast?_concat, List.dropLast_concat]
    exact (List.perm_append_singleton last init).symm

theorem length_swapErase {o : Object} {key : String} {value : Json}
    (h : o.get? key = some value) : (o.swapErase key).length + 1 = o.length :=
  (perm_swapErase h).length_eq

/-- Where each entry stands after a key was taken out: the last one in its place, all others where
they were. -/
theorem getElem?_swapErase {o : Object} (h : o.keys.Nodup) {key : String} {value : Json} {p i : Nat}
    (hp : o[p]? = some (key, value)) (hi : i + 1 < o.length) :
    (o.swapErase key)[i]? = if i = p then o[o.length - 1]? else o[i]? := by
  obtain ⟨before, after, rfl, rfl⟩ : ∃ before after, o = before ++ (key, value) :: after ∧
      before.length = p := by
    obtain ⟨hlt, heq⟩ := List.getElem?_eq_some_iff.1 hp
    refine ⟨o.take p, o.drop (p + 1), ?_, List.length_take_of_le hlt.le⟩
    rw [← heq, List.getElem_cons_drop, List.take_append_drop]
  have hbefore : ∀ e ∈ before, e.1 ≠ key := by
    rw [keys, List.map_append, List.map_cons] at h
    exact fun e he heq => Distinct.not_mem_of_nodup h (List.mem_map.2 ⟨e, he, heq⟩)
  rw [swapErase_append_cons hbefore]
  rcases List.eq_nil_or_concat after with rfl | ⟨init, last, rfl⟩
  -- the key was the last one, so `i` stands before it
  · simp only [List.length_append, List.length_singleton] at hi
    have hlt : i < before.length := by omega
    simp [List.getElem?_append_left hlt, hlt.ne]
  · simp only [List.concat_eq_append, List.getLast?_concat, List.dropLast_concat,
      List.length_append, List.length_cons, List.length_nil] at hi ⊢
    rcases Nat.lt_trichotomy i before.length with hlt | rfl | hgt
    · simp [List.getElem?_append_left hlt, hlt.ne]
    · simp
    · obtain ⟨k, rfl⟩ := Nat.exists_eq_add_of_lt hgt
      have hinit : k < init.length := by omega
      simp [List.getElem?_append_right, Nat.add_assoc, List.getElem?_append_left hinit]

theorem swapErase_of_not_mem {o : Object} {key : String} (h : key ∉ o.keys) :
    o.swapErase key = o := by
  have hall : ∀ e ∈ o, decide (e.1 ≠ key) = true := by
    intro e he
    rw [decide_eq_true_eq]
    exact fun heq => h (heq ▸ List.mem_map_of_mem he)
  rw [swapErase, List.span_eq_takeWhile_dropWhile, List.dropWhile_eq_nil_iff.2 hall]

theorem nodup_keys_swapErase {o : Object} (h : o.keys.Nodup) (key : String) :
    (o.swapErase key).keys.Nodup := by
  cases hthere : o.get? key with
  | none => rwa [swapErase_of_not_mem (get?_eq_none_iff.1 hthere)]
  | some value =>
      have hperm := ((perm_swapErase hthere).map Prod.fst).nodup_iff.2 h
      exact (List.nodup_cons.1 hperm).2

/-- After taking a key out, all other keys are still there. -/
theorem get?_swapErase {o : Object} (h : o.keys.Nodup) (key other : String) :
    (o.swapErase key).get? other = if other = key then none else o.get? other := by
  cases hthere : o.get? key with
  | none =>
      rw [swapErase_of_not_mem (get?_eq_none_iff.1 hthere)]
      split
      · next heq => rw [heq, hthere]
      · rfl
  | some value =>
      have hperm := perm_swapErase hthere
      have hkeys : (Object.keys ((key, value) :: o.swapErase key)).Nodup :=
        (hperm.map Prod.fst).nodup_iff.2 h
      rw [← get?_of_perm hperm hkeys other]
      split
      · next heq =>
          rw [heq, get?_eq_none_iff]
          exact (List.nodup_cons.1 hkeys).1
      · next hne => simp [get?, Ne.symm hne]

/-- The first of two objects has precedence. -/
theorem get?_append (o p : Object) (key : String) :
    Object.get? (o ++ p) key = (o.get? key).or (p.get? key) := by
  induction o with
  | nil => rfl
  | cons e rest ih =>
      obtain ⟨k, v⟩ := e
      by_cases hk : k = key
      · simp [get?, hk]
      · simpa [get?, hk] using ih

/-- Leaving out other keys does not change a look-up. -/
theorem get?_filter (o : Object) {p : String → Bool} {key : String} (hkey : p key = true) :
    Object.get? (o.filter fun e => p e.1) key = o.get? key := by
  induction o with
  | nil => rfl
  | cons e rest ih =>
      obtain ⟨k, v⟩ := e
      by_cases hk : k = key
      · simp [get?, hk, hkey]
      · cases hp : p k with
        | true => simp [get?, hk, hp, ih]
        | false => simp [get?, hk, hp, ih]

theorem keys_map_at (o : Object) (key : String) (f : Json → Json) :
    (Object.keys (o.map fun e => if e.1 = key then (e.1, f e.2) else e)) = o.keys := by
  rw [keys, List.map_map]
  refine List.map_congr_left fun e _ => ?_
  rw [Function.comp_apply]
  split <;> rfl

/-- Changing the value of one key changes nothing else. -/
theorem get?_map_at (o : Object) (key other : String) (f : Json → Json) :
    Object.get? (o.map fun e => if e.1 = key then (e.1, f e.2) else e) other =
      if other = key then (o.get? other).map f else o.get? other := by
  induction o with
  | nil => simp
  | cons e rest ih =>
      obtain ⟨k, v⟩ := e
      by_cases hk : k = key
      · by_cases ho : k = other
        · simp [get?, ← ho, hk]
        · have hne : ¬ other = key := fun heq => ho (hk.trans heq.symm)
          rw [List.map_cons, if_pos hk, get?, if_neg ho, ih]
          simp [get?, ho, hne]
      · by_cases ho : k = other
        · simp [get?, ← ho, hk]
        · rw [List.map_cons, if_neg hk, get?, if_neg ho, ih]
          simp [get?, ho]

/-- Two objects that answer every look-up alike have the same entries. -/
theorem perm_of_get? {o p : Object} (ho : o.keys.Nodup) (hp : p.keys.Nodup)
    (h : ∀ key, o.get? key = p.get? key) : o.Perm p := by
  have hnodup {q : Object} (hq : q.keys.Nodup) : q.Nodup :=
    List.Pairwise.of_map Prod.fst (fun _ _ hne heq => hne (congrArg Prod.fst heq)) hq
  refine (List.perm_ext_iff_of_nodup (hnodup ho) (hnodup hp)).2 ?_
  rintro ⟨key, value⟩
  rw [← get?_eq_some_iff ho, ← get?_eq_some_iff hp, h]

end Object

/-- Are two values equal when objects with distinct keys are taken as maps? -/
inductive Alike : Json → Json → Prop
  | refl (v : Json) : Alike v v
  | arr {xs ys : List Json} (items : List.Forall₂ Alike xs ys) : Alike (.arr xs) (.arr ys)
  | obj {o p : Object} (left : o.keys.Nodup) (right : p.keys.Nodup)
    (values : ∀ key, Option.Rel Alike (o.get? key) (p.get? key)) : Alike (.obj o) (.obj p)

theorem Alike.option_refl (v : Option Json) : Option.Rel Alike v v := by
  cases v with
  | none => exact .none
  | some v => exact .some (.refl v)

/-- Objects with the same entries in another order are alike. -/
theorem Alike.of_perm {o p : Object} (h : o.Perm p) (ho : o.keys.Nodup) :
    Alike (.obj o) (.obj p) := by
  refine .obj ho ((h.map Prod.fst).nodup_iff.1 ho) fun key => ?_
  rw [Object.get?_of_perm h ho]
  exact Alike.option_refl _

end Json

end DexCache
