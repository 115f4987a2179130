import DexCache.Interception.Merge
import DexCache.Json.Parser
import DexCache.Proofs.Json.Objects

/-!
# Values whose objects have distinct keys

In such a value every object is a map, at any depth.  Whatever is read from text is one, since a
repeated key is set again.  Filling up such an object, changing the value of a key and taking a
key out are said look-up by look-up.
-/

namespace DexCache.Json

mutual
/-- Do the keys of every object in the value differ? -/
def distinctKeys : Json → Bool
  | .arr items => distinctKeysItems items
  | .obj entries => decide (entries.map Prod.fst).Nodup && distinctKeysEntries entries
  | _ => true

/-- Do the keys of every object in these values differ? -/
def distinctKeysItems : List Json → Bool
  | [] => true
  | v :: rest => distinctKeys v && distinctKeysItems rest

/-- Do the keys of every object in these entries differ? -/
def distinctKeysEntries : List (String × Json) → Bool
  | [] => true
  | (_, v) :: rest => distinctKeys v && distinctKeysEntries rest
end

theorem distinctKeysItems_iff {items : List Json} :
    distinctKeysItems items = true ↔ ∀ v ∈ items, v.distinctKeys = true := by
  induction items with
  | nil => simp [distinctKeysItems]
  | cons v rest ih => simp [distinctKeysItems, ih]

theorem distinctKeysEntries_iff {entries : List (String × Json)} :
    distinctKeysEntries entries = true ↔ ∀ e ∈ entries, e.2.distinctKeys = true := by
  induction entries with
  | nil => simp [distinctKeysEntries]
  | cons e rest ih =>
      obtain ⟨k, v⟩ := e
      simp [distinctKeysEntries, ih]

theorem distinctKeys_arr_iff {items : List Json} :
    (Json.arr items).distinctKeys = true ↔ ∀ v ∈ items, v.distinctKeys = true := by
  rw [distinctKeys, distinctKeysItems_iff]

theorem distinctKeys_obj_iff {o : Object} :
    (Json.obj o).distinctKeys = true ↔
      o.keys.Nodup ∧ ∀ e ∈ o, e.2.distinctKeys = true := by
  rw [distinctKeys, Bool.and_eq_true, decide_eq_true_eq, distinctKeysEntries_iff, Object.keys]

theorem distinctKeys_of_get? {v value : Json} {key : String} (h : v.distinctKeys = true)
    (hvalue : v.get? key = some value) : value.distinctKeys = true := by
  cases v with
  | obj o => exact (distinctKeys_obj_iff.1 h).2 _ (Object.mem_of_get? hvalue)
  | _ => cases hvalue

section Operations

/-- Filling an object up from another value adds the keys it lacks. -/
theorem exists_fillFrom {o : Object} (h : o.keys.Nodup) (source : Json) :
    ∃ o' : Object, (Json.obj o).fillFrom source = .obj o' ∧ o'.keys.Nodup ∧
      ∀ key, o'.get? key = (o.get? key).or (source.get? key) := by
  cases source with
  | obj s => exact ⟨_, rfl, Object.nodup_keys_fill h s, Object.get?_fill o s⟩
  | _ => exact ⟨o, rfl, h, fun key => by simp [get?]⟩

/-- Taking out a key that is not there changes nothing. -/
theorem without_of_get? {v : Json} {key : String} (h : v.get? key = none) :
    v.without key = v := by
  cases v with
  | obj o => exact congrArg Json.obj (Object.swapErase_of_not_mem (Object.get?_eq_none_iff.1 h))
  | _ => rfl

/-- A change that keeps the value of the key changes nothing. -/
theorem modify_of_get? {o : Object} (h : o.keys.Nodup) {key : String} {f : Json → Json}
    (hkeeps : ∀ value, o.get? key = some value → f value = value) :
    (Json.obj o).modify key f = .obj o := by
  have hentry : ∀ e ∈ o, (if e.1 = key then (e.1, f e.2) else e) = e := by
    rintro ⟨k, value⟩ he
    split
    · next hk =>
        have hthere := (Object.get?_eq_some_iff h).2 he
        rw [hkeeps value (hk ▸ hthere)]
    · rfl
  exact congrArg Json.obj ((List.map_congr_left hentry).trans (List.map_id _))

/-- Changing the value of a key of an object. -/
theorem exists_modify {o : Object} (h : o.keys.Nodup) (key : String) (f : Json → Json) :
    ∃ o' : Object, (Json.obj o).modify key f = .obj o' ∧ o'.keys.Nodup ∧
      o'.get? key = (o.get? key).map f ∧ ∀ other, other ≠ key → o'.get? other = o.get? other := by
  refine ⟨_, rfl, (Object.keys_map_at o key f).symm ▸ h, ?_, fun other hother => ?_⟩
  · rw [Object.get?_map_at, if_pos rfl]
  · rw [Object.get?_map_at, if_neg hother]

/-- An object that is made by setting entries has distinct keys at any depth where these have. -/
theorem distinctKeys_ofEntries {entries : List (String × Json)}
    (h : ∀ e ∈ entries, e.2.distinctKeys = true) :
    (Json.obj (Object.ofEntries entries)).distinctKeys = true := by
  refine distinctKeys_obj_iff.2 ⟨Object.nodup_keys_foldl_insert entries List.nodup_nil, ?_⟩
  exact Object.forall_mem_foldl_insert h fun e he => absurd he List.not_mem_nil

end Operations

namespace Parser

theorem distinctKeys_of_number? {cs rest : List Char} {v : Json}
    (h : number? cs = some (v, rest)) : v.distinctKeys = true := by
  unfold number? at h
  split at h
  obtain ⟨⟨whole, behind⟩, -, h⟩ := Option.bind_eq_some_iff.1 h
  obtain ⟨⟨fraction, behind'⟩, -, h⟩ := Option.bind_eq_some_iff.1 h
  obtain ⟨⟨exponent, behind''⟩, -, h⟩ := Option.bind_eq_some_iff.1 h
  simp only at h
  -- the sign of an integer, and then the choice between an integer and a double
  split at h
  all_goals
    split at h
    · cases h
      rfl
    · obtain ⟨d, -, h⟩ := Option.bind_eq_some_iff.1 h
      cases h
      rfl

mutual
theorem distinctKeys_of_value? : ∀ {fuel : Nat} {cs rest : List Char} {v : Json},
    value? fuel cs = some (v, rest) → v.distinctKeys = true
  | 0, _, _, _, h => by cases h
  | fuel + 1, cs, rest, v, h => by
      unfold value? at h
      split at h
      · cases h
      · obtain ⟨found, -, heq⟩ := Option.map_eq_some_iff.1 h
        cases heq
        rfl
      · split at h
        · cases h
          rfl
        · obtain ⟨found, hitems, heq⟩ := Option.map_eq_some_iff.1 h
          cases heq
          exact distinctKeys_arr_iff.2 (distinctKeys_of_items? hitems)
      · split at h
        · cases h
          rfl
        · obtain ⟨found, hentries, heq⟩ := Option.map_eq_some_iff.1 h
          cases heq
          exact distinctKeys_ofEntries (distinctKeys_of_entries? hentries)
      · next c inner =>
          -- a word, or a number
          split at h
          · obtain ⟨more, -, heq⟩ := Option.map_eq_some_iff.1 h
            cases heq
            rfl
          · split at h
            · obtain ⟨more, -, heq⟩ := Option.map_eq_some_iff.1 h
              cases heq
              rfl
            · split at h
              · obtain ⟨more, -, heq⟩ := Option.map_eq_some_iff.1 h
                cases heq
                rfl
              · exact distinctKeys_of_number? h

theorem distinctKeys_of_items? : ∀ {fuel : Nat} {cs rest : List Char} {items : List Json},
    items? fuel cs = some (items, rest) → ∀ v ∈ items, v.distinctKeys = true
  | 0, _, _, _, h => by cases h
  | fuel + 1, cs, rest, items, h => by
      unfold items? at h
      obtain ⟨⟨item, behind⟩, hitem, h⟩ := Option.bind_eq_some_iff.1 h
      simp only at h
      split at h
      · cases h
        exact List.forall_mem_singleton.2 (distinctKeys_of_value? hitem)
      · obtain ⟨⟨more, behind'⟩, hmore, h⟩ := Option.bind_eq_some_iff.1 h
        cases h
        exact List.forall_mem_cons.2
          ⟨distinctKeys_of_value? hitem, distinctKeys_of_items? hmore⟩
      · cases h

theorem distinctKeys_of_entries? : ∀ {fuel : Nat} {cs rest : List Char}
    {entries : List (String × Json)}, entries? fuel cs = some (entries, rest) →
    ∀ e ∈ entries, e.2.distinctKeys = true
  | 0, _, _, _, h => by cases h
  | fuel + 1, cs, rest, entries, h => by
      unfold entries? at h
      obtain ⟨quoted, -, h⟩ := Option.bind_eq_some_iff.1 h
      obtain ⟨⟨key, behind⟩, -, h⟩ := Option.bind_eq_some_iff.1 h
      obtain ⟨behind', -, h⟩ := Option.bind_eq_some_iff.1 h
      obtain ⟨⟨value, behind''⟩, hvalue, h⟩ := Option.bind_eq_some_iff.1 h
      simp only at h
      split at h
      · cases h
        exact List.forall_mem_singleton.2 (distinctKeys_of_value? hvalue)
      · obtain ⟨⟨more, behind'''⟩, hmore, h⟩ := Option.bind_eq_some_iff.1 h
        cases h
        exact List.forall_mem_cons.2
          ⟨distinctKeys_of_value? hvalue, distinctKeys_of_entries? hmore⟩
      · cases h
end

end Parser

/-- What is read from text has distinct keys at any depth. -/
theorem distinctKeys_of_ofText? {text : String} {v : Json} (h : ofText? text = some v) :
    v.distinctKeys = true := by
  unfold ofText? at h
  obtain ⟨⟨value, rest⟩, hvalue, h⟩ := Option.bind_eq_some_iff.1 h
  simp only at h
  split at h
  · cases h
    exact Parser.distinctKeys_of_value? hvalue
  · cases h

end DexCache.Json
