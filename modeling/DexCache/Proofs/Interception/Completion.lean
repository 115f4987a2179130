import DexCache.Interception.Claim
import DexCache.Proofs.Interception.Reordering
import DexCache.Proofs.Outcome

/-!
# Completing a response

A plan is carried out on the data of a response: each shared field gets the value that its two
halves make up, each answered field gets its answer, and everything else stays.  If the plan
names every key once, its order is the order of the outcome.
-/

namespace DexCache

namespace Json.Object

/-- Setting entries with distinct keys one after the other. -/
theorem get?_foldl_insert {entries : List (String × Json)}
    (h : (entries.map Prod.fst).Nodup) (o : Object) (key : String) :
    Object.get? (entries.foldl (fun o e => Object.insert o e.1 e.2) o) key =
      (Object.get? entries key).or (o.get? key) := by
  induction entries generalizing o with
  | nil => rfl
  | cons e rest ih =>
      obtain ⟨k, v⟩ := e
      rw [List.map_cons, List.nodup_cons] at h
      rw [List.foldl_cons, ih h.2]
      by_cases hk : k = key
      · subst hk
        rw [get?_eq_none_iff.2 h.1, get?_insert_self]
        simp [get?]
      · simp [get?_insert_of_ne _ v (Ne.symm hk), get?, hk]

end Json.Object

namespace Interception

open Json (Object)

variable {s : Store}

/-- The value of a shared field, by what the resolver gave for it. -/
def Shared.value (s : Store) (part : Shared) : Json → Except Query.Error Json
  | .null => s.respond part.kind part.asked.name part.arguments part.asked.subfields
  | resolved => do
    let here ← s.respond part.kind part.asked.name part.arguments part.localFields
    return merge part.listing part.forced resolved here

theorem Shared.value_of_ne_null (part : Shared) {resolved : Json} (h : resolved ≠ .null) :
    part.value s resolved = do
      let here ← s.respond part.kind part.asked.name part.arguments part.localFields
      return merge part.listing part.forced resolved here := by
  cases resolved with
  | null => exact absurd rfl h
  | _ => rfl

/-- Adding a shared field sets its key. -/
theorem addShared_eq_ok_iff {data result : Object} {part : Shared} :
    addShared s data part = .ok result ↔
      ∃ value, part.value s ((data.get? part.key).getD .null) = .ok value ∧
        data.insert part.key value = result := by
  unfold addShared
  generalize (data.get? part.key).getD .null = resolved
  -- without a value from the resolver the store answers the whole field
  by_cases hnull : resolved = .null
  · subst hnull
    simp only [Shared.value, Outcome.bind_eq_ok_iff, Outcome.pure_eq_ok_iff]
  · rw [part.value_of_ne_null hnull]
    split
    · exact absurd rfl hnull
    · simp only [Outcome.bind_eq_ok_iff, Outcome.pure_eq_ok_iff]
      constructor
      · rintro ⟨here, hhere, hinsert⟩
        exact ⟨_, ⟨here, hhere, rfl⟩, hinsert⟩
      · rintro ⟨value, ⟨here, hhere, rfl⟩, hinsert⟩
        exact ⟨here, hhere, hinsert⟩

/-- Shared fields are added if each has a value, whatever the resolver gave. -/
theorem exists_foldlM_addShared {parts : List Shared}
    (h : ∀ part ∈ parts, ∀ resolved, ∃ value, part.value s resolved = .ok value) (data : Object) :
    ∃ result, parts.foldlM (addShared s) data = .ok result := by
  induction parts generalizing data with
  | nil => exact ⟨data, rfl⟩
  | cons part rest ih =>
      obtain ⟨hpart, hrest⟩ := List.forall_mem_cons.1 h
      obtain ⟨value, hvalue⟩ := hpart ((data.get? part.key).getD .null)
      obtain ⟨result, hresult⟩ := ih hrest (data.insert part.key value)
      refine ⟨result, ?_⟩
      rw [List.foldlM_cons, addShared_eq_ok_iff.2 ⟨value, hvalue, rfl⟩]
      exact hresult

/-- Adding shared fields with distinct keys sets each of them by what the resolver gave. -/
theorem foldlM_addShared_eq_ok {parts : List Shared} {data result : Object}
    (hparts : (parts.map Shared.key).Nodup) (h : parts.foldlM (addShared s) data = .ok result) :
    (∀ part ∈ parts, ∃ value, part.value s ((data.get? part.key).getD .null) = .ok value ∧
        result.get? part.key = some value) ∧
      (∀ key, key ∉ parts.map Shared.key → result.get? key = data.get? key) ∧
      (data.keys.Nodup → result.keys.Nodup) := by
  induction parts generalizing data with
  | nil =>
      cases h
      exact ⟨by simp, by simp, id⟩
  | cons part rest ih =>
      rw [List.map_cons, List.nodup_cons] at hparts
      rw [List.foldlM_cons] at h
      obtain ⟨next, hnext, h⟩ := Outcome.bind_eq_ok_iff.1 h
      obtain ⟨value, hvalue, rfl⟩ := addShared_eq_ok_iff.1 hnext
      obtain ⟨hset, hkept, hnodup⟩ := ih hparts.2 h
      refine ⟨?_, ?_, fun hdata => hnodup (Object.nodup_keys_insert hdata _ _)⟩
      · intro other hother
        rcases List.mem_cons.1 hother with rfl | hother
        · exact ⟨value, hvalue, (hkept _ hparts.1).trans (Object.get?_insert_self _ _ _)⟩
        · have hne : other.key ≠ part.key := fun heq =>
            hparts.1 (heq ▸ List.mem_map_of_mem hother)
          rw [← Object.get?_insert_of_ne data value hne]
          exact hset other hother
      · intro key hkey
        rw [List.map_cons, List.mem_cons, not_or] at hkey
        rw [hkept key hkey.2, Object.get?_insert_of_ne data value hkey.1]

/-- Carrying out a plan sets the keys of its fields and leaves all other values as they are,
whatever the data of the response. -/
theorem Plan.get?_complete {p : Plan} {data result : Object} (hdata : data.keys.Nodup)
    (hshared : (p.shared.map Shared.key).Nodup) (hanswered : (p.answered.map Prod.fst).Nodup)
    (h : p.complete s data = .ok result) :
    result.keys.Nodup ∧
      (∀ a ∈ p.answered, result.get? a.1 = some a.2) ∧
      (∀ part ∈ p.shared, part.key ∉ p.answered.map Prod.fst →
        ∃ value, part.value s ((data.get? part.key).getD .null) = .ok value ∧
          result.get? part.key = some value) ∧
      ∀ key ∉ p.answered.map Prod.fst, key ∉ p.shared.map Shared.key →
        result.get? key = data.get? key := by
  obtain ⟨added, hadded, h⟩ := Outcome.bind_eq_ok_iff.1 h
  obtain ⟨hset, hkept, hnodup⟩ := foldlM_addShared_eq_ok hshared hadded
  obtain rfl := Outcome.pure_eq_ok_iff.1 h
  -- the order does not matter to a look-up
  have hperm := perm_reorder (p.answered.foldl (fun data a => data.insert a.1 a.2) added) p.order
  have hresult : (reorder (p.answered.foldl (fun data a => data.insert a.1 a.2) added)
      p.order).keys.Nodup :=
    (hperm.map Prod.fst).nodup_iff.2 (Object.nodup_keys_foldl_insert p.answered (hnodup hdata))
  have hget (key : String) : (reorder (p.answered.foldl (fun data a => data.insert a.1 a.2) added)
      p.order).get? key = (Object.get? p.answered key).or (added.get? key) := by
    rw [Object.get?_of_perm hperm hresult, Object.get?_foldl_insert hanswered]
  refine ⟨hresult, fun a ha => ?_, fun part hpart hkey => ?_, fun key hkey hpart => ?_⟩
  · rw [hget, (Object.get?_eq_some_iff hanswered).2 ha, Option.some_or]
  · obtain ⟨value, hvalue, hthere⟩ := hset part hpart
    exact ⟨value, hvalue, by rw [hget, Object.get?_eq_none_iff.2 hkey, Option.none_or, hthere]⟩
  · rw [hget, Object.get?_eq_none_iff.2 hkey, Option.none_or, hkept key hpart]

/-- The keys after carrying out a plan: those of its fields, and those that were there. -/
theorem Plan.mem_keys_complete {p : Plan} {data result : Object} (hdata : data.keys.Nodup)
    (hshared : (p.shared.map Shared.key).Nodup) (hanswered : (p.answered.map Prod.fst).Nodup)
    (h : p.complete s data = .ok result) {key : String} :
    key ∈ result.keys ↔
      key ∈ p.answered.map Prod.fst ∨ key ∈ p.shared.map Shared.key ∨ key ∈ data.keys := by
  obtain ⟨-, hanswers, hshares, hothers⟩ := Plan.get?_complete hdata hshared hanswered h
  by_cases hanswer : key ∈ p.answered.map Prod.fst
  · obtain ⟨a, ha, rfl⟩ := List.mem_map.1 hanswer
    exact iff_of_true (Object.mem_keys_iff.2 ⟨_, hanswers a ha⟩) (.inl hanswer)
  by_cases hpart : key ∈ p.shared.map Shared.key
  · obtain ⟨part, hmem, rfl⟩ := List.mem_map.1 hpart
    obtain ⟨value, -, hvalue⟩ := hshares part hmem hanswer
    exact iff_of_true (Object.mem_keys_iff.2 ⟨_, hvalue⟩) (.inr (.inl hpart))
  · rw [Object.mem_keys_iff, hothers key hanswer hpart, ← Object.mem_keys_iff]
    simp only [hanswer, hpart, false_or]

/-- What a plan makes of the data of a response, if it names every key once. -/
theorem Plan.complete_eq_ok {p : Plan} {data result : Object} (hdata : data.keys.Nodup)
    (hshared : (p.shared.map Shared.key).Nodup) (hanswered : (p.answered.map Prod.fst).Nodup)
    (horder : p.order.Nodup)
    (hkeys : ∀ key, key ∈ p.order ↔
      key ∈ p.answered.map Prod.fst ∨ key ∈ p.shared.map Shared.key ∨ key ∈ data.keys)
    (h : p.complete s data = .ok result) :
    ∃ value : String → Json, result = p.order.map (fun key => (key, value key)) ∧
      (∀ a ∈ p.answered, value a.1 = a.2) ∧
      (∀ part ∈ p.shared, part.key ∉ p.answered.map Prod.fst →
        part.value s ((data.get? part.key).getD .null) = .ok (value part.key)) ∧
      ∀ key ∉ p.answered.map Prod.fst, key ∉ p.shared.map Shared.key →
        value key = (data.get? key).getD .null := by
  obtain ⟨hresult, hanswers, hshares, hothers⟩ := Plan.get?_complete hdata hshared hanswered h
  -- the data that are ordered have exactly the keys of the order
  have hall (key : String) : key ∈ result.keys ↔ key ∈ p.order :=
    (Plan.mem_keys_complete hdata hshared hanswered h).trans (hkeys key).symm
  obtain ⟨added, -, h⟩ := Outcome.bind_eq_ok_iff.1 h
  have hordered : reorder (p.answered.foldl (fun data a => data.insert a.1 a.2) added) p.order =
      result := Outcome.pure_eq_ok_iff.1 h
  have hperm := hordered ▸ perm_reorder _ p.order
  have hvalues := reorder_eq ((hperm.map Prod.fst).nodup_iff.1 hresult) horder
    fun key => (hperm.map Prod.fst).mem_iff.symm.trans (hall key)
  refine ⟨fun key => (result.get? key).getD .null, ?_, ?_, ?_, ?_⟩
  · refine hordered.symm.trans (hvalues.trans (List.map_congr_left fun key _ => ?_))
    simp only [Object.get?_of_perm hperm hresult]
  · intro a ha
    simp [hanswers a ha]
  · intro part hpart hkey
    obtain ⟨value, hvalue, hthere⟩ := hshares part hpart hkey
    simp [hthere, hvalue]
  · intro key hkey hpart
    simp [hothers key hkey hpart]

end Interception

end DexCache
