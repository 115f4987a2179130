import DexCache.Proofs.Interception.Places
import DexCache.Proofs.Store.Watched
import DexCache.Pipeline.Script

/-!
# Fields that the store never holds

A selection of such a field belongs to the resolver: it must be part of what is sent, and it
must not be part of what the store evaluates.  A list always keeps to that.  A connection
keeps to it exactly if only the first place where it selects entities names such a field:
claiming looks at no other place, what is sent has one place, and what the store evaluates
has all the others.
-/

namespace DexCache.Interception

open Query (Field)

/-- The selections that the store evaluates for a field when the resolver gives this value for
it. -/
def Claim.evaluated (field : Field) (resolved : Json) : Claim → List Field
  | .declined => []
  | .answered _ => field.subfields
  | .shared _ part => if resolved = .null then part.asked.subfields else part.localFields

/-- Does the handling of a field leave a selection on its entities to the resolver? -/
def Claim.Delegates (l : Listing) (field g : Field) (c : Claim) : Prop :=
  (∃ sent, c.left field = some sent ∧ ∃ place ∈ l.places sent, g ∈ place) ∧
    ∀ resolved, resolved ≠ .null →
      ∀ place ∈ l.places { field with subfields := c.evaluated field resolved }, g ∉ place

/-- A field that is declined is left to the resolver as a whole. -/
theorem delegates_declined {l : Listing} {field g : Field} {place : List Field}
    (hplace : place ∈ l.places field) (hg : g ∈ place) :
    Claim.Delegates l field g .declined := by
  refine ⟨⟨field, rfl, place, hplace, hg⟩, ?_⟩
  intro _ _ place' hplace' hg'
  unfold Listing.places Claim.evaluated at hplace'
  cases hshape : l.shape with
  | list =>
      rw [hshape] at hplace'
      rw [List.mem_singleton.1 hplace'] at hg'
      cases hg'
  | connection =>
      rw [hshape] at hplace'
      cases hplace'

/-- The local selection has no missing field in its first place. -/
theorem isMissing_of_mem_withIdentifier {l : Listing} {field g : Field}
    (hidentifier : l.isMissing l.identifierField = false)
    (hg : g ∈ withIdentifier l (heldFields l field)) : l.isMissing g.name = false := by
  have hheld : ∀ f ∈ heldFields l field, l.isMissing f.name = false := by
    intro f hf
    simpa using (List.mem_filter.1 hf).2
  unfold withIdentifier at hg
  split at hg
  · exact hheld g hg
  · rcases List.mem_append.1 hg with hg | hg
    · exact hheld g hg
    · rw [List.mem_singleton.1 hg]
      exact hidentifier

theorem mem_withIdentifier {l : Listing} {fields : List Field} {g : Field} (hg : g ∈ fields) :
    g ∈ withIdentifier l fields := by
  unfold withIdentifier
  split
  · exact hg
  · exact List.mem_append_left _ hg

/-- A shared field delegates the missing fields of its first place, and those of no other. -/
theorem delegates_share_iff {kind : EntityKind} {l : Listing} {field : Field}
    {arguments : Json.Object} (hselected : l.entityFields field ≠ [])
    (hidentifier : l.isMissing l.identifierField = false) :
    (∀ place ∈ l.places field, ∀ g ∈ place, l.isMissing g.name = true →
        (share kind l field arguments).Delegates l field g) ↔
      ∀ place ∈ (l.places field).tail, ∀ g ∈ place, l.isMissing g.name = false := by
  have hplaces := Listing.places_eq_cons hselected
  have hlocal := places_localSelection hselected (withIdentifier l (heldFields l field))
  constructor
  · intro h place hplace g hg
    rw [← Bool.not_eq_true]
    intro hmissing
    have hmem : place ∈ l.places field := hplaces ▸ List.mem_cons_of_mem _ hplace
    -- the local selection keeps the later places, whatever the resolver gives
    refine (h place hmem g hg hmissing).2 (.bool true) (by simp) place ?_ hg
    rw [show (share kind l field arguments).evaluated field (.bool true) =
      localSelection l field (withIdentifier l (heldFields l field)) from rfl, hlocal]
    exact List.mem_cons_of_mem _ hplace
  · intro h place hplace g hg hmissing
    -- a missing field can only stand in the first place
    have hfirst : place = l.entityFields field := by
      rw [hplaces] at hplace
      rcases List.mem_cons.1 hplace with hfirst | hlater
      · exact hfirst
      · rw [h place hlater g hg] at hmissing
        cases hmissing
    subst hfirst
    refine ⟨⟨_, rfl, withIdentifier l (missingFields l field), ?_, ?_⟩, ?_⟩
    · rw [Listing.places_withEntityFields]
      exact List.mem_singleton_self _
    · exact mem_withIdentifier (List.mem_filter.2 ⟨hg, hmissing⟩)
    · intro resolved hresolved place' hplace' hg'
      rw [show (share kind l field arguments).evaluated field resolved =
        localSelection l field (withIdentifier l (heldFields l field)) from if_neg hresolved,
        hlocal] at hplace'
      have hheld : l.isMissing g.name = false := by
        rcases List.mem_cons.1 hplace' with rfl | hlater
        · exact isMissing_of_mem_withIdentifier hidentifier hg'
        · exact h place' hlater g hg'
      rw [hheld] at hmissing
      cases hmissing

/-- An answered field delegates nothing, so it must not name a missing field. -/
theorem delegates_answered_iff {l : Listing} {field : Field} {value : Json}
    (hselected : l.entityFields field ≠ []) (hmissing : missingFields l field = []) :
    (∀ place ∈ l.places field, ∀ g ∈ place, l.isMissing g.name = true →
        Claim.Delegates l field g (.answered value)) ↔
      ∀ place ∈ (l.places field).tail, ∀ g ∈ place, l.isMissing g.name = false := by
  have hplaces := Listing.places_eq_cons hselected
  constructor
  · intro h place hplace g hg
    rw [← Bool.not_eq_true]
    intro hg'
    have hmem : place ∈ l.places field := hplaces ▸ List.mem_cons_of_mem _ hplace
    obtain ⟨⟨sent, hsent, -⟩, -⟩ := h place hmem g hg hg'
    cases hsent
  · intro h place hplace g hg hg'
    rw [hplaces] at hplace
    rcases List.mem_cons.1 hplace with rfl | hlater
    · exact absurd hg' (by simpa using List.filter_eq_nil_iff.1 hmissing g hg)
    · rw [h place hlater g hg] at hg'
      cases hg'

/-- Every missing field that a selection names, wherever it selects entities, is sent to the
resolver and not evaluated by the store if and only if nothing is claimed of the selection or
none of its places but the first names a missing field. -/
theorem missing_delegated_iff {X : Type} [PlanSlot X] (v : View) (context : Context X)
    {field : Field} (hfield : field ∈ context.operation.selections) {kind : EntityKind}
    {l : Listing} (hlisted : listing? field.name = some (kind, l)) :
    (∀ place ∈ l.places field, ∀ g ∈ place, l.isMissing g.name = true →
        (∃ sent ∈ forResolver (before v context), (handled v context field).left field =
            some sent ∧ ∃ place ∈ l.places sent, g ∈ place) ∧
          ∀ resolved, resolved ≠ .null →
            ∀ place ∈ l.places { field with
              subfields := (handled v context field).evaluated field resolved }, g ∉ place) ↔
      (handled v context field = .declined ∨
        ∀ place ∈ (l.places field).tail, ∀ g ∈ place, l.isMissing g.name = false) := by
  have hsent {sent : Field} (h : (handled v context field).left field = some sent) :
      sent ∈ forResolver (before v context) := by
    rw [forResolver_before]
    exact List.mem_filterMap.2 ⟨field, hfield, h⟩
  have hdelegates (g : Field) :
      ((∃ sent ∈ forResolver (before v context), (handled v context field).left field =
          some sent ∧ ∃ place ∈ l.places sent, g ∈ place) ∧
        ∀ resolved, resolved ≠ .null →
          ∀ place ∈ l.places { field with
            subfields := (handled v context field).evaluated field resolved }, g ∉ place) ↔
        (handled v context field).Delegates l field g := by
    constructor
    · rintro ⟨⟨sent, -, hleft⟩, hlocal⟩
      exact ⟨⟨sent, hleft⟩, hlocal⟩
    · rintro ⟨⟨sent, hleft⟩, hlocal⟩
      exact ⟨⟨sent, hsent hleft.1, hleft⟩, hlocal⟩
  simp only [hdelegates]
  rcases handled_cases v context hfield with hdeclined | hclaim
  · rw [hdeclined]
    refine ⟨fun _ => .inl rfl, fun _ place hplace g hg _ => delegates_declined hplace hg⟩
  -- the hook gets to a plan, and the claim decides
  · generalize handled v context field = c at hclaim
    rcases claim_cases hclaim with rfl | ⟨kind', l', arguments, hclaimable, hc⟩
    · refine ⟨fun _ => .inl rfl, fun _ place hplace g hg _ => delegates_declined hplace hg⟩
    · obtain ⟨rfl, rfl⟩ : kind' = kind ∧ l' = l := by
        simpa [hlisted] using hclaimable.listed.symm
      rcases hc with ⟨hmissing, value, -, rfl⟩ | ⟨-, rfl⟩
      · simpa using delegates_answered_iff hclaimable.selected hmissing
      · rw [delegates_share_iff hclaimable.selected (isMissing_identifierField hlisted)]
        simp [share]

/-- A page of pairs with one `node` under one `edges`: the missing field of the node goes to the
resolver while the store has a part in the answer. -/
theorem missing_delegated_of_one_node :
    let view := (Watched.onePair { address := "a" } 0).view 0
    let field := Field.withSubfields "filteredPairs" [.withSubfields "edges"
      [.withSubfields "node" [.plain "address", .plain "feesCollector"]]]
    let context : Context Pipeline.Notes := ⟨{ selections := [field] }, [], {}⟩
    (handled view context field).part?.isSome = true ∧
      ∃ sent ∈ forResolver (before view context),
        (handled view context field).left field = some sent := by
  intro view field context
  refine ⟨by decide +kernel, ?_⟩
  have hlisted : listing? field.name = some (.pair, pairCatalogue.listings[1]) := rfl
  have hdelegated := (missing_delegated_iff view context (List.mem_singleton_self field)
    hlisted).2 (.inr (by decide +kernel))
  obtain ⟨⟨sent, hsent, hleft, -⟩, -⟩ := hdelegated
    [.plain "address", .plain "feesCollector"] (by decide) (.plain "feesCollector") (by decide)
    (by decide)
  exact ⟨sent, hsent, hleft⟩

end DexCache.Interception
