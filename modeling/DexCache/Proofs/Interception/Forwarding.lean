import DexCache.Proofs.Interception.Joining
import DexCache.Proofs.Interception.Places
import DexCache.Proofs.Query.RoundTrip

/-!
# What is sent can be read again

What claiming leaves of a field has the field's own name, alias and arguments, and below them
nothing but parts of the field, `edges`, `node` and the identifier.  So what the hook before
execution leaves of an operation that was read, with finite numbers, is read back from its
text.
-/

namespace DexCache

open Query (Field Operation isName)

namespace Query

/-- A test of fields that does not look below them and lets every name through. -/
structure Shallow (p : Field → Bool) : Prop where
  below : ∀ f subfields, p { f with subfields } = p f
  named : ∀ name subfields, isName name = true → p (.withSubfields name subfields) = true

theorem shallow_isSpelled : Shallow Field.isSpelled where
  below _ _ := rfl
  named _ _ h := Bool.and_eq_true_iff.2 ⟨h, rfl⟩

theorem shallow_isFinite : Shallow Field.isFinite where
  below _ _ := rfl
  named _ _ _ := rfl

end Query

namespace Interception

variable {p : Field → Bool} {l : Listing} {f : Field}

theorem allOf_entityFields (hf : f.all p = true) : Field.allOf p (l.entityFields f) = true := by
  have hsubfield {f g : Field} {name : String} (hf : f.all p = true)
      (hg : f.subfield? name = some g) : g.all p = true :=
    Field.allOf_iff.1 (Field.all_iff.1 hf).2 g (List.mem_of_find?_eq_some hg)
  unfold Listing.entityFields
  cases l.shape with
  | list => exact (Field.all_iff.1 hf).2
  | connection =>
      simp only
      cases hedges : f.subfield? "edges" with
      | none => rfl
      | some edges =>
          cases hnode : edges.subfield? "node" with
          | none => simp [hnode, Field.allOf]
          | some node =>
              simpa [hnode] using (Field.all_iff.1 (hsubfield (hsubfield hf hedges) hnode)).2

/-- What is sent of a field passes the tests that the field passes. -/
theorem all_withEntityFields (hp : Query.Shallow p) (hidentifier : isName l.identifierField = true)
    (hf : f.all p = true) (q : Field → Bool) :
    (l.withEntityFields f (withIdentifier l ((l.entityFields f).filter q))).all p = true := by
  have hfields : Field.allOf p (withIdentifier l ((l.entityFields f).filter q)) = true := by
    refine Field.allOf_iff.2 fun g hg => ?_
    rcases mem_withIdentifier_iff.1 hg with hg | rfl
    · exact Field.allOf_iff.1 (allOf_entityFields hf) g (List.mem_filter.1 hg).1
    · exact Field.all_iff.2 ⟨hp.named _ _ hidentifier, rfl⟩
  unfold Listing.withEntityFields
  refine Field.all_iff.2 ⟨(hp.below f _).trans (Field.all_iff.1 hf).1, ?_⟩
  cases l.shape with
  | list => exact hfields
  | connection =>
      have hnode : (Field.withSubfields "node"
          (withIdentifier l ((l.entityFields f).filter q))).all p = true :=
        Field.all_iff.2 ⟨hp.named _ _ (by decide), hfields⟩
      refine Field.allOf_iff.2 fun edges hedges => List.mem_singleton.1 hedges ▸ ?_
      refine Field.all_iff.2 ⟨hp.named _ _ (by decide), ?_⟩
      exact Field.allOf_iff.2 fun node hmem => List.mem_singleton.1 hmem ▸ hnode

theorem isName_identifierField {name : String} {kind : EntityKind}
    (h : listing? name = some (kind, l)) : isName l.identifierField = true := by
  have hall : ∀ l ∈ pairCatalogue.listings ++ tokenCatalogue.listings,
      isName l.identifierField = true := by decide
  exact hall l (mem_listings_of_listing? h).2

variable {s : Store} {now : Int} {supplied : Json.Object}

/-- What is left of a field is the field or what is sent of it. -/
theorem leftOf_cases {g : Field} (hclaim : claim s now supplied f = .ok (taken s now supplied f))
    (h : leftOf s now supplied f = some g) :
    taken s now supplied f = .declined ∧ g = f ∨
    ∃ kind l arguments, Claimable s now supplied f kind l arguments ∧
      taken s now supplied f = share kind l f arguments ∧
      g = l.withEntityFields f (withIdentifier l (missingFields l f)) := by
  unfold leftOf at h
  rcases claim_cases hclaim with hdeclined | ⟨kind, l, arguments, hclaimable, hanswered | hshared⟩
  · rw [hdeclined] at h
    exact .inl ⟨hdeclined, (Option.some.inj h).symm⟩
  · obtain ⟨-, value, -, hvalue⟩ := hanswered
    rw [hvalue] at h
    cases h
  · rw [hshared.2] at h
    exact .inr ⟨kind, l, arguments, hclaimable, hshared.2, (Option.some.inj h).symm⟩

theorem all_leftOf {g : Field} (hp : Query.Shallow p)
    (hclaim : claim s now supplied f = .ok (taken s now supplied f))
    (h : leftOf s now supplied f = some g) (hf : f.all p = true) : g.all p = true := by
  rcases leftOf_cases hclaim h with ⟨-, rfl⟩ | ⟨kind, l, arguments, hclaimable, -, rfl⟩
  · exact hf
  · exact all_withEntityFields hp (isName_identifierField hclaimable.listed) hf _

/-- What is left of an operation that was read is read back from its text. -/
theorem parse_left {document : String} {op : Operation}
    (hparse : Operation.parse document = .ok op) (hfinite : op.Finite)
    (hclaims : ∀ f ∈ op.selections, claim s now supplied f = .ok (taken s now supplied f))
    {left : List Field} (hleft : op.selections.filterMap (leftOf s now supplied) = left)
    (hselected : left ≠ []) :
    Operation.parse ({ op with selections := left } : Operation).prune.text =
      .ok ({ op with selections := left } : Operation).prune := by
  have hspelled := Query.spelled_of_parse hparse
  -- tests that hold of all fields of the operation hold of what is left of them
  have hall {p : Field → Bool} (hp : Query.Shallow p) (h : Field.allOf p op.selections = true) :
      Field.allOf p left = true := by
    refine Field.allOf_iff.2 fun g hg => ?_
    rw [← hleft] at hg
    obtain ⟨f, hf, hfg⟩ := List.mem_filterMap.1 hg
    exact all_leftOf hp (hclaims f hf) hfg (Field.allOf_iff.1 h f hf)
  have hdefinitions {d : Query.VariableDefinition}
      (hd : d ∈ ({ op with selections := left } : Operation).prune.variableDefinitions) :
      d ∈ op.variableDefinitions := (List.mem_filter.1 hd).1
  have hleftSpelled : ({ op with selections := left } : Operation).prune.Spelled :=
    ⟨hspelled.name, fun d hd => hspelled.definitions d (hdefinitions hd), hselected,
      hall Query.shallow_isSpelled hspelled.selections⟩
  have hleftFinite : ({ op with selections := left } : Operation).prune.Finite :=
    ⟨fun d hd => hfinite.definitions d (hdefinitions hd),
      hall Query.shallow_isFinite hfinite.selections⟩
  exact Query.parse_text (hleftSpelled.writable hleftFinite)

end Interception

end DexCache
