import DexCache.Proofs.Interception.Origin
import DexCache.Proofs.Interception.Places
import DexCache.Proofs.Interception.Showing
import DexCache.Proofs.Store.Watched

/-!
# The store and its resolver answer alike

For each listing and each choice of arguments, the store and a resolver with the same data
either both reject the arguments or find the same entities.  What this means for a field that
is answered by the store, and for one that is shared, is all that the rest of the argument
needs to know about catalogues.
-/

namespace DexCache.Interception

open Json (Alike Object)
open Query (Field)

/-- Two ways of answering a listing that find the same entities, of which the second has their
missing fields as well. -/
inductive Mirrored (l : Listing) (here there : List Field → Except Query.Error Json) : Prop
  | rejected (e : Query.Error) (hhere : ∀ fields, here fields = .error e)
      (hthere : ∀ fields, there fields = .error e)
  | found {α : Type} (cut : Catalogue.Cut α) (entityType pageType : String)
      (raw raw' : α → Json) (name : α → String) (hlisting : cut.listing = l)
      (hnames : (cut.entities.map name).Nodup)
      (hs : ∀ fields e, Shows l fields (raw e) (raw' e) (name e))
      (hhere : ∀ fields, here fields = .ok (cut.show entityType pageType raw fields))
      (hthere : ∀ fields, there fields = .ok (cut.show entityType pageType raw' fields))

namespace Mirrored

variable {l : Listing} {here there : List Field → Except Query.Error Json} {f : Field}

/-- Without missing fields the first answer is as good as the second. -/
theorem answered (h : Mirrored l here there) (hregular : l.Regular f)
    (hselected : l.entityFields f ≠ [])
    (hheld : ∀ g ∈ l.entityFields f, l.isMissing g.name = false) {value : Json}
    (hvalue : here f.subfields = .ok value) :
    ∃ whole, there f.subfields = .ok whole ∧ Alike value whole := by
  cases h with
  | rejected e hhere =>
      rw [hhere] at hvalue
      cases hvalue
  | found cut entityType pageType raw raw' name hlisting hnames hs hhere hthere =>
      subst hlisting
      rw [hhere] at hvalue
      refine ⟨_, hthere f.subfields, ?_⟩
      rw [← Except.ok.inj hvalue]
      exact alike_show_held hregular hselected hheld (fun e _ => hs _ e) entityType pageType

/-- Both reject the arguments, or the two halves make up the whole of the second answer. -/
theorem shared (h : Mirrored l here there) (hregular : l.Regular f)
    (hselected : l.entityFields f ≠ [])
    (hname : l.identifierField ≠ Projection.typenameField) :
    (∃ e, (∀ fields, here fields = .error e) ∧ ∀ fields, there fields = .error e) ∨
      ∃ sent held whole,
        there (l.withEntityFields f (sentFields l (l.entityFields f))).subfields = .ok sent ∧
          sent ≠ .null ∧
          here (localSelection l f (hereFields l (l.entityFields f))) = .ok held ∧
          there f.subfields = .ok whole ∧
          Alike (merge l (forces l (l.entityFields f)) sent held) whole := by
  cases h with
  | rejected e hhere hthere => exact .inl ⟨e, hhere, hthere⟩
  | found cut entityType pageType raw raw' name hlisting hnames hs hhere hthere =>
      subst hlisting
      refine .inr ⟨_, _, _, hthere _, ?_, hhere _, hthere _, ?_⟩
      -- an answer to a listing is a list or an object
      · unfold Catalogue.Cut.show
        cases cut.listing.shape <;> simp [Projection.project]
      · exact alike_show_shared hregular hselected hname (fun e _ => hs _ e) hnames entityType
          pageType

end Mirrored

/-- Further fields leave the others as they are. -/
theorem shows_extended {l : Listing} {raw : Json} {extras : Object} {name : String}
    (hraw : raw.get? l.identifierField = some (.str name))
    (hextras : ∀ key ∈ extras.keys, l.isMissing key = true) (fields : List Field) :
    Shows l fields raw (raw.fillFrom (.obj extras)) name := by
  obtain ⟨o, rfl⟩ := exists_obj_of_get? hraw
  have hfilled (key : String) : ((Json.obj o).fillFrom (.obj extras)).get? key =
      (o.get? key).or (extras.get? key) := Object.get?_fill o extras key
  refine ⟨hraw, ?_, ?_⟩
  · rw [hfilled, show o.get? l.identifierField = some (.str name) from hraw]
    rfl
  · intro g _ hheld
    -- further fields are missing ones, and this one is held
    have hnone : extras.get? g.name = none := by
      rw [Object.get?_eq_none_iff]
      intro hmem
      rw [hextras _ hmem] at hheld
      cases hheld
    rw [hfilled, hnone, Option.or_none]
    exact .inr rfl

/-- A catalogue is mirrored by the same catalogue with further fields. -/
theorem mirrored_extended {α F K : Type} {c : Catalogue α F K} {extras : α → Object}
    {entities : List α} {query : String} {args : Object} {l : Listing} (name : α → String)
    (hlisted : c.listing? query = some l)
    (hraw : ∀ a, (c.toJson a).get? l.identifierField = some (.str (name a)))
    (hextras : ∀ a, ∀ key ∈ (extras a).keys, l.isMissing key = true)
    (hnames : (entities.map name).Nodup) :
    Mirrored l (c.respond entities query args)
      ((extended c extras).respond entities query args) := by
  have hcut : (extended c extras).cut entities query args = c.cut entities query args := rfl
  cases hfound : c.cut entities query args with
  | error e =>
      refine .rejected e (fun fields => ?_) (fun fields => ?_)
      · rw [c.respond_eq, hfound]
        rfl
      · rw [(extended c extras).respond_eq, hcut, hfound]
        rfl
  | ok cut =>
      have hlisting : cut.listing = l :=
        Option.some.inj ((Catalogue.listing?_of_cut hfound).symm.trans hlisted)
      refine .found cut c.entityType c.pageType c.toJson (extended c extras).toJson name hlisting
        (Catalogue.nodup_cut hfound name hnames)
        (fun fields a => shows_extended (hraw a) (hextras a) fields)
        (fun fields => ?_) (fun fields => ?_)
      · rw [c.respond_eq, hfound]
        rfl
      · rw [(extended c extras).respond_eq, hcut, hfound]
        rfl

/-- Does a resolver answer all listings like a store, but for the missing fields? -/
def Origin.Mirrors (o : Origin) (s : Store) : Prop :=
  ∀ ⦃query : String⦄ ⦃kind : EntityKind⦄ ⦃l : Listing⦄, listing? query = some (kind, l) →
    ∀ args, Mirrored l (s.respond kind query args) (o.respond s kind query args)

/-- Whatever has happened to a store, a resolver with its data mirrors it. -/
theorem Origin.mirrors (o : Origin) (pairs : Thresholds PairGroup)
    (tokens : Thresholds TokenGroup) (history : List Watched.Step) :
    o.Mirrors (Watched.ofHistory pairs tokens history).store := by
  intro query kind l hlisted args
  obtain ⟨hkind, -⟩ := mem_listings_of_listing? hlisted
  cases kind with
  | pair =>
      have hpairs : ∀ l ∈ pairCatalogue.listings,
          l.identifierField = "address" ∧ l.missingFields = pairMissingFields := by decide
      obtain ⟨hidentifier, hmissing⟩ := hpairs l (Catalogue.mem_of_listing? hkind)
      refine mirrored_extended Pair.address hkind (fun p => ?_) (fun p key hkey => ?_) ?_
      · rw [hidentifier]
        rfl
      · rw [Listing.isMissing, hmissing]
        exact decide_eq_true (o.pairExtras_missing p key hkey)
      · have hids := Collection.nodup_ids_ofHistory pairs (Watched.pairWrites history)
        rw [Watched.pairs_ofHistory, Collection.all, List.map_map]
        exact hids
  | token =>
      have htokens : ∀ l ∈ tokenCatalogue.listings,
          l.identifierField = "identifier" ∧ l.missingFields = tokenMissingFields := by decide
      obtain ⟨hidentifier, hmissing⟩ := htokens l (Catalogue.mem_of_listing? hkind)
      refine mirrored_extended Token.identifier hkind (fun t => ?_) (fun t key hkey => ?_) ?_
      · rw [hidentifier]
        rfl
      · rw [Listing.isMissing, hmissing]
        exact decide_eq_true (o.tokenExtras_missing t key hkey)
      · have hids := Collection.nodup_ids_ofHistory tokens (Watched.tokenWrites history)
        rw [Watched.tokens_ofHistory, Collection.all, List.map_map]
        exact hids

end DexCache.Interception
