import DexCache.Listing.Shelf
import DexCache.Proofs.Listing.Answers
import DexCache.Proofs.Paired
import DexCache.Proofs.Store.Parts

/-!
# What a listing reads

The filters and the sort key of a listing each read some groups of its entities, whatever is
selected.  Entities that are the same in these groups are filtered, sorted and cut alike, so
two answers are about the same entities in the same order.
-/

namespace DexCache

namespace Sorting

variable {α : Type} {R : α → α → Prop} {xs ys : List α}

/-- Sorting a list that was made of another is sorting the other. -/
theorem sortBy_map {β : Type} (order : SortOrder) (key : α → Option Amount) (f : β → α)
    (items : List β) :
    sortBy order key (items.map f) = (sortBy order (fun b => key (f b)) items).map f := by
  let keyed (b : β) : Option Amount × β := (key (f b), b)
  let carry (p : Option Amount × β) : Option Amount × α := (p.1, f p.2)
  have hkeyed : (items.map f).map (fun a => (key a, a)) = (items.map keyed).map carry := by
    simp [keyed, carry]
  have hsorted := List.map_mergeSort (f := carry) (l := items.map keyed)
    (r := fun a b => inOrder order a.1 b.1) (s := fun a b => inOrder order a.1 b.1)
    fun _ _ _ _ => rfl
  rw [sortBy, hkeyed, ← hsorted, List.map_map, sortBy, List.map_map]
  rfl

/-- Items with the same keys are sorted alike. -/
theorem forall₂_sortBy (h : List.Forall₂ R xs ys) (order : SortOrder) {key : α → Option Amount}
    (hkey : ∀ a b, R a b → key a = key b) :
    List.Forall₂ R (sortBy order key xs) (sortBy order key ys) := by
  obtain ⟨zs, rfl, rfl, hzs⟩ := Paired.exists_zip h
  have hkeys : sortBy order (fun z : α × α => key z.1) zs =
      sortBy order (fun z : α × α => key z.2) zs := by
    have hkeyed : (zs.map fun z => (key z.1, z)) = zs.map fun z => (key z.2, z) :=
      List.map_congr_left fun z hz => by rw [hkey z.1 z.2 (hzs z hz)]
    rw [sortBy, hkeyed, sortBy]
  rw [sortBy_map, sortBy_map, ← hkeys]
  exact Paired.forall₂_of_zip fun z hz => hzs z ((perm_sortBy _ _ _).subset hz)

end Sorting

namespace Catalogue

variable {α F K G P : Type} [FieldGroup G] [Entity α G P] [Parted α G P]

/-- The groups that the filters and the sort keys of a catalogue read. -/
structure Footprint (c : Catalogue α F K) where
  ofFilter : F → List G
  ofKey : K → G
  predicates_congr : ∀ {f : F} {a b : α}, SameIn (ofFilter f) a b →
    ∀ p ∈ c.predicates f, p a = p b
  keyOf_congr : ∀ {k : K} {a b : α}, SameIn [ofKey k] a b → c.keyOf k a = c.keyOf k b
  toJson_eq : c.toJson = Entity.toJson

namespace Footprint

variable {c : Catalogue α F K} (fp : Footprint (G := G) (P := P) c)

/-- The groups that the filters and the sorting of a listing read. -/
def ofArgs (args : ListingArgs F) : List G :=
  fp.ofFilter args.filters ++
    (((args.sorting.bind Sorting.field).bind c.sortKey?).map fp.ofKey).toList

/-- The groups that a listing reads before anything is shown; none if it does not get there. -/
def selecting (name : String) (arguments : Json.Object) : List G :=
  match c.listing? name with
  | none => []
  | some l =>
    match c.readArgs l arguments with
    | .error _ => []
    | .ok args => fp.ofArgs args

variable {groups : List G} {xs ys : List α}

/-- Predicates that cannot tell entities apart keep the same ones. -/
theorem forall₂_keep {R : α → α → Prop} (h : List.Forall₂ R xs ys)
    {predicates : List (α → Bool)} (hp : ∀ p ∈ predicates, ∀ a b, R a b → p a = p b) :
    List.Forall₂ R (keep predicates xs) (keep predicates ys) := by
  unfold keep
  induction predicates generalizing xs ys with
  | nil => exact h
  | cons p rest ih =>
      rw [List.forall_mem_cons] at hp
      have hfilter : List.Forall₂ R (xs.filter p) (ys.filter p) :=
        List.rel_filter (fun a b hab => Bool.eq_iff_iff.1 (hp.1 a b hab)) h
      exact ih hfilter hp.2

/-- Entities that are the same in what is read are selected alike. -/
theorem forall₂_select (args : ListingArgs F) (hargs : fp.ofArgs args ⊆ groups)
    (h : List.Forall₂ (SameIn groups) xs ys) :
    List.Forall₂ (SameIn groups) (c.select args xs) (c.select args ys) := by
  have hkept : List.Forall₂ (SameIn groups) (keep (c.predicates args.filters) xs)
      (keep (c.predicates args.filters) ys) :=
    forall₂_keep h fun p hp a b hab => fp.predicates_congr
      (hab.mono fun g hg => hargs (List.mem_append_left _ hg)) p hp
  unfold select sort
  cases hsorting : args.sorting with
  | none => exact hkept
  | some s =>
      simp only
      cases hkey : s.field.bind c.sortKey? with
      | none => exact hkept
      | some key =>
          refine Sorting.forall₂_sortBy hkept s.order fun a b hab => fp.keyOf_congr ?_
          refine hab.mono fun g hg => hargs (List.mem_append_right _ ?_)
          simpa [hsorting, hkey] using hg

/-- Entities that are the same in what is read are cut alike. -/
theorem exists_cut {name : String} {arguments : Json.Object}
    (hread : fp.selecting name arguments ⊆ groups) (h : List.Forall₂ (SameIn groups) xs ys)
    {found : Cut α} (hcut : c.cut xs name arguments = .ok found) :
    ∃ entities, c.cut ys name arguments = .ok { found with entities } ∧
      List.Forall₂ (SameIn groups) found.entities entities := by
  unfold selecting at hread
  unfold cut at hcut ⊢
  cases hlisted : c.listing? name with
  | none => rw [hlisted] at hcut; cases hcut
  | some l =>
      rw [hlisted] at hcut hread
      simp only at hcut hread ⊢
      obtain ⟨args, hargs, hcut⟩ := Outcome.bind_eq_ok_iff.1 hcut
      rw [hargs] at hread
      have hselected := fp.forall₂_select args hread h
      have htotal := hselected.length_eq
      have hwindow (w : Paging.Window) : List.Forall₂ (SameIn groups)
          (w.cut (c.select args xs)) (w.cut (c.select args ys)) :=
        List.forall₂_take _ (List.forall₂_drop _ hselected)
      simp only [hargs, bind, Except.bind]
      cases hpaging : args.paging with
      | slice offset limit =>
          rw [hpaging] at hcut
          cases hcut
          exact ⟨_, by rw [← htotal]; rfl, hwindow _⟩
      | page page =>
          rw [hpaging] at hcut
          obtain ⟨window, hofArgs, hcut⟩ := Outcome.bind_eq_ok_iff.1 hcut
          cases hcut
          exact ⟨_, by simp only [← htotal, hofArgs]; rfl, hwindow _⟩

end Footprint

end Catalogue

/-- An optional test that is not made does not depend on what is tested. -/
theorem all_congr {β : Type} {o : Option β} {p q : β → Bool} (h : o.isSome = true → p = q) :
    o.all p = o.all q := by
  cases o with
  | none => rfl
  | some b => rw [h rfl]

namespace PairFilter

/-- Does a filter read a group? -/
def reads (f : PairFilter) : PairGroup → Bool
  | .tokensAndFarms =>
    f.firstTokenId.isSome || f.secondTokenId.isSome || f.issuedLpToken.isSome ||
      f.searchToken.isSome || f.lpTokenIds.isSome || f.hasFarms.isSome || f.hasDualFarms.isSome
  | .info => f.state.isSome
  | .prices => f.minLockedValueUSD.isSome
  | .analytics =>
    f.minVolume.isSome || f.minTradesCount.isSome || f.minTradesCount24h.isSome ||
      f.minDeployedAt.isSome

/-- The filter cannot tell pairs apart that are the same in the groups that it reads. -/
theorem predicates_congr {f : PairFilter} {a b : Pair}
    (h : SameIn (FieldGroup.all.filter f.reads) a b) : ∀ p ∈ f.predicates, p a = p b := by
  have hpart {g : PairGroup} (hg : f.reads g = true) : Parted.part g a = Parted.part g b :=
    h.part g (List.mem_filter.2 ⟨FieldGroup.mem_all g, hg⟩)
  have haddress : a.address = b.address := h.id
  have htokens (hg : f.reads .tokensAndFarms = true) : a.tokens = b.tokens :=
    PairPatch.tokensAndFarms.inj (hpart hg)
  have hinfo (hg : f.reads .info = true) : a.info = b.info := PairPatch.info.inj (hpart hg)
  have hprices (hg : f.reads .prices = true) : a.prices = b.prices :=
    PairPatch.prices.inj (hpart hg)
  have hanalytics (hg : f.reads .analytics = true) : a.analytics = b.analytics :=
    PairPatch.analytics.inj (hpart hg)
  intro p hp
  simp only [predicates, List.mem_cons, List.not_mem_nil, or_false] at hp
  rcases hp with rfl | rfl | rfl | rfl | rfl | rfl | rfl | rfl | rfl | rfl | rfl | rfl | rfl
  -- the address, the tokens on both sides, and then one optional test after the other
  · simp only [haddress]
  · unfold sidesMatch Pair.firstTokenId? Pair.secondTokenId?
    cases hfirst : f.firstTokenId with
    | some _ => rw [htokens (by simp [reads, hfirst])]
    | none =>
        cases hsecond : f.secondTokenId with
        | some _ => rw [htokens (by simp [reads, hsecond])]
        | none => rfl
  · exact all_congr fun hs => by rw [Pair.lpTokenId?, htokens (by simp [reads, hs])]; rfl
  · exact all_congr fun hs => by rw [Pair.lpTokenId?, htokens (by simp [reads, hs])]; rfl
  · exact all_congr fun hs => by rw [hinfo (by simp [reads, hs])]
  · exact all_congr fun hs => by rw [searched, htokens (by simp [reads, hs])]; rfl
  · exact all_congr fun hs => by rw [htokens (by simp [reads, hs])]
  · exact all_congr fun hs => by rw [htokens (by simp [reads, hs])]
  · exact all_congr fun hs => by rw [hanalytics (by simp [reads, hs])]
  · exact all_congr fun hs => by rw [hprices (by simp [reads, hs])]
  · exact all_congr fun hs => by rw [hanalytics (by simp [reads, hs])]
  · exact all_congr fun hs => by rw [hanalytics (by simp [reads, hs])]
  · exact all_congr fun hs => by rw [hanalytics (by simp [reads, hs])]

end PairFilter

/-- The group whose part holds the amount of a sort key. -/
def PairSortKey.group : PairSortKey → PairGroup
  | .lockedValue => .prices
  | _ => .analytics

theorem PairSortKey.amount_congr {k : PairSortKey} {a b : Pair} (h : SameIn [k.group] a b) :
    k.amount a = k.amount b := by
  have hpart := h.part k.group (List.mem_singleton_self _)
  cases k with
  | lockedValue => rw [amount, amount, PairPatch.prices.inj hpart]
  | _ => simp only [amount, PairPatch.analytics.inj hpart]

/-- What listings of pairs read. -/
def pairFootprint : pairCatalogue.Footprint where
  ofFilter f := FieldGroup.all.filter f.reads
  ofKey := PairSortKey.group
  predicates_congr := PairFilter.predicates_congr
  keyOf_congr := PairSortKey.amount_congr
  toJson_eq := rfl

namespace TokenFilter

/-- Does a filter read a group? -/
def reads (f : TokenFilter) : TokenGroup → Bool
  | .metadata => f.tokenType.isSome || f.searchToken.isSome
  | .prices => false
  | .analytics => f.minLiquidity.isSome

/-- The filter cannot tell tokens apart that are the same in the groups that it reads. -/
theorem predicates_congr {f : TokenFilter} {a b : Token}
    (h : SameIn (FieldGroup.all.filter f.reads) a b) : ∀ p ∈ f.predicates, p a = p b := by
  have hpart {g : TokenGroup} (hg : f.reads g = true) : Parted.part g a = Parted.part g b :=
    h.part g (List.mem_filter.2 ⟨FieldGroup.mem_all g, hg⟩)
  have hidentifier : a.identifier = b.identifier := h.id
  have hmetadata (hg : f.reads .metadata = true) : a.metadata = b.metadata :=
    TokenPatch.metadata.inj (hpart hg)
  have hanalytics (hg : f.reads .analytics = true) : a.analytics = b.analytics :=
    TokenPatch.analytics.inj (hpart hg)
  intro p hp
  simp only [predicates, List.mem_cons, List.not_mem_nil, or_false] at hp
  rcases hp with rfl | rfl | rfl | rfl
  · simp only [hidentifier]
  · exact all_congr fun hs => by rw [hmetadata (by simp [reads, hs])]
  · exact all_congr fun hs => by rw [hidentifier, hmetadata (by simp [reads, hs])]
  · exact all_congr fun hs => by rw [hanalytics (by simp [reads, hs])]

end TokenFilter

/-- The group whose part holds the text of a sort key. -/
def TokenSortKey.group : TokenSortKey → TokenGroup
  | .price | .previous24hPrice | .priceChange24h => .prices
  | .createdAt => .metadata
  | _ => .analytics

theorem TokenSortKey.amount_congr {k : TokenSortKey} {a b : Token} (h : SameIn [k.group] a b) :
    k.amount a = k.amount b := by
  have hpart := h.part k.group (List.mem_singleton_self _)
  cases k with
  | price | previous24hPrice | priceChange24h =>
      simp only [amount, text, TokenPatch.prices.inj hpart]
  | createdAt => simp only [amount, text, TokenPatch.metadata.inj hpart]
  | _ => simp only [amount, text, TokenPatch.analytics.inj hpart]

/-- What listings of tokens read. -/
def tokenFootprint : tokenCatalogue.Footprint where
  ofFilter f := FieldGroup.all.filter f.reads
  ofKey := TokenSortKey.group
  predicates_congr := TokenFilter.predicates_congr
  keyOf_congr := TokenSortKey.amount_congr
  toJson_eq := rfl

end DexCache
