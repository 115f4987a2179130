import DexCache.Listing.Shelf
import DexCache.Proofs.Listing.Filters
import DexCache.Proofs.Listing.Sorted
import DexCache.Proofs.Paging.Parts
import DexCache.Proofs.Store.Watched

/-!
# What a listing lists

An answer is cut out of one list: the stored entities that the filters admit, in the order of
the store or sorted by a number, with equals in the order of the store.  There is only one such
list, and the answer shows the part of it that is asked for.
-/

namespace DexCache

open Query (Field)

namespace Paging.Request

/-- The positions of the cursors of a request. -/
def cursors : Request → Except Query.CursorFault (Option Nat × Option Nat)
  | .slice _ _ => .ok (none, none)
  | .page args => do return (← args.after.mapM position, ← args.before.mapM position)

/-- The window of a request whose cursors are at these positions. -/
def window (request : Request) (positions : Option Nat × Option Nat) (total : Nat) : Window :=
  match request with
  | .slice offset limit => .slice offset limit total
  | .page args =>
    .between positions.1 positions.2 args.first args.last total Catalogue.defaultPageSize

/-- The part of a list that a request asks for, its cursors at these positions. -/
def part {α : Type} (request : Request) (positions : Option Nat × Option Nat) (items : List α) :
    List α :=
  match request with
  | .slice offset limit => (items.drop offset).take limit
  | .page args =>
    Paging.part positions.1 positions.2 args.first args.last Catalogue.defaultPageSize items

variable (request : Request) (positions : Option Nat × Option Nat)

theorem window_le (total : Nat) :
    (request.window positions total).offset + (request.window positions total).limit ≤ total := by
  cases request with
  | slice offset limit => exact Window.slice_le offset limit total
  | page args => exact Window.between_le _ _ _ _ _ _

theorem cut_window {α : Type} (items : List α) :
    (request.window positions items.length).cut items = request.part positions items := by
  cases request with
  | slice offset limit => exact Window.cut_slice offset limit items
  | page args => exact Window.cut_between _ _ _ _ _ _

end Paging.Request

namespace Catalogue

variable {α F K : Type}

/-- The number by which an entity is sorted. -/
def rank (c : Catalogue α F K) (key : K) (a : α) : ℚ :=
  Amount.rank (c.keyOf key a)

/-- The direction and the key of a sorting, if its field is supported. -/
def sortedBy? (c : Catalogue α F K) (sorting : Option Sorting) : Option (SortOrder × K) :=
  sorting.bind fun s => (s.field.bind c.sortKey?).map fun key => (s.order, key)

theorem sort_eq (c : Catalogue α F K) (sorting : Option Sorting) (entities : List α) :
    c.sort sorting entities = (c.sortedBy? sorting).elim entities fun chosen =>
      Sorting.sortBy chosen.1 (c.keyOf chosen.2) entities := by
  unfold sort sortedBy?
  cases sorting with
  | none => rfl
  | some s =>
      simp only [Option.bind_some]
      cases s.field.bind c.sortKey? with
      | none => rfl
      | some key => rfl

/-- The list `L` that a listing is about, from the entities that its filters admit. -/
structure Listed (c : Catalogue α F K) (sorting : Option Sorting) (admitted L : List α) :
    Prop where
  /-- Each admitted entity is there as often as it is stored. -/
  perm : L.Perm admitted
  /-- Without a supported field the order is that of the store. -/
  unsorted : c.sortedBy? sorting = none → L = admitted
  /-- Otherwise the numbers go up or down. -/
  sorted : ∀ order key, c.sortedBy? sorting = some (order, key) →
    L.Pairwise fun a b => order.Le (c.rank key a) (c.rank key b)
  /-- Entities of one number are in the order of the store, in both directions. -/
  stable : ∀ order key, c.sortedBy? sorting = some (order, key) → ∀ q : ℚ,
    L.filter (fun a => c.rank key a = q) = admitted.filter fun a => c.rank key a = q

theorem listed_sort (c : Catalogue α F K) (sorting : Option Sorting) (admitted : List α) :
    c.Listed sorting admitted (c.sort sorting admitted) := by
  refine ⟨perm_sort c sorting admitted, fun h => ?_, fun order key h => ?_,
    fun order key h q => ?_⟩
  · rw [sort_eq, h]
    rfl
  · rw [sort_eq, h]
    exact Sorting.pairwise_sortBy order (c.keyOf key) admitted
  · rw [sort_eq, h]
    exact Sorting.filter_sortBy order (c.keyOf key) admitted q

/-- There is only one list that a listing can be about. -/
theorem Listed.unique {c : Catalogue α F K} {sorting : Option Sorting}
    {admitted xs ys : List α} (hxs : c.Listed sorting admitted xs)
    (hys : c.Listed sorting admitted ys) : xs = ys := by
  cases hsorted : c.sortedBy? sorting with
  | none => rw [hxs.unsorted hsorted, hys.unsorted hsorted]
  | some chosen =>
      refine Sorting.eq_of_sorted (hxs.sorted chosen.1 chosen.2 hsorted)
        (hys.sorted chosen.1 chosen.2 hsorted) fun q => ?_
      rw [hxs.stable _ _ hsorted, hys.stable _ _ hsorted]

/-- The checks together drop what any of them drops. -/
theorem keep_eq_filter (predicates : List (α → Bool)) (entities : List α) :
    keep predicates entities = entities.filter fun a => predicates.all fun check => check a := by
  unfold keep
  induction predicates generalizing entities with
  | nil => simp
  | cons check rest ih =>
      rw [List.foldl_cons, ih, List.filter_filter]
      simp [Bool.and_comm]

/-- The order of the checks does not matter. -/
theorem keep_perm {predicates others : List (α → Bool)} (h : predicates.Perm others)
    (entities : List α) : keep predicates entities = keep others entities := by
  simp only [keep_eq_filter, h.all_eq]

/-- What a listing is about, once its arguments are read. -/
theorem cut_eq {c : Catalogue α F K} {name : String} {l : Listing} {args : Json.Object}
    {read : ListingArgs F} {positions : Option Nat × Option Nat}
    (hlisted : c.listing? name = some l) (hread : c.readArgs l args = .ok read)
    (hcursors : read.paging.cursors = .ok positions) (entities : List α) :
    c.cut entities name args =
      .ok ⟨l, read.paging.part positions (c.select read entities),
        read.paging.window positions (c.select read entities).length,
        (c.select read entities).length⟩ := by
  rw [← Paging.Request.cut_window]
  simp only [cut, hlisted, hread, bind, Except.bind]
  cases hpaging : read.paging with
  | slice offset limit => rfl
  | page page =>
      rw [hpaging] at hcursors
      obtain ⟨after, hafter, hcursors⟩ := Outcome.bind_eq_ok_iff.1 hcursors
      obtain ⟨before, hbefore, hcursors⟩ := Outcome.bind_eq_ok_iff.1 hcursors
      obtain rfl := Outcome.pure_eq_ok_iff.1 hcursors
      have hwindow : Paging.Window.ofArgs page (c.select read entities).length defaultPageSize =
          .ok ((Paging.Request.page page).window (after, before)
            (c.select read entities).length) := by
        rw [Paging.Window.ofArgs, hafter, hbefore]
        rfl
      simp only [hwindow]
      rfl

/-- What a listing selects is the list that it is about. -/
theorem listed_select {c : Catalogue α F K} {Admits : F → α → Prop}
    [∀ f, DecidablePred (Admits f)]
    (hadmits : ∀ f a, (∀ check ∈ c.predicates f, check a = true) ↔ Admits f a)
    (read : ListingArgs F) (stored : List α) :
    c.Listed read.sorting (stored.filter (Admits read.filters ·)) (c.select read stored) := by
  have hkeep : keep (c.predicates read.filters) stored = stored.filter (Admits read.filters ·) := by
    rw [keep_eq_filter]
    refine List.filter_congr fun a _ => ?_
    rw [Bool.eq_iff_iff, List.all_eq_true, decide_eq_true_eq]
    exact hadmits read.filters a
  rw [select, hkeep]
  exact c.listed_sort read.sorting _

section Responses

variable {c : Catalogue α F K} {name : String} {l : Listing} {args : Json.Object}
  {read : ListingArgs F} (stored : List α) (fields : List Field)

/-- A list shows the entities from an offset on, up to a limit. -/
theorem respond_list (hlisted : c.listing? name = some l) (hread : c.readArgs l args = .ok read)
    {offset limit : Nat} (hpaging : read.paging = .slice offset limit) :
    c.respond stored name args fields = .ok (.arr
      ((((c.select read stored).drop offset).take limit).map fun a =>
        Projection.project (c.toJson a) fields c.entityType)) := by
  have hshape : l.shape = .list := by
    have hread := paging_of_readArgs hread
    cases hshape : l.shape with
    | list => rfl
    | connection =>
        rw [hshape, hpaging] at hread
        obtain ⟨page, hpage⟩ := hread
        cases hpage
  have hcursors : read.paging.cursors = .ok (none, none) := by
    rw [hpaging]
    rfl
  rw [respond_eq, cut_eq hlisted hread hcursors]
  simp [Except.map, Cut.show, hshape, hpaging, Paging.Request.part]

/-- A connection shows the page of the window that is asked for. -/
theorem respond_page (hlisted : c.listing? name = some l) (hread : c.readArgs l args = .ok read)
    {page : Paging.PageArgs} (hpaging : read.paging = .page page)
    {positions : Option Nat × Option Nat} (hcursors : read.paging.cursors = .ok positions) :
    c.respond stored name args fields = .ok (Projection.project
      (Paging.page ((read.paging.part positions (c.select read stored)).map c.toJson)
        (read.paging.window positions (c.select read stored).length) (c.select read stored).length)
      fields c.pageType) := by
  have hshape : l.shape = .connection := by
    have hread := paging_of_readArgs hread
    cases hshape : l.shape with
    | connection => rfl
    | list =>
        rw [hshape, hpaging] at hread
        obtain ⟨offset, limit, hslice⟩ := hread
        cases hslice
  rw [respond_eq, cut_eq hlisted hread hcursors]
  simp [Except.map, Cut.show, hshape]

end Responses

end Catalogue

end DexCache
