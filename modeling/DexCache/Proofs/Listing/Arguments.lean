import DexCache.Listing.Pairs
import DexCache.Listing.Tokens
import DexCache.Proofs.Json.Given

/-!
# What the arguments of a listing say

The filters of a list stand among its arguments, those of a connection under an argument of their
own, as an object or as an array.  Null stands for nothing.  Here the filters, the sorting and the
paging are put together from what stands under their names, and arguments that are accepted are
read as just that.
-/

namespace DexCache

open Json (FieldReader FieldsReader Reader)
open Paging (PageArgs)

section Fields

theorem FieldReader.holds_oneOrMany (name : String) :
    (FieldReader.oneOrMany name).Holds (·.bind Json.texts?) := by
  refine ⟨fun v a ha => ?_, by simp [FieldReader.oneOrMany, FieldReader.default],
    by simp [FieldReader.oneOrMany, FieldReader.default]⟩
  cases v with
  | null | str s => exact (Except.ok.inj ha).symm
  | arr items =>
      simp only [FieldReader.oneOrMany, FieldReader.default, Reader.oneOrMany] at ha
      split at ha
      · next texts htexts =>
          obtain rfl := Except.ok.inj ha
          exact htexts.symm
      · cases ha
  | bool | int | float | obj => cases ha

theorem FieldReader.holds_amount (name : String) :
    (FieldReader.amount name).Holds (·.bind Json.amount?) := by
  refine ⟨fun v a ha => ?_, by simp [FieldReader.amount, FieldReader.default],
    by simp [FieldReader.amount, FieldReader.default]⟩
  cases v with
  | null => exact (Except.ok.inj ha).symm
  | bool | int | float | str | arr | obj =>
      simp only [FieldReader.amount, FieldReader.default, Reader.amount] at ha
      split at ha
      · next amount hamount =>
          simp only [Option.bind_some, hamount, Except.ok.inj ha]
      · cases ha

theorem FieldReader.holds_text (name : String) :
    (FieldReader.optional name .string).Holds (·.bind Json.str?) :=
  FieldReader.holds_optional Reader.holds_string rfl name

theorem FieldReader.holds_truth (name : String) :
    (FieldReader.optional name .boolean).Holds (·.bind Json.bool?) :=
  FieldReader.holds_optional Reader.holds_boolean rfl name

theorem FieldReader.holds_size (name : String) :
    (FieldReader.optional name .size).Holds (·.bind Json.count?) :=
  FieldReader.holds_optional Reader.holds_size rfl name

end Fields

/-! ### Filters -/

namespace PairFilter

/-- The fields of a filter of pairs, in the order in which an array holds them. -/
def names : List String :=
  ["addresses", "firstTokenID", "secondTokenID", "issuedLpToken", "state", "searchToken",
    "lpTokenIds", "hasFarms", "hasDualFarms", "minVolume", "minLockedValueUSD", "minTradesCount",
    "minTradesCount24h", "minDeployedAt"]

/-- The filter of pairs that is asked for by what stands under the names of its fields. -/
def said (given : String → Option Json) : PairFilter where
  addresses := (given "addresses").bind Json.texts?
  firstTokenId := (given "firstTokenID").bind Json.str?
  secondTokenId := (given "secondTokenID").bind Json.str?
  issuedLpToken := (given "issuedLpToken").bind Json.bool?
  state := (given "state").bind Json.texts?
  searchToken := (given "searchToken").bind Json.str?
  lpTokenIds := (given "lpTokenIds").bind Json.texts?
  hasFarms := (given "hasFarms").bind Json.bool?
  hasDualFarms := (given "hasDualFarms").bind Json.bool?
  minVolume := (given "minVolume").bind Json.amount?
  minLockedValueUSD := (given "minLockedValueUSD").bind Json.amount?
  minTradesCount :=
    (given "minTradesCount").bind fun v => v.int?.map fun i => UInt64.ofNat i.toNat
  minTradesCount24h :=
    (given "minTradesCount24h").bind fun v => v.int?.map fun i => UInt64.ofNat i.toNat
  minDeployedAt := (given "minDeployedAt").bind fun v => v.int?.map Int64.ofInt

theorem holds_reader :
    reader.Holds fun v => v.notNull?.map fun v => said (v.given? names) := by
  have hfields := FieldsReader.holds_pure PairFilter.mk
    |>.andField (FieldReader.holds_oneOrMany "addresses")
    |>.andField (FieldReader.holds_text "firstTokenID")
    |>.andField (FieldReader.holds_text "secondTokenID")
    |>.andField (FieldReader.holds_truth "issuedLpToken")
    |>.andField (FieldReader.holds_oneOrMany "state")
    |>.andField (FieldReader.holds_text "searchToken")
    |>.andField (FieldReader.holds_oneOrMany "lpTokenIds")
    |>.andField (FieldReader.holds_truth "hasFarms")
    |>.andField (FieldReader.holds_truth "hasDualFarms")
    |>.andField (FieldReader.holds_amount "minVolume")
    |>.andField (FieldReader.holds_amount "minLockedValueUSD")
    |>.andField (FieldReader.holds_optional Reader.holds_uint64 rfl "minTradesCount")
    |>.andField (FieldReader.holds_optional Reader.holds_uint64 rfl "minTradesCount24h")
    |>.andField (FieldReader.holds_optional Reader.holds_int64 rfl "minDeployedAt")
  exact hfields.record (by decide) _ _

end PairFilter

namespace TokenFilter

/-- The fields of a filter of tokens, in the order in which an array holds them. -/
def names : List String := ["identifiers", "type", "searchToken", "minLiquidity"]

/-- The filter of tokens that is asked for by what stands under the names of its fields. -/
def said (given : String → Option Json) : TokenFilter where
  identifiers := (given "identifiers").bind Json.texts?
  tokenType := (given "type").bind Json.str?
  searchToken := (given "searchToken").bind Json.str?
  minLiquidity := (given "minLiquidity").bind Json.amount?

theorem holds_reader :
    reader.Holds fun v => v.notNull?.map fun v => said (v.given? names) := by
  have hfields := FieldsReader.holds_pure TokenFilter.mk
    |>.andField (FieldReader.holds_oneOrMany "identifiers")
    |>.andField (FieldReader.holds_text "type")
    |>.andField (FieldReader.holds_text "searchToken")
    |>.andField (FieldReader.holds_amount "minLiquidity")
  exact hfields.record (by decide) _ _

end TokenFilter

/-! ### Sorting and paging -/

namespace Sorting

/-- The fields of a sorting, in the order in which an array holds them. -/
def names : List String := ["sortField", "sortOrder"]

/-- The sorting that is asked for by what stands under the names of its fields. -/
def said (given : String → Option Json) : Sorting where
  field := (given "sortField").bind Json.str?
  order := if (given "sortOrder").bind Json.variant? = some "DESC" then .descending else .ascending

theorem holds_order : (FieldReader.default "sortOrder" SortOrder.reader .ascending).Holds
    fun given => if given.bind Json.variant? = some "DESC" then .descending else .ascending := by
  refine ⟨fun v order h => ?_, by simp [FieldReader.default], by simp [FieldReader.default]⟩
  obtain ⟨name, hname, rfl⟩ := Outcome.map_eq_ok_iff.1 h
  simp [Reader.holds_unitVariant _ v name hname]

theorem holds_reader :
    reader.Holds fun v => v.notNull?.map fun v => said (v.given? names) := by
  have hfields := FieldsReader.holds_pure Sorting.mk
    |>.andField (FieldReader.holds_text "sortField")
    |>.andField holds_order
  exact hfields.record (by decide) _ _

end Sorting

namespace Paging.PageArgs

/-- The fields of a paging argument, in the order in which an array holds them. -/
def names : List String := ["first", "after", "last", "before"]

/-- The paging argument that is given by what stands under the names of its fields. -/
def said (given : String → Option Json) : PageArgs where
  first := (given "first").bind Json.count?
  after := (given "after").bind Json.str?
  last := (given "last").bind Json.count?
  before := (given "before").bind Json.str?

theorem holds_reader :
    reader.Holds fun v => v.notNull?.map fun v => said (v.given? names) := by
  have hfields := FieldsReader.holds_pure PageArgs.mk
    |>.andField (FieldReader.holds_size "first")
    |>.andField (FieldReader.holds_text "after")
    |>.andField (FieldReader.holds_size "last")
    |>.andField (FieldReader.holds_text "before")
  exact hfields.record (by decide) _ _

end Paging.PageArgs

/-! ### All arguments -/

/-- The arguments of a listing of this shape, its filters being put together from what stands under
the names of their fields. -/
def ListingArgs.said {F : Type} (shape : ListingShape) (names : List String)
    (filters : (String → Option Json) → F) (args : Json.Object) : ListingArgs F :=
  let given (argument : String) : Json := (args.get? argument).getD .null
  match shape with
  | .list => {
      filters := filters args.get?
      sorting := none
      paging := .slice (((given "offset").count?).getD 0)
        (((given "limit").count?).getD Catalogue.defaultLimit) }
  | .connection => {
      filters := filters ((given "filters").given? names)
      sorting := (given "sorting").notNull?.map fun v => Sorting.said (v.given? Sorting.names)
      paging := .page (PageArgs.said ((given "pagination").given? PageArgs.names)) }

namespace Catalogue

variable {α F K β : Type} {l : Listing} {args : Json.Object}

/-- An argument that was read is what it holds, and nothing where it is null or absent. -/
theorem argument_eq_said {name : String} {read : Reader β} {value? : Json → Option β}
    (hread : read.Holds value?) (hnull : value? .null = none) {found : Option β}
    (h : argument l args name read = .ok found) : found = value? ((args.get? name).getD .null) := by
  rw [argument, Outcome.mapError_eq_ok_iff] at h
  generalize (args.get? name).getD .null = v at h
  cases v with
  | null => exact (Except.ok.inj h).symm.trans hnull.symm
  | bool | int | float | str | arr | obj =>
      obtain ⟨b, hb, rfl⟩ := Outcome.map_eq_ok_iff.1 h
      exact (hread _ b hb).symm

/-- Arguments that are accepted are read as what they say. -/
theorem readArgs_eq_said {c : Catalogue α F K} {names : List String}
    {filters : (String → Option Json) → F}
    (hfilters : Reader.Holds c.filters fun v => v.notNull?.map fun v => filters (v.given? names))
    (hnone : c.noFilters = filters fun _ => none)
    (hsortable : l.sortable = decide (l.shape = .connection)) {read : ListingArgs F}
    (h : c.readArgs l args = .ok read) :
    read = ListingArgs.said l.shape names filters args := by
  obtain ⟨found, hfound, h⟩ := Outcome.bind_eq_ok_iff.1 h
  cases hshape : l.shape with
  | list =>
      simp only [hsortable, hshape, readFilters, reduceCtorEq, decide_false, Bool.false_eq_true,
        if_false] at hfound h
      obtain ⟨sorting, hsorting, h⟩ := Outcome.bind_eq_ok_iff.1 h
      obtain ⟨offset, hoffset, h⟩ := Outcome.bind_eq_ok_iff.1 h
      obtain ⟨limit, hlimit, h⟩ := Outcome.bind_eq_ok_iff.1 h
      obtain rfl := Except.ok.inj hsorting
      obtain rfl := argument_eq_said Reader.holds_size rfl hoffset
      obtain rfl := argument_eq_said Reader.holds_size rfl hlimit
      have hheld := hfilters _ _ (Outcome.mapError_eq_ok_iff.1 hfound)
      rw [← Except.ok.inj h, ← Option.some.inj hheld]
      rfl
  | connection =>
      simp only [hsortable, hshape, readFilters, decide_true, if_true] at hfound h
      obtain ⟨sorting, hsorting, h⟩ := Outcome.bind_eq_ok_iff.1 h
      obtain ⟨page, hpage, h⟩ := Outcome.bind_eq_ok_iff.1 h
      obtain ⟨asked, hasked, hfound⟩ := Outcome.bind_eq_ok_iff.1 hfound
      obtain rfl := argument_eq_said Sorting.holds_reader rfl hsorting
      obtain rfl := argument_eq_said PageArgs.holds_reader rfl hpage
      obtain rfl := argument_eq_said hfilters rfl hasked
      -- null holds nothing under any name, so what is absent asks for nothing
      have hdefault {γ : Type} (make : (String → Option Json) → γ) (names : List String)
          (v : Json) : (v.notNull?.map fun v => make (v.given? names)).getD (make fun _ => none) =
            make (v.given? names) := by
        cases v <;> rfl
      rw [← Except.ok.inj h, ← Except.ok.inj hfound, hnone, hdefault filters]
      have hpaging := hdefault PageArgs.said PageArgs.names ((args.get? "pagination").getD .null)
      rw [ListingArgs.said, ← hpaging]
      rfl

end Catalogue

end DexCache
