import DexCache.Proofs.Listing.Listed
import DexCache.Proofs.Query.Replaced
import DexCache.Proofs.Query.Shown
import DexCache.Proofs.Query.Spelling

/-!
# Least amounts in filters

A least amount may be asked for by a number or by its text.  The text counts for the number that
it writes, but a number is first read as a literal of the document.  So the two ask for the same
amount only where the literal is handed on as it was written: every integer of 64 bits is, a
longer or broken number is if it is the shortest decimal of the double nearest to it.  Anywhere
else there is an entity on which the two disagree.
-/

namespace DexCache

open Outcome (Both)
open Query (Field Frame Literal Numeral)

namespace Amount

/-- Both missing, or both there and of the same value. -/
def SameValue : Option Amount → Option Amount → Prop :=
  Option.Rel fun a b => a.value = b.value

theorem SameValue.refl (a : Option Amount) : SameValue a a := by
  cases a with
  | none => exact .none
  | some a => exact .some rfl

/-- What is at least an amount depends on its value alone. -/
theorem atLeast_congr {a b : Amount} (h : a.value = b.value) (text : Option String) :
    atLeast text a = atLeast text b := by
  rw [Bool.eq_iff_iff, atLeast_iff, atLeast_iff, Reaches, Reaches, h]

theorem SameValue.all_eq {a b : Option Amount} (h : SameValue a b) (text : Option String) :
    a.all (atLeast text) = b.all (atLeast text) := by
  cases h with
  | none => rfl
  | some h => exact atLeast_congr h text

end Amount

open Amount (SameValue)

/-- A filter that asks for a least amount. -/
inductive Threshold where
  | minVolume
  | minLockedValueUSD
  | minLiquidity
deriving DecidableEq

namespace Threshold

/-- The kind of entity that is filtered. -/
def kind : Threshold → EntityKind
  | .minVolume | .minLockedValueUSD => .pair
  | .minLiquidity => .token

/-- The listing that has the filter. -/
def listing : Threshold → String
  | .minVolume | .minLockedValueUSD => "filteredPairs"
  | .minLiquidity => "filteredTokens"

/-- The name of the filter. -/
def key : Threshold → String
  | .minVolume => "minVolume"
  | .minLockedValueUSD => "minLockedValueUSD"
  | .minLiquidity => "minLiquidity"

/-- Does a query leave this filter of its listing open? -/
structure Asks (t : Threshold) (q : Frame) : Prop where
  name : q.name = t.listing
  key : q.key = t.key

/-- Entries that may differ in the amount under the key of the filter. -/
def Alike (t : Threshold) (key : String) (v w : Json) : Prop :=
  v = w ∨ key = t.key ∧ Both SameValue (Json.Reader.amount v) (Json.Reader.amount w)

/-- Arguments that may differ in such an entry of the filters. -/
def ArgumentsAlike (t : Threshold) (key : String) (v w : Json) : Prop :=
  v = w ∨ key = "filters" ∧ ∃ o p, v = .obj o ∧ w = .obj p ∧ Json.Object.Entrywise t.Alike o p

section Reading

open Json (FieldReader FieldsReader Reader)

variable {t : Threshold} {α : Type}

theorem Alike.refl (t : Threshold) (key : String) (v : Json) : t.Alike key v v := .inl rfl

/-- A field of another name is read from the same value. -/
theorem respects_other {f : FieldReader α} (h : f.name ≠ t.key) : f.Respects Eq t.Alike := by
  refine ⟨?_, fun _ _ => rfl⟩
  rintro v w (rfl | ⟨hkey, -⟩)
  · exact Outcome.both_eq_iff.2 rfl
  · exact absurd hkey h

/-- An amount is read as one of the same value. -/
theorem respects_amount (name : String) :
    (FieldReader.amount name).Respects SameValue t.Alike := by
  refine ⟨?_, fun a _ => .refl a⟩
  rintro v w (rfl | ⟨-, h⟩)
  · change Both SameValue (Reader.amount v) (Reader.amount v)
    cases Reader.amount v with
    | ok a => exact .ok (.refl a)
    | error e => exact .error e
  · exact h

/-- The filters of pairs check alike. -/
theorem pairFilter_both (ht : t.kind = .pair) {o p : Json.Object}
    (h : Json.Object.Entrywise t.Alike o p) :
    Both (fun f g : PairFilter => f.predicates = g.predicates) (PairFilter.reader (.obj o))
      (PairFilter.reader (.obj p)) := by
  have hother {β : Type} {f : FieldReader β} (hf : f.name ≠ "minVolume" ∧
      f.name ≠ "minLockedValueUSD") : f.Respects Eq t.Alike := by
    refine respects_other ?_
    cases t with
    | minVolume => exact hf.1
    | minLockedValueUSD => exact hf.2
    | minLiquidity => cases ht
  refine FieldsReader.Respects.ofEntries ?_ h
  refine ((((((((((((((FieldsReader.respects_pure ?_).andField (hother (by decide))).andField
    (hother (by decide))).andField (hother (by decide))).andField (hother (by decide))).andField
    (hother (by decide))).andField (hother (by decide))).andField (hother (by decide))).andField
    (hother (by decide))).andField (hother (by decide))).andField (respects_amount _)).andField
    (respects_amount _)).andField (hother (by decide))).andField (hother (by decide))).andField
    (hother (by decide))
  rintro _ _ rfl _ _ rfl _ _ rfl _ _ rfl _ _ rfl _ _ rfl _ _ rfl _ _ rfl _ _ rfl a b hvolume c d
    hlocked _ _ rfl _ _ rfl _ _ rfl
  simp only [PairFilter.predicates, hvolume.all_eq, hlocked.all_eq]
  rfl

/-- The filters of tokens check alike. -/
theorem tokenFilter_both (ht : t.kind = .token) {o p : Json.Object}
    (h : Json.Object.Entrywise t.Alike o p) :
    Both (fun f g : TokenFilter => f.predicates = g.predicates) (TokenFilter.reader (.obj o))
      (TokenFilter.reader (.obj p)) := by
  have hother {β : Type} {f : FieldReader β} (hf : f.name ≠ "minLiquidity") :
      f.Respects Eq t.Alike := by
    refine respects_other ?_
    cases t with
    | minVolume => cases ht
    | minLockedValueUSD => cases ht
    | minLiquidity => exact hf
  refine FieldsReader.Respects.ofEntries ?_ h
  refine ((((FieldsReader.respects_pure ?_).andField (hother (by decide))).andField
    (hother (by decide))).andField (hother (by decide))).andField (respects_amount _)
  rintro _ _ rfl _ _ rfl _ _ rfl a b hliquidity
  simp only [TokenFilter.predicates, hliquidity.all_eq]

end Reading

section Answering

variable {t : Threshold} {F K α : Type}

/-- Arguments other than the filters are the same. -/
theorem argument_eq {args args' : Json.Object} {β : Type}
    (h : Json.Object.Entrywise t.ArgumentsAlike args args') (l : Listing) {name : String}
    (hname : name ≠ "filters") (read : Json.Reader β) :
    Catalogue.argument l args name read = Catalogue.argument l args' name read := by
  have hsame : args.get? name = args'.get? name := by
    have hvalues := h.get? name
    revert hvalues
    generalize args.get? name = value, args'.get? name = value'
    rintro (⟨rfl | ⟨hfilters, -⟩⟩ | _)
    · rfl
    · exact absurd hfilters hname
    · rfl
  rw [Catalogue.argument, Catalogue.argument, hsame]

/-- The filters of a listing are read alike. -/
theorem readFilters_both {c : Catalogue α F K} {S : F → F → Prop} (hrefl : ∀ f, S f f)
    (hfilters : ∀ o p, Json.Object.Entrywise t.Alike o p →
      Both S (c.filters (.obj o)) (c.filters (.obj p))) {l : Listing}
    (hl : l.shape = .connection) {args args' : Json.Object}
    (h : Json.Object.Entrywise t.ArgumentsAlike args args') :
    Both S (c.readFilters l args) (c.readFilters l args') := by
  have hargument : Both (Option.Rel S) (Catalogue.argument l args "filters" c.filters)
      (Catalogue.argument l args' "filters" c.filters) := by
    refine Both.mapError ?_ _
    have hsame (v : Json) : Both (Option.Rel S) (Json.Reader.optional c.filters v)
        (Json.Reader.optional c.filters v) := by
      cases Json.Reader.optional c.filters v with
      | error e => exact .error e
      | ok f =>
          cases f with
          | none => exact .ok .none
          | some f => exact .ok (.some (hrefl f))
    have hvalues := h.get? "filters"
    revert hvalues
    generalize args.get? "filters" = value, args'.get? "filters" = value'
    rintro (⟨rfl | ⟨-, o, p, rfl, rfl, hop⟩⟩ | _)
    · exact hsame _
    · exact (hfilters o p hop).map fun f g hfg => .some hfg
    · exact hsame _
  simp only [Catalogue.readFilters, hl]
  refine hargument.bind ?_
  rintro _ _ (⟨hfg⟩ | _)
  · exact .ok hfg
  · exact .ok (hrefl _)

/-- All arguments are read alike. -/
theorem readArgs_both {c : Catalogue α F K} {S : F → F → Prop} (hrefl : ∀ f, S f f)
    (hfilters : ∀ o p, Json.Object.Entrywise t.Alike o p →
      Both S (c.filters (.obj o)) (c.filters (.obj p))) {l : Listing}
    (hl : l.shape = .connection) {args args' : Json.Object}
    (h : Json.Object.Entrywise t.ArgumentsAlike args args') :
    Both (fun a b => S a.filters b.filters ∧ a.sorting = b.sorting ∧ a.paging = b.paging)
      (c.readArgs l args) (c.readArgs l args') := by
  have hpage := argument_eq h l (show "pagination" ≠ "filters" by decide) Paging.PageArgs.reader
  have hsorting := argument_eq h l (show "sorting" ≠ "filters" by decide) Sorting.reader
  simp only [Catalogue.readArgs, hl, hpage, hsorting]
  refine (readFilters_both hrefl hfilters hl h).bind fun f g hfg => ?_
  split
  · exact .bind_same fun _ => .bind_same fun _ => .bind_same fun _ => .ok ⟨hfg, rfl, rfl⟩
  · exact .bind_same fun _ => .bind_same fun _ => .bind_same fun _ => .ok ⟨hfg, rfl, rfl⟩

/-- A listing answers alike. -/
theorem respond_eq {c : Catalogue α F K} {name : String}
    (hfilters : ∀ o p, Json.Object.Entrywise t.Alike o p →
      Both (fun f g => c.predicates f = c.predicates g) (c.filters (.obj o)) (c.filters (.obj p)))
    (hshape : ∀ l ∈ c.listing? name, l.shape = .connection) {args args' : Json.Object}
    (h : Json.Object.Entrywise t.ArgumentsAlike args args') (entities : List α)
    (fields : List Field) :
    c.respond entities name args fields = c.respond entities name args' fields := by
  unfold Catalogue.respond
  cases hlisting : c.listing? name with
  | none => rfl
  | some l =>
      have hread := readArgs_both (S := fun f g => c.predicates f = c.predicates g)
        (fun _ => rfl) hfilters (hshape l hlisting) h
      refine Outcome.both_eq_iff.1 (hread.bind ?_)
      rintro ⟨f, sorting, paging⟩ ⟨g, _, _⟩ ⟨hfg, rfl, rfl⟩
      have hselect : c.select ⟨f, sorting, paging⟩ entities =
          c.select ⟨g, sorting, paging⟩ entities := by
        rw [Catalogue.select, Catalogue.select, hfg]
      rw [Outcome.both_eq_iff, hselect]

/-- A store answers alike. -/
theorem store_respond_eq (s : Store) {args args' : Json.Object}
    (h : Json.Object.Entrywise t.ArgumentsAlike args args') (fields : List Field) :
    s.respond t.kind t.listing args fields = s.respond t.kind t.listing args' fields := by
  have hpairs : ∀ l ∈ pairCatalogue.listing? "filteredPairs", l.shape = .connection := by
    rintro l ⟨rfl⟩
    rfl
  have htokens : ∀ l ∈ tokenCatalogue.listing? "filteredTokens", l.shape = .connection := by
    rintro l ⟨rfl⟩
    rfl
  cases t with
  | minVolume => exact respond_eq (fun _ _ => pairFilter_both rfl) hpairs h _ fields
  | minLockedValueUSD => exact respond_eq (fun _ _ => pairFilter_both rfl) hpairs h _ fields
  | minLiquidity => exact respond_eq (fun _ _ => tokenFilter_both rfl) htokens h _ fields

end Answering

end Threshold

/-- The answer of a document that selects one listing of this kind, if there is one. -/
def Store.listed (s : Store) (kind : EntityKind) (supplied : Json.Object) (document : String) :
    Option Json :=
  match Query.Operation.parse document with
  | .ok { selections := [f], .. } =>
    (f.argumentsJson supplied >>= fun arguments =>
      s.respond kind f.name arguments f.subfields).toOption
  | _ => none

namespace Threshold

/-- Does a query list the same with a number and with its text in the open place? -/
def Agrees (t : Threshold) (s : Store) (q : Frame) (number : String) : Prop :=
  ∀ (plain quoted : String) (supplied : Json.Object),
    Query.Layout (q.tokens [number.toList]) plain.toList →
    Query.Layout (q.tokens ['"' :: (number.toList ++ ['"'])]) quoted.toList →
    s.listed t.kind supplied plain = s.listed t.kind supplied quoted

section Documents

variable {t : Threshold} {q : Frame} {n : Numeral}

theorem listed_eq {l : Literal} {spelling : List (List Char)} {document : String} (s : Store)
    (supplied : Json.Object) (hq : q.Writable) (hl : Query.Spells spelling l)
    (hne : ∀ token ∈ spelling, token ≠ [])
    (h : Query.Layout (q.tokens spelling) document.toList) :
    s.listed t.kind supplied document =
      ((q.field l).argumentsJson supplied >>= fun arguments =>
        s.respond t.kind q.name arguments q.subfields).toOption := by
  rw [Store.listed, Query.Operation.parse, hq.document_eq hl hne h]
  rfl

/-- An exact numeral is the same amount as its text. -/
theorem literal_both (h : n.Exact) (supplied : Json.Object) :
    Both (t.Alike t.key) (n.literal.toJson supplied)
      ((Literal.str n.text).toJson supplied) := by
  obtain ⟨v, read, hjson, hread, hvalue⟩ := n.exists_amount supplied
  rw [h.2] at hvalue
  obtain ⟨a, rfl, ha⟩ := Option.map_eq_some_iff.1 hvalue
  have htext : Json.Reader.amount (.str n.text) = .ok (some (.ofNumeral n)) := by
    simp [Json.Reader.amount, Json.amount?, Amount.ofText?_numeral, h.1]
  rw [hjson, Literal.toJson]
  refine .ok (.inr ⟨rfl, ?_⟩)
  rw [hread, htext]
  exact .ok (.some (by rw [ha, Amount.value_ofNumeral]))

/-- Around literals that are alike the arguments are alike. -/
theorem arguments_both (hq : t.Asks q) {l m : Literal} {supplied : Json.Object}
    (h : Both (t.Alike t.key) (l.toJson supplied) (m.toJson supplied)) :
    Both (Json.Object.Entrywise t.ArgumentsAlike) ((q.field l).argumentsJson supplied)
      ((q.field m).argumentsJson supplied) := by
  rw [← hq.key] at h
  refine Literal.fieldsToJson_both supplied ?_ .nil
  refine Literal.forall₂_around supplied (fun _ _ => .inl rfl) q.before q.after ?_
  rw [Frame.filters, Frame.filters, Literal.toJson, Literal.toJson]
  refine Both.map (Literal.fieldsToJson_both supplied
    (Literal.forall₂_around supplied (Alike.refl t) q.filtersBefore q.filtersAfter h) .nil) ?_
  exact fun o p hop => .inr ⟨rfl, o, p, rfl, rfl, hop⟩

/-- Every query lists the same with an exact numeral and with its text. -/
theorem agrees_of_exact (h : n.Exact) (s : Store) (hq : t.Asks q) (hq' : q.Writable) :
    t.Agrees s q n.text := by
  intro plain quoted supplied hplain hquoted
  rw [Numeral.text, String.toList_ofList] at hplain hquoted
  rw [listed_eq s supplied hq' (Query.spells_numeral n) (by simpa using n.chars_ne_nil) hplain,
    listed_eq s supplied hq' (Query.spells_quoted n) (by simp) hquoted]
  refine congrArg Except.toOption (Outcome.both_eq_iff.1 ?_)
  refine (arguments_both hq (literal_both h supplied)).bind fun args args' hargs => ?_
  rw [Outcome.both_eq_iff, hq.name]
  exact store_respond_eq s hargs q.subfields

end Documents

section Disagreeing

/-- The field that identifies an entity. -/
def identifier (t : Threshold) : String :=
  match t.kind with
  | .pair => "address"
  | .token => "identifier"

/-- The query for the identifiers alone. -/
def plain (t : Threshold) : Frame where
  name := t.listing
  key := t.key
  subfields := [{ name := "edges", subfields := [{ name := "node", subfields := [
    { name := t.identifier }] }] }]

/-- A pair with this text where the filter looks. -/
def pair (t : Threshold) (text : Option String) : Pair :=
  match t with
  | .minVolume => { address := "a", analytics := { volumeUSD24h := text } }
  | _ => { address := "a", prices := { lockedValueUSD := text } }

/-- A token with this text where the filter looks. -/
def token (text : Option String) : Token :=
  { identifier := "a", analytics := { liquidityUSD := text } }

/-- A store of one entity of each kind, with this text where the filter looks. -/
def store (t : Threshold) (text : Option String) : Store where
  pairs := Collection.put { thresholds := {} } (t.pair text) 0
  tokens := Collection.put { thresholds := {} } (token text) 0

variable {t : Threshold} {v : Json}

section Single

variable {F K α : Type} {c : Catalogue α F K} {name : String} {l : Listing} {o : Json.Object}

/-- The page of a single entity that is admitted or not. -/
def singlePage (c : Catalogue α F K) (e : α) (fields : List Field) (admitted : Bool) : Json :=
  let kept := if admitted then [e] else []
  Projection.project (Paging.page (kept.map c.toJson)
    (.between none none none none kept.length Catalogue.defaultPageSize) kept.length) fields
    c.pageType

/-- The answer of a listing over a single entity. -/
theorem respond_single (hlisting : c.listing? name = some l) (hl : l.shape = .connection) {f : F}
    (hfilters : c.filters (.obj o) = .ok f) {e : α} {admitted : Bool}
    (hadmitted : (c.predicates f).all (· e) = admitted) (fields : List Field) :
    c.respond [e] name [("filters", .obj o)] fields =
      .ok (singlePage c e fields admitted) := by
  have hread : c.readArgs l [("filters", .obj o)] = .ok ⟨f, none, .page {}⟩ := by
    simp [Catalogue.readArgs, Catalogue.readFilters, hl, Catalogue.argument, Json.Object.get?,
      Json.Reader.optional, hfilters, Except.map, Except.mapError, bind, Except.bind, pure,
      Except.pure]
  have hselect : c.select ⟨f, none, .page {}⟩ [e] = if admitted then [e] else [] := by
    rw [Catalogue.select, Catalogue.keep_eq_filter, List.filter_singleton, hadmitted]
    cases admitted with
    | true => rfl
    | false => rfl
  have hwindow (total : Nat) : Paging.Window.ofArgs {} total Catalogue.defaultPageSize =
      .ok (.between none none none none total Catalogue.defaultPageSize) := rfl
  rw [Catalogue.respond, hlisting]
  simp only [hread, bind, Except.bind, hselect, hwindow, Except.mapError]
  cases admitted with
  | true => rfl
  | false => rfl

/-- Filters that cannot be read are refused. -/
theorem respond_refused (hlisting : c.listing? name = some l) (hl : l.shape = .connection)
    {fault : Json.Fault} (hfilters : c.filters (.obj o) = .error fault) (entities : List α)
    (fields : List Field) :
    (c.respond entities name [("filters", .obj o)] fields).toOption = none := by
  simp [Catalogue.respond, hlisting, Catalogue.readArgs, Catalogue.readFilters, hl,
    Catalogue.argument, Json.Object.get?, Json.Reader.optional, hfilters, Except.map,
    Except.mapError, bind, Except.bind, Except.toOption]

/-- The answer where the filters ask for a least amount and for nothing else. -/
theorem respond_amount (hlisting : c.listing? name = some l) (hl : l.shape = .connection)
    {make : Option Amount → F} (hfilters : c.filters (.obj o) = (Json.Reader.amount v).map make)
    {e : α} {text : Option String} (hadmitted : ∀ read,
      (c.predicates (make read)).all (· e) = read.all (Amount.atLeast text)) (fields : List Field) :
    (c.respond [e] name [("filters", .obj o)] fields).toOption =
      (Json.Reader.amount v).toOption.map fun read =>
        singlePage c e fields (read.all (Amount.atLeast text)) := by
  cases hread : Json.Reader.amount v with
  | error fault =>
      rw [hread] at hfilters
      exact respond_refused hlisting hl hfilters [e] fields
  | ok read =>
      rw [hread] at hfilters
      exact congrArg Except.toOption
        (respond_single hlisting hl hfilters (hadmitted read) fields)

end Single

/-- A pair filter of a single amount. -/
theorem pair_filters (v : Json) :
    PairFilter.reader (.obj [("minVolume", v)]) =
        (Json.Reader.amount v).map ({ minVolume := · }) ∧
      PairFilter.reader (.obj [("minLockedValueUSD", v)]) =
        (Json.Reader.amount v).map ({ minLockedValueUSD := · }) := by
  constructor
  all_goals
    cases hread : Json.Reader.amount v
    all_goals
      simp [PairFilter.reader, Json.Reader.record, Json.FieldsReader.ofEntries,
        Json.FieldsReader.andField, Json.FieldsReader.pure, hread, Json.FieldReader.amount,
        Json.FieldReader.optional, Json.FieldReader.oneOrMany, Json.FieldReader.default,
        Json.Object.get?, List.forM, Except.map, bind, Except.bind, pure, Except.pure]

/-- A token filter of a single amount. -/
theorem token_filters (v : Json) :
    TokenFilter.reader (.obj [("minLiquidity", v)]) =
      (Json.Reader.amount v).map ({ minLiquidity := · }) := by
  cases hread : Json.Reader.amount v
  all_goals
    simp [TokenFilter.reader, Json.Reader.record, Json.FieldsReader.ofEntries,
      Json.FieldsReader.andField, Json.FieldsReader.pure, hread, Json.FieldReader.amount,
      Json.FieldReader.optional, Json.FieldReader.oneOrMany, Json.FieldReader.default,
      Json.Object.get?, List.forM, Except.map, bind, Except.bind, pure, Except.pure]

/-- The page that lists the entity, or nothing. -/
def page (t : Threshold) (admitted : Bool) : Json :=
  .obj [("edges", .arr (if admitted then
    [.obj [("node", .obj [(t.identifier, .str "a")])]] else []))]

/-- What the store of one entity answers where the filter asks for a least amount. -/
theorem respond_store (t : Threshold) (v : Json) (text : Option String) :
    ((t.store text).respond t.kind t.listing [("filters", .obj [(t.key, v)])]
      t.plain.subfields).toOption =
        (Json.Reader.amount v).toOption.map fun read =>
          t.page (read.all (Amount.atLeast text)) := by
  have hpairs : pairCatalogue.listing? "filteredPairs" = some pairCatalogue.listings[1] := rfl
  have htokens : tokenCatalogue.listing? "filteredTokens" = some tokenCatalogue.listings[1] := rfl
  cases t with
  | minVolume =>
      have hadmitted (read : Option Amount) : (PairFilter.predicates { minVolume := read }).all
          (· (pair .minVolume text)) = read.all (Amount.atLeast text) := by
        simp [PairFilter.predicates, PairFilter.sidesMatch, pair]
      refine (respond_amount hpairs rfl (pair_filters v).1 hadmitted _).trans ?_
      refine congrArg (Option.map · _) (funext fun read => ?_)
      cases read.all (Amount.atLeast text) <;> rfl
  | minLockedValueUSD =>
      have hadmitted (read : Option Amount) :
          (PairFilter.predicates { minLockedValueUSD := read }).all
            (· (pair .minLockedValueUSD text)) = read.all (Amount.atLeast text) := by
        simp [PairFilter.predicates, PairFilter.sidesMatch, pair]
      refine (respond_amount hpairs rfl (pair_filters v).2 hadmitted _).trans ?_
      refine congrArg (Option.map · _) (funext fun read => ?_)
      cases read.all (Amount.atLeast text) <;> rfl
  | minLiquidity =>
      have hadmitted (read : Option Amount) :
          (TokenFilter.predicates { minLiquidity := read }).all (· (token text)) =
            read.all (Amount.atLeast text) := by
        simp [TokenFilter.predicates, token]
      refine (respond_amount htokens rfl (token_filters v) hadmitted _).trans ?_
      refine congrArg (Option.map · _) (funext fun read => ?_)
      cases read.all (Amount.atLeast text) <;> rfl

theorem writable_plain (t : Threshold) : t.plain.Writable := by
  cases t
  all_goals exact ⟨rfl, by decide, rfl, rfl, rfl, rfl, by decide, by decide, by decide⟩

theorem page_injective (t : Threshold) : Function.Injective t.page := by
  intro a b h
  cases a <;> cases b <;> simp_all [page]

/-- What the plain query lists over one entity. -/
theorem listed_store (text : Option String) {l : Literal} {spelling : List (List Char)}
    {document : String} (hjson : l.toJson [] = .ok v) (hl : Query.Spells spelling l)
    (hne : ∀ token ∈ spelling, token ≠ [])
    (h : Query.Layout (t.plain.tokens spelling) document.toList) :
    (t.store text).listed t.kind [] document = (Json.Reader.amount v).toOption.map fun read =>
      t.page (read.all (Amount.atLeast text)) := by
  have harguments : (t.plain.field l).argumentsJson [] =
      .ok [("filters", .obj [(t.key, v)])] := by
    simp [Frame.field, Frame.filters, plain, Query.Field.argumentsJson, Literal.fieldsToJson,
      Literal.toJson, hjson, Except.map, bind, Except.bind, Json.Object.insert]
  rw [listed_eq _ [] t.writable_plain hl hne h, harguments]
  exact respond_store t v text

/-- Where the plain query lists the same in every store, the numeral is exact. -/
theorem exact_of_agrees {n : Numeral} (h : ∀ s, t.Agrees s t.plain n.text) : n.Exact := by
  obtain ⟨v, read, hjson, hread, hshown⟩ := n.exists_amount []
  have htext : (Json.Reader.amount (.str n.text)).toOption =
      if n.InRange then some (some (.ofNumeral n)) else none := by
    by_cases hrange : n.InRange
    all_goals
      simp [Json.Reader.amount, Json.amount?, Amount.ofText?_numeral, hrange, Except.toOption]
  -- the same store is asked in both ways, in any layout
  have hpages (text : Option String) : some (t.page (read.all (Amount.atLeast text))) =
      if n.InRange then some (t.page (Amount.atLeast text (.ofNumeral n))) else none := by
    have hlayout (spelling : List (List Char)) : Query.Layout (t.plain.tokens spelling)
        (String.ofList (Query.spaced (t.plain.tokens spelling))).toList := by
      rw [String.toList_ofList]
      exact .spaced _
    have hplain := listed_store text hjson (Query.spells_numeral n) (by simpa using n.chars_ne_nil)
      (hlayout _)
    have hquoted := listed_store text rfl (Query.spells_quoted n) (by simp) (hlayout _)
    have hsame := h (t.store text) _ _ [] (hlayout [n.text.toList])
      (hlayout ['"' :: (n.text.toList ++ ['"'])])
    rw [Numeral.text, String.toList_ofList, hplain, hquoted, hread, htext] at hsame
    refine hsame.trans ?_
    split
    · rfl
    · rfl
  have hrange : n.InRange := by
    by_contra hout
    have hnone := hpages none
    rw [if_neg hout] at hnone
    cases hnone
  have hadmits (text : Option String) :
      read.all (Amount.atLeast text) = Amount.atLeast text (.ofNumeral n) := by
    have hpage := hpages text
    rw [if_pos hrange] at hpage
    exact t.page_injective (Option.some.inj hpage)
  refine ⟨hrange, ?_⟩
  cases read with
  | none =>
      -- without a least amount the entity is listed, though it has no amount
      cases hadmits none
  | some a =>
      have hself {text : String} {b : Amount} (hb : Amount.ofText? text = some b) :
          a.value ≤ b.value ↔ n.value ≤ b.value := by
        have hboth := hadmits (some text)
        rw [Option.all_some, Bool.eq_iff_iff, Amount.atLeast_iff, Amount.atLeast_iff] at hboth
        simpa [Amount.Reaches, hb] using hboth
      obtain ⟨text, b, hb, hvalue⟩ := n.exists_text hshown.symm
      have hwritten := hself (show Amount.ofText? n.text = some (.ofNumeral n) by
        rw [Amount.ofText?_numeral, if_pos hrange])
      have hread := hself hb
      rw [Amount.value_ofNumeral] at hwritten
      rw [hvalue] at hread
      rw [← hshown, Option.map_some, le_antisymm (hwritten.2 le_rfl) (hread.1 le_rfl)]

end Disagreeing

/-- A number and its text ask for the same least amount, in every store and by every query, if
and only if the number is exact, and the plain query already tells the two apart otherwise.  Every
integer of 64 bits is exact. -/
theorem agrees_iff {number : String} {l : Literal}
    (h : Query.number? number.toList = some (l, [])) :
    ∃ n : Numeral, n.text = number ∧ n.literal = l ∧ (∀ i, l = .int i → n.Exact) ∧
      ∀ t : Threshold,
        ((∀ (s : Store) (q : Frame), t.Asks q → q.Writable → t.Agrees s q number) ↔ n.Exact) ∧
        ((∀ s : Store, t.Agrees s t.plain number) ↔ n.Exact) := by
  obtain ⟨n, hchars, rfl⟩ := Query.exists_numeral h
  have htext : n.text = number := by
    rw [Numeral.text, ← List.append_nil n.chars, ← hchars, String.ofList_toList]
  refine ⟨n, htext, rfl, fun i hi => n.exact_of_int hi, fun t => ?_⟩
  rw [← htext]
  have hasks : t.Asks t.plain := ⟨rfl, rfl⟩
  refine ⟨⟨fun hall => ?_, fun hexact s q => agrees_of_exact hexact s⟩,
    fun hplain => exact_of_agrees hplain, fun hexact s => ?_⟩
  · exact exact_of_agrees fun s => hall s t.plain hasks t.writable_plain
  · exact agrees_of_exact hexact s hasks t.writable_plain

/-- One past the integers of 64 bits a number is handed on as its double's shortest decimal. -/
theorem agrees_iff_pastInt64 :
    (∃ d, Query.number? "9223372036854775809".toList = some (.float d, []) ∧
      d.shown? = some 9223372036854776000) ∧
    ∀ t : Threshold, ¬ ∀ s : Store, t.Agrees s t.plain "9223372036854775809" := by
  have hnumber : Query.number? "9223372036854775809".toList =
      some (.float (Double.ofScientific false 9223372036854775809 0), []) := rfl
  have hshown : (Double.ofScientific false 9223372036854775809 0).shown? =
      some 9223372036854776000 := by
    have hindex : Double.ofScientific false 9223372036854775809 0 =
        .finite false ⟨4890909195324358656, by decide⟩ := by decide +kernel
    have hshortest : Decimal.shortest Decimal.Form.body.tie 4890909195324358656 =
        (9223372036854776, 3) := by decide +kernel
    rw [hindex, Double.shown?, if_neg (by decide), hshortest]
    norm_num
  refine ⟨⟨_, hnumber, hshown⟩, fun t hall => ?_⟩
  obtain ⟨n, htext, hl, -, hiff⟩ := agrees_iff hnumber
  obtain ⟨hrange, hexact⟩ := (hiff t).2.1 hall
  have hread : Amount.ofText? n.text = some ⟨9223372036854775809, 0⟩ := by
    rw [htext]
    decide +kernel
  rw [Amount.ofText?_numeral, if_pos hrange] at hread
  have hvalue : n.value = 9223372036854775809 := by
    rw [← Amount.value_ofNumeral, Option.some.inj hread]
    norm_num [Amount.value]
  rw [hl, Literal.shown?, hshown, hvalue] at hexact
  norm_num at hexact

end Threshold

end DexCache
