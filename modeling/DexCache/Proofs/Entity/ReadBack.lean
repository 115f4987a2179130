import DexCache.Proofs.Entity.Groups
import DexCache.Proofs.Json.Respelled

/-!
# Snapshots are read back

The groups of a snapshot share the keys of one object, and a pair holds whole tokens.  Each field is
read back from its key in every spelling of the object, so each group is, and so is the snapshot.
The only loss would be a fee that is no finite number, since it is written as null.
-/

namespace DexCache

open Json (FieldReader FieldsReader Object Reader Respells)

section Fields

variable {o : Object} {name : String}

theorem takes_text {text? : Option String} (h : o.get? name = some (.ofText text?)) :
    (FieldReader.optional name .string).Takes o text? :=
  FieldReader.takes_optional h fun text _ => Reader.takes_string text

theorem takes_truth {truth? : Option Bool} (h : o.get? name = some (.ofBool truth?)) :
    (FieldReader.optional name .boolean).Takes o truth? :=
  FieldReader.takes_optional h fun truth _ => Reader.takes_boolean truth

theorem takes_count {count? : Option UInt64}
    (h : o.get? name = some (.ofOption (fun n => .ofNat n.toNat) count?)) :
    (FieldReader.optional name .uint64).Takes o count? :=
  FieldReader.takes_optional h fun count _ => Reader.takes_uint64 count

theorem takes_finite {d? : Option Double} (h : o.get? name = some (.ofDouble d?))
    (hfinite : ∀ d ∈ d?, d.isFinite = true) : (FieldReader.optional name .double).Takes o d? :=
  FieldReader.takes_optional h fun d hd => Reader.takes_double (hfinite d hd)

end Fields

section Groups

variable {o : Object}

theorem TokenAssets.takes (a : TokenAssets) (buffered : Bool) :
    (TokenAssets.reader buffered).Takes a.toJson a := by
  refine FieldsReader.takes_record (by simp [Object.keys]) fun h => ?_
  simp only [Object.Shows, List.forall_mem_cons] at h
  obtain ⟨website, description, status, pngURL, svgURL, -⟩ := h
  exact FieldsReader.takes_pure TokenAssets.mk _
    |>.andField (takes_text website)
    |>.andField (takes_text description)
    |>.andField (takes_text status)
    |>.andField (takes_text pngURL)
    |>.andField (takes_text svgURL)

theorem TokenMetadata.takes {m : TokenMetadata} (h : o.Shows m.entries) (buffered : Bool) :
    (TokenMetadata.fields buffered).Takes o m := by
  simp only [Object.Shows, entries, List.forall_mem_cons] at h
  obtain ⟨name, ticker, decimals, tokenType, createdAt, assets, -⟩ := h
  exact FieldsReader.takes_pure TokenMetadata.mk o
    |>.andField (takes_text name)
    |>.andField (takes_text ticker)
    |>.andField (FieldReader.takes_optional decimals fun n _ => Reader.takes_uint32 n)
    |>.andField (takes_text tokenType)
    |>.andField (takes_text createdAt)
    |>.andField (FieldReader.takes_optional assets fun a _ => a.takes buffered)

theorem TokenPrices.takes {p : TokenPrices} (h : o.Shows p.entries) :
    TokenPrices.fields.Takes o p := by
  simp only [Object.Shows, entries, List.forall_mem_cons] at h
  obtain ⟨price, derivedEGLD, previous24hPrice, priceChange24h, -⟩ := h
  exact FieldsReader.takes_pure TokenPrices.mk o
    |>.andField (takes_text price)
    |>.andField (takes_text derivedEGLD)
    |>.andField (takes_text previous24hPrice)
    |>.andField (takes_text priceChange24h)

theorem TokenAnalytics.takes {a : TokenAnalytics} (h : o.Shows a.entries) :
    TokenAnalytics.fields.Takes o a := by
  simp only [Object.Shows, entries, List.forall_mem_cons] at h
  obtain ⟨volumeUSD24h, previous24hVolume, liquidityUSD, swapCount24h, trendingScore, -⟩ := h
  exact FieldsReader.takes_pure TokenAnalytics.mk o
    |>.andField (takes_text volumeUSD24h)
    |>.andField (takes_text previous24hVolume)
    |>.andField (takes_text liquidityUSD)
    |>.andField (takes_count swapCount24h)
    |>.andField (takes_text trendingScore)

theorem PairReserves.takes (r : PairReserves) (buffered : Bool) :
    (PairReserves.reader buffered).Takes r.toJson r := by
  refine FieldsReader.takes_record (by simp [Object.keys]) fun h => ?_
  simp only [Object.Shows, List.forall_mem_cons] at h
  obtain ⟨reserve0, reserve1, totalSupply, -⟩ := h
  exact FieldsReader.takes_pure PairReserves.mk _
    |>.andField (FieldReader.takes_required reserve0 (Reader.takes_string _))
    |>.andField (FieldReader.takes_required reserve1 (Reader.takes_string _))
    |>.andField (FieldReader.takes_required totalSupply (Reader.takes_string _))

/-- Are the fees finite numbers? -/
structure PairInfo.Finite (i : PairInfo) : Prop where
  total : ∀ d ∈ i.totalFeePercent, d.isFinite = true
  special : ∀ d ∈ i.specialFeePercent, d.isFinite = true

theorem PairInfo.takes {i : PairInfo} (hfinite : i.Finite) (h : o.Shows i.entries)
    (buffered : Bool) : (PairInfo.fields buffered).Takes o i := by
  simp only [Object.Shows, entries, List.forall_mem_cons] at h
  obtain ⟨info, state, pairType, totalFee, specialFee, trusted, -⟩ := h
  exact FieldsReader.takes_pure PairInfo.mk o
    |>.andField (FieldReader.takes_optional info fun r _ => r.takes buffered)
    |>.andField (takes_text state)
    |>.andField (takes_text pairType)
    |>.andField (takes_finite totalFee hfinite.total)
    |>.andField (takes_finite specialFee hfinite.special)
    |>.andField (FieldReader.takes_optional trusted fun texts _ =>
      Reader.takes_list fun text _ => Reader.takes_string text)

theorem PairPrices.takes {p : PairPrices} (h : o.Shows p.entries) :
    PairPrices.fields.Takes o p := by
  simp only [Object.Shows, entries, List.forall_mem_cons] at h
  obtain ⟨first, second, firstUSD, secondUSD, lpUSD, locked, -⟩ := h
  exact FieldsReader.takes_pure PairPrices.mk o
    |>.andField (takes_text first)
    |>.andField (takes_text second)
    |>.andField (takes_text firstUSD)
    |>.andField (takes_text secondUSD)
    |>.andField (takes_text lpUSD)
    |>.andField (takes_text locked)

theorem PairAnalytics.takes {a : PairAnalytics} (h : o.Shows a.entries) :
    PairAnalytics.fields.Takes o a := by
  simp only [Object.Shows, entries, List.forall_mem_cons] at h
  obtain ⟨volume, previousVolume, fees, previousFees, apr, trades, trades24h, deployed, -⟩ := h
  exact FieldsReader.takes_pure PairAnalytics.mk o
    |>.andField (takes_text volume)
    |>.andField (takes_text previousVolume)
    |>.andField (takes_text fees)
    |>.andField (takes_text previousFees)
    |>.andField (takes_text apr)
    |>.andField (takes_count trades)
    |>.andField (takes_count trades24h)
    |>.andField (FieldReader.takes_optional deployed fun i _ => Reader.takes_int64 i)

end Groups

/-! ### Snapshots -/

theorem ownText_eq {o p : Object} {name text : String} (h : o.get? name = some (.str text))
    (hp : o.Respelled p) : Reader.ownText name p = .ok text := by
  have hread := FieldReader.takes_required h (Reader.takes_string text)
  unfold Reader.ownText
  cases hget : p.get? name with
  | some w => exact hread.read p hp w hget
  | none => cases hread.absent p hp hget

/-- Any spelling of an entity is one of an object that shows all its parts. -/
theorem exists_of_respells {α G P : Type} [FieldGroup G] [Entity α G P] [Parted α G P]
    (hnodup : (Parted.identifier α ::
      (Parted.order (α := α)).flatMap FieldGroup.fields).Nodup)
    {a : α} {w : Json} (h : Respells (Entity.toJson a) w) :
    ∃ o p : Object, w = .obj p ∧ o.Respelled p ∧
      Reader.ownText (Parted.identifier α) p = .ok (Entity.id a) ∧
      ∀ g ∈ Parted.order (α := α), o.Shows (Parted.entries α (Parted.part g a)) := by
  obtain ⟨o, ho, hkeys⟩ := keys_toJson α a
  have hdistinct : o.keys.Nodup := hkeys ▸ hnodup
  rw [ho] at h
  obtain ⟨p, rfl, hp⟩ := (Respells.obj_iff hdistinct).1 h
  have hentries := Json.obj.inj (ho.symm.trans (Parted.toJson_eq a))
  have hidentifier : o.get? (Parted.identifier α) = some (.str (Entity.id a)) := by
    rw [hentries]
    exact if_pos rfl
  refine ⟨o, p, rfl, hp, ownText_eq hidentifier hp, fun g hg => ?_⟩
  refine Object.shows_of_subset hdistinct fun e he => ?_
  rw [hentries]
  exact List.mem_cons_of_mem _ (List.mem_flatMap.2 ⟨g, hg, he⟩)

/-- A token is read back from all its spellings. -/
theorem Token.takes (t : Token) : Token.reader.Takes t.toJson t := by
  refine ⟨Json.noConfusion, fun w hw => ?_⟩
  obtain ⟨o, p, rfl, hp, hidentifier, hparts⟩ := exists_of_respells (α := Token) (by decide) hw
  have hmetadata := (TokenMetadata.takes (hparts .metadata (by decide)) true).ofEntries hp
  have hprices := (TokenPrices.takes (hparts .prices (by decide))).ofEntries hp
  have hanalytics := (TokenAnalytics.takes (hparts .analytics (by decide))).ofEntries hp
  change Reader.ownText "identifier" p = .ok t.identifier at hidentifier
  simp only [Token.reader, hidentifier, hmetadata, hprices, hanalytics]
  rfl

theorem PairTokens.takes {o : Object} {t : PairTokens} (h : o.Shows t.entries) :
    PairTokens.fields.Takes o t := by
  simp only [Object.Shows, entries, List.forall_mem_cons] at h
  obtain ⟨first, second, lp, farms, dualFarms, farm, staking, -⟩ := h
  exact FieldsReader.takes_pure PairTokens.mk o
    |>.andField (FieldReader.takes_optional first fun t _ => t.takes)
    |>.andField (FieldReader.takes_optional second fun t _ => t.takes)
    |>.andField (FieldReader.takes_optional lp fun t _ => t.takes)
    |>.andField (takes_truth farms)
    |>.andField (takes_truth dualFarms)
    |>.andField (takes_text farm)
    |>.andField (takes_text staking)

/-- A pair with finite fees is read back from all its spellings. -/
theorem Pair.takes {p : Pair} (hfinite : p.info.Finite) : Pair.reader.Takes p.toJson p := by
  refine ⟨Json.noConfusion, fun w hw => ?_⟩
  obtain ⟨o, q, rfl, hq, haddress, hparts⟩ := exists_of_respells (α := Pair) (by decide) hw
  have htokens := (PairTokens.takes (hparts .tokensAndFarms (by decide))).ofEntries hq
  have hinfo := (PairInfo.takes hfinite (hparts .info (by decide)) true).ofEntries hq
  have hprices := (PairPrices.takes (hparts .prices (by decide))).ofEntries hq
  have hanalytics := (PairAnalytics.takes (hparts .analytics (by decide))).ofEntries hq
  change Reader.ownText "address" q = .ok p.address at haddress
  simp only [Pair.reader, haddress, htokens, hinfo, hprices, hanalytics]
  rfl

/-- Are values of a type read back from what is written for them, and told apart by it, with
whatever spelling? -/
structure ReadBack {α : Type} (read : Reader α) (write : α → Json) (Whole : α → Prop) : Prop where
  plain : ∀ a, Whole a → read (write a) = .ok a
  respelled : ∀ a, Whole a → ∀ w, Respells (write a) w → read w = .ok a
  distinct : ∀ a b, Whole a → Whole b → a ≠ b → write a ≠ write b
  /-- Values that differ have no spelling in common. -/
  apart : ∀ a b, Whole a → Whole b → a ≠ b → ∀ w, Respells (write a) w → ¬Respells (write b) w

theorem ReadBack.of_takes {α : Type} {read : Reader α} {write : α → Json} {Whole : α → Prop}
    (h : ∀ a, Whole a → read.Takes (write a) a) : ReadBack read write Whole := by
  have hapart (a b : α) (ha : Whole a) (hb : Whole b) (hne : a ≠ b) (w : Json)
      (haw : Respells (write a) w) : ¬Respells (write b) w := by
    intro hbw
    have hread := (h a ha).read w haw
    rw [(h b hb).read w hbw] at hread
    exact hne (Except.ok.inj hread).symm
  refine ⟨fun a ha => (h a ha).read _ (.same _), fun a ha => (h a ha).read, ?_, hapart⟩
  exact fun a b ha hb hne heq => hapart a b ha hb hne (write b) (heq ▸ .same _) (.same _)

/-- Tokens, and pairs with finite fees, are read back from every spelling of what is written for
them, and different ones have none in common. -/
theorem snapshots_read_back :
    ReadBack Token.reader Token.toJson (fun _ => True) ∧
      ReadBack Pair.reader Pair.toJson fun p => p.info.Finite :=
  ⟨.of_takes fun t _ => t.takes, .of_takes fun _ hfinite => Pair.takes hfinite⟩

/-- A token of which only the decimals are known. -/
def pooledToken : Token where
  identifier := "EGLD"
  metadata := { decimals := some 18 }

/-- A pair with a fee, reserves and a token. -/
def pooledPair : Pair where
  address := "erd1pair"
  tokens := { firstToken := some pooledToken }
  info := { info := some ⟨"100", "200", "300"⟩, totalFeePercent := some .zero }

/-- The reserves of `pooledPair` in another spelling. -/
def respelledReserves : Object :=
  [("totalSupply", .str "300"), ("reserve1", .str "200"), ("at", .int 7), ("reserve0", .str "100")]

/-- Its token in another spelling. -/
def respelledToken : Object :=
  [("decimals", .int 18), ("rank", .int 1), ("price", .null), ("identifier", .str "EGLD")]

/-- The whole pair in another spelling. -/
def respelledPair : Object :=
  [("note", .arr [.null]), ("totalFeePercent", .float .zero), ("info", .obj respelledReserves),
    ("firstToken", .obj respelledToken), ("address", .str "erd1pair")]

/-- The pair is read back although its keys stand in another order, nulls are left out and unknown
keys are added, also inside of its token. -/
theorem snapshots_read_back_of_pooledPair :
    Respells pooledPair.toJson (.obj respelledPair) ∧
      Pair.reader (.obj respelledPair) = .ok pooledPair := by
  have hreserves : Respells (PairReserves.toJson ⟨"100", "200", "300"⟩) (.obj respelledReserves) :=
    .of_entries [] (by decide) (by decide +kernel) (by simp)
  have htoken : Respells pooledToken.toJson (.obj respelledToken) :=
    .of_entries [] (by decide) (by decide +kernel) (by simp)
  have h : Respells pooledPair.toJson (.obj respelledPair) := by
    refine .of_entries [("info", PairReserves.toJson ⟨"100", "200", "300"⟩),
      ("firstToken", pooledToken.toJson)] (by decide) (by decide +kernel) ?_
    simp only [List.forall_mem_cons]
    exact ⟨⟨_, rfl, hreserves⟩, ⟨_, rfl, htoken⟩, by simp⟩
  exact ⟨h, snapshots_read_back.2.respelled _ ⟨by decide, by decide⟩ _ h⟩

end DexCache
