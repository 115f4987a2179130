import DexCache.Proofs.Interception.Missing
import DexCache.Proofs.Listing.Mirrored

/-!
# Names that the store does not mirror

Claiming asks of a field only whether its first selections on entities name missing fields, and
that is decided by a list.  So a name that the store does not mirror is left to the resolver if
it is on that list and stands in the first place; one that is on no list, or deeper, or in the
frame of a page, is left to it only if the whole field is declined.

The main statement is the exact condition: everything that a field selects outside the forms of
the store's answers is left to the resolver if and only if the field is declined or what remains
of it without the missing fields of the first place keeps to the forms.
-/

namespace DexCache

open Query (Field)

namespace Interception

/-- The first field of a name changes in its place. -/
theorem updateFirst_eq_append {name : String} {fields : List Field} {first : Field}
    (h : fields.find? (fun f => f.name = name) = some first) :
    ∃ before after, fields = before ++ first :: after ∧
      ∀ make, updateFirst name make fields = before ++ make first :: after := by
  induction fields with
  | nil => cases h
  | cons f rest ih =>
      by_cases hf : f.name = name
      · rw [List.find?_cons_of_pos (by simpa using hf)] at h
        obtain rfl := Option.some.inj h
        exact ⟨[], rest, rfl, fun make => if_pos hf⟩
      · rw [List.find?_cons_of_neg (by simpa using hf)] at h
        obtain ⟨before, after, rfl, hupdate⟩ := ih h
        refine ⟨f :: before, after, rfl, fun make => ?_⟩
        rw [updateFirst, if_neg hf, hupdate]
        rfl

/-- The paths through a place where a selection selects entities: `above` leads to the place,
and `beside` are those that do not go through it. -/
structure Above (kind : EntityKind) (l : Listing) (field : Field) (above : List String)
    (beside : List (List String)) : Prop where
  whole : localSelection l field (l.entityFields field) = field.subfields
  held : ∀ fields path,
    path ∈ (l.form kind).unmirroredIn (localSelection l field fields) ↔
      path ∈ beside ∨ ∃ below ∈ (Form.entity kind).unmirroredIn fields, path = above ++ below
  sent : ∀ fields path,
    path ∈ (l.form kind).unmirroredIn (l.withEntityFields field fields).subfields ↔
      ∃ below ∈ (Form.entity kind).unmirroredIn fields, path = above ++ below

/-- The paths through a key. -/
theorem mem_unmirrored_of_key {form : Form} {f : Field} {name : String} (hname : f.name = name)
    (hkey : name ∈ form.keys) {path : List String} :
    path ∈ form.unmirrored f ↔
      ∃ below ∈ (form.child name).unmirroredIn f.subfields, path = name :: below := by
  rw [Form.unmirrored_of_key (hname ▸ hkey), hname, List.mem_map]
  exact ⟨fun ⟨below, hbelow, h⟩ => ⟨below, hbelow, h.symm⟩,
    fun ⟨below, hbelow, h⟩ => ⟨below, hbelow, h.symm⟩⟩

theorem mem_unmirroredIn_middle {form : Form} {before after : List Field} {f : Field}
    {path : List String} :
    path ∈ form.unmirroredIn (before ++ f :: after) ↔
      path ∈ form.unmirroredIn (before ++ after) ∨ path ∈ form.unmirrored f := by
  simp only [Form.unmirroredIn_append, Form.unmirroredIn, List.mem_append]
  exact or_congr_right or_comm |>.trans or_assoc.symm

theorem mem_unmirrored_edges {kind : EntityKind} {f : Field} (hname : f.name = "edges")
    {path : List String} : path ∈ (Form.page kind).unmirrored f ↔
      ∃ below ∈ (Form.edge kind).unmirroredIn f.subfields, path = "edges" :: below :=
  mem_unmirrored_of_key hname List.mem_cons_self

theorem mem_unmirrored_node {kind : EntityKind} {f : Field} (hname : f.name = "node")
    {path : List String} : path ∈ (Form.edge kind).unmirrored f ↔
      ∃ below ∈ (Form.entity kind).unmirroredIn f.subfields, path = "node" :: below :=
  mem_unmirrored_of_key hname (by simp [Form.keys])

/-- In a page with a first `node` in a first `edges`, its selections are in one place. -/
theorem above_node {kind : EntityKind} {l : Listing} {field edges node : Field}
    (hshape : l.shape = .connection) (hedges : field.subfield? "edges" = some edges)
    (hnode : edges.subfield? "node" = some node) (hfields : l.entityFields field = node.subfields) :
    ∃ beside, Above kind l field ["edges", "node"] beside := by
  obtain ⟨beforeEdges, afterEdges, hpage, hupdateEdges⟩ := updateFirst_eq_append hedges
  obtain ⟨beforeNode, afterNode, hedge, hupdateNode⟩ := updateFirst_eq_append hnode
  have hedgesName : edges.name = "edges" := by simpa using List.find?_some hedges
  have hnodeName : node.name = "node" := by simpa using List.find?_some hnode
  have hform : l.form kind = .page kind := by rw [Listing.form, hshape]
  have hlocal (fields : List Field) : localSelection l field fields =
      beforeEdges ++ { edges with
        subfields := beforeNode ++ { node with subfields := fields } :: afterNode } ::
          afterEdges := by
    simp only [localSelection, hshape, hupdateEdges, hupdateNode]
  refine ⟨(Form.page kind).unmirroredIn (beforeEdges ++ afterEdges) ++
    ((Form.edge kind).unmirroredIn (beforeNode ++ afterNode)).map ("edges" :: ·),
    ?_, fun fields path => ?_, fun fields path => ?_⟩
  · have hself {f : Field} {subfields : List Field} (h : f.subfields = subfields) :
        { f with subfields := subfields } = f := by
      obtain ⟨alias?, name, arguments, _⟩ := f
      exact congrArg (Query.Field.mk alias? name arguments) h.symm
    rw [hlocal, hself hfields.symm, hself hedge, hpage]
  · rw [hform, hlocal, mem_unmirroredIn_middle, List.mem_append, or_assoc]
    refine or_congr_right ?_
    -- below the first `edges`, the paths that go through its first `node` and the others
    simp only [mem_unmirrored_edges, hedgesName, mem_unmirroredIn_middle, mem_unmirrored_node,
      hnodeName, List.mem_map]
    constructor
    · rintro ⟨_, hbeside | ⟨below, hbelow, rfl⟩, rfl⟩
      · exact .inl ⟨_, hbeside, rfl⟩
      · exact .inr ⟨below, hbelow, rfl⟩
    · rintro (⟨below, hbeside, rfl⟩ | ⟨below, hbelow, rfl⟩)
      · exact ⟨below, .inl hbeside, rfl⟩
      · exact ⟨_, .inr ⟨below, hbelow, rfl⟩, rfl⟩
  · have hsent : (l.withEntityFields field fields).subfields =
        [.withSubfields "edges" [.withSubfields "node" fields]] := by
      rw [Listing.withEntityFields, hshape]
    have hsingle {form : Form} {f : Field} {path : List String} :
        path ∈ form.unmirroredIn [f] ↔ path ∈ form.unmirrored f := by
      simp [Form.unmirroredIn]
    rw [hform, hsent, hsingle, mem_unmirrored_edges rfl]
    constructor
    · rintro ⟨_, hthrough, rfl⟩
      obtain ⟨below, hbelow, rfl⟩ := (mem_unmirrored_node rfl).1 (hsingle.1 hthrough)
      exact ⟨below, hbelow, rfl⟩
    · rintro ⟨below, hbelow, rfl⟩
      exact ⟨_, hsingle.2 ((mem_unmirrored_node rfl).2 ⟨below, hbelow, rfl⟩), rfl⟩

/-- Where there are selections on entities, one place is the first. -/
theorem exists_above (kind : EntityKind) {l : Listing} {field : Field}
    (h : l.entityFields field ≠ []) : ∃ above beside, Above kind l field above beside := by
  cases hshape : l.shape with
  | list =>
      refine ⟨[], [], ?_, fun fields path => ?_, fun fields path => ?_⟩
      · simp [localSelection, Listing.entityFields, hshape]
      · simp [localSelection, Listing.form, hshape]
      · simp [Listing.withEntityFields, Listing.form, hshape]
  | connection =>
      obtain ⟨edges, node, hedges, hnode, hfields⟩ := Listing.exists_node hshape h
      exact ⟨["edges", "node"], above_node hshape hedges hnode hfields⟩

/-- The store mirrors the identifiers of its entities. -/
theorem identifierField_mem_keys {name : String} {kind : EntityKind} {l : Listing}
    (h : listing? name = some (kind, l)) : l.identifierField ∈ (Form.entity kind).keys := by
  have hfound := (mem_listings_of_listing? h).1
  cases kind with
  | pair =>
      have hall : ∀ l ∈ pairCatalogue.listings,
          l.identifierField ∈ (Form.entity .pair).keys := by decide
      exact hall l (Catalogue.mem_of_listing? hfound)
  | token =>
      have hall : ∀ l ∈ tokenCatalogue.listings,
          l.identifierField ∈ (Form.entity .token).keys := by decide
      exact hall l (Catalogue.mem_of_listing? hfound)

/-- Adding the identifier adds no path outside the forms. -/
theorem mem_unmirroredIn_withIdentifier {kind : EntityKind} {l : Listing}
    (hidentifier : l.identifierField ∈ (Form.entity kind).keys) (fields : List Field)
    (path : List String) :
    path ∈ (Form.entity kind).unmirroredIn (withIdentifier l fields) ↔
      path ∈ (Form.entity kind).unmirroredIn fields := by
  have hplain : (Form.entity kind).unmirrored (.plain l.identifierField) = [] :=
    Form.unmirrored_of_key hidentifier
  unfold withIdentifier
  split
  · rfl
  · simp [Form.unmirroredIn, hplain]

/-- The paths below entities come from missing fields or from those that are held. -/
theorem mem_unmirroredIn_entityFields (form : Form) (l : Listing) (field : Field)
    (path : List String) :
    path ∈ form.unmirroredIn (l.entityFields field) ↔
      path ∈ form.unmirroredIn (missingFields l field) ∨
        path ∈ form.unmirroredIn (heldFields l field) := by
  simp only [Form.mem_unmirroredIn_iff, missingFields, heldFields, List.mem_filter]
  constructor
  · rintro ⟨f, hf, hpath⟩
    cases hmissing : l.isMissing f.name with
    | true => exact .inl ⟨f, ⟨hf, hmissing⟩, hpath⟩
    | false => exact .inr ⟨f, ⟨hf, by simp [hmissing]⟩, hpath⟩
  · rintro (⟨f, ⟨hf, -⟩, hpath⟩ | ⟨f, ⟨hf, -⟩, hpath⟩)
    · exact ⟨f, hf, hpath⟩
    · exact ⟨f, hf, hpath⟩

/-- Does the handling of a field leave a path to the resolver? -/
def Claim.LeavesPath (form : Form) (field : Field) (path : List String) (c : Claim) : Prop :=
  (∃ sent, c.left field = some sent ∧ path ∈ form.unmirroredIn sent.subfields) ∧
    ∀ resolved, resolved ≠ .null → path ∉ form.unmirroredIn (c.evaluated field resolved)

section Claims

variable {kind : EntityKind} {l : Listing} {field : Field}

/-- An answered field leaves nothing, so it must keep to the forms. -/
theorem answered_leavesPath_iff (hselected : l.entityFields field ≠ [])
    (hmissing : missingFields l field = []) (value : Json) :
    (∀ path ∈ (l.form kind).unmirroredIn field.subfields,
        (Claim.answered value).LeavesPath (l.form kind) field path) ↔
      (l.form kind).unmirroredIn (localSelection l field (heldFields l field)) = [] := by
  obtain ⟨above, beside, habove⟩ := exists_above kind hselected
  have hheld : heldFields l field = l.entityFields field := by
    rw [heldFields, List.filter_eq_self]
    intro f hf
    simpa using List.filter_eq_nil_iff.1 hmissing f hf
  rw [hheld, habove.whole, List.eq_nil_iff_forall_not_mem]
  constructor
  · intro h path hpath
    obtain ⟨⟨sent, hsent, -⟩, -⟩ := h path hpath
    cases hsent
  · exact fun h path hpath => absurd hpath (h path)

/-- A shared field leaves what it sends, so what is held of it must keep to the forms. -/
theorem share_leavesPath_iff (hselected : l.entityFields field ≠ [])
    (hidentifier : l.identifierField ∈ (Form.entity kind).keys) (arguments : Json.Object) :
    (∀ path ∈ (l.form kind).unmirroredIn field.subfields,
        (share kind l field arguments).LeavesPath (l.form kind) field path) ↔
      (l.form kind).unmirroredIn (localSelection l field (heldFields l field)) = [] := by
  obtain ⟨above, beside, habove⟩ := exists_above kind hselected
  have hevaluated {resolved : Json} (hresolved : resolved ≠ .null) :
      (share kind l field arguments).evaluated field resolved =
        localSelection l field (withIdentifier l (heldFields l field)) := if_neg hresolved
  have hlocal (path : List String) : path ∈ (l.form kind).unmirroredIn
      (localSelection l field (withIdentifier l (heldFields l field))) ↔
        path ∈ (l.form kind).unmirroredIn (localSelection l field (heldFields l field)) := by
    simp only [habove.held, mem_unmirroredIn_withIdentifier hidentifier]
  -- outside the forms, the whole field has what is sent of it and what is held of it
  have hwhole (path : List String) : path ∈ (l.form kind).unmirroredIn field.subfields ↔
      path ∈ (l.form kind).unmirroredIn (localSelection l field (heldFields l field)) ∨
        ∃ below ∈ (Form.entity kind).unmirroredIn (missingFields l field),
          path = above ++ below := by
    rw [← habove.whole, habove.held, habove.held]
    simp only [mem_unmirroredIn_entityFields, or_and_right, exists_or, or_assoc]
    exact or_congr_right or_comm
  rw [List.eq_nil_iff_forall_not_mem]
  constructor
  · intro h path hpath
    obtain ⟨-, hnot⟩ := h path ((hwhole path).2 (.inl hpath))
    refine hnot (.bool true) (by simp) ?_
    rw [hevaluated (by simp), hlocal]
    exact hpath
  · intro h path hpath
    obtain ⟨below, hbelow, rfl⟩ := ((hwhole path).1 hpath).resolve_left (h path)
    refine ⟨⟨_, rfl, (habove.sent _ _).2 ⟨below, ?_, rfl⟩⟩, fun resolved hresolved => ?_⟩
    · rw [mem_unmirroredIn_withIdentifier hidentifier]
      exact hbelow
    · rw [hevaluated hresolved, hlocal]
      exact h _

end Claims

/-- Whatever a field selects outside the forms of the store's answers, at any depth, is sent to
the resolver and not evaluated by the store if and only if nothing is claimed of the field or,
without the missing fields of its first place, it keeps to the forms. -/
theorem unmirrored_left_iff {X : Type} [PlanSlot X] (v : View) (context : Context X)
    {field : Field} (hfield : field ∈ context.operation.selections) {kind : EntityKind}
    {l : Listing} (hlisted : listing? field.name = some (kind, l)) :
    (∀ path ∈ (l.form kind).unmirroredIn field.subfields,
        (∃ sent ∈ forResolver (before v context), (handled v context field).left field =
            some sent ∧ path ∈ (l.form kind).unmirroredIn sent.subfields) ∧
          ∀ resolved, resolved ≠ .null →
            path ∉ (l.form kind).unmirroredIn ((handled v context field).evaluated field resolved)) ↔
      (handled v context field = .declined ∨
        (l.form kind).unmirroredIn (localSelection l field (heldFields l field)) = []) := by
  have hleaves (path : List String) :
      ((∃ sent ∈ forResolver (before v context), (handled v context field).left field =
          some sent ∧ path ∈ (l.form kind).unmirroredIn sent.subfields) ∧
        ∀ resolved, resolved ≠ .null →
          path ∉ (l.form kind).unmirroredIn ((handled v context field).evaluated field resolved)) ↔
        (handled v context field).LeavesPath (l.form kind) field path := by
    refine and_congr_left fun _ => ⟨?_, ?_⟩
    · rintro ⟨sent, -, hsent⟩
      exact ⟨sent, hsent⟩
    · rintro ⟨sent, hleft, hpath⟩
      refine ⟨sent, ?_, hleft, hpath⟩
      rw [forResolver_before]
      exact List.mem_filterMap.2 ⟨field, hfield, hleft⟩
  have hdeclined (path : List String) (hpath : path ∈ (l.form kind).unmirroredIn field.subfields) :
      Claim.declined.LeavesPath (l.form kind) field path :=
    ⟨⟨field, rfl, hpath⟩, fun _ _ hmem => nomatch hmem⟩
  simp only [hleaves]
  rcases handled_cases v context hfield with hnone | hclaim
  · rw [hnone]
    exact ⟨fun _ => .inl rfl, fun _ => hdeclined⟩
  -- the hook gets to a plan, and the claim decides
  · generalize handled v context field = c at hclaim
    rcases claim_cases hclaim with rfl | ⟨kind', l', arguments, hclaimable, hc⟩
    · exact ⟨fun _ => .inl rfl, fun _ => hdeclined⟩
    · obtain ⟨rfl, rfl⟩ : kind' = kind ∧ l' = l := by
        simpa [hlisted] using hclaimable.listed.symm
      rcases hc with ⟨hmissing, value, -, rfl⟩ | ⟨-, rfl⟩
      · simpa using answered_leavesPath_iff hclaimable.selected hmissing value
      · rw [share_leavesPath_iff hclaimable.selected (identifierField_mem_keys hlisted)]
        simp [share]

/-- A pair of one token: its collector is left to the resolver, and the roles of its token are
answered without the resolver being asked for anything. -/
theorem unmirrored_left_of_one_pair :
    let token : Token := { identifier := "t" }
    let pair : Pair := { address := "a", tokens := { firstToken := some token } }
    let view := (Watched.ofHistory {} {} [.check 0, .pairs (.put pair 0), .tokens (.put token 0),
      .markPopulated, .markStarted]).view 0
    let collector := Field.withSubfields "pairs" [.plain "address", .plain "feesCollector"]
    let roles := Field.withSubfields "pairs"
      [.withSubfields "firstToken" [.plain "identifier", .plain "roles"]]
    let asking (field : Field) : Context Pipeline.Notes := ⟨{ selections := [field] }, [], {}⟩
    (∃ sent ∈ forResolver (before view (asking collector)),
      ["feesCollector"] ∈ (Form.entity .pair).unmirroredIn sent.subfields) ∧
      ["firstToken", "roles"] ∈ (Form.entity .pair).unmirroredIn roles.subfields ∧
      forResolver (before view (asking roles)) = [] := by
  intro token pair view collector roles asking
  have hlisted : listing? collector.name = some (.pair, pairCatalogue.listings[0]) := rfl
  have hleft := (unmirrored_left_iff view (asking collector) (List.mem_singleton_self collector)
    hlisted).2 (.inr (by decide +kernel)) ["feesCollector"] (by decide +kernel)
  obtain ⟨⟨sent, hsent, -, hpath⟩, -⟩ := hleft
  exact ⟨⟨sent, hsent, hpath⟩, by decide +kernel, by decide +kernel⟩

end Interception

end DexCache
