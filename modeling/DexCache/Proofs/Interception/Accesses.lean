import DexCache.Proofs.Interception.Freshness
import DexCache.Proofs.Interception.Joining
import DexCache.Proofs.Interception.Meanwhile
import DexCache.Proofs.Interception.Places
import DexCache.Proofs.Query.RoundTrip

/-!
# Every read rests on a check

A field is claimed once the store was found fresh in what the field shows where it first selects
entities.  What the store then gives to the answer is read after this check: at once where the store
answers the field alone, and once the resolver has been asked where the field is shared.  There is
no other check, so whether a read finds fresh data depends on what has happened since.

The main statement is about all accesses of a run.  Every read has an earlier check, and it finds a
cell fresh exactly if since the check the cell has neither expired nor appeared without being
written.
-/

namespace DexCache

open Query (Field Operation)

/-- Is a cell behind a field of the entities of a kind? -/
def Cell.Behind (kind : EntityKind) (name : String) : Cell → Prop
  | .pair _ g => kind = .pair ∧ FieldGroup.ofField? name = some g
  | .token _ g => kind = .token ∧ FieldGroup.ofField? name = some g

/-- In a collection that is fresh for some fields all cells behind them were written lately. -/
theorem Collection.exists_lastUpdate? {α G P : Type} [DecidableEq G] [FieldGroup G] [Entity α G P]
    {c : Collection α G} {fields : List Field} {now : Int} (h : c.isFreshFor fields now = true)
    {f : Field} (hf : f ∈ fields) {g : G} (hg : FieldGroup.ofField? f.name = some g) {name : String}
    (hname : name ∈ c.ids) :
    ∃ time, c.lastUpdate? name g = some time ∧ now - time ≤ c.thresholds.of g := by
  cases hfind : c.find? name with
  | none =>
      obtain ⟨e, he, rfl⟩ := List.mem_map.1 hname
      exact absurd (by simp) (List.find?_eq_none.1 hfind e he)
  | some e =>
      rw [lastUpdate?, hfind]
      exact allFresh_iff.1 h e (List.mem_of_find?_eq_some hfind) g
        (mem_backingGroups.2 ⟨f, hf, hg⟩)

theorem Store.fresh_of_isFreshFor {s : Store} {kind : EntityKind} {fields : List Field} {now : Int}
    (h : s.isFreshFor kind fields now = true) {f : Field} (hf : f ∈ fields) {cell : Cell}
    (hcell : cell.Behind kind f.name) (hholds : s.Holds cell) : s.Fresh now cell := by
  cases cell with
  | pair address g =>
      obtain ⟨rfl, hg⟩ := hcell
      exact Collection.exists_lastUpdate? (c := s.pairs) h hf hg hholds
  | token identifier g =>
      obtain ⟨rfl, hg⟩ := hcell
      exact Collection.exists_lastUpdate? (c := s.tokens) h hf hg hholds

namespace Interception

/-- Behind a field that the store never holds, and behind the identifier, there is no cell. -/
theorem not_behind {query name : String} {kind : EntityKind} {l : Listing}
    (h : listing? query = some (kind, l))
    (hname : l.isMissing name = true ∨ name = l.identifierField) (cell : Cell) :
    ¬ cell.Behind kind name := by
  have hmem : name ∈ l.identifierField :: l.missingFields := by
    simpa [Listing.isMissing, or_comm] using hname
  have hlisted := (mem_listings_of_listing? h).1
  cases cell with
  | pair address g =>
      rintro ⟨rfl, hg⟩
      have hnone : ∀ l ∈ pairCatalogue.listings, ∀ name ∈ l.identifierField :: l.missingFields,
          (FieldGroup.ofField? name : Option PairGroup) = none := by decide
      rw [hnone l (Catalogue.mem_of_listing? hlisted) name hmem] at hg
      cases hg
  | token identifier g =>
      rintro ⟨rfl, hg⟩
      have hnone : ∀ l ∈ tokenCatalogue.listings, ∀ name ∈ l.identifierField :: l.missingFields,
          (FieldGroup.ofField? name : Option TokenGroup) = none := by decide
      rw [hnone l (Catalogue.mem_of_listing? hlisted) name hmem] at hg
      cases hg

/-- What a read shows where its listing first selects entities. -/
def Read.firstFields (r : Read) : List Field :=
  match r.kind.listing? r.name with
  | some l => l.entityFields (.withSubfields r.name r.fields)
  | none => []

theorem firstFields_of_listing? {name : String} {kind : EntityKind} {l : Listing}
    (h : listing? name = some (kind, l)) (arguments : Json.Object) (fields : List Field) :
    (Read.mk kind name arguments fields).firstFields =
      l.entityFields (.withSubfields name fields) := by
  rw [Read.firstFields, (mem_listings_of_listing? h).1]

/-- Cells behind what a field shows first are behind what the store holds of it. -/
theorem mem_heldFields_of_behind {field f : Field} {kind : EntityKind} {l : Listing}
    (h : listing? field.name = some (kind, l)) (hf : f ∈ l.entityFields field) {cell : Cell}
    (hcell : cell.Behind kind f.name) : f ∈ heldFields l field := by
  refine List.mem_filter.2 ⟨hf, ?_⟩
  rw [Bool.not_eq_true', ← Bool.not_eq_true]
  exact fun hmissing => not_behind h (.inl hmissing) cell hcell

/-- Where a field is read as it was asked, the store holds what is behind its first fields. -/
theorem mem_heldFields_of_asked {field : Field} {kind : EntityKind} {l : Listing}
    (h : listing? field.name = some (kind, l)) (arguments : Json.Object) {f : Field}
    (hf : f ∈ (Read.mk kind field.name arguments field.subfields).firstFields) {cell : Cell}
    (hcell : cell.Behind kind f.name) : f ∈ heldFields l field := by
  rw [firstFields_of_listing? h] at hf
  exact mem_heldFields_of_behind h hf hcell

/-- The same where a shared field is read with its local selection. -/
theorem mem_heldFields_of_local {field : Field} {kind : EntityKind} {l : Listing}
    (h : listing? field.name = some (kind, l)) (hselected : l.entityFields field ≠ [])
    (arguments : Json.Object) {f : Field}
    (hf : f ∈ (Read.mk kind field.name arguments
      (localSelection l field (withIdentifier l (heldFields l field)))).firstFields)
    {cell : Cell} (hcell : cell.Behind kind f.name) : f ∈ heldFields l field := by
  rw [firstFields_of_listing? h, entityFields_localSelection hselected] at hf
  rcases mem_withIdentifier_iff.1 hf with hheld | rfl
  · exact hheld
  · exact absurd hcell (not_behind h (.inr rfl) cell)

/-! ### The accesses of a run -/

namespace Course

variable (c : Course)

/-- Is an access a check for a read, one that found everything fresh that the read shows first? -/
def Backs (log : List Access) (i : Nat) (r : Read) : Prop :=
  ∃ fields, log[i]? = some (.check r.kind fields) ∧
    (c.view i).store.isFreshFor r.kind fields (c.view i).now = true ∧
    ∀ f ∈ r.firstFields, ∀ cell : Cell, cell.Behind r.kind f.name → f ∈ fields

/-- Does every read have its check, right before it or before the resolver was asked? -/
def Checked (log : List Access) : Prop :=
  ∀ k r, log[k]? = some (.read r) → ∃ i < k, c.Backs log i r ∧
    (i + 1 = k ∨ ∃ j, i < j ∧ j < k ∧ ∃ request, log[j]? = some (.resolve request))

/-- Is there a check for whatever will be read of a shared field? -/
def Promised (log : List Access) (part : Shared) : Prop :=
  ∃ i, c.Backs log i (part.read part.asked.subfields) ∧ c.Backs log i (part.read part.localFields)

variable {c} {log : List Access}

theorem getElem?_append_of_eq_some {i : Nat} {a : Access} (h : log[i]? = some a)
    (more : List Access) : (log ++ more)[i]? = some a :=
  (List.getElem?_append_left (List.getElem?_eq_some_iff.1 h).1).trans h

theorem Backs.lt_length {i : Nat} {r : Read} (h : c.Backs log i r) : i < log.length := by
  obtain ⟨fields, hcheck, -⟩ := h
  exact (List.getElem?_eq_some_iff.1 hcheck).1

theorem Backs.append {i : Nat} {r : Read} (h : c.Backs log i r) (more : List Access) :
    c.Backs (log ++ more) i r := by
  obtain ⟨fields, hcheck, hrest⟩ := h
  exact ⟨fields, getElem?_append_of_eq_some hcheck more, hrest⟩

theorem Promised.append {part : Shared} (h : c.Promised log part) (more : List Access) :
    c.Promised (log ++ more) part := by
  obtain ⟨i, hasked, hlocal⟩ := h
  exact ⟨i, hasked.append more, hlocal.append more⟩

/-- A step that is no read, or one with a check, keeps every read checked. -/
theorem Checked.append {a : Access} (h : c.Checked log)
    (ha : ∀ r, a = .read r → ∃ i, c.Backs log i r ∧
      (i + 1 = log.length ∨ ∃ j, i < j ∧ ∃ request, log[j]? = some (.resolve request))) :
    c.Checked (log ++ [a]) := by
  intro k r hk
  obtain hlt | hge := Nat.lt_or_ge k log.length
  · rw [List.getElem?_append_left hlt] at hk
    obtain ⟨i, hik, hbacks, hsince⟩ := h k r hk
    refine ⟨i, hik, hbacks.append [a], hsince.imp_right ?_⟩
    rintro ⟨j, hij, hjk, request, hj⟩
    exact ⟨j, hij, hjk, request, getElem?_append_of_eq_some hj [a]⟩
  -- the read is the new step
  · obtain ⟨rfl, rfl⟩ : k = log.length ∧ a = .read r := by
      rw [List.getElem?_append_right hge, List.getElem?_singleton] at hk
      split at hk
      · exact ⟨by omega, Option.some.inj hk⟩
      · cases hk
    obtain ⟨i, hbacks, hsince⟩ := ha r rfl
    have hi := hbacks.lt_length
    refine ⟨i, hi, hbacks.append _, hsince.imp_right ?_⟩
    rintro ⟨j, hij, request, hj⟩
    exact ⟨j, hij, (List.getElem?_eq_some_iff.1 hj).1, request, getElem?_append_of_eq_some hj _⟩

theorem Checked.append_of_ne_read {a : Access} (h : c.Checked log) (ha : ∀ r, a ≠ .read r) :
    c.Checked (log ++ [a]) :=
  h.append fun r hr => absurd hr (ha r)

/-- Does a run go on from one record to another, with every new read checked? -/
structure Onward (c : Course) (r r' : Record) : Prop where
  grows : ∃ more, r'.accesses = r.accesses ++ more
  checked : c.Checked r.accesses → c.Checked r'.accesses

theorem Onward.refl (r : Record) : Onward c r r :=
  ⟨⟨[], by simp⟩, id⟩

theorem Onward.trans {r r' r'' : Record} (h : Onward c r r') (h' : Onward c r' r'') :
    Onward c r r'' := by
  obtain ⟨more, hmore⟩ := h.grows
  obtain ⟨more', hmore'⟩ := h'.grows
  refine ⟨⟨more ++ more', ?_⟩, h'.checked ∘ h.checked⟩
  rw [hmore', hmore, List.append_assoc]

theorem Onward.note {r : Record} {a : Access} (ha : ∀ read, a ≠ .read read) :
    Onward c r (r.note a) :=
  ⟨⟨[a], rfl⟩, fun h => h.append_of_ne_read ha⟩

/-- The accesses of claiming a field: none, a check, or a check that finds everything fresh and then
a read.  A field is shared after such a check only. -/
inductive Claims (c : Course) (field : Field) (r : Record) :
    Except Query.Error Claim × Record → Prop
  | unseen {result : Except Query.Error Claim} (h : ∀ sent part, result ≠ .ok (.shared sent part)) :
    Claims c field r (result, r)
  | checked {result : Except Query.Error Claim} (kind : EntityKind) (fields : List Field)
    (h : ∀ sent part, result ≠ .ok (.shared sent part)) :
    Claims c field r (result, r.note (.check kind fields))
  | read {result : Except Query.Error Claim} {kind : EntityKind} {l : Listing}
    (listed : listing? field.name = some (kind, l))
    (fresh : (c.next r).store.isFreshFor kind (heldFields l field) (c.next r).now = true)
    (arguments : Json.Object) (h : ∀ sent part, result ≠ .ok (.shared sent part)) :
    Claims c field r (result, (r.note (.check kind (heldFields l field))).note
      (.read ⟨kind, field.name, arguments, field.subfields⟩))
  | shared {kind : EntityKind} {l : Listing} (listed : listing? field.name = some (kind, l))
    (selected : l.entityFields field ≠ [])
    (fresh : (c.next r).store.isFreshFor kind (heldFields l field) (c.next r).now = true)
    (arguments : Json.Object) :
    Claims c field r
      (.ok (share kind l field arguments), r.note (.check kind (heldFields l field)))

theorem claims (c : Course) (supplied : Json.Object) (field : Field) (r : Record) :
    Claims c field r (c.probe.claim supplied field r) := by
  unfold Probe.claim
  cases hlisted : listing? field.name with
  | none => exact .unseen fun sent part h => nomatch h
  | some found =>
      obtain ⟨kind, l⟩ := found
      simp only
      split
      · exact .unseen fun sent part h => nomatch h
      · next hselected =>
          have hentities : l.entityFields field ≠ [] := fun h => hselected (by simp [h])
          have hheld : (l.entityFields field).filter (fun f => !l.isMissing f.name) =
            heldFields l field := rfl
          simp only [bind, StateT.bind, probe, hheld]
          cases hfresh : (c.next r).store.isFreshFor kind (heldFields l field) (c.next r).now with
          | false => exact .checked kind _ fun sent part h => nomatch h
          | true =>
              cases field.argumentsJson supplied with
              | error e => exact .checked kind _ fun sent part h => nomatch h
              | ok arguments =>
                  simp only [Bool.not_true, Bool.false_eq_true, if_false]
                  split
                  · refine .read hlisted hfresh arguments fun sent part h => ?_
                    obtain ⟨value, -, h⟩ := Outcome.map_eq_ok_iff.1 h
                    cases h
                  · exact .shared hlisted hentities hfresh arguments

/-- A check that found the store fresh backs the reads of what it asked for. -/
theorem backs_note_check {r : Record} {kind : EntityKind} {fields : List Field}
    (hfresh : (c.next r).store.isFreshFor kind fields (c.next r).now = true)
    {read : Read} (hkind : read.kind = kind)
    (hcovers : ∀ f ∈ read.firstFields, ∀ cell : Cell, cell.Behind kind f.name → f ∈ fields) :
    c.Backs (r.note (.check kind fields)).accesses r.accesses.length read := by
  subst hkind
  exact ⟨fields, by simp [Record.note], hfresh, hcovers⟩

/-- Claiming a field keeps every read checked, and makes a check for what is read later. -/
theorem onward_claim (supplied : Json.Object) (field : Field) (r : Record) :
    Onward c r (c.probe.claim supplied field r).2 ∧
      ∀ sent part, (c.probe.claim supplied field r).1 = .ok (.shared sent part) →
        c.Promised (c.probe.claim supplied field r).2.accesses part := by
  have hclaims := claims c supplied field r
  revert hclaims
  generalize c.probe.claim supplied field r = out
  rintro (h | ⟨kind, fields, h⟩ | ⟨hlisted, hfresh, arguments, h⟩ |
    ⟨hlisted, hselected, hfresh, arguments⟩)
  · exact ⟨.refl r, fun sent part hshared => absurd hshared (h sent part)⟩
  · exact ⟨.note (by simp), fun sent part hshared => absurd hshared (h sent part)⟩
  · refine ⟨(Onward.note (by simp)).trans ⟨⟨_, rfl⟩, fun hlog => ?_⟩,
      fun sent part hshared => absurd hshared (h sent part)⟩
    refine hlog.append fun read hread => ?_
    obtain rfl := Access.read.inj hread
    refine ⟨r.accesses.length, backs_note_check hfresh rfl ?_, .inl (by simp [Record.note])⟩
    exact fun f hf cell => mem_heldFields_of_asked hlisted arguments hf
  · refine ⟨.note (by simp), fun sent part hshared => ?_⟩
    cases hshared
    refine ⟨r.accesses.length, backs_note_check hfresh rfl ?_, backs_note_check hfresh rfl ?_⟩
    · exact fun f hf cell => mem_heldFields_of_asked hlisted arguments hf
    · exact fun f hf cell => mem_heldFields_of_local hlisted hselected arguments hf

theorem plan_cons_apply (supplied : Json.Object) (field : Field) (rest : List Field) (r : Record) :
    c.probe.plan supplied (field :: rest) r =
      match c.probe.claim supplied field r with
      | (.error e, r') => (.error e, r')
      | (.ok claimed, r') =>
        ((c.probe.plan supplied rest r').1.map (claimed.onto field),
          (c.probe.plan supplied rest r').2) := by
  rw [Probe.plan]
  simp only [bind, StateT.bind]
  rcases c.probe.claim supplied field r with ⟨_ | _, r'⟩ <;> rfl

/-- A field in front of a plan adds its own shared part, if there is one. -/
theorem mem_shared_onto {field : Field} {claimed : Claim} {planned : List Field × Plan}
    {part : Shared} (h : part ∈ (claimed.onto field planned).2.shared) :
    (∃ sent, claimed = .shared sent part) ∨ part ∈ planned.2.shared := by
  cases claimed with
  | declined => exact .inr h
  | answered value => exact .inr h
  | shared sent first =>
      rcases List.mem_cons.1 h with rfl | h
      · exact .inl ⟨sent, rfl⟩
      · exact .inr h

/-- Claiming fields keeps every read checked, and makes a check for every shared field. -/
theorem onward_plan (supplied : Json.Object) (fields : List Field) (r : Record) :
    Onward c r (c.probe.plan supplied fields r).2 ∧
      ∀ planned, (c.probe.plan supplied fields r).1 = .ok planned →
        ∀ part ∈ planned.2.shared,
          c.Promised (c.probe.plan supplied fields r).2.accesses part := by
  induction fields generalizing r with
  | nil =>
      refine ⟨.refl r, fun planned h part hpart => ?_⟩
      cases h
      cases hpart
  | cons field rest ih =>
      obtain ⟨hclaim, hpromised⟩ := onward_claim (c := c) supplied field r
      rw [plan_cons_apply]
      rcases hout : c.probe.claim supplied field r with ⟨_ | claimed, r'⟩
      · rw [hout] at hclaim
        exact ⟨hclaim, fun planned h => nomatch h⟩
      · rw [hout] at hclaim hpromised
        obtain ⟨hrest, hlater⟩ := ih r'
        refine ⟨hclaim.trans hrest, fun planned h part hpart => ?_⟩
        obtain ⟨earlier, hearlier, rfl⟩ := Outcome.map_eq_ok_iff.1 h
        rcases mem_shared_onto hpart with ⟨sent, rfl⟩ | hpart
        · obtain ⟨more, hmore⟩ := hrest.grows
          exact hmore ▸ (hpromised sent part rfl).append more
        · exact hlater earlier hearlier part hpart

/-- Has the resolver been asked since the check for whatever will be read of a shared field? -/
def Due (c : Course) (log : List Access) (part : Shared) : Prop :=
  ∃ i j, i < j ∧ (∃ request, log[j]? = some (.resolve request)) ∧
    c.Backs log i (part.read part.asked.subfields) ∧ c.Backs log i (part.read part.localFields)

theorem Promised.due {part : Shared} (h : c.Promised log part) (request : Request) :
    c.Due (log ++ [.resolve request]) part := by
  obtain ⟨i, hasked, hlocal⟩ := h
  exact ⟨i, log.length, hasked.lt_length, ⟨request, by simp⟩, hasked.append _, hlocal.append _⟩

theorem Due.append {part : Shared} (h : c.Due log part) (more : List Access) :
    c.Due (log ++ more) part := by
  obtain ⟨i, j, hij, ⟨request, hj⟩, hasked, hlocal⟩ := h
  exact ⟨i, j, hij, ⟨request, getElem?_append_of_eq_some hj more⟩, hasked.append more,
    hlocal.append more⟩

/-- What is read of a shared field is checked. -/
theorem onward_addShared (data : Json.Object) {part : Shared} {r : Record}
    (h : c.Due r.accesses part) : Onward c r (c.probe.addShared data part r).2 := by
  obtain ⟨i, j, hij, ⟨request, hj⟩, hasked, hlocal⟩ := h
  have hread {read : Read} (hbacks : c.Backs r.accesses i read) :
      Onward c r (r.note (.read read)) := by
    refine ⟨⟨_, rfl⟩, fun hlog => hlog.append fun read' hread' => ?_⟩
    obtain rfl := Access.read.inj hread'
    exact ⟨i, hbacks, .inr ⟨j, hij, request, hj⟩⟩
  unfold Probe.addShared
  cases (data.get? part.key).getD .null with
  | null => exact hread hasked
  | _ => exact hread hlocal

/-- What is read of all shared fields is checked. -/
theorem onward_addAll (parts : List Shared) (data : Json.Object) {r : Record}
    (h : ∀ part ∈ parts, c.Due r.accesses part) :
    Onward c r (c.probe.addAll parts data r).2 := by
  induction parts generalizing data r with
  | nil => exact .refl r
  | cons part parts ih =>
      obtain ⟨hpart, hparts⟩ := List.forall_mem_cons.1 h
      have hfirst := onward_addShared data hpart
      rw [Probe.addAll]
      simp only [bind, StateT.bind]
      rcases hout : c.probe.addShared data part r with ⟨_ | data', r'⟩
      · rw [hout] at hfirst
        exact hfirst
      · rw [hout] at hfirst
        refine hfirst.trans (ih data' fun part hpart => ?_)
        obtain ⟨more, hmore⟩ := hfirst.grows
        exact hmore ▸ (hparts part hpart).append more

open Pipeline (Notes follow settle)

/-- The hook before execution leaves a plan only where it goes on with the one that was made. -/
theorem eq_of_plan_act {context : Context Notes} (hnone : context.extension.plan = none)
    {planned : Except Query.Error (List Field × Plan)} {p : Plan}
    (h : (act context planned).2.extension.plan = some p) :
    (act context planned).1 = .ok .proceed ∧ ∃ remaining, planned = .ok (remaining, p) := by
  rcases planned with e | ⟨remaining, made⟩
  · exact absurd (hnone.symm.trans h) (by simp)
  · unfold act at h ⊢
    simp only at h ⊢
    split at h
    · exact absurd (hnone.symm.trans h) (by simp)
    · next hfull =>
        rw [if_neg hfull]
        split at h
        · exact absurd (hnone.symm.trans h) (by simp)
        · next hleft =>
            rw [if_neg hleft]
            exact ⟨rfl, remaining, by rw [Option.some.inj h]⟩

/-- After the hook before execution there is a check for every shared field of the plan that it
leaves, if it leaves one. -/
theorem onward_before (context : Context Notes) (hnone : context.extension.plan = none)
    (r : Record) :
    Onward c r (c.probe.before context r).2 ∧
      ∀ p, (c.probe.before context r).1.2.extension.plan = some p →
        (c.probe.before context r).1.1 = .ok .proceed ∧
          ∀ part ∈ p.shared, c.Promised (c.probe.before context r).2.accesses part := by
  have hunplanned (p : Plan) : context.extension.plan ≠ some p := by simp [hnone]
  unfold Probe.before
  split
  · exact ⟨.refl r, fun p hp => absurd hp (hunplanned p)⟩
  · have hstatus : c.probe.status r = ((c.next r).status, r.note .status) := rfl
    simp only [bind, StateT.bind, hstatus]
    split
    · exact ⟨.note (by simp), fun p hp => absurd hp (hunplanned p)⟩
    · obtain ⟨hplanned, hpromised⟩ := onward_plan (c := c) context.variableValues
        context.operation.selections (r.note .status)
      refine ⟨(Onward.note (by simp)).trans hplanned, fun p hp => ?_⟩
      obtain ⟨hproceed, remaining, hmade⟩ := eq_of_plan_act hnone hp
      exact ⟨hproceed, hpromised _ hmade⟩

/-- Asking the resolver is no read. -/
theorem onward_resolver (request : Request) (r : Record) : Onward c r (resolver request r).2 :=
  ⟨⟨[.resolve request], rfl⟩, fun h => h.append_of_ne_read (by simp)⟩

/-- What the hook after execution reads is checked. -/
theorem onward_after {context : Context Notes} {r : Record}
    (h : ∀ p, context.extension.plan = some p → ∀ part ∈ p.shared, c.Due r.accesses part)
    (response : Response) : Onward c r (c.probe.after context response r).2 := by
  have hplan : PlanSlot.plan? context.extension = context.extension.plan := rfl
  unfold Probe.after
  rw [hplan]
  cases hp : context.extension.plan with
  | none => exact .refl r
  | some p =>
      have hall := onward_addAll p.shared (response.data.getD []) (h p hp)
      simp only [bind, StateT.bind, Probe.complete]
      rcases hout : c.probe.addAll p.shared (response.data.getD []) r with ⟨_ | data, r'⟩
      · rw [hout] at hall
        exact hall
      · rw [hout] at hall
        exact hall

theorem onward_settle (request : Request) {context : Context Notes} {r : Record}
    (h : ∀ p, context.extension.plan = some p → ∀ part ∈ p.shared, c.Due r.accesses part)
    (response : Response) :
    Onward c r (settle c.probe.interceptor resolver request context response r).2 := by
  have hafter := onward_after h response
  have hinterceptor : c.probe.interceptor.after context response =
      c.probe.after context response := rfl
  unfold settle
  rw [hinterceptor]
  simp only [bind, StateT.bind]
  rcases hout : c.probe.after context response r with ⟨⟨_ | _, _⟩, r'⟩
  · rw [hout] at hafter
    exact hafter.trans (onward_resolver request r')
  · rw [hout] at hafter
    exact hafter

/-- Once the hook before execution has run, the resolver is asked before the hook after it reads. -/
theorem onward_follow (request : Request) (op : Operation) {decided : Except Failure Before}
    {context : Context Notes} {r : Record}
    (h : ∀ p, context.extension.plan = some p →
      decided = .ok .proceed ∧ ∀ part ∈ p.shared, c.Promised r.accesses part) :
    Onward c r (follow c.probe.interceptor resolver request op (decided, context) r).2 := by
  rcases decided with e | _ | data
  · exact onward_resolver request r
  · have hasked := onward_resolver (c := c) (Pipeline.outgoing request op context.operation) r
    have hdue : ∀ p, context.extension.plan = some p → ∀ part ∈ p.shared,
        c.Due (resolver (Pipeline.outgoing request op context.operation) r).2.accesses part :=
      fun p hp part hpart => ((h p hp).2 part hpart).due _
    simp only [follow, bind, StateT.bind]
    rcases hout : resolver (Pipeline.outgoing request op context.operation) r with
      ⟨_ | response, r'⟩
    · rw [hout] at hasked
      exact hasked
    · rw [hout] at hasked hdue
      exact hasked.trans (onward_settle request hdue response)
  -- with an answer there is no plan
  · refine onward_settle request (fun p hp => ?_) _
    cases (h p hp).1

/-- A request that can be read goes through the hook before execution. -/
theorem serve_of_parse (c : Course) (answers : List (Except Failure Response)) {request : Request}
    {op : Operation} (h : Operation.parse request.query = .ok op) :
    let opened := c.probe.before ⟨op, request.variableValues, ({} : Notes)⟩
      { prompter := { answers } }
    c.serve answers request =
      follow c.probe.interceptor resolver request op opened.1 opened.2 := by
  have hbind {α β : Type} (x : StateM Record α) (f : α → StateM Record β) (r : Record) :
      (x >>= f) r = f (x r).1 (x r).2 := rfl
  rw [serve, Pipeline.execute_single h, hbind]
  rfl

/-- In every run every read is checked. -/
theorem checked_accesses (c : Course) (answers : List (Except Failure Response))
    (request : Request) : c.Checked (c.accesses answers request) := by
  let start : Record := { prompter := { answers } }
  have hstart : c.Checked start.accesses := fun k r h => nomatch h
  suffices honward : Onward c start (c.serve answers request).2 from honward.checked hstart
  cases hparse : Operation.parse request.query with
  | error stop =>
      rw [serve, Pipeline.execute_of_parse_error hparse]
      exact onward_resolver request start
  | ok op =>
      rw [serve_of_parse c answers hparse]
      obtain ⟨hbefore, hpromised⟩ :=
        onward_before (c := c) ⟨op, request.variableValues, {}⟩ rfl start
      exact hbefore.trans (onward_follow request op hpromised)

/-- In every course and for every request, each read of the store has a check, made right before it
or before the resolver was asked.  What is behind the fields that the read shows first is fresh at
the check wherever its entity is stored, and it is fresh at the read exactly if it has not expired
in between and has not appeared in between without being written. -/
theorem fresh_at_read_iff (c : Course) (answers : List (Except Failure Response))
    (request : Request) {k : Nat} {r : Read}
    (hread : (c.accesses answers request)[k]? = some (.read r)) :
    ∃ i < k, (∃ fields, (c.accesses answers request)[i]? = some (.check r.kind fields)) ∧
      (i + 1 = k ∨ ∃ j, i < j ∧ j < k ∧ ∃ sent,
        (c.accesses answers request)[j]? = some (.resolve sent)) ∧
      ∀ f ∈ r.firstFields, ∀ cell : Cell, cell.Behind r.kind f.name →
        ((c.view i).store.Holds cell → (c.view i).Fresh cell) ∧
        ((c.view k).Fresh cell ↔
          ¬ (c.view i).Expires (c.between i k) cell ∧
            ¬ (c.view i).Appears (c.between i k) cell) := by
  obtain ⟨i, hik, ⟨fields, hcheck, hfresh, hcovers⟩, hsince⟩ :=
    checked_accesses c answers request k r hread
  refine ⟨i, hik, ⟨fields, hcheck⟩, hsince, fun f hf cell hcell => ?_⟩
  have hchecked : (c.view i).store.Holds cell → (c.view i).Fresh cell :=
    Store.fresh_of_isFreshFor hfresh (hcovers f hf cell hcell) hcell
  refine ⟨hchecked, ?_⟩
  rw [c.view_eq_later (Nat.le_of_lt hik)]
  exact View.fresh_later_iff hchecked (c.between i k)

/-- A request for the prices of pairs and for a field that the store never holds. -/
def priceQuery : Operation :=
  { selections := [.withSubfields "pairs"
      [.plain "address", .plain "lockedValueUSD", .plain "feesCollector"]] }

def priceRequest : Request := { query := priceQuery.text }

/-- What a resolver answers to what is left of it for one pair. -/
def collectorAnswer : List (Except Failure Response) :=
  let entity : Json := .obj [("feesCollector", .str "c"), ("address", .str "a")]
  [.ok { data := some [("pairs", .arr [entity])] }]

/-- What the store adds to this answer. -/
def priceRead : Read := ⟨.pair, "pairs", [], [.plain "address", .plain "lockedValueUSD"]⟩

/-- A ready cache with one pair, whose prices were written at time 0 and are fresh up to an age of
10, and a resolver that takes its time. -/
def slowResolver (duration : Nat) : Course where
  start := {
    store := { Store.empty (.uniform 10) {} with
      pairs := (Store.empty (.uniform 10) {}).pairs.patch "a"
        (.prices { lockedValueUSD := some "5" }) 0 }
    status := .done
    now := 0 }
  gaps
    | 3 => [.pass duration]
    | _ => []

theorem parse_priceRequest : Operation.parse priceRequest.query = .ok priceQuery :=
  Query.parse_text
    ⟨by simp [priceQuery], by simp [priceQuery], by simp [priceQuery], by decide +kernel⟩

/-- While the resolver takes no longer than the prices are fresh, they are fresh when they are
read. -/
theorem fresh_at_read_of_slow_resolver :
    let c := slowResolver 10
    (c.accesses collectorAnswer priceRequest)[3]? = some (.read priceRead) ∧
      (c.view 3).Fresh (.pair "a" .prices) := by
  intro c
  have haccesses : c.accesses collectorAnswer priceRequest =
      [.status, .check .pair priceRead.fields,
        .resolve { query := "query { pairs { feesCollector address } }" }, .read priceRead] := by
    rw [accesses, serve_of_parse _ _ parse_priceRequest]
    decide +kernel
  have hread : (c.accesses collectorAnswer priceRequest)[3]? = some (.read priceRead) := by
    rw [haccesses]
    rfl
  refine ⟨hread, ?_⟩
  obtain ⟨i, hi, ⟨fields, hcheck⟩, -, hcells⟩ :=
    fresh_at_read_iff c collectorAnswer priceRequest hread
  -- the second access is the only check
  obtain rfl : i = 1 := by
    rw [haccesses] at hcheck
    match i, hi with
    | 0, _ => cases hcheck
    | 1, _ => rfl
    | 2, _ => cases hcheck
  have hprices := hcells (.plain "lockedValueUSD") (by decide) (.pair "a" .prices) ⟨rfl, by decide⟩
  refine hprices.2.2 ⟨?_, ?_⟩
  · rintro ⟨time, htime, hage⟩
    obtain rfl : 0 = time := Option.some.inj htime
    exact absurd hage (by decide)
  · rintro ⟨hstored, -⟩
    exact hstored (List.mem_singleton_self "a")

/-- Once the resolver takes longer the prices are stale when they are read, and the answer has
them. -/
theorem stale_at_read :
    let c := slowResolver 11
    (c.serve collectorAnswer priceRequest).1 =
        .ok { data := some [("pairs", .arr [.obj [("feesCollector", .str "c"),
          ("address", .str "a"), ("lockedValueUSD", .str "5")]])] } ∧
      (c.accesses collectorAnswer priceRequest)[3]? = some (.read priceRead) ∧
      priceRead.answer (c.view 3).store =
        .ok (.arr [.obj [("address", .str "a"), ("lockedValueUSD", .str "5")]]) ∧
      Cell.Behind .pair "lockedValueUSD" (.pair "a" .prices) ∧
      ¬ (c.view 3).Fresh (.pair "a" .prices) := by
  intro c
  refine ⟨?_, ?_, by decide +kernel, ⟨rfl, by decide⟩, ?_⟩
  · rw [serve_of_parse _ _ parse_priceRequest]
    decide +kernel
  · rw [accesses, serve_of_parse _ _ parse_priceRequest]
    decide +kernel
  · rintro ⟨time, htime, hage⟩
    obtain rfl : 0 = time := Option.some.inj htime
    exact absurd hage (by decide)

end Course

end Interception

end DexCache
