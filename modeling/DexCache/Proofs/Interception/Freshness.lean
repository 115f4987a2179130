import DexCache.Proofs.Interception.Claiming
import DexCache.Proofs.Pipeline.Recorded
import DexCache.Proofs.Store.Watched

/-!
# Only fresh data are served

Whatever has happened to the store and its monitor before, a query is taken away from the
resolver, or a part of it, only while the cache is ready, and only where every stored entity
was written lately enough in every group that the answer reads.  In all other cases the
resolver gets the request as it came.

The times of writes are those of the history of the store, not those that it keeps.
-/

namespace DexCache

open Query (Field Operation)

/-- After these writes, was every stored entity written lately in the group behind a field? -/
def Write.Recent {α G P : Type} [DecidableEq G] [FieldGroup G] [Entity α G P]
    (t : Thresholds G) (writes : List (Write α P)) (now : Int) (field : String) : Prop :=
  ∀ a ∈ (Collection.ofHistory t writes).all, ∀ g : G, FieldGroup.ofField? field = some g →
    ∃ time, Write.last? (Entity.id a) g writes = some time ∧ now - time ≤ t.of g

namespace Collection

variable {α G P : Type} [DecidableEq G] [FieldGroup G] [Entity α G P]

theorem mem_backingGroups {fields : List Field} {g : G} :
    g ∈ (backingGroups fields : List G) ↔ ∃ f ∈ fields, FieldGroup.ofField? f.name = some g := by
  simp [backingGroups, List.mem_eraseDups, List.mem_filterMap]

/-- A collection that is fresh for some fields was written lately in all their groups. -/
theorem recent_of_isFreshFor {t : Thresholds G} {writes : List (Write α P)} {fields : List Field}
    {now : Int} (h : (ofHistory t writes).isFreshFor fields now = true) {f : Field}
    (hf : f ∈ fields) : Write.Recent t writes now f.name := by
  intro a ha g hg
  obtain ⟨e, he, rfl⟩ := List.mem_map.1 ha
  have hgroup : g ∈ (backingGroups fields : List G) := mem_backingGroups.2 ⟨f, hf, hg⟩
  obtain ⟨time, htime, hage⟩ := allFresh_iff.1 h e he g hgroup
  exact ⟨time, (at?_of_mem_ofHistory he g).symm.trans htime, by simpa using hage⟩

end Collection

namespace Watched

/-- After these steps, was every stored entity of a kind written lately in the group behind a
field? -/
def Recent (pairs : Thresholds PairGroup) (tokens : Thresholds TokenGroup) (history : List Step)
    (now : Int) (field : String) : EntityKind → Prop
  | .pair => Write.Recent pairs (pairWrites history) now field
  | .token => Write.Recent tokens (tokenWrites history) now field

theorem recent_of_isFreshFor {pairs : Thresholds PairGroup} {tokens : Thresholds TokenGroup}
    {history : List Step} {now : Int} {kind : EntityKind} {fields : List Field}
    (h : (ofHistory pairs tokens history).store.isFreshFor kind fields now = true) {f : Field}
    (hf : f ∈ fields) : Recent pairs tokens history now f.name kind := by
  cases kind with
  | pair =>
      rw [Store.isFreshFor, pairs_ofHistory] at h
      exact Collection.recent_of_isFreshFor h hf
  | token =>
      rw [Store.isFreshFor, tokens_ofHistory] at h
      exact Collection.recent_of_isFreshFor h hf

end Watched

namespace Interception

open Pipeline (Notes Prompter serve opened)

/-- A field of which something is taken is claimable, and nothing is read that is not held. -/
theorem claimable_of_leftOf_ne {s : Store} {now : Int} {supplied : Json.Object} {f : Field}
    (hclaim : claim s now supplied f = .ok (taken s now supplied f))
    (hleft : leftOf s now supplied f ≠ some f) :
    ∃ kind l arguments, Claimable s now supplied f kind l arguments := by
  rcases claim_cases hclaim with hdeclined | ⟨kind, l, arguments, hclaimable, -⟩
  · exact absurd (by rw [leftOf, hdeclined]; rfl) hleft
  · exact ⟨kind, l, arguments, hclaimable⟩

/-- Either the hook leaves the operation alone and gives no answer, or it acts, and what it
leaves for the resolver is what its claims leave. -/
theorem forResolver_cases {X : Type} [PlanSlot X] (v : View) (context : Context X) :
    (forResolver (before v context) = context.operation.selections ∧
        (before v context).2 = context ∧
        ∀ data, (before v context).1 ≠ .ok (.answered data)) ∨
      ∃ p, Acting v context p ∧
        forResolver (before v context) = context.operation.selections.filterMap
          (leftOf v.store v.now context.variableValues) ∧
        (forResolver (before v context) = context.operation.selections →
          (before v context).2.operation = context.operation ∧
            ∀ data, (before v context).1 ≠ .ok (.answered data)) := by
  -- the hook proceeds or fails, or it acts on a plan
  rcases before_cases v context with ⟨hsame, hdecided⟩ | ⟨p, hacting⟩
  · refine .inl ?_
    rcases hdecided with hproceed | ⟨e, herror⟩
    · simp [forResolver, hproceed, hsame]
    · simp [forResolver, herror, hsame]
  · refine .inr ⟨p, hacting, hacting.forResolver_eq, ?_⟩
    intro hall
    rcases hacting.before_cases with ⟨-, hbefore⟩ | ⟨-, hbefore⟩
    -- an operation without selections has an empty plan
    · have hempty : context.operation.selections = [] := by rw [← hall, hbefore]; rfl
      have hnonempty := hacting.nonempty
      rw [hacting.planned, hempty] at hnonempty
      exact absurd hnonempty (by simp [Plan.isEmpty, planOf])
    · have hselections := hacting.forResolver_eq.symm.trans hall
      rw [hbefore]
      refine ⟨?_, by simp⟩
      simp only [hselections]

/-- Serving is safe: what is removed from a query or rewritten in it is fresh, entity by entity
and group by group, and nothing else is touched. -/
theorem only_fresh_is_taken (pairs : Thresholds PairGroup) (tokens : Thresholds TokenGroup)
    (history : List Watched.Step) (now : Int) (later : Nat → View)
    (answers : List (Except Failure Response)) (request : Request) :
    let watched := Watched.ofHistory pairs tokens history
    let view := watched.view now
    let asked := (serve (fun | 0 => view | n + 1 => later n) answers request).2.asked
    (∀ op, Operation.parse request.query = .ok op →
      let left := forResolver (opened view request op)
      (left ≠ op.selections →
        op.kind = .query ∧ watched.monitor.status = .done ∧
          left = op.selections.filterMap (leftOf watched.store now request.variableValues) ∧
          ∀ f ∈ op.selections, leftOf watched.store now request.variableValues f ≠ some f →
            ∃ kind l, listing? f.name = some (kind, l) ∧
              ∀ g ∈ l.entityFields f, ¬ l.isMissing g.name →
                Watched.Recent pairs tokens history now g.name kind) ∧
      (left = op.selections → (opened view request op).2.operation = op)) ∧
    ((∀ op, Operation.parse request.query = .ok op →
        forResolver (opened view request op) = op.selections) →
      request ∈ asked ∧ ∀ r ∈ asked, r = request) := by
  intro watched view asked
  refine ⟨?_, ?_⟩
  · intro op hparse left
    rcases forResolver_cases view ⟨op, request.variableValues, ({} : Notes)⟩ with
      ⟨hall, hsame, -⟩ | ⟨p, hacting, hleft, hsame⟩
    · exact ⟨fun hne => absurd hall hne, fun _ => congrArg Context.operation hsame⟩
    · refine ⟨?_, fun hall => (hsame hall).1⟩
      intro _
      refine ⟨hacting.isQuery, hacting.ready, hleft, ?_⟩
      intro f hf htaken
      obtain ⟨kind, l, arguments, hclaimable⟩ :=
        claimable_of_leftOf_ne (hacting.claims f hf) htaken
      refine ⟨kind, l, hclaimable.listed, ?_⟩
      intro g hg hheld
      -- a field that is not missing is among those that freshness is asked for
      have hheld : g ∈ heldFields l f := by
        simpa [heldFields] using And.intro hg (by simpa using hheld)
      exact Watched.recent_of_isFreshFor hclaimable.fresh hheld
  · intro hunchanged
    refine Pipeline.asked_serve_of_unchanged ?_
    intro op hparse
    have hall := hunchanged op hparse
    rcases forResolver_cases view ⟨op, request.variableValues, ({} : Notes)⟩ with
      ⟨-, hsame, hunanswered⟩ | ⟨p, -, -, hsame⟩
    · exact ⟨congrArg Context.operation hsame, hunanswered⟩
    · exact hsame hall

end Interception

end DexCache
