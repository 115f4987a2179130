import DexCache.Entity.Basic

/-!
# Write times and thresholds of groups

For each group the time of its last write, if it was ever written, and the age up to
which it counts as fresh.  Times are nanoseconds.
-/

namespace DexCache

/-- The last write of each group that was ever written. -/
structure Stamps (G : Type) where
  writes : List (G × Int) := []
deriving DecidableEq, Repr

namespace Stamps

variable {G : Type} [DecidableEq G]

/-- The last write of a group. -/
def at? (s : Stamps G) (g : G) : Option Int :=
  (s.writes.find? fun w => w.1 = g).map Prod.snd

/-- Notes a write of a group. -/
def note (s : Stamps G) (g : G) (time : Int) : Stamps G :=
  ⟨(g, time) :: s.writes.filter fun w => w.1 ≠ g⟩

/-- Every group written at one time. -/
def all [FieldGroup G] (time : Int) : Stamps G :=
  ⟨FieldGroup.all.map fun g => (g, time)⟩

@[simp] theorem at?_note_self (s : Stamps G) (g : G) (time : Int) :
    (s.note g time).at? g = some time := by
  simp [at?, note]

theorem find?_filter_ne {g h : G} (ne : h ≠ g) (ws : List (G × Int)) :
    (ws.filter fun w => w.1 ≠ g).find? (fun w => w.1 = h) = ws.find? fun w => w.1 = h := by
  induction ws with
  | nil => rfl
  | cons w ws ih =>
    by_cases hg : w.1 = g
    · have other : w.1 ≠ h := fun e => ne (e.symm.trans hg)
      rw [List.filter_cons_of_neg (by simp [hg]), ih, List.find?_cons_of_neg (by simp [other])]
    · rw [List.filter_cons_of_pos (by simp [hg])]
      by_cases hh : w.1 = h
      · rw [List.find?_cons_of_pos (by simp [hh]), List.find?_cons_of_pos (by simp [hh])]
      · rw [List.find?_cons_of_neg (by simp [hh]), List.find?_cons_of_neg (by simp [hh]), ih]

theorem at?_note_of_ne (s : Stamps G) {g h : G} (time : Int) (ne : h ≠ g) :
    (s.note g time).at? h = s.at? h := by
  unfold at? note
  rw [List.find?_cons_of_neg (by simp [Ne.symm ne]), find?_filter_ne ne]

@[simp] theorem at?_all [FieldGroup G] (g : G) (time : Int) :
    (all time : Stamps G).at? g = some time := by
  have hit : ∀ gs : List G, g ∈ gs →
      (gs.map fun g => (g, time)).find? (fun w => w.1 = g) = some (g, time) := by
    intro gs
    induction gs with
    | nil => intro h; cases h
    | cons a gs ih =>
      intro h
      by_cases ha : a = g
      · simp [ha]
      · have : g ∈ gs := by simpa [Ne.symm ha] using h
        simp [ha, ih this]
  simp [at?, all, hit _ (FieldGroup.mem_all g)]

end Stamps

/-- The ages up to which groups are fresh. -/
structure Thresholds (G : Type) where
  explicit : List (G × Int) := []
deriving DecidableEq, Repr

namespace Thresholds

variable {G : Type} [DecidableEq G]

/-- The threshold that was set for a group. -/
def explicit? (t : Thresholds G) (g : G) : Option Int :=
  (t.explicit.find? fun e => e.1 = g).map Prod.snd

/-- The threshold of a group; zero where none was set. -/
def of (t : Thresholds G) (g : G) : Int :=
  (t.explicit? g).getD 0

/-- The same threshold for every group. -/
def uniform [FieldGroup G] (age : Int) : Thresholds G :=
  ⟨FieldGroup.all.map fun g => (g, age)⟩

end Thresholds

end DexCache
