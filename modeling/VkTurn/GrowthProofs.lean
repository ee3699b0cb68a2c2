import Mathlib.Algebra.Order.Group.Defs
import Mathlib.Tactic.Abel

/-! # Readings of counters that only grow

    A reading is an element of an ordered group, for instance one integer for each
    counter.  Counters start at zero and only grow, so a later reading is above an earlier
    one and their difference says how far the counters have grown.  Where it is not, a
    counter was reset, and there is no such number.

    A `Meter` is a program that computes the growth between two snapshots or reports an
    error.  What is true of growth is then true of the program: when it succeeds
    (`Meter.succeeds_iff`), and that adjacent results add up (`Meter.additive`). -/

namespace Growth

section
variable {G : Type} [AddCommGroup G] [PartialOrder G] {a b c g g' : G}

/-- `b` can be read later than `a`. -/
def Grown (a b : G) : Prop := 0 ≤ a ∧ a ≤ b

theorem Grown.trans (hab : Grown a b) (hbc : Grown b c) : Grown a c :=
  ⟨hab.1, hab.2.trans hbc.2⟩

open Classical in
/-- How far the counters have grown. -/
noncomputable def growth (a b : G) : Option G :=
  if Grown a b then some (b - a) else none

theorem growth_eq_some : growth a b = some g ↔ Grown a b ∧ g = b - a := by
  unfold growth
  by_cases h : Grown a b
  · rw [if_pos h, Option.some.injEq, eq_comm]
    exact ⟨fun hg => ⟨h, hg⟩, fun hg => hg.2⟩
  · rw [if_neg h]
    constructor
    · intro hg
      cases hg
    · rintro ⟨hg, -⟩
      exact absurd hg h

theorem growth_eq_none : growth a b = none ↔ ¬ Grown a b := by
  unfold growth
  split <;> simp_all

/-- **ADDITIVE**: growth adds up. -/
theorem growth_add (hab : growth a b = some g) (hbc : growth b c = some g') :
    growth a c = some (g + g') := by
  obtain ⟨hgrown, rfl⟩ := growth_eq_some.mp hab
  obtain ⟨hgrown', rfl⟩ := growth_eq_some.mp hbc
  refine growth_eq_some.mpr ⟨hgrown.trans hgrown', ?_⟩
  abel

end

/-! ## Programs that measure growth -/

/-- A program `diff` on snapshots that returns a delta and perhaps an error.  It computes
    the growth of the reading where there is one, and otherwise fails with the zero
    delta. -/
structure Meter (S D E G : Type) [AddCommGroup G] [PartialOrder G] where
  diff : S → S → D × Option E
  zero : D
  reading : S → G
  amount : D → G
  grows : ∀ a b g, growth (reading a) (reading b) = some g →
    (diff a b).2 = none ∧ amount (diff a b).1 = g
  fails : ∀ a b, growth (reading a) (reading b) = none →
    (diff a b).2 ≠ none ∧ (diff a b).1 = zero

namespace Meter

variable {S D E G : Type} [AddCommGroup G] [PartialOrder G] (m : Meter S D E G) {a b c : S}

/-- The program returns no error. -/
def Succeeds (a b : S) : Prop := (m.diff a b).2 = none

theorem succeeds_iff : m.Succeeds a b ↔ Grown (m.reading a) (m.reading b) := by
  constructor
  · intro h
    by_contra hnot
    exact (m.fails a b (growth_eq_none.mpr hnot)).1 h
  · intro h
    exact (m.grows a b _ (growth_eq_some.mpr ⟨h, rfl⟩)).1

/-- A result without an error is the growth. -/
theorem growth_of_succeeds (h : m.Succeeds a b) :
    growth (m.reading a) (m.reading b) = some (m.amount (m.diff a b).1) := by
  have hsome : growth (m.reading a) (m.reading b) = some (m.reading b - m.reading a) :=
    growth_eq_some.mpr ⟨m.succeeds_iff.mp h, rfl⟩
  rw [hsome, (m.grows a b _ hsome).2]

theorem amount_diff (h : m.Succeeds a b) :
    m.amount (m.diff a b).1 = m.reading b - m.reading a :=
  (growth_eq_some.mp (m.growth_of_succeeds h)).2

/-- A failure leaks nothing of the delta. -/
theorem diff_of_not_succeeds (h : ¬ m.Succeeds a b) : (m.diff a b).1 = m.zero :=
  (m.fails a b (growth_eq_none.mpr (mt m.succeeds_iff.mpr h))).2

/-- **ADDITIVE**: adjacent differences add up. -/
theorem additive (hab : m.Succeeds a b) (hbc : m.Succeeds b c) :
    m.Succeeds a c ∧
      m.amount (m.diff a c).1 = m.amount (m.diff a b).1 + m.amount (m.diff b c).1 := by
  have hac : m.Succeeds a c :=
    m.succeeds_iff.mpr ((m.succeeds_iff.mp hab).trans (m.succeeds_iff.mp hbc))
  have hsum := growth_add (m.growth_of_succeeds hab) (m.growth_of_succeeds hbc)
  rw [m.growth_of_succeeds hac] at hsum
  exact ⟨hac, Option.some.inj hsum⟩

end Meter

end Growth
