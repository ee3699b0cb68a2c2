import Mathlib.Tactic

/-! # Signed machine integers, with every operation on record

    A signed integer of `w` bits is a bit vector, read as an integer by `BitVec.toInt`.
    A computation keeps, beside its value, the operations it ran: what each of them is
    over unbounded integers, and the word it left.  A division by zero is a panic, and
    the computation has no value.

    `Exact` says of a computation that it returns, that no operation of it overflowed and
    that its value meets a condition; there is one rule for each way of building a
    computation. -/

namespace GoInt

/-- An operation that ran: its result over unbounded integers, and the word it left. -/
structure Operation (w : Nat) where
  result : Int
  word : BitVec w
  deriving DecidableEq, Repr

/-- The operation did not overflow. -/
def Operation.Fits {w : Nat} (o : Operation w) : Prop := o.word.toInt = o.result

instance {w : Nat} (o : Operation w) : Decidable o.Fits :=
  inferInstanceAs (Decidable (_ = _))

/-- The operations a computation ran, and its value unless it panicked. -/
structure Calc (w : Nat) (α : Type) where
  operations : List (Operation w)
  value : Option α
  deriving DecidableEq, Repr

section
variable {w : Nat} {α β : Type}

/-- No operation. -/
def Calc.pure (a : α) : Calc w α := ⟨[], some a⟩

/-- One computation after the other; nothing runs after a panic. -/
def Calc.bind (c : Calc w α) (f : α → Calc w β) : Calc w β :=
  match c.value with
  | none => ⟨c.operations, none⟩
  | some a => ⟨c.operations ++ (f a).operations, (f a).value⟩

instance : Monad (Calc w) where
  pure := Calc.pure
  bind := Calc.bind

/-- `x * y`. -/
def mul (x y : BitVec w) : Calc w (BitVec w) :=
  ⟨[⟨x.toInt * y.toInt, x * y⟩], some (x * y)⟩

/-- `x / y`: a zero divisor is a panic. -/
def quo (x y : BitVec w) : Calc w (BitVec w) :=
  if y = 0 then ⟨[], none⟩
  else ⟨[⟨x.toInt.tdiv y.toInt, x.sdiv y⟩], some (x.sdiv y)⟩

/-! ## Computations that do not overflow -/

/-- The computation returns a value that meets the condition, and none of its operations
    overflowed. -/
structure Calc.Exact (c : Calc w α) (P : α → Prop) : Prop where
  fits : ∀ o ∈ c.operations, o.Fits
  returns : ∃ a, c.value = some a ∧ P a

variable {c : Calc w α} {f : α → Calc w β} {P : α → Prop} {Q : β → Prop}

theorem exact_pure {a : α} (h : P a) : (pure a : Calc w α).Exact P where
  fits := by
    intro o ho
    cases ho
  returns := ⟨a, rfl, h⟩

theorem exact_bind (hc : c.Exact P) (hf : ∀ a, P a → (f a).Exact Q) :
    (c >>= f).Exact Q := by
  obtain ⟨a, ha, hP⟩ := hc.returns
  have heq : (c >>= f) = ⟨c.operations ++ (f a).operations, (f a).value⟩ := by
    show Calc.bind c f = _
    rw [Calc.bind, ha]
  rw [heq]
  constructor
  · intro o ho
    rcases List.mem_append.mp ho with ho | ho
    · exact hc.fits o ho
    · exact (hf a hP).fits o ho
  · exact (hf a hP).returns

/-- An operation that left its result. -/
theorem exact_operation {r : Int} {x : BitVec w} (h : x.toInt = r) :
    (⟨[⟨r, x⟩], some x⟩ : Calc w (BitVec w)).Exact fun v => v.toInt = r where
  fits := by
    intro o ho
    rw [List.mem_singleton] at ho
    rw [ho]
    exact h
  returns := ⟨x, rfl, h⟩

/-- A product of non-negative factors is exact where it is below half of the words. -/
theorem exact_mul {x y : BitVec w} (h0 : 0 ≤ x.toInt * y.toInt)
    (h : x.toInt * y.toInt < 2 ^ (w - 1)) :
    (mul x y).Exact fun v => v.toInt = x.toInt * y.toInt := by
  refine exact_operation (BitVec.toInt_mul_of_not_smulOverflow ?_)
  have hpos : (0 : Int) < 2 ^ (w - 1) := by positivity
  simp only [BitVec.smulOverflow, Bool.or_eq_true, decide_eq_true_eq, not_or]
  constructor <;> omega

/-- A quotient of a non-negative dividend and a positive divisor is exact. -/
theorem exact_quo {x y : BitVec w} (hx : 0 ≤ x.toInt) (hy : 0 < y.toInt) :
    (quo x y).Exact fun v => v.toInt = x.toInt / y.toInt := by
  have hne : y ≠ 0 := by
    rintro rfl
    simp at hy
  have hquo : (x.sdiv y).toInt = x.toInt.tdiv y.toInt := by
    refine BitVec.toInt_sdiv_of_ne_or_ne x y (.inr ?_)
    rintro rfl
    rw [BitVec.neg_one_eq_allOnes, BitVec.toInt_allOnes] at hy
    split at hy <;> omega
  rw [quo, if_neg hne, ← Int.tdiv_eq_ediv_of_nonneg hx]
  exact exact_operation hquo

end

/-! ## Products that stop at a bound -/

/-- **SATURATION**: a product compared with a bound by dividing the bound is the smaller
    of the two. -/
theorem saturated_mul {bound b p : Int} (hb : 0 < b) :
    (if p > bound / b then bound else b * p) = min bound (b * p) := by
  have hiff : p > bound / b ↔ bound < b * p := by
    rw [gt_iff_lt, Int.ediv_lt_iff_lt_mul hb, mul_comm]
  by_cases h : p > bound / b
  · rw [if_pos h, min_eq_left (hiff.mp h).le]
  · rw [if_neg h, min_eq_right (not_lt.mp (mt hiff.mpr h))]

end GoInt
