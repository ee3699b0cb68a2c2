import Mathlib.Data.List.Rotate
import Mathlib.Tactic

/-! # Striping: which path a packet is tried on

    `WriteTo` takes a snapshot of the paths, draws a round-robin number from
    the `uint64` counter `nextPath` and walks the snapshot cyclically from
    there.  The number is converted to the build's signed `int` BEFORE the
    modulus, so once its low bits read as a negative `int` the start is
    negative too (Go's `%` takes the sign of the dividend) and the index leaves
    the snapshot.  This file says exactly when it stays inside, and
    `attempts_eq_rotate` says that on a tame counter the walk is the rotation
    of the snapshot. -/

namespace VkTurnStripe

/-- The `int` widths of the released builds: 386, arm and mips have 32 bits,
    the others 64. -/
inductive Arch where
  | bits32
  | bits64
  deriving DecidableEq, Repr

/-- Bits of an `int`, and of a pointer. -/
def Arch.width : Arch → Nat
  | .bits32 => 32
  | .bits64 => 64

/-- What an `int` of this build keeps of a mathematical integer. -/
def Arch.wrap (arch : Arch) (x : Int) : Int := Int.bmod x (2 ^ arch.width)

/-- A slice of `k` pointers that exists in this build's address space. -/
def Addressable (arch : Arch) (k : Nat) : Prop :=
  k * (arch.width / 8) ≤ 2 ^ arch.width

instance (arch : Arch) (k : Nat) : Decidable (Addressable arch k) :=
  inferInstanceAs (Decidable (_ ≤ _))

/-- `start := int(atomic.AddUint64(&b.nextPath, 1)-1) % len(paths)`. -/
def stripeStart (arch : Arch) (nextPath : UInt64) (k : Nat) : Int :=
  (arch.wrap (nextPath + 1 - 1).toNat).tmod k

/-- `(start+attempt) % len(paths)`. -/
def stripeIndex (arch : Arch) (nextPath : UInt64) (k attempt : Nat) : Int :=
  (arch.wrap (stripeStart arch nextPath k + attempt)).tmod k

/-- A Go index expression: `none` is the run-time panic. -/
def goIndex {α : Type} (xs : List α) (i : Int) : Option α :=
  if 0 ≤ i then xs[i.toNat]? else none

/-- The paths the loop of `WriteTo` comes to, attempt by attempt. -/
def attempts {α : Type} (arch : Arch) (nextPath : UInt64) (paths : List α) :
    List (Option α) :=
  (List.range paths.length).map fun attempt =>
    goIndex paths (stripeIndex arch nextPath paths.length attempt)

/-! ## When the index stays inside the snapshot -/

/-- The index that `WriteTo` computes is one of the snapshot. -/
def InRange (arch : Arch) (nextPath : UInt64) (k attempt : Nat) : Prop :=
  0 ≤ stripeIndex arch nextPath k attempt ∧ stripeIndex arch nextPath k attempt < k

instance (arch : Arch) (c : UInt64) (k a : Nat) : Decidable (InRange arch c k a) :=
  inferInstanceAs (Decidable (_ ∧ _))

/-- The counter's low bits as the build's `int` are not negative. -/
def Tame (arch : Arch) (nextPath : UInt64) : Prop :=
  nextPath.toNat % 2 ^ arch.width < 2 ^ (arch.width - 1)

instance (arch : Arch) (c : UInt64) : Decidable (Tame arch c) :=
  inferInstanceAs (Decidable (_ < _))

/-- How far below zero a counter that is not tame reads as an `int`. -/
def debt (arch : Arch) (nextPath : UInt64) : Nat :=
  2 ^ arch.width - nextPath.toNat % 2 ^ arch.width

theorem two_pow_width (arch : Arch) :
    2 ^ arch.width = 2 * 2 ^ (arch.width - 1) := by
  cases arch <;> decide

/-- A tame counter converts to itself modulo the word. -/
theorem wrap_of_tame {arch : Arch} {c : UInt64} (h : Tame arch c) :
    arch.wrap (c + 1 - 1).toNat = (c.toNat % 2 ^ arch.width : Nat) := by
  have hc : c + 1 - 1 = c := UInt64.add_sub_cancel c 1
  have h2 := two_pow_width arch
  unfold Tame at h
  rw [hc, Arch.wrap, Int.bmod_def]
  have hcast : ((c.toNat : Int) % ((2 ^ arch.width : Nat) : Int))
      = ((c.toNat % 2 ^ arch.width : Nat) : Int) := by norm_cast
  rw [hcast, if_pos (by omega)]

/-- A counter that is not tame converts to minus its debt. -/
theorem wrap_of_not_tame {arch : Arch} {c : UInt64} (h : ¬ Tame arch c) :
    arch.wrap (c + 1 - 1).toNat = -(debt arch c : Int) := by
  have hc : c + 1 - 1 = c := UInt64.add_sub_cancel c 1
  have h2 := two_pow_width arch
  have hlt : c.toNat % 2 ^ arch.width < 2 ^ arch.width :=
    Nat.mod_lt _ (by positivity)
  unfold Tame at h
  rw [hc, Arch.wrap, Int.bmod_def, debt]
  have hcast : ((c.toNat : Int) % ((2 ^ arch.width : Nat) : Int))
      = ((c.toNat % 2 ^ arch.width : Nat) : Int) := by norm_cast
  rw [hcast, if_neg (by omega)]
  omega

/-- The start of a tame counter is its remainder. -/
theorem stripeStart_of_tame {arch : Arch} {c : UInt64} (k : Nat)
    (h : Tame arch c) :
    stripeStart arch c k = (c.toNat % 2 ^ arch.width % k : Nat) := by
  rw [stripeStart, wrap_of_tame h]
  exact (Int.ofNat_tmod _ _).symm

/-- The start of any other counter is minus the remainder of its debt. -/
theorem stripeStart_of_not_tame {arch : Arch} {c : UInt64} (k : Nat)
    (h : ¬ Tame arch c) :
    stripeStart arch c k = -(debt arch c % k : Nat) := by
  rw [stripeStart, wrap_of_not_tame h, Int.neg_tmod]
  exact congrArg Neg.neg (Int.ofNat_tmod _ _).symm

/-- An integer that fits the build's `int` stays. -/
theorem wrap_eq_self {arch : Arch} {x : Int} (hlo : -2 ^ (arch.width - 1) ≤ x)
    (hhi : x < 2 ^ (arch.width - 1)) : arch.wrap x = x := by
  have h2 : ((2 ^ arch.width : Nat) : Int) = 2 * 2 ^ (arch.width - 1) := by
    exact_mod_cast two_pow_width arch
  rw [Arch.wrap]
  refine Int.bmod_eq_of_le ?_ ?_
  · rw [h2]; omega
  · rw [h2]; omega

/-- Adding the attempt number never overflows: a slice that fits in memory is
    too short for that. -/
theorem wrap_start_add {arch : Arch} {x : Int} {k a : Nat}
    (hk : Addressable arch k) (ha : a < k) (hlo : -(k : Int) < x) (hhi : x < k) :
    arch.wrap (x + a) = x + a := by
  have hbound : 2 * (k : Int) ≤ 2 ^ (arch.width - 1) := by
    unfold Addressable at hk
    cases arch with
    | bits32 => simp only [Arch.width] at hk ⊢; omega
    | bits64 => simp only [Arch.width] at hk ⊢; omega
  exact wrap_eq_self (by omega) (by omega)

/-- On a tame counter the index is the plain cyclic one. -/
theorem stripeIndex_of_tame {arch : Arch} {c : UInt64} {k a : Nat}
    (hk : Addressable arch k) (ha : a < k) (h : Tame arch c) :
    stripeIndex arch c k a = ((c.toNat % 2 ^ arch.width + a) % k : Nat) := by
  have hlt : c.toNat % 2 ^ arch.width % k < k := Nat.mod_lt _ (by omega)
  rw [stripeIndex, stripeStart_of_tame k h,
    wrap_start_add hk ha (by omega) (by omega), ← Nat.cast_add]
  rw [show ((c.toNat % 2 ^ arch.width + a) % k)
    = ((c.toNat % 2 ^ arch.width % k + a) % k) by rw [Nat.mod_add_mod]]
  exact (Int.ofNat_tmod _ _).symm

/-- On any other counter the index is the attempt number less the debt's
    remainder, below zero until the attempts have caught up with it. -/
theorem stripeIndex_of_not_tame {arch : Arch} {c : UInt64} {k a : Nat}
    (hk : Addressable arch k) (ha : a < k) (h : ¬ Tame arch c) :
    stripeIndex arch c k a = (a : Int) - (debt arch c % k : Nat) := by
  have hlt : debt arch c % k < k := Nat.mod_lt _ (by omega)
  rw [stripeIndex, stripeStart_of_not_tame k h,
    wrap_start_add hk ha (by omega) (by omega)]
  by_cases hle : debt arch c % k ≤ a
  · rw [Int.tmod_eq_of_lt (by omega) (by omega)]
    omega
  · have hneg : -((debt arch c % k : Nat) : Int) + a
        = -(((debt arch c % k : Nat) : Int) - a) := by omega
    rw [hneg, Int.neg_tmod, Int.tmod_eq_of_lt (by omega) (by omega)]
    omega

/-- **EXACT RANGE**: for every counter value and every attempt on a non-empty
    snapshot of `k` paths, the index is in `0..k-1` exactly when the counter is
    tame or the attempt number has caught up with the counter's debt. -/
theorem stripeIndex_inRange_iff (arch : Arch) (nextPath : UInt64) (k attempt : Nat)
    (hk : Addressable arch k) (ha : attempt < k) :
    InRange arch nextPath k attempt ↔
      Tame arch nextPath ∨ debt arch nextPath % k ≤ attempt := by
  have hkpos : 0 < k := by omega
  by_cases h : Tame arch nextPath
  · have hlt : (nextPath.toNat % 2 ^ arch.width + attempt) % k < k :=
      Nat.mod_lt _ hkpos
    unfold InRange
    rw [stripeIndex_of_tame hk ha h]
    exact ⟨fun _ => Or.inl h, fun _ => ⟨by omega, by exact_mod_cast hlt⟩⟩
  · have hlt : debt arch nextPath % k < k := Nat.mod_lt _ hkpos
    unfold InRange
    rw [stripeIndex_of_not_tame hk ha h]
    constructor
    · rintro ⟨h0, -⟩
      exact Or.inr (by omega)
    · rintro (ht | hle)
      · exact absurd ht h
      · exact ⟨by omega, by omega⟩

/-- The millionth packet on three paths of a 32-bit build. -/
theorem stripeIndex_inRange_million :
    InRange .bits32 999999 3 2 ∧ Tame .bits32 999999 :=
  ⟨(stripeIndex_inRange_iff .bits32 999999 3 2 (by decide) (by decide)).mpr
    (Or.inl (by decide)), by decide⟩

/-- The index leaves the snapshot on both widths: after `2^31` packets on three
    paths of a 32-bit build, after `2^63` on three paths of a 64-bit one. -/
theorem stripeIndex_outOfRange :
    ¬ (∀ (arch : Arch) (nextPath : UInt64) (k attempt : Nat),
        Addressable arch k → attempt < k → InRange arch nextPath k attempt) ∧
      stripeIndex .bits32 2147483648 3 0 = -2 ∧
      stripeIndex .bits64 9223372036854775808 3 0 = -2 := by
  refine ⟨?_, by decide, by decide⟩
  intro h
  exact absurd (h .bits32 2147483648 3 0 (by decide) (by decide)) (by decide)

/-! ## The walk of a tame counter -/

/-- **CYCLIC ORDER**: while the counter is inside the range of `int`, the
    attempts are the snapshot rotated to the counter's position. -/
theorem attempts_eq_rotate {α : Type} {arch : Arch} {c : UInt64} {paths : List α}
    (hk : Addressable arch paths.length)
    (hc : c.toNat < 2 ^ (arch.width - 1)) :
    attempts arch c paths
      = (paths.rotate (c.toNat % paths.length)).map some := by
  have h2 := two_pow_width arch
  have hmod : c.toNat % 2 ^ arch.width = c.toNat := Nat.mod_eq_of_lt (by omega)
  have htame : Tame arch c := by unfold Tame; omega
  refine List.ext_getElem (by simp [attempts]) ?_
  intro a ha _
  have hlt : a < paths.length := by simpa [attempts] using ha
  have hidx : (c.toNat + a) % paths.length < paths.length :=
    Nat.mod_lt _ (by omega)
  simp only [attempts, List.getElem_map, List.getElem_range, List.getElem_rotate]
  rw [stripeIndex_of_tame hk hlt htame, hmod, goIndex, if_pos (by omega),
    Int.toNat_natCast, List.getElem?_eq_getElem hidx]
  congr 2
  rw [Nat.add_mod_mod, Nat.add_comm]

end VkTurnStripe
