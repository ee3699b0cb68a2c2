import VkTurn.GoIntProofs
import VkTurn.WireProfileProofs

/-! # The window of a bonded KCP session, in machine integers

    `bondedKCPWindow` multiplies a window by a number of paths and stops at 8192.  The
    number can come from the peer, so the product is never formed before it is known to
    be small: the bound is divided by the window first.

    Over unbounded integers the function is a minimum (`window_eq_min`), from which its
    range and its monotonicity follow.  The server's model uses it there.  The function
    of the source works on `int`s; `bondedKCPWindow_exact` says that it returns the same
    number in every build, with no overflow and no division by zero on the way, so the
    window check of a bonded session and the window of a group are about that number
    (`newKCPOverPacketConnBonded_window`, `fittingWindow_exact`). -/

namespace VkTurnKcpWindow

open GoInt VkTurnStripe VkTurnServer VkTurnWireProfile

/-! ## Over unbounded integers -/

/-- **CLOSED FORM**: the product of the two numbers, each counted as one if it is less,
    or 8192 if the product is more. -/
theorem window_eq_min (base paths : Int) :
    VkTurnServer.bondedKCPWindow base paths =
      min maxKCPWindow (max 1 base * max 1 paths) := by
  have hbase : (if base < 1 then 1 else base) = max 1 base := by
    rw [max_def]
    split <;> split <;> omega
  have hpaths : (if paths < 1 then 1 else paths) = max 1 paths := by
    rw [max_def]
    split <;> split <;> omega
  have hb : 1 ≤ max 1 base := le_max_left 1 base
  have hp : 1 ≤ max 1 paths := le_max_left 1 paths
  unfold VkTurnServer.bondedKCPWindow
  simp only [hbase, hpaths]
  by_cases hlarge : max 1 base ≥ maxKCPWindow
  · rw [if_pos hlarge, min_eq_left]
    calc maxKCPWindow ≤ max 1 base := hlarge
      _ ≤ max 1 base * max 1 paths := le_mul_of_one_le_right (by omega) hp
  · rw [if_neg hlarge, Int.tdiv_eq_ediv_of_nonneg (show 0 ≤ maxKCPWindow by decide)]
    exact saturated_mul (by omega)

/-- A window is between 1 and 8192. -/
theorem window_range (base paths : Int) :
    1 ≤ VkTurnServer.bondedKCPWindow base paths ∧
      VkTurnServer.bondedKCPWindow base paths ≤ maxKCPWindow := by
  rw [window_eq_min]
  constructor
  · exact le_min (by decide)
      (one_le_mul_of_one_le_of_one_le (le_max_left 1 base) (le_max_left 1 paths))
  · exact min_le_left _ _

/-- **MONOTONE**: neither a larger base nor more paths make the window smaller. -/
theorem window_mono {base base' paths paths' : Int} (hb : base ≤ base') (hp : paths ≤ paths') :
    VkTurnServer.bondedKCPWindow base paths ≤ VkTurnServer.bondedKCPWindow base' paths' := by
  have hpaths : 0 ≤ max 1 paths := le_trans zero_le_one (le_max_left 1 paths)
  have hbase : 0 ≤ max 1 base' := le_trans zero_le_one (le_max_left 1 base')
  rw [window_eq_min, window_eq_min]
  refine min_le_min_left maxKCPWindow ?_
  exact mul_le_mul (max_le_max_left 1 hb) (max_le_max_left 1 hp) hpaths hbase

/-- Less than one path counts as one. -/
theorem window_low (base : Int) {paths : Int} (h : paths < 1) :
    VkTurnServer.bondedKCPWindow base paths = VkTurnServer.bondedKCPWindow base 1 := by
  rw [window_eq_min, window_eq_min, max_eq_left h.le, max_self]

/-! ## In machine integers -/

/-- An `int` of the build. -/
abbrev Word (arch : Arch) : Type := BitVec arch.width

/-- The untyped constant `maxKCPWindow` as an `int`. -/
def windowLimit (arch : Arch) : Word arch := BitVec.ofInt arch.width maxKCPWindow

/-- `bondedKCPWindow`.  `BondedKCPWindow` is this function at the variable `KCPWindow`. -/
def bondedKCPWindow {arch : Arch} (baseWindow pathCount : Word arch) :
    Calc arch.width (Word arch) :=
  let baseWindow := if baseWindow.slt 1 then 1 else baseWindow
  if (windowLimit arch).sle baseWindow then pure (windowLimit arch)
  else
    let pathCount := if pathCount.slt 1 then 1 else pathCount
    do
      let quotient ← quo (windowLimit arch) baseWindow
      if quotient.slt pathCount then pure (windowLimit arch)
      else mul baseWindow pathCount

theorem toInt_windowLimit (arch : Arch) : (windowLimit arch).toInt = maxKCPWindow := by
  cases arch <;> rfl

theorem toInt_one (arch : Arch) : (1 : Word arch).toInt = 1 := by
  cases arch <;> rfl

/-- The bound is far below the largest `int`. -/
theorem maxKCPWindow_lt (arch : Arch) : maxKCPWindow < 2 ^ (arch.width - 1) := by
  cases arch <;> decide

/-- `if x < 1 { x = 1 }`. -/
theorem toInt_raised {arch : Arch} (x : Word arch) :
    (if x.slt 1 then 1 else x).toInt = if x.toInt < 1 then 1 else x.toInt := by
  rw [apply_ite BitVec.toInt, toInt_one]
  simp only [BitVec.slt_iff_toInt_lt, toInt_one]

/-- **REFINEMENT**: in every build the function returns the window of the unbounded
    integers, and no operation overflows or divides by zero. -/
theorem bondedKCPWindow_exact {arch : Arch} (base paths : Word arch) :
    (bondedKCPWindow base paths).Exact fun v =>
      v.toInt = VkTurnServer.bondedKCPWindow base.toInt paths.toInt := by
  have hmax := toInt_windowLimit arch
  have hmax0 : 0 ≤ (windowLimit arch).toInt := by
    rw [hmax]
    decide
  unfold bondedKCPWindow VkTurnServer.bondedKCPWindow
  rw [← toInt_raised base, ← toInt_raised paths]
  have hb1 : 1 ≤ (if base.slt 1 then 1 else base).toInt := by
    rw [toInt_raised]
    split <;> omega
  have hp1 : 1 ≤ (if paths.slt 1 then 1 else paths).toInt := by
    rw [toInt_raised]
    split <;> omega
  generalize (if base.slt 1 then 1 else base) = b at hb1
  generalize (if paths.slt 1 then 1 else paths) = p at hp1
  simp only [BitVec.sle_iff_toInt_le, BitVec.slt_iff_toInt_lt, hmax]
  by_cases hlarge : maxKCPWindow ≤ b.toInt
  · rw [if_pos hlarge]
    exact exact_pure (by rw [hmax, if_pos hlarge])
  · rw [if_neg hlarge]
    refine exact_bind (exact_quo hmax0 (by omega)) ?_
    intro quotient hquotient
    rw [hmax] at hquotient
    have hspec : (if b.toInt ≥ maxKCPWindow then maxKCPWindow
        else if p.toInt > maxKCPWindow.tdiv b.toInt then maxKCPWindow
          else b.toInt * p.toInt) =
        if p.toInt > quotient.toInt then maxKCPWindow else b.toInt * p.toInt := by
      rw [if_neg hlarge, Int.tdiv_eq_ediv_of_nonneg (show 0 ≤ maxKCPWindow by decide),
        hquotient]
    simp only [hspec]
    by_cases hover : quotient.toInt < p.toInt
    · rw [if_pos hover]
      exact exact_pure (by rw [hmax, if_pos hover])
    · -- the test against the quotient has bounded the product
      have hprod : b.toInt * p.toInt ≤ maxKCPWindow := by
        rw [hquotient] at hover
        exact le_trans (Int.mul_le_mul_of_nonneg_left (not_lt.mp hover) (by omega))
          (Int.mul_ediv_self_le (by omega))
      have hprod0 : 0 ≤ b.toInt * p.toInt := mul_nonneg (by omega) (by omega)
      rw [if_neg hover, if_neg hover]
      exact exact_mul hprod0 (lt_of_le_of_lt hprod (maxKCPWindow_lt arch))

/-- The word that the function returns. -/
theorem bondedKCPWindow_value {arch : Arch} {base paths v : Word arch}
    (h : (bondedKCPWindow base paths).value = some v) :
    v.toInt = VkTurnServer.bondedKCPWindow base.toInt paths.toInt := by
  obtain ⟨u, hu, hspec⟩ := (bondedKCPWindow_exact base paths).returns
  obtain rfl : u = v := Option.some.inj (hu.symm.trans h)
  exact hspec

/-- **SATURATING ARITHMETIC**: for all `int`s of the build, negative and extreme ones
    among them, no operation of `bondedKCPWindow` overflows, it returns the product
    over unbounded integers of the two numbers, each raised to 1, cut at 8192, and its
    result is in 1..8192 and monotone in each argument. -/
theorem bondedKCPWindow_saturates (arch : Arch) (base paths : Word arch) :
    (∀ o ∈ (bondedKCPWindow base paths).operations, o.word.toInt = o.result) ∧
    (∃ v, (bondedKCPWindow base paths).value = some v ∧
      v.toInt = min 8192 (max 1 base.toInt * max 1 paths.toInt) ∧
      1 ≤ v.toInt ∧ v.toInt ≤ 8192) ∧
    (∀ base' v v', base.toInt ≤ base'.toInt →
      (bondedKCPWindow base paths).value = some v →
      (bondedKCPWindow base' paths).value = some v' → v.toInt ≤ v'.toInt) ∧
    ∀ paths' v v', paths.toInt ≤ paths'.toInt →
      (bondedKCPWindow base paths).value = some v →
      (bondedKCPWindow base paths').value = some v' → v.toInt ≤ v'.toInt := by
  have hexact := bondedKCPWindow_exact base paths
  refine ⟨hexact.fits, ?_, ?_, ?_⟩
  · obtain ⟨v, hv, hspec⟩ := hexact.returns
    have hrange := window_range base.toInt paths.toInt
    rw [← hspec] at hrange
    exact ⟨v, hv, hspec.trans (window_eq_min _ _), hrange.1, hrange.2⟩
  · intro base' v v' hle hv hv'
    rw [bondedKCPWindow_value hv, bondedKCPWindow_value hv']
    exact window_mono hle le_rfl
  · intro paths' v v' hle hv hv'
    rw [bondedKCPWindow_value hv, bondedKCPWindow_value hv']
    exact window_mono le_rfl hle

/-- The largest `int` as a path count: one division, and no product is formed. -/
example : bondedKCPWindow (256 : Word .bits64) (BitVec.intMax 64) =
    ⟨[⟨32, 32⟩], some 8192⟩ := by decide

/-! ## Sessions and groups -/

/-- `NewKCPOverPacketConnBonded` in a process with these settings; no result is a panic. -/
def newKCPOverPacketConnBonded {arch : Arch} (v : TuningValues) (pathCount : Word arch)
    (kcp : KCPEnd) : Option (Except KCPError KCPSession) :=
  (bondedKCPWindow (BitVec.ofInt arch.width v.window) pathCount).value.map fun window =>
    newKCPOverPacketConn v window.toInt kcp

/-- The window of an accepted tuning. -/
theorem validateTuning_window {v : TuningValues} (h : validateTuning v = []) :
    1 ≤ v.window ∧ v.window ≤ maxKCPWindow := by
  simp only [validateTuning, List.append_eq_nil_iff, complain_eq_nil] at h
  have hwindow : ¬ (v.window < 1 ∨ v.window > maxKCPWindow) := h.1.1.1.1.1.1.1.1
  omega

theorem newKCPOverPacketConn_ok {v : TuningValues} {window : Int} {kcp : KCPEnd}
    {sess : KCPSession} (h : newKCPOverPacketConn v window kcp = .ok sess) :
    validateTuning v = [] ∧ sess.window = window := by
  unfold newKCPOverPacketConn at h
  split at h
  · cases h
  · rename_i hvalid
    split at h
    · cases h
    · split at h
      · cases h
      · split at h
        · cases h
          exact ⟨hvalid, rfl⟩
        · cases h

theorem newKCPOverPacketConn_windowRange {v : TuningValues} {window m : Int} {kcp : KCPEnd}
    (h : newKCPOverPacketConn v window kcp = .error (.windowRange m)) :
    window < 1 ∨ window > maxKCPWindow := by
  unfold newKCPOverPacketConn at h
  split at h
  · cases h
  · split at h
    · assumption
    · split at h
      · cases h
      · split at h <;> cases h

/-- **BONDED SESSIONS**: whatever number of paths it is asked for, a bonded session is
    never refused for its window, and the window it is given is that of the tuning times
    the number of paths, up to 8192. -/
theorem newKCPOverPacketConnBonded_window {arch : Arch} (v : TuningValues)
    (paths : Word arch) (kcp : KCPEnd) :
    ∃ r, newKCPOverPacketConnBonded v paths kcp = some r ∧
      (∀ m, r ≠ .error (.windowRange m)) ∧
      ∀ sess, r = .ok sess →
        sess.window = min maxKCPWindow (v.window * max 1 paths.toInt) := by
  obtain ⟨window, hvalue, hwindow⟩ :=
    (bondedKCPWindow_exact (BitVec.ofInt arch.width v.window) paths).returns
  refine ⟨newKCPOverPacketConn v window.toInt kcp, ?_, ?_, ?_⟩
  · rw [newKCPOverPacketConnBonded, hvalue, Option.map_some]
  · intro m herr
    have hout := newKCPOverPacketConn_windowRange herr
    rw [hwindow] at hout
    have hrange := window_range (BitVec.ofInt arch.width v.window).toInt paths.toInt
    omega
  · intro sess hok
    obtain ⟨hvalid, hsess⟩ := newKCPOverPacketConn_ok hok
    obtain ⟨h1, hmax⟩ := validateTuning_window hvalid
    have hlt := maxKCPWindow_lt arch
    have hbase : (BitVec.ofInt arch.width v.window).toInt = v.window := by
      refine BitVec.toInt_ofInt_eq_self ?_ (by omega) (by omega)
      cases arch <;> decide
    rw [hsess, hwindow, window_eq_min, hbase, max_eq_right h1]

/-- The window of a group is what `BondedKCPWindow` returns for it. -/
theorem fittingWindow_exact {arch : Arch} {cfg : Config} {grp : Group} {base paths : Word arch}
    (hbase : base.toInt = cfg.kcpWindow) (hpaths : paths.toInt = grp.desiredPathCount) :
    (bondedKCPWindow base paths).Exact fun v => v.toInt = grp.fittingWindow cfg := by
  rw [Group.fittingWindow, ← hbase, ← hpaths]
  exact bondedKCPWindow_exact base paths

end VkTurnKcpWindow
