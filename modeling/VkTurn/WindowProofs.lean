import VkTurn.HandoverProofs
import VkTurn.KcpWindowProofs

/-! # The KCP window of a bond group

    A group sizes the window of its KCP session by the number of paths it was
    promised or has seen.  Paths join and leave, the session's setter is installed
    and cleared, in any order; `applyWindowLocked` only ever makes the window
    larger and does nothing where it is large enough.

    A group by itself is a thread pool: calls of `addWithCleanup`,
    `installWindowSetter` and `clearWindowSetter`, and a bond that moves.  A history
    beside it keeps the path counts that admissions have observed and where the
    calls of the present setter begin.

    Skipping a call is right because the window does not fall when the number of
    paths rises (`window_mono`), and that number never falls. -/

namespace VkTurnWindow

open ThreadPool VkTurnStripe VkTurnBond VkTurnBondHello VkTurnServer VkTurnHandover
open VkTurnKcpWindow (window_range window_mono window_low)

/-! ## A group and the calls on it -/

/-- Where a call is: in `addWithCleanup` before its limit test, before its call of
    `AddConn` and in it; before the locked part of `installWindowSetter` or
    `clearWindowSetter`; at its end. -/
inductive Pc where
  | limit (conn : Option Conn) (cleanup : Bool)
  | call (conn : Option Conn) (cleanup : Bool)
  | adding (tid : Nat)
  | installing (w : Nat)
  | clearing (w : Nat)
  | refused
  | returned
  deriving DecidableEq, Repr

/-- The calls, and whatever the bond does by itself. -/
inductive Op where
  | addWithCleanup (conn : Option Conn) (cleanup : Bool)
  | installWindowSetter (w : Nat)
  | clearWindowSetter (w : Nat)
  | bond (a : Act VkTurnBond.Choice VkTurnBond.Op)
  deriving DecidableEq

/-- The step is a call of `AddConn`. -/
def isAddConn : Act VkTurnBond.Choice VkTurnBond.Op → Bool
  | .env (.addConn _ _) => true
  | _ => false

/-- One section of thread `i`. -/
def exec (cfg : Config) (i : Nat) (grp : Group) : Pc → Unit → Option (Group × Pc × List Pc)
  | .limit conn cleanup, _ =>
      if grp.mu = none ∧ grp.bond.shared.mu = none then
        if grp.full then some (grp, .refused, [])
        else some ({ grp with mu := some i }, .call conn cleanup, [])
      else none
  | .call conn cleanup, _ =>
      match bondStep cfg.arch grp.bond (.env (.addConn conn cleanup)) with
      | none => none
      | some bond => some ({ grp with bond := bond }, .adding grp.bond.threads.length, [])
  | .adding tid, _ =>
      match grp.bond.threads[tid]? with
      | some (.returned _) =>
          if grp.bond.shared.mu = none then some (grp.sized cfg, .returned, []) else none
      | _ => none
  | .installing w, _ =>
      if grp.mu = none then some (grp.install cfg w, .returned, []) else none
  | .clearing w, _ => if grp.mu = none then some (grp.clear w, .returned, []) else none
  | _, _ => none

/-- A new call; a move of the bond other than a call of `AddConn`. -/
def outside (cfg : Config) (grp : Group) : Op → Option (Group × List Pc)
  | .addWithCleanup conn cleanup => some (grp, [.limit conn cleanup])
  | .installWindowSetter w => some (grp, [.installing w])
  | .clearWindowSetter w => some (grp, [.clearing w])
  | .bond a =>
      if isAddConn a then none
      else (bondStep cfg.arch grp.bond a).map fun bond => ({ grp with bond := bond }, [])

/-- A group as a machine. -/
def groupMachine (cfg : Config) : Machine Group Pc Unit Op where
  exec := exec cfg
  env := outside cfg

/-- A group and the calls on it. -/
abbrev GroupPool := Pool Group Pc

/-- A group that `add` has just created. -/
def newGroup (hello : BondHello) : GroupPool := ⟨{ id := hello.bondID, hello := hello }, []⟩

/-- One step of a group. -/
def groupStep (cfg : Config) : GroupPool → Act Unit Op → Option GroupPool :=
  (groupMachine cfg).step

/-- What a section can do. -/
inductive Moves (cfg : Config) (i : Nat) (grp : Group) : Pc → Group → Pc → Prop where
  | refused (conn : Option Conn) (cleanup : Bool) :
      Moves cfg i grp (.limit conn cleanup) grp .refused
  | passed (conn : Option Conn) (cleanup : Bool) : grp.full = false →
      Moves cfg i grp (.limit conn cleanup) { grp with mu := some i } (.call conn cleanup)
  | called (conn : Option Conn) (cleanup : Bool) (bond : Bond) :
      Moves cfg i grp (.call conn cleanup) { grp with bond := bond }
        (.adding grp.bond.threads.length)
  | added (tid : Nat) : Moves cfg i grp (.adding tid) (grp.sized cfg) .returned
  | installed (w : Nat) : Moves cfg i grp (.installing w) (grp.install cfg w) .returned
  | cleared (w : Nat) : Moves cfg i grp (.clearing w) (grp.clear w) .returned

/-- A section does one of these and starts no thread. -/
theorem exec_moves {cfg : Config} {i : Nat} {grp grp' : Group} {t t' : Pc} {a : Unit}
    {new : List Pc} (h : exec cfg i grp t a = some (grp', t', new)) :
    Moves cfg i grp t grp' t' ∧ new = [] := by
  unfold exec at h
  split at h <;> (try split at h) <;> (try split at h) <;>
    simp only [Option.some.injEq, Prod.mk.injEq, reduceCtorEq] at h
  all_goals obtain ⟨rfl, rfl, rfl⟩ := h
  all_goals refine ⟨?_, rfl⟩
  all_goals first
    | exact Moves.passed _ _ (Bool.eq_false_iff.mpr ‹_›)
    | constructor

/-- The outside world starts a call, or moves the bond. -/
theorem outside_cases {cfg : Config} {grp grp' : Group} {e : Op} {new : List Pc}
    (h : outside cfg grp e = some (grp', new)) :
    (∃ bond, grp' = { grp with bond := bond }) ∧
      ∀ t ∈ new, (∀ conn cleanup, t ≠ .call conn cleanup) ∧ ∀ tid, t ≠ .adding tid := by
  cases e with
  | bond a =>
      simp only [outside] at h
      split at h
      · cases h
      · obtain ⟨bond, -, hb⟩ := Option.map_eq_some_iff.mp h
        obtain ⟨rfl, rfl⟩ := Prod.mk.inj hb
        exact ⟨⟨bond, rfl⟩, by simp⟩
  | _ =>
      obtain ⟨rfl, rfl⟩ := Prod.mk.inj (Option.some.inj h)
      exact ⟨⟨grp.bond, rfl⟩, by simp⟩

/-! ## The history -/

/-- The path counts that admissions have observed, and how many calls of
    `SetWindowSize` there had been when the present setter was installed. -/
structure WindowHistory where
  observed : List Int := []
  mark : Nat := 0
  deriving DecidableEq, Repr

/-- One step, as the history sees it. -/
def observe (h : WindowHistory) (s : GroupPool) (a : Act Unit Op) (_ : GroupPool) :
    WindowHistory :=
  match a with
  | .env _ => h
  | .run i _ =>
      match s.threads[i]? with
      | some (.adding _) =>
          { h with observed := h.observed ++ [(s.shared.bond.shared.bond.count : Int)] }
      | some (.installing _) => { h with mark := s.shared.setCalls.length }
      | _ => h

/-- A group with its history. -/
abbrev Watched := GroupPool × WindowHistory

/-- One step of a watched group. -/
def watchedStep (cfg : Config) : Watched → Act Unit Op → Option Watched :=
  watch (groupStep cfg) observe

/-- The number of paths a group should be sized for: those it was promised, or the
    most that an admission has observed, and at least one. -/
def wantedPaths (hello : BondHello) (observed : List Int) : Int :=
  if hello.version = bondProtocolV2 then hello.expectedPaths else observed.foldl max 1

/-! ## The number of paths -/

/-- What the group knows of the observations. -/
structure Observed (grp : Group) (observed : List Int) : Prop where
  most : grp.maxPaths = observed.foldl max 0
  promised : grp.hello.version = bondProtocolV2 → grp.hello.expectedPaths < 1 → observed = []

theorem foldl_max_one (xs : List Int) :
    xs.foldl max 1 = if xs.foldl max 0 < 1 then 1 else xs.foldl max 0 := by
  -- the start only matters as long as nothing reaches it
  have hstart : ∀ (xs : List Int) (a : Int), xs.foldl max (max 1 a) = max 1 (xs.foldl max a) := by
    intro xs
    induction xs with
    | nil => intro a; rfl
    | cons x xs ih =>
        intro a
        rw [List.foldl_cons, List.foldl_cons, max_assoc]
        exact ih (max a x)
  have h := hstart xs 0
  rw [show max (1 : Int) 0 = 1 by decide] at h
  rw [h]
  split <;> omega

/-- A group is sized for the wanted number of paths. -/
theorem fittingWindow_wanted (cfg : Config) {grp : Group} {observed : List Int}
    (h : Observed grp observed) :
    grp.fittingWindow cfg = bondedKCPWindow cfg.kcpWindow (wantedPaths grp.hello observed) := by
  rw [Group.fittingWindow, Group.desiredPathCount, wantedPaths]
  by_cases hv : grp.hello.version = bondProtocolV2
  · rw [if_pos hv]
    by_cases hp : grp.hello.expectedPaths > 0
    · rw [if_pos ⟨hv, hp⟩]
    · -- nothing joins a group that was promised no path
      have hnil := h.promised hv (by omega)
      have hmost := h.most
      rw [hnil, List.foldl_nil] at hmost
      rw [if_neg fun hc => hp hc.2, hmost, if_pos (by decide)]
      exact (window_low _ (by omega)).symm
  · rw [if_neg hv, if_neg fun hc => hv hc.1, h.most, foldl_max_one]

theorem sized_maxPaths (cfg : Config) (grp : Group) :
    (grp.sized cfg).maxPaths = max grp.maxPaths (grp.bond.shared.bond.count : Int) := by
  rw [Group.sized]
  show (Group.applyWindow cfg _).maxPaths = _
  have happly : ∀ g : Group, (g.applyWindow cfg).maxPaths = g.maxPaths := by
    intro g
    rw [Group.applyWindow]
    split
    · rfl
    · dsimp only
      split <;> rfl
  rw [happly]
  show (if _ then _ else _) = _
  split <;> omega

theorem sized_hello (cfg : Config) (grp : Group) : (grp.sized cfg).hello = grp.hello :=
  (applyWindow_frame cfg _).2.1

/-! ## The calls of the present setter -/

/-- The values given to the setter `w`: rising, within the limits, the last one the
    one on record. -/
structure Rising (w : Nat) (calls : List (Nat × Int)) (last : Int) (sizes : List Int) :
    Prop where
  calls : calls = sizes.map fun x => (w, x)
  rising : sizes.Pairwise (· < ·)
  range : ∀ x ∈ sizes, 1 ≤ x ∧ x ≤ maxKCPWindow
  last : sizes.getLast? = some last

/-- A larger value goes on rising. -/
theorem Rising.snoc {w : Nat} {calls : List (Nat × Int)} {last size : Int}
    {sizes : List Int} (h : Rising w calls last sizes) (hlt : last < size)
    (hsize : 1 ≤ size ∧ size ≤ maxKCPWindow) :
    Rising w (calls ++ [(w, size)]) size (sizes ++ [size]) where
  calls := by
    rw [h.calls, List.map_append]
    rfl
  rising := by
    obtain ⟨ys, rfl⟩ := List.getLast?_eq_some_iff.mp h.last
    refine List.pairwise_append.mpr ⟨h.rising, List.pairwise_singleton _ _, ?_⟩
    intro x hx y hy
    rw [List.mem_singleton.mp hy]
    rcases List.mem_append.mp hx with hin | hlast
    · have := (List.pairwise_append.mp h.rising).2.2 x hin last (List.mem_singleton_self _)
      omega
    · rw [List.mem_singleton.mp hlast]
      exact hlt
  range := by
    intro x hx
    rcases List.mem_append.mp hx with hin | hlast
    · exact h.range x hin
    · rw [List.mem_singleton.mp hlast]
      exact hsize
  last := by simp

/-- The setter of a group has the window that fits, `mark` being where its calls
    begin. -/
structure Fitted (cfg : Config) (grp : Group) (mark : Nat) : Prop where
  mark_le : mark ≤ grp.setCalls.length
  rising : ∀ w, grp.window = some w →
    ∃ sizes, Rising w (grp.setCalls.drop mark) grp.appliedWnd sizes
  fits : ∀ w, grp.window = some w → grp.appliedWnd = grp.fittingWindow cfg

section Steps

variable {cfg : Config} {grp : Group} {mark : Nat}

/-- Whatever does not touch the window. -/
theorem Fitted.congr {grp' : Group} (h : Fitted cfg grp mark) (hhello : grp'.hello = grp.hello)
    (hmax : grp'.maxPaths = grp.maxPaths) (hwindow : grp'.window = grp.window)
    (happlied : grp'.appliedWnd = grp.appliedWnd) (hcalls : grp'.setCalls = grp.setCalls) :
    Fitted cfg grp' mark := by
  have hfit : grp'.fittingWindow cfg = grp.fittingWindow cfg := by
    simp only [Group.fittingWindow, Group.desiredPathCount, hhello, hmax]
  refine ⟨hcalls ▸ h.mark_le, ?_, ?_⟩
  · rw [hwindow, happlied, hcalls]
    exact h.rising
  · rw [hwindow, happlied, hfit]
    exact h.fits

theorem applyWindow_keep {w : Nat} (hw : grp.window = some w)
    (hle : grp.fittingWindow cfg ≤ grp.appliedWnd) : grp.applyWindow cfg = grp := by
  rw [Group.applyWindow, hw]
  exact if_pos hle

theorem applyWindow_grow {w : Nat} (hw : grp.window = some w)
    (hlt : ¬ grp.fittingWindow cfg ≤ grp.appliedWnd) :
    grp.applyWindow cfg = { grp with
      appliedWnd := grp.fittingWindow cfg
      setCalls := grp.setCalls ++ [(w, grp.fittingWindow cfg)] } := by
  rw [Group.applyWindow, hw]
  exact if_neg hlt

/-- `applyWindowLocked` fits a window that is not too large. -/
theorem fitted_apply (hmark : mark ≤ grp.setCalls.length)
    (hrising : ∀ w, grp.window = some w →
      ∃ sizes, Rising w (grp.setCalls.drop mark) grp.appliedWnd sizes)
    (hle : ∀ w, grp.window = some w → grp.appliedWnd ≤ grp.fittingWindow cfg) :
    Fitted cfg (grp.applyWindow cfg) mark := by
  cases hw : grp.window with
  | none =>
      have hsame : grp.applyWindow cfg = grp := by rw [Group.applyWindow, hw]
      rw [hsame]
      refine ⟨hmark, hrising, fun w hw' => ?_⟩
      cases hw.symm.trans hw'
  | some w =>
      by_cases hfit : grp.fittingWindow cfg ≤ grp.appliedWnd
      · rw [applyWindow_keep hw hfit]
        exact ⟨hmark, hrising, fun w' hw' => le_antisymm (hle w' hw') hfit⟩
      · rw [applyWindow_grow hw hfit]
        refine ⟨?_, ?_, fun _ _ => rfl⟩
        · show mark ≤ (grp.setCalls ++ [_]).length
          rw [List.length_append]
          exact Nat.le_add_right_of_le hmark
        · intro w' hw'
          obtain rfl : w = w' := Option.some.inj (hw.symm.trans hw')
          obtain ⟨sizes, hs⟩ := hrising w hw
          refine ⟨sizes ++ [grp.fittingWindow cfg], ?_⟩
          simp only [List.drop_append_of_le_length hmark]
          exact hs.snoc (not_le.mp hfit) (window_range _ _)

/-- More paths want no smaller window. -/
theorem fittingWindow_mono (cfg : Config) (grp : Group) {m : Int} (h : grp.maxPaths ≤ m) :
    grp.fittingWindow cfg ≤ Group.fittingWindow cfg { grp with maxPaths := m } := by
  refine window_mono le_rfl ?_
  simp only [Group.desiredPathCount]
  split
  · exact le_refl _
  · split <;> split <;> omega

/-- The end of `addWithCleanup` keeps the window fitted. -/
theorem Fitted.sized (h : Fitted cfg grp mark) : Fitted cfg (grp.sized cfg) mark := by
  have hmax : grp.maxPaths ≤ (if (grp.bond.shared.bond.count : Int) > grp.maxPaths then
      (grp.bond.shared.bond.count : Int) else grp.maxPaths) := by
    split <;> omega
  have happly : Fitted cfg (Group.applyWindow cfg
      { grp with maxPaths := if (grp.bond.shared.bond.count : Int) > grp.maxPaths then
        (grp.bond.shared.bond.count : Int) else grp.maxPaths }) mark :=
    fitted_apply h.mark_le h.rising
      (fun w hw => (h.fits w hw).le.trans (fittingWindow_mono cfg grp hmax))
  exact happly.congr rfl rfl rfl rfl rfl

/-- A new setter begins with the window that fits. -/
theorem fitted_install (cfg : Config) (grp : Group) (w : Nat) :
    Fitted cfg (grp.install cfg w) grp.setCalls.length := by
  have hcalls : (grp.install cfg w).setCalls
      = grp.setCalls ++ [(w, grp.fittingWindow cfg)] := rfl
  refine ⟨?_, ?_, fun _ _ => rfl⟩
  · rw [hcalls, List.length_append]
    exact Nat.le_add_right ..
  · intro w' hw'
    obtain rfl : w = w' := Option.some.inj hw'
    refine ⟨[grp.fittingWindow cfg], ?_, List.pairwise_singleton _ _, ?_, rfl⟩
    · rw [hcalls, List.drop_left]
      rfl
    · intro x hx
      rw [List.mem_singleton.mp hx]
      exact window_range _ _

/-- Clearing another setter changes nothing. -/
theorem clear_other {w : Nat} (h : grp.window ≠ some w) : grp.clear w = grp := if_neg h

theorem Fitted.clear (h : Fitted cfg grp mark) (w : Nat) : Fitted cfg (grp.clear w) mark := by
  by_cases hw : grp.window = some w
  · rw [Group.clear, if_pos hw]
    exact ⟨h.mark_le, fun w' hw' => (by cases hw'), fun w' hw' => (by cases hw')⟩
  · rw [clear_other hw]
    exact h

end Steps

/-! ## Every state of a group -/

/-- The call has passed the limit test. -/
def Pc.passed : Pc → Bool
  | .call _ _ => true
  | .adding _ => true
  | _ => false

/-- A call that has passed the limit test of a V2 group was promised a path. -/
def Promised (hello : BondHello) (_ : Nat) (_ : Group) (t : Pc) : Prop :=
  t.passed = true → hello.version = bondProtocolV2 → 1 ≤ hello.expectedPaths

theorem promised_of_full {grp : Group} (h : grp.full = false)
    (hv : grp.hello.version = bondProtocolV2) : 1 ≤ grp.hello.expectedPaths := by
  have hlt : ¬ (grp.bond.shared.bond.count : Int) ≥ grp.hello.expectedPaths := by
    intro hge
    have hfull : grp.full = true := decide_eq_true ⟨hv, hge⟩
    exact absurd (h.symm.trans hfull) Bool.false_ne_true
  omega

theorem promised {cfg : Config} {hello : BondHello} {s : GroupPool}
    (h : Reach (groupStep cfg) anyStep (newGroup hello) s) :
    Annotated (fun grp => grp.hello = hello) (Promised hello) s := by
  refine Machine.owickiGries (M := groupMachine cfg) (J := fun _ => True)
    (fun _ _ => trivial) (fun grp => grp.hello = hello) (Promised hello) ?_ ?_ ?_ ?_ h
  · exact ⟨rfl, fun i t ht => (by cases ht)⟩
  · intro s i t a grp' t' new _ _ _ he hI hL
    obtain ⟨hm, rfl⟩ := exec_moves he
    refine ⟨?_, ?_, fun n u hu => (by cases hu)⟩
    · cases hm with
      | added tid => exact (sized_hello cfg s.shared).trans hI
      | cleared w => exact (clear_frame s.shared w).2.1.trans hI
      | _ => exact hI
    · intro hp hv
      cases hm with
      | passed conn cleanup hfull =>
          rw [← hI] at hv ⊢
          exact promised_of_full hfull hv
      | called conn cleanup bond => exact hL rfl hv
      | _ => cases hp
  · intro s i j t u a grp' t' new _ _ _ _ _ _ _ hL
    exact hL
  · intro s e grp' new _ _ he hI
    obtain ⟨⟨bond, rfl⟩, hnew⟩ := outside_cases he
    refine ⟨hI, ?_, fun j u _ hL => hL⟩
    intro n u hu hp
    obtain ⟨hcall, hadding⟩ := hnew u hu
    cases u with
    | call conn cleanup => exact absurd rfl (hcall conn cleanup)
    | adding tid => exact absurd rfl (hadding tid)
    | _ => cases hp

/-- How a group and its history agree. -/
structure Tracks (cfg : Config) (hello : BondHello) (s : GroupPool) (h : WindowHistory) :
    Prop where
  observed : Observed s.shared h.observed
  fitted : Fitted cfg s.shared h.mark

/-- A section keeps group and history in agreement. -/
theorem tracks_run {cfg : Config} {hello : BondHello} {s : GroupPool} {h : WindowHistory}
    {i : Nat} {t t' : Pc} {grp' : Group} {a : Unit} {ts : List Pc}
    (hA : Annotated (fun grp => grp.hello = hello) (Promised hello) s)
    (hI : Tracks cfg hello s h) (ht : s.threads[i]? = some t)
    (hm : Moves cfg i s.shared t grp' t') :
    Tracks cfg hello ⟨grp', ts⟩ (observe h s (.run i a) ⟨grp', ts⟩) := by
  obtain ⟨hobs, hfit⟩ := hI
  cases hm with
  | added tid =>
      have hh : observe h s (.run i a) ⟨s.shared.sized cfg, ts⟩
          = { h with observed := h.observed ++ [(s.shared.bond.shared.bond.count : Int)] } := by
        simp only [observe, ht]
      rw [hh]
      refine ⟨⟨?_, ?_⟩, hfit.sized⟩
      · rw [sized_maxPaths, hobs.most, List.foldl_append]
        rfl
      · intro hv hlow
        rw [sized_hello, hA.1] at hv hlow
        have := hA.2 i _ ht rfl hv
        omega
  | installed w =>
      have hh : observe h s (.run i a) ⟨s.shared.install cfg w, ts⟩
          = { h with mark := s.shared.setCalls.length } := by
        simp only [observe, ht]
      rw [hh]
      exact ⟨⟨hobs.most, hobs.promised⟩, fitted_install cfg s.shared w⟩
  | cleared w =>
      have hh : observe h s (.run i a) ⟨s.shared.clear w, ts⟩ = h := by
        simp only [observe, ht]
      rw [hh]
      refine ⟨?_, hfit.clear w⟩
      rw [Group.clear]
      split
      · exact ⟨hobs.most, hobs.promised⟩
      · exact hobs
  | refused conn cleanup =>
      have hh : observe h s (.run i a) ⟨s.shared, ts⟩ = h := by simp only [observe, ht]
      rw [hh]
      exact ⟨hobs, hfit⟩
  | passed conn cleanup _ =>
      have hh : observe h s (.run i a) ⟨{ s.shared with mu := some i }, ts⟩ = h := by
        simp only [observe, ht]
      rw [hh]
      exact ⟨⟨hobs.most, hobs.promised⟩, hfit.congr rfl rfl rfl rfl rfl⟩
  | called conn cleanup bond =>
      have hh : observe h s (.run i a) ⟨{ s.shared with bond := bond }, ts⟩ = h := by
        simp only [observe, ht]
      rw [hh]
      exact ⟨⟨hobs.most, hobs.promised⟩, hfit.congr rfl rfl rfl rfl rfl⟩

theorem tracks {cfg : Config} {hello : BondHello} {p : Watched}
    (h : Reach (watchedStep cfg) anyStep (newGroup hello, {}) p) :
    Tracks cfg hello p.1 p.2 := by
  refine @Reach.watched_invariant _ _ _ _ anyStep _ _ _ (Tracks cfg hello) ?_ ?_ _ h
  · exact ⟨⟨rfl, fun _ _ => rfl⟩, ⟨le_refl _, fun w hw => (by cases hw),
      fun w hw => (by cases hw)⟩⟩
  · intro s hist a s' hr hI _ hs
    cases a with
    | run i a =>
        obtain ⟨t, grp', t', new, ht, he, rfl⟩ := Machine.step_run hs
        obtain ⟨hm, rfl⟩ := exec_moves he
        exact tracks_run (promised hr.any) hI ht hm
    | env e =>
        obtain ⟨grp', new, he, rfl⟩ := Machine.step_env hs
        obtain ⟨⟨bond, rfl⟩, -⟩ := outside_cases he
        exact ⟨⟨hI.observed.most, hI.observed.promised⟩,
          hI.fitted.congr rfl rfl rfl rfl rfl⟩

/-- **THE WINDOW TRACKS THE PATHS**: for every hello, and under every interleaving of
    calls of `addWithCleanup`, `installWindowSetter` and `clearWindowSetter` with
    whatever the bond does,

    * the values given to an installed setter since its installation rise, are
      between 1 and 8192, and the last one is the window for the wanted number of
      paths;
    * a move of the bond, such as the loss of a path, changes nothing but the bond;
    * clearing a setter that is not installed changes nothing. -/
theorem window_tracks_paths (cfg : Config) (hello : BondHello) (p : Watched)
    (h : Reach (watchedStep cfg) anyStep (newGroup hello, {}) p) :
    (∀ w, p.1.shared.window = some w →
      ∃ sizes : List Int, p.1.shared.setCalls.drop p.2.mark = sizes.map (fun x => (w, x)) ∧
        sizes.Pairwise (· < ·) ∧ (∀ x ∈ sizes, 1 ≤ x ∧ x ≤ 8192) ∧
        sizes.getLast? = some
          (bondedKCPWindow cfg.kcpWindow (wantedPaths hello p.2.observed))) ∧
    (∀ a s, groupStep cfg p.1 (.env (.bond a)) = some s →
      ∃ bond, s = ⟨{ p.1.shared with bond := bond }, p.1.threads⟩) ∧
    (∀ i w s, p.1.threads[i]? = some (.clearing w) → p.1.shared.window ≠ some w →
      groupStep cfg p.1 (.run i ()) = some s → s.shared = p.1.shared) := by
  obtain ⟨hobs, hfit⟩ := tracks h
  have hhello : p.1.shared.hello = hello := (promised (Reach.unwatched h)).1
  refine ⟨?_, ?_, ?_⟩
  · intro w hw
    obtain ⟨sizes, hrising⟩ := hfit.rising w hw
    refine ⟨sizes, hrising.calls, hrising.rising, hrising.range, ?_⟩
    rw [hrising.last, hfit.fits w hw, fittingWindow_wanted cfg hobs, hhello]
  · intro a s hs
    obtain ⟨grp', new, he, rfl⟩ := Machine.step_env hs
    simp only [groupMachine, outside] at he
    split at he
    · cases he
    · obtain ⟨bond, -, hb⟩ := Option.map_eq_some_iff.mp he
      obtain ⟨rfl, rfl⟩ := Prod.mk.inj hb
      exact ⟨bond, by rw [List.append_nil]⟩
  · intro i w s ht hw hs
    obtain ⟨t, grp', t', new, ht', he, rfl⟩ := Machine.step_run hs
    obtain rfl : Pc.clearing w = t := Option.some.inj (ht.symm.trans ht')
    have hm : Moves cfg i p.1.shared (.clearing w) grp' t' :=
      (exec_moves (show exec cfg i p.1.shared (.clearing w) () = _ from he)).1
    cases hm with
    | cleared w => exact clear_other hw

/-- `addWithCleanup` on thread `i`, with `AddConn` on thread `tid` of the bond. -/
def admitOn (i tid : Nat) : List (Act Unit Op) := List.flatten
  [[.env (.addWithCleanup (some i) true), .run i (), .run i ()],
    List.replicate 4 (.env (.bond (.run tid .go))), [.run i ()]]

/-- The settings of a server with the default window. -/
def windowConfig : Config := { VkTurnHomogeneity.bondConfig with kcpWindow := 256 }

/-- A setter is installed and two paths join a V1 group: the window for one path, then
    the one for two. -/
theorem second_path_doubles_window :
    ∃ p, Reach (watchedStep windowConfig) anyStep (newGroup { version := 1 }, {}) p ∧
      p.1.shared.window = some 7 ∧ p.2.observed = [1, 2] ∧
      ∃ sizes : List Int, p.1.shared.setCalls.drop p.2.mark = sizes.map (fun x => (7, x)) ∧
        sizes.Pairwise (· < ·) ∧ sizes.getLast? = some 512 := by
  obtain ⟨p, hr, hp⟩ := Reach.of_follow (watchedStep windowConfig) anyStep
    (newGroup { version := 1 }, {})
    (List.flatten [[.env (.installWindowSetter 7), .run 0 ()], admitOn 1 0, admitOn 2 2])
    (fun p : Watched => decide (p.1.shared.window = some 7 ∧ p.2.observed = [1, 2]))
    (by decide)
  obtain ⟨hw, hobs⟩ := of_decide_eq_true hp
  obtain ⟨sizes, hcalls, hrising, -, hlast⟩ :=
    (window_tracks_paths windowConfig { version := 1 } p hr).1 7 hw
  refine ⟨p, hr, hw, hobs, sizes, hcalls, hrising, ?_⟩
  rw [hlast, hobs]
  decide

/-! ## The groups of a server -/

section Server

variable {cfg : Config} {limiter : VkTurnLimiter.ConnectionLimiter} {s : ServerPool}

/-- Every group of the server is fitted. -/
def AllFitted (cfg : Config) (σ : Server) : Prop :=
  ∀ grp ∈ σ.objs, ∃ mark, Fitted cfg grp mark

theorem AllFitted.set {σ σ' : Server} {g : GroupRef} {x : Group} {mark : Nat}
    (h : AllFitted cfg σ) (hobjs : σ'.objs = σ.objs.set g x) (hx : Fitted cfg x mark) :
    AllFitted cfg σ' := by
  intro grp hg
  rw [hobjs] at hg
  rcases List.mem_or_eq_of_mem_set hg with hold | rfl
  · exact h grp hold
  · exact ⟨mark, hx⟩

theorem AllFitted.get {σ : Server} (h : AllFitted cfg σ) {g : GroupRef} {grp : Group}
    (hg : σ.objs[g]? = some grp) : ∃ mark, Fitted cfg grp mark :=
  h grp (List.mem_of_getElem? hg)

theorem allFitted_step {i : Nat} {σ σ' : Server} {t t' : VkTurnServer.Pc}
    {new : List VkTurnServer.Pc} (h : VkTurnServer.Moves cfg i σ t σ' t' new)
    (hI : AllFitted cfg σ) : AllFitted cfg σ' := by
  cases h with
  | created c hello _ =>
      intro grp hg
      rcases List.mem_append.mp hg with hold | hnew
      · exact hI grp hold
      · rw [List.mem_singleton.mp hnew]
        exact ⟨0, le_refl _, fun w hw => (by cases hw), fun w hw => (by cases hw)⟩
  | limitPassed c hello g grp hg _ _ =>
      obtain ⟨mark, hf⟩ := hI.get hg
      exact hI.set rfl (hf.congr rfl rfl rfl rfl rfl)
  | called c hello g grp bond hg _ =>
      obtain ⟨mark, hf⟩ := hI.get hg
      exact hI.set (bondMoved_frame ..).objs
        (hf.congr rfl rfl rfl rfl rfl)
  | added c hello g tid grp r hg _ =>
      obtain ⟨mark, hf⟩ := hI.get hg
      exact hI.set rfl hf.sized
  | startedNow c g grp hg _ =>
      obtain ⟨mark, hf⟩ := hI.get hg
      exact hI.set rfl (hf.congr rfl rfl rfl rfl rfl)
  | installed g grp hg _ => exact hI.set rfl (fitted_install cfg grp i)
  | cleared g grp hg _ =>
      obtain ⟨mark, hf⟩ := hI.get hg
      exact hI.set rfl (hf.clear i)
  | runCloses g grp bond hg _ =>
      obtain ⟨mark, hf⟩ := hI.get hg
      exact hI.set (bondMoved_frame ..).objs
        (hf.congr rfl rfl rfl rfl rfl)
  | released c o =>
      intro grp hg
      rw [(releaseConnection_frame σ c).objs] at hg
      exact hI grp hg
  | unregistered g grp _ =>
      intro grp' hg
      rw [Server.unregister] at hg
      split at hg <;> exact hI grp' hg
  | _ => exact hI

/-- **THE SERVER'S WINDOWS**: under every interleaving of the server each group with a
    session has given it the window that fits. -/
theorem server_windows (h : ServerReach cfg limiter s) : AllFitted cfg s.shared := by
  refine Reach.invariant (I := fun s => AllFitted cfg s.shared)
    (fun grp hg => (by cases hg)) ?_ h
  intro s a s' _ hI _ hs
  cases a with
  | run i a =>
      obtain ⟨t, σ', t', new, _, he, rfl⟩ := Machine.step_run hs
      exact allFitted_step (VkTurnServer.exec_moves he) hI
  | env e =>
      obtain ⟨σ', new, he, rfl⟩ := Machine.step_env hs
      cases outside_happens he with
      | bond g a grp bond hg _ _ =>
          obtain ⟨mark, hf⟩ := hI.get hg
          exact hI.set (bondMoved_frame ..).objs
            (hf.congr rfl rfl rfl rfl rfl)
      | _ => exact hI

end Server

end VkTurnWindow
