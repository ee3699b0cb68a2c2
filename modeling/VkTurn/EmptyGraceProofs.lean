import VkTurn.DisposalProofs

/-! # The empty grace period

    A bond without paths lives on for a grace period: `startEmptyGrace` arms a
    timer, `AddConn` cancels it, and the callback of a timer that was not
    cancelled in time expires the bond and closes it.  `Stop` does not reach a
    callback that has already fired, and such a callback asks only whether the
    list is empty NOW.

    The bond is watched: a history beside it keeps the timers since whose arming
    no path was listed, the timers that an `AddConn` cancelled, the timer that
    `Close` stopped, and what was true of each timer when its callback expired the
    bond. -/

namespace VkTurnGrace

open ThreadPool VkTurnStripe VkTurnBond VkTurnDisposal

/-! ## The history -/

/-- A callback found no path and set `emptyExpired`: its timer, whether the list
    had been empty without interruption since that timer was armed, and whether
    an `AddConn` had cancelled the timer. -/
structure Expiry where
  timer : TimerRef
  unbroken : Bool
  cancelled : Bool
  deriving DecidableEq, Repr

/-- What is remembered of a run. -/
structure GraceHistory where
  unbroken : List TimerRef := []
  cancelled : List TimerRef := []
  stopped : List TimerRef := []
  expiries : List Expiry := []
  deriving DecidableEq, Repr

/-- The timer whose callback expires the bond in this step. -/
def expires (s : Bond) : Act Choice Op → Option TimerRef
  | .run i _ =>
      match s.threads[i]? with
      | some (.tmLock t) => if s.shared.bond.paths = [] then some t else none
      | _ => none
  | .env _ => none

/-- The timer armed between two states. -/
def newTimer (σ σ' : Shared) : List TimerRef :=
  if σ.timers < σ'.timers then [σ.timers] else []

/-- The timer cancelled between two states because a path was listed. -/
def newCancelled (σ σ' : Shared) : List TimerRef :=
  if σ.bond.paths.length < σ'.bond.paths.length then σ.bond.emptyTimer.toList else []

/-- The timer that `Close` stops between two states. -/
def newStopped (σ σ' : Shared) : List TimerRef :=
  if !σ.stopped && σ'.stopped then σ.bond.emptyTimer.toList else []

/-- One step, as the history sees it. -/
def observe (h : GraceHistory) (s : Bond) (a : Act Choice Op) (s' : Bond) :
    GraceHistory where
  unbroken :=
    if s'.shared.bond.paths = [] then h.unbroken ++ newTimer s.shared s'.shared else []
  cancelled := h.cancelled ++ newCancelled s.shared s'.shared
  stopped := h.stopped ++ newStopped s.shared s'.shared
  expiries := h.expiries ++ (expires s a).toList.map fun t =>
    ⟨t, decide (t ∈ h.unbroken), decide (t ∈ h.cancelled)⟩

/-- A bond with its history. -/
abbrev Watched := Bond × GraceHistory

/-- One step of a watched bond. -/
def watchedStep (arch : Arch) : Watched → Act Choice Op → Option Watched :=
  watch (bondStep arch) observe

/-- The callback that expires the bond is that of the timer in `b.emptyTimer`, or of
    the timer that was there when `Close` cleared the field. -/
def current (p : Watched) (a : Act Choice Op) : Prop :=
  (expires p.1 a).all (fun t => p.1.shared.bond.emptyTimer = some t ∨ t ∈ p.2.stopped) = true

instance (p : Watched) (a : Act Choice Op) : Decidable (current p a) :=
  inferInstanceAs (Decidable (_ = true))

/-! ## The timer of an empty bond -/

section Timer

variable {arch : Arch} {i : Nat} {σ σ' : Shared} {t t' : Pc} {new : List Pc}

/-- The timer in `b.emptyTimer` was there before, or has just been armed. -/
theorem moves_timer (h : Moves arch i σ t σ' t' new) {r : TimerRef}
    (hr : σ'.bond.emptyTimer = some r) :
    (σ.bond.emptyTimer = some r ∧ (σ.bond.paths = [] → σ'.bond.paths = [])) ∨
      (r = σ.timers ∧ σ.timers < σ'.timers ∧ σ'.bond.paths = σ.bond.paths ∧
        ∃ g, t = .graceArm g) := by
  cases h with
  | graceArmed g =>
      exact Or.inr ⟨(Option.some.inj hr).symm, Nat.lt_succ_self _, rfl, g, rfl⟩
  | unlinked p k _ _ =>
      refine Or.inl ⟨hr, fun hnil => ?_⟩
      show σ.bond.paths.erase p = []
      rw [hnil]
      rfl
  | _ => first | exact Or.inl ⟨hr, id⟩ | cases hr

theorem moves_timers_mono (h : Moves arch i σ t σ' t' new) : σ.timers ≤ σ'.timers := by
  cases h with
  | graceArmed g => exact Nat.le_succ _
  | _ => exact Nat.le_refl _

/-- A path that joins takes the timer away. -/
theorem moves_joined (h : Moves arch i σ t σ' t' new)
    (hlen : σ.bond.paths.length < σ'.bond.paths.length) : σ'.bond.emptyTimer = none := by
  cases h with
  | addAppended p _ => rfl
  | unlinked p k _ _ =>
      exact absurd hlen (Nat.not_lt.mpr List.length_erase_le)
  | _ => exact absurd hlen (Nat.lt_irrefl _)

/-- Only a callback that finds no path expires the bond. -/
theorem moves_expired (h : Moves arch i σ t σ' t' new)
    (h0 : σ.bond.emptyExpired = false) (h1 : σ'.bond.emptyExpired = true) :
    σ.bond.paths = [] ∧ ∃ r, t = .tmLock r := by
  cases h with
  | timerExpired r _ hnil => exact ⟨hnil, r, rfl⟩
  | _ => exact absurd (h0.symm.trans h1) Bool.false_ne_true

theorem outside_timer {e : Op} (h : outside σ e = some (σ', new)) :
    σ'.bond.emptyTimer = σ.bond.emptyTimer ∧ σ'.timers = σ.timers := by
  cases outside_moves h <;> exact ⟨rfl, rfl⟩

/-- A bond with a grace timer lists no path. -/
def Idle (σ : Shared) : Prop :=
  ∀ r, σ.bond.emptyTimer = some r → σ.bond.paths = [] ∧ r < σ.timers

/-- A thread that is about to arm a timer has seen an empty list and kept the
    mutex since. -/
def Arming (_ : Nat) (σ : Shared) (t : Pc) : Prop :=
  ∀ g, t = .graceArm g → σ.bond.paths = []

theorem idle_step (h : Moves arch i σ t σ' t' new) (hI : Idle σ) (hL : Arming i σ t) :
    Idle σ' := by
  intro r hr
  have hmono := moves_timers_mono h
  rcases moves_timer h hr with ⟨hold, hkeep⟩ | ⟨rfl, hlt, hpaths, g, ht⟩
  · obtain ⟨hnil, hr'⟩ := hI r hold
    exact ⟨hkeep hnil, Nat.lt_of_lt_of_le hr' hmono⟩
  · exact ⟨hpaths.trans (hL g ht), hlt⟩

theorem arming_step (h : Moves arch i σ t σ' t' new) : Arming i σ' t' := by
  intro g hg
  cases h with
  | graceLocked g' _ hidle _ =>
      by_contra hne
      have hne' : σ.bond.paths ≠ [] := hne
      simp [BondedPacketConn.graceIdle, hne'] at hidle
  | notListed p k _ _ => cases k <;> cases hg
  | rmFinished p k => cases k <;> cases hg
  | graceSkipped g' _ _ => cases g' <;> cases hg
  | graceArmed g' => cases g' <;> cases hg
  | _ => cases hg

/-- Nobody lists a path while another thread is about to arm a timer. -/
theorem arming_stable (h : Moves arch i σ t σ' t' new) (hG : Guarded i σ t)
    {j : Nat} {u : Pc} (hij : i ≠ j) (hGj : Guarded j σ u) (hL : Arming j σ u) :
    Arming j σ' u := by
  rintro g rfl
  have hnil := hL g rfl
  rcases h.paths_sub with hsub | ⟨p, rfl, -, -⟩
  · exact List.subset_nil.mp (hnil ▸ hsub)
  · exact absurd ((hG.mutex rfl).symm.trans (hGj.mutex rfl)) (fun e => hij (Option.some.inj e))

end Timer

/-- **TIMERS OF EMPTY BONDS**: under every interleaving a bond with a grace
    timer lists no path. -/
theorem idle {arch : Arch} {s : Bond} (h : BondReach arch s) : Annotated Idle Arming s := by
  refine Machine.owickiGries (M := bondMachine arch) (J := Annotated Sealed Guarded)
    (fun s hs => sealed_sweep hs) Idle Arming ?_ ?_ ?_ ?_ h
  · exact ⟨fun r hr => (by cases hr), fun i t ht => (by cases ht)⟩
  · intro s i t a σ' t' new _ _ _ he hI hL
    have hm := exec_moves he
    refine ⟨idle_step hm hI hL, arming_step hm, ?_⟩
    intro n u hu g hg
    subst hg
    cases hm with
    | addSpawned p => cases List.mem_singleton.mp hu
    | _ => cases hu
  · intro s i j t u a σ' t' new hJ hij hi hj he _ _ hL
    exact arming_stable (exec_moves he) (hJ.2 i t hi) hij (hJ.2 j u hj) hL
  · intro s e σ' new _ _ he hI
    have hf := outside_frame he
    obtain ⟨htimer, htimers⟩ := outside_timer he
    refine ⟨?_, ?_, ?_⟩
    · intro r hr
      rw [htimer] at hr
      rw [hf.paths, htimers]
      exact hI r hr
    · intro n u hu g hg
      subst hg
      rcases outside_new he with ⟨-, hent⟩ | ⟨path, -, hnew⟩
      · cases hent _ hu
      · subst hnew
        cases List.mem_singleton.mp hu
    · intro j u _ hL g hg
      rw [hf.paths]
      exact hL g hg

/-! ## Watched runs -/

/-- What one step of a bond does to its grace timer. -/
structure TimerStep (s : Bond) (a : Act Choice Op) (s' : Bond) : Prop where
  kept : ∀ r, s'.shared.bond.emptyTimer = some r →
    s.shared.bond.emptyTimer = some r ∨ r ∈ newTimer s.shared s'.shared
  cancelled : ∀ r ∈ newCancelled s.shared s'.shared,
    s.shared.bond.emptyTimer = some r ∧ s'.shared.bond.emptyTimer = none
  stopped : ∀ r ∈ newStopped s.shared s'.shared,
    s.shared.bond.emptyTimer = some r ∧ s'.shared.stopped = true
  lasting : s.shared.stopped = true → s'.shared.stopped = true
  sealed : s'.shared.stopped = true → s.shared.bond.paths = [] → s'.shared.bond.paths = []
  mono : s.shared.timers ≤ s'.shared.timers
  expired : s'.shared.bond.emptyExpired = true →
    s.shared.bond.emptyExpired = true ∨ (expires s a).isSome = true

theorem mem_newTimer {σ σ' : Shared} {r : TimerRef} :
    r ∈ newTimer σ σ' ↔ r = σ.timers ∧ σ.timers < σ'.timers := by
  unfold newTimer
  split <;> simp_all

theorem mem_newCancelled {σ σ' : Shared} {r : TimerRef} :
    r ∈ newCancelled σ σ' ↔ σ.bond.paths.length < σ'.bond.paths.length ∧
      σ.bond.emptyTimer = some r := by
  unfold newCancelled
  split <;> simp_all

theorem mem_newStopped {σ σ' : Shared} {r : TimerRef} :
    r ∈ newStopped σ σ' ↔ (σ.stopped = false ∧ σ'.stopped = true) ∧
      σ.bond.emptyTimer = some r := by
  unfold newStopped
  split <;> simp_all

/-- A bond without paths that `Close` has reached, or reaches now, gets none. -/
theorem moves_sealed {arch : Arch} {i : Nat} {σ σ' : Shared} {t t' : Pc} {new : List Pc}
    (h : Moves arch i σ t σ' t' new) (hG : Guarded i σ t) (hs' : σ'.stopped = true)
    (hnil : σ.bond.paths = []) : σ'.bond.paths = [] := by
  cases hs : σ.stopped with
  | true => exact List.subset_nil.mp (hnil ▸ paths_shrink h hG hs)
  | false =>
      obtain ⟨rfl, -⟩ := h.stopped_new hs hs'
      cases h
      exact hnil

theorem timerStep {arch : Arch} {s s' : Bond} {a : Act Choice Op} (hr : BondReach arch s)
    (h : bondStep arch s a = some s') : TimerStep s a s' := by
  cases a with
  | run i a =>
      obtain ⟨t, σ', t', new, ht, he, rfl⟩ := Machine.step_run h
      have hm := exec_moves he
      refine ⟨?_, ?_, ?_, hm.stopped_mono, moves_sealed hm ((sealed_sweep hr).2 i t ht),
        moves_timers_mono hm, ?_⟩
      · intro r hr
        rcases moves_timer hm hr with ⟨hold, -⟩ | ⟨hr', hlt, -⟩
        · exact Or.inl hold
        · exact Or.inr (mem_newTimer.mpr ⟨hr', hlt⟩)
      · intro r hr
        obtain ⟨hlen, hold⟩ := mem_newCancelled.mp hr
        exact ⟨hold, moves_joined hm hlen⟩
      · intro r hr
        obtain ⟨⟨-, hnow⟩, hold⟩ := mem_newStopped.mp hr
        exact ⟨hold, hnow⟩
      · intro h1
        cases h0 : s.shared.bond.emptyExpired with
        | true => exact Or.inl rfl
        | false =>
            obtain ⟨hnil, r, rfl⟩ := moves_expired hm h0 h1
            exact Or.inr (by simp [expires, ht, hnil])
  | env e =>
      obtain ⟨σ', new, he, rfl⟩ := Machine.step_env h
      have hf := outside_frame he
      obtain ⟨htimer, htimers⟩ := outside_timer he
      refine ⟨fun r hr => Or.inl (htimer ▸ hr), ?_, ?_, hf.stopped.trans,
        fun _ => hf.paths.trans, htimers.ge, ?_⟩
      · intro r hr
        have hlen := (mem_newCancelled.mp hr).1
        rw [show σ'.bond.paths = s.shared.bond.paths from hf.paths] at hlen
        exact absurd hlen (Nat.lt_irrefl _)
      · intro r hr
        obtain ⟨⟨hno, hyes⟩, -⟩ := mem_newStopped.mp hr
        exact absurd (hno.symm.trans (hf.stopped.symm.trans hyes)) Bool.false_ne_true
      · exact fun h1 => Or.inl (hf.emptyExpired.symm.trans h1)

/-- How a bond and its history agree. -/
structure Attested (s : Bond) (h : GraceHistory) : Prop where
  whole : ∀ r, s.shared.bond.emptyTimer = some r → r ∈ h.unbroken ∧ r ∉ h.cancelled
  shut : ∀ r ∈ h.stopped, s.shared.stopped = true ∧ s.shared.bond.paths = [] ∧
    r ∈ h.unbroken ∧ r ∉ h.cancelled
  old : ∀ r ∈ h.cancelled, r < s.shared.timers
  noted : s.shared.bond.emptyExpired = true → h.expiries ≠ []
  sound : ∀ e ∈ h.expiries, e.unbroken = true ∧ e.cancelled = false

/-- The current timer was armed in the present empty period. -/
theorem expiry_sound {s : Bond} {h : GraceHistory} {a : Act Choice Op}
    (hI : Attested s h) (hok : current (s, h) a) {e : Expiry}
    (he : e ∈ (expires s a).toList.map fun t =>
      (⟨t, decide (t ∈ h.unbroken), decide (t ∈ h.cancelled)⟩ : Expiry)) :
    e.unbroken = true ∧ e.cancelled = false := by
  obtain ⟨r, hr, rfl⟩ := List.mem_map.mp he
  rw [Option.mem_toList] at hr
  have hcur : s.shared.bond.emptyTimer = some r ∨ r ∈ h.stopped := by
    unfold current at hok
    rw [Option.mem_def.mp hr] at hok
    exact of_decide_eq_true hok
  rcases hcur with hcur | hcur
  · obtain ⟨hin, hout⟩ := hI.whole r hcur
    exact ⟨decide_eq_true hin, decide_eq_false hout⟩
  · obtain ⟨-, -, hin, hout⟩ := hI.shut r hcur
    exact ⟨decide_eq_true hin, decide_eq_false hout⟩

theorem attested_step {arch : Arch} {s s' : Bond} {h : GraceHistory} {a : Act Choice Op}
    (hr : BondReach arch s) (hI : Attested s h) (hok : current (s, h) a)
    (hs : bondStep arch s a = some s') : Attested s' (observe h s a s') := by
  have hstep := timerStep hr hs
  have hidle : Idle s.shared := (idle hr).1
  have hidle' : Idle s'.shared := (idle (Reach.tail a hr trivial hs)).1
  constructor
  · intro r hr
    have hnone : r ∉ newCancelled s.shared s'.shared := by
      intro hc
      rw [(hstep.cancelled r hc).2] at hr
      cases hr
    simp only [observe, (hidle' r hr).1, if_true, List.mem_append, not_or]
    rcases hstep.kept r hr with hold | hnew
    · obtain ⟨hin, hout⟩ := hI.whole r hold
      exact ⟨Or.inl hin, hout, hnone⟩
    · -- a number that is given out now has not been cancelled before
      refine ⟨Or.inr hnew, fun hc => ?_, hnone⟩
      have hlt := hI.old r hc
      rw [(mem_newTimer.mp hnew).1] at hlt
      exact absurd hlt (Nat.lt_irrefl _)
  · intro r hr
    have hwas : s'.shared.stopped = true ∧ s.shared.bond.paths = [] ∧
        r ∈ h.unbroken ∧ r ∉ h.cancelled := by
      rcases List.mem_append.mp hr with hold | hnew
      · obtain ⟨hs, hwas⟩ := hI.shut r hold
        exact ⟨hstep.lasting hs, hwas⟩
      · obtain ⟨htimer, hs'⟩ := hstep.stopped r hnew
        exact ⟨hs', (hidle r htimer).1, hI.whole r htimer⟩
    obtain ⟨hstop, hnil, hin, hout⟩ := hwas
    have hnil' := hstep.sealed hstop hnil
    refine ⟨hstop, hnil', ?_, fun hc => ?_⟩
    · simp only [observe, hnil', if_true]
      exact List.mem_append_left _ hin
    · rcases List.mem_append.mp hc with hold | hnew
      · exact hout hold
      · have hlen := (mem_newCancelled.mp hnew).1
        rw [hnil'] at hlen
        exact absurd hlen (Nat.not_lt_zero _)
  · intro r hr
    refine Nat.lt_of_lt_of_le ?_ hstep.mono
    rcases List.mem_append.mp hr with hold | hnew
    · exact hI.old r hold
    · exact (hidle r (hstep.cancelled r hnew).1).2
  · intro h1
    rcases hstep.expired h1 with hold | hnew
    · exact List.append_ne_nil_of_left_ne_nil (hI.noted hold) _
    · obtain ⟨r, hr⟩ := Option.isSome_iff_exists.mp hnew
      simp [observe, hr]
  · intro e he
    rcases List.mem_append.mp he with hold | hnew
    · exact hI.sound e hold
    · exact expiry_sound hI hok hnew

/-- The watched bonds reached by runs in which only callbacks of current timers
    expire the bond. -/
abbrev CurrentReach (arch : Arch) : Watched → Prop :=
  Reach (watchedStep arch) current (newBond, {})

/-- **EXPIRY ENDS AN EMPTY PERIOD**: in every run in which a callback that
    expires the bond belongs to the timer in `b.emptyTimer`, or to the one that
    `Close` found there, a bond is expired only by callbacks whose timer was armed
    when the list was last found empty: no path has been listed since, and no
    `AddConn` has cancelled the timer. -/
theorem expiry_ends_empty_period (arch : Arch) (p : Watched) (h : CurrentReach arch p) :
    (p.1.shared.bond.emptyExpired = true → p.2.expiries ≠ []) ∧
      ∀ e ∈ p.2.expiries, e.unbroken = true ∧ e.cancelled = false := by
  have hatt : Attested p.1 p.2 := by
    refine Reach.invariant (I := fun p : Watched => Attested p.1 p.2) ?_ ?_ h
    · exact ⟨fun r hr => (by cases hr), fun r hr => (by cases hr), fun r hr => (by cases hr),
        fun h => (by cases h), fun e he => (by cases he)⟩
    · intro p a q hr hI hok hs
      obtain ⟨hs, hq⟩ := watch_eq_some.mp hs
      rw [hq]
      exact attested_step (Reach.unwatched hr.any) hI hok hs
  exact ⟨hatt.noted, hatt.sound⟩

/-- `AddConn` on thread `i`: the path is listed and its reader started. -/
def joinOn (i : Nat) : List (Act Choice Op) :=
  [.env (.addConn (some i) false), .run i .go, .run i .go, .run i .go, .run i .go]

/-- The read loop of thread `i` ends: its path was the last one, and a timer is
    armed. -/
def leaveOn (i : Nat) : List (Act Choice Op) := List.replicate 5 (.run i .go)

/-- A path joins and leaves, nobody comes, the timer fires and closes the bond. -/
theorem empty_period_expires :
    ∃ p, CurrentReach .bits64 p ∧ p.1.shared.bond.closed = true ∧
      p.2.expiries = [⟨0, true, false⟩] ∧
      ∀ e ∈ p.2.expiries, e.unbroken = true ∧ e.cancelled = false := by
  obtain ⟨p, hr, hp⟩ := Reach.of_follow (watchedStep .bits64)
    current (newBond, {})
    (List.flatten [joinOn 0, leaveOn 1,
      [.env (.fire 0), .run 2 .go, .run 2 .go, .run 2 .go]])
    (fun p : Watched => p.1.shared.bond.closed && p.2.expiries = [⟨0, true, false⟩])
    (by decide)
  simp only [Bool.and_eq_true, decide_eq_true_eq] at hp
  exact ⟨p, hr, hp.1, hp.2, (expiry_ends_empty_period .bits64 p hr).2⟩

/-- **CANCELLED TIMER EXPIRES THE BOND**: the timer of the first empty period
    has fired when a second path joins and cancels it.  The path leaves, a second
    timer is armed and has its whole period before it, and then the callback of
    the first timer gets the mutex, finds no path and closes the bond. -/
theorem cancelled_timer_expires_bond :
    ¬ ∀ p, Reach (watchedStep .bits64) anyStep (newBond, {}) p →
      ∀ e ∈ p.2.expiries, e.unbroken = true ∧ e.cancelled = false := by
  intro hall
  obtain ⟨p, hr, hp⟩ := Reach.of_follow (watchedStep .bits64) anyStep (newBond, {})
    (List.flatten [joinOn 0, leaveOn 1, [.env (.fire 0)], joinOn 3, leaveOn 4,
      [.run 2 .go, .run 2 .go, .run 2 .go]])
    (fun p : Watched => p.1.shared.bond.closed && p.1.shared.armed = [1] &&
      p.2.expiries = [⟨0, false, true⟩])
    (by decide)
  simp only [Bool.and_eq_true, decide_eq_true_eq] at hp
  have hbad := hall p hr ⟨0, false, true⟩ (by rw [hp.2]; exact List.mem_singleton_self _)
  exact absurd hbad.1 Bool.false_ne_true

end VkTurnGrace
