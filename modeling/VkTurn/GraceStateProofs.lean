import VkTurn.EmptyGraceProofs

/-! # What the grace period's state says

    Four fields decide between a bond that lives, one that waits for a path and
    one that is over: the path list, the recorded timer, `emptyExpired` and the
    `closed` channel.  Five operations each update some of them.

    * `listed_live` — a bond with a path has no timer and is not expired;
    * `expired_for_ever` — an expired bond lists nothing again;
    * `stopped_for_ever` — behind the timer section of `Close` no timer is
      recorded or armed and nothing is listed;
    * `left_pending` — a bond that its last path has left has a timer, or the
      goroutine that removed this path is on its way to arm one. -/

namespace VkTurnGraceState

open ThreadPool VkTurnStripe VkTurnBond VkTurnDisposal VkTurnGrace

/-! ## Admissions -/

/-- The path that an event admits. -/
def admits : Event → Option PathRef
  | .appended p => some p
  | _ => none

/-- The paths ever admitted, in their order. -/
def admitted (σ : Shared) : List PathRef := σ.log.filterMap admits

section Steps

variable {arch : Arch} {i : Nat} {σ σ' : Shared} {t t' : Pc} {new : List Pc}

theorem admits_cleanup (σ : Shared) (p : PathRef) :
    (σ.cleanupEvents p).filterMap admits = [] := by
  rw [Shared.cleanupEvents]
  split <;> rfl

/-- Only `AddConn` admits, and only into a bond that is not expired. -/
theorem moves_admitted (h : Moves arch i σ t σ' t' new) :
    admitted σ' = admitted σ ∨ ∃ p, t = .addTest p ∧ σ.bond.emptyExpired = false := by
  rw [admitted, h.log_eq, List.filterMap_append]
  cases h with
  | addAppended p hlive => exact Or.inr ⟨p, rfl, hlive⟩
  | addExpired p hdead =>
      refine Or.inl ?_
      rw [emits, if_pos hdead]
      exact List.append_nil _
  | refusedCleanup p =>
      refine Or.inl ?_
      rw [emits, admits_cleanup]
      exact List.append_nil _
  | rmCleaned p k =>
      refine Or.inl ?_
      rw [emits, admits_cleanup]
      exact List.append_nil _
  | _ => exact Or.inl (List.append_nil _)

/-! ## Live bonds -/

/-- A bond that lists a path is not expired. -/
def Live (σ : Shared) : Prop := σ.bond.paths ≠ [] → σ.bond.emptyExpired = false

theorem live_step (h : Moves arch i σ t σ' t' new) (hI : Live σ) : Live σ' := by
  intro hne
  cases h with
  | addAppended p hlive => exact hlive
  | unlinked p k _ hmem => exact hI (List.ne_nil_of_mem hmem)
  | timerExpired r _ hnil => exact absurd hnil hne
  | _ => exact hI hne

/-! ## Expired bonds -/

/-- An expired bond stays so and admits nothing. -/
theorem expired_step (h : Moves arch i σ t σ' t' new) (hx : σ.bond.emptyExpired = true) :
    σ'.bond.emptyExpired = true ∧ admitted σ' = admitted σ := by
  refine ⟨?_, ?_⟩
  · cases h with
    | timerExpired r _ _ => rfl
    | _ => exact hx
  · rcases moves_admitted h with hsame | ⟨p, -, hlive⟩
    · exact hsame
    · exact absurd (hlive.symm.trans hx) Bool.false_ne_true

/-! ## Stopped bonds -/

/-- Behind the timer section of `Close` no timer is recorded. -/
def Quiet (σ : Shared) : Prop := σ.stopped = true → σ.bond.emptyTimer = none

/-- A thread that is about to arm a timer has overtaken no `Close`. -/
def Early (_ : Nat) (σ : Shared) (t : Pc) : Prop :=
  ∀ g, t = .graceArm g → σ.stopped = false

/-- What a section does to the timers of a bond behind the timer section of
    `Close`. -/
theorem stopped_step (h : Moves arch i σ t σ' t' new) (hG : Guarded i σ t)
    (hL : Early i σ t) (hs : σ.stopped = true) :
    σ'.timers = σ.timers ∧ (∀ r ∈ σ'.armed, r ∈ σ.armed) ∧
      (σ.bond.emptyTimer = none → σ'.bond.emptyTimer = none) ∧ admitted σ' = admitted σ := by
  have hadm : admitted σ' = admitted σ := by
    rcases moves_admitted h with hsame | ⟨p, ht, -⟩
    · exact hsame
    · exact absurd ((hG.adding p ht).symm.trans hs) Bool.false_ne_true
  cases h with
  | addAppended p _ => exact absurd ((hG.adding p rfl).symm.trans hs) Bool.false_ne_true
  | graceArmed g => exact absurd ((hL g rfl).symm.trans hs) Bool.false_ne_true
  | timerStopped _ => exact ⟨rfl, fun r hr => (List.mem_filter.mp hr).1, fun _ => rfl, hadm⟩
  | timerIdle r _ _ => exact ⟨rfl, fun r hr => hr, fun _ => rfl, hadm⟩
  | timerExpired r _ _ => exact ⟨rfl, fun r hr => hr, fun _ => rfl, hadm⟩
  | _ => exact ⟨rfl, fun r hr => hr, fun h0 => h0, hadm⟩

theorem quiet_step (h : Moves arch i σ t σ' t' new) (hG : Guarded i σ t) (hI : Quiet σ)
    (hL : Early i σ t) : Quiet σ' := by
  intro hs'
  cases hs : σ.stopped with
  | true => exact (stopped_step h hG hL hs).2.2.1 (hI hs)
  | false =>
      -- it is this section that stops the timer
      obtain ⟨rfl, -⟩ := h.stopped_new hs hs'
      cases h
      rfl

theorem early_step (h : Moves arch i σ t σ' t' new) (hS : Sealed σ) : Early i σ' t' := by
  intro g hg
  cases h with
  | graceLocked g' _ _ hopen =>
      refine Bool.eq_false_iff.mpr fun hs => ?_
      exact absurd (hopen.symm.trans (hS.closed hs)) Bool.false_ne_true
  | notListed p k _ _ => cases k <;> cases hg
  | rmFinished p k => cases k <;> cases hg
  | graceSkipped g' _ _ => cases g' <;> cases hg
  | graceArmed g' => cases g' <;> cases hg
  | _ => cases hg

/-- `Close` stops the timer under the mutex, which an arming thread holds. -/
theorem early_stable (h : Moves arch i σ t σ' t' new) {j : Nat} {u : Pc}
    (hGj : Guarded j σ u) (hL : Early j σ u) : Early j σ' u := by
  rintro g rfl
  refine Bool.eq_false_iff.mpr fun hs => ?_
  obtain ⟨-, hmu⟩ := h.stopped_new (hL g rfl) hs
  exact absurd (hmu.symm.trans (hGj.mutex rfl)) (Option.some_ne_none j).symm

end Steps

/-! ## Every state -/

section Runs

variable {arch : Arch} {s : Bond}

/-- **A LISTED PATH IS LIVE**: under every interleaving a bond with a path has no
    grace timer and is not expired. -/
theorem listed_live (h : BondReach arch s) (hne : s.shared.bond.paths ≠ []) :
    s.shared.bond.emptyTimer = none ∧ s.shared.bond.emptyExpired = false := by
  refine ⟨?_, ?_⟩
  · refine Option.eq_none_iff_forall_ne_some.mpr fun r hr => ?_
    exact absurd ((idle h).1 r hr).1 hne
  · refine Reach.invariant (I := fun s => Live s.shared) (fun hne => absurd rfl hne) ?_ h hne
    intro s a s' _ hI _ hs
    refine Machine.step_shared (R := fun σ σ' => Live σ → Live σ') ?_ ?_ hs hI
    · intro i σ t a σ' t' new he hI
      exact live_step (exec_moves he) hI
    · intro σ e σ' new he hI
      have hf := outside_frame he
      show σ'.bond.paths ≠ [] → σ'.bond.emptyExpired = false
      rw [hf.paths, hf.emptyExpired]
      exact hI

/-- **EXPIRED FOR EVER**: whatever happens to an expired bond, it lists and admits
    nothing again. -/
theorem expired_for_ever (h : BondReach arch s) (hx : s.shared.bond.emptyExpired = true)
    {s' : Bond} (h' : Reach (bondStep arch) anyStep s s') :
    s'.shared.bond.emptyExpired = true ∧ s'.shared.bond.paths = [] ∧
      admitted s'.shared = admitted s.shared := by
  have hkeep : s'.shared.bond.emptyExpired = true ∧
      admitted s'.shared = admitted s.shared := by
    refine Reach.invariant (I := fun u => u.shared.bond.emptyExpired = true ∧
      admitted u.shared = admitted s.shared) ⟨hx, rfl⟩ ?_ h'
    rintro u a u' - ⟨hxu, hadm⟩ - hs
    cases a with
    | run i a =>
        obtain ⟨t, σ', t', new, _, he, rfl⟩ := Machine.step_run hs
        obtain ⟨hx', hadm'⟩ := expired_step (exec_moves he) hxu
        exact ⟨hx', hadm'.trans hadm⟩
    | env e =>
        obtain ⟨σ', new, he, rfl⟩ := Machine.step_env hs
        have hf := outside_frame he
        refine ⟨hf.emptyExpired.trans hxu, ?_⟩
        show admitted σ' = _
        rw [admitted, hf.log]
        exact hadm
  refine ⟨hkeep.1, ?_, hkeep.2⟩
  by_contra hne
  have hlive := (listed_live (h.trans h') hne).2
  exact absurd (hlive.symm.trans hkeep.1) Bool.false_ne_true

/-- **QUIET**: under every interleaving no timer is recorded behind the timer
    section of `Close`. -/
theorem quiet (h : BondReach arch s) : Annotated Quiet Early s := by
  refine Machine.owickiGries (M := bondMachine arch) (J := Annotated Sealed Guarded)
    (fun s hs => sealed_sweep hs) Quiet Early ?_ ?_ ?_ ?_ h
  · exact ⟨fun hs => (by cases hs), fun i t ht => (by cases ht)⟩
  · intro s i t a σ' t' new hJ ht _ he hI hL
    have hm := exec_moves he
    refine ⟨quiet_step hm (hJ.2 i t ht) hI hL, early_step hm hJ.1, ?_⟩
    intro n u hu g hg
    subst hg
    cases hm with
    | addSpawned p => cases List.mem_singleton.mp hu
    | _ => cases hu
  · intro s i j t u a σ' t' new hJ _ _ hj he _ _ hL
    exact early_stable (exec_moves he) (hJ.2 j u hj) hL
  · intro s e σ' new _ _ he hI
    have hf := outside_frame he
    refine ⟨?_, ?_, ?_⟩
    · intro hs
      rw [(outside_timer he).1]
      exact hI (hf.stopped.symm.trans hs)
    · intro n u hu g hg
      subst hg
      rcases outside_new he with ⟨-, hent⟩ | ⟨path, -, hnew⟩
      · cases hent _ hu
      · subst hnew
        cases List.mem_singleton.mp hu
    · intro j u _ hL g hg
      exact hf.stopped.trans (hL g hg)

/-- The outside world arms nothing. -/
theorem outside_armed {σ σ' : Shared} {new : List Pc} {e : Op}
    (h : outside σ e = some (σ', new)) : ∀ r ∈ σ'.armed, r ∈ σ.armed := by
  intro r hr
  cases outside_moves h with
  | fired fired _ => exact (List.mem_filter.mp hr).1
  | _ => exact hr

/-- **STOPPED FOR EVER**: whatever happens behind the timer section of `Close`, no
    timer is recorded or armed and no path admitted again. -/
theorem stopped_for_ever (h : BondReach arch s) (hs : s.shared.stopped = true)
    {s' : Bond} (h' : Reach (bondStep arch) anyStep s s') :
    s'.shared.bond.emptyTimer = none ∧ s'.shared.timers = s.shared.timers ∧
      (∀ r ∈ s'.shared.armed, r ∈ s.shared.armed) ∧
      admitted s'.shared = admitted s.shared := by
  have hkeep : s'.shared.stopped = true ∧ s'.shared.timers = s.shared.timers ∧
      (∀ r ∈ s'.shared.armed, r ∈ s.shared.armed) ∧
      admitted s'.shared = admitted s.shared := by
    refine Reach.invariant (I := fun u => u.shared.stopped = true ∧
      u.shared.timers = s.shared.timers ∧ (∀ r ∈ u.shared.armed, r ∈ s.shared.armed) ∧
      admitted u.shared = admitted s.shared) ⟨hs, rfl, fun r hr => hr, rfl⟩ ?_ h'
    rintro u a u' hu ⟨hsu, htimers, harmed, hadm⟩ - hstep
    have hreach := h.trans hu
    cases a with
    | run i a =>
        obtain ⟨t, σ', t', new, ht, he, rfl⟩ := Machine.step_run hstep
        have hm := exec_moves he
        obtain ⟨h1, h2, -, h4⟩ := stopped_step hm ((sealed_sweep hreach).2 i t ht)
          ((quiet hreach).2 i t ht) hsu
        exact ⟨hm.stopped_mono hsu, h1.trans htimers, fun r hr => harmed r (h2 r hr),
          h4.trans hadm⟩
    | env e =>
        obtain ⟨σ', new, he, rfl⟩ := Machine.step_env hstep
        have hf := outside_frame he
        refine ⟨hf.stopped.trans hsu, (outside_timer he).2.trans htimers,
          fun r hr => harmed r (outside_armed he r hr), ?_⟩
        show admitted σ' = _
        rw [admitted, hf.log]
        exact hadm
  exact ⟨(quiet (h.trans h')).1 hkeep.1, hkeep.2⟩

end Runs

/-! ## The last change of the list -/

/-- What happened to the list. -/
inductive Change where
  | joined (p : PathRef)
  | left (p : PathRef)
  deriving DecidableEq, Repr

/-- The last change, after one more step. -/
def lastChange (last : Option Change) (s : Bond) (a : Act Choice Op) (s' : Bond) :
    Option Change :=
  if s'.shared.bond.paths = s.shared.bond.paths then last
  else
    match a with
    | .env _ => last
    | .run i _ =>
        match s.threads[i]? with
        | some (.addTest p) => some (.joined p)
        | some (.rmLock p _) => some (.left p)
        | _ => last

/-- A bond and the last change of its list. -/
abbrev Changed := Bond × Option Change

/-- One step of such a bond. -/
def changedStep (arch : Arch) : Changed → Act Choice Op → Option Changed :=
  watch (bondStep arch) lastChange

/-- The thread has unlinked the path and not yet seen to the grace period. -/
def removing (p : PathRef) : Pc → Bool
  | .rmCount q _ => q = p
  | .graceLock (.removed q _) => q = p
  | .graceArm (.removed q _) => q = p
  | _ => false

/-- A bond that waits for a path without a timer. -/
structure Untimed (σ : Shared) : Prop where
  paths : σ.bond.paths = []
  closed : σ.bond.closed = false
  expired : σ.bond.emptyExpired = false
  timer : σ.bond.emptyTimer = none

/-- A section that leaves a bond untimed found it untimed, or unlinked the path that
    was the last; and a removal that is on its way to the timer stays so. -/
theorem untimed_step {arch : Arch} {i : Nat} {σ σ' : Shared} {t t' : Pc} {new : List Pc}
    (h : Moves arch i σ t σ' t' new) (hG : Guarded i σ t) (hU : Untimed σ') :
    (Untimed σ ∧ ∀ p, removing p t = true → removing p t' = true) ∨
      ∃ p k, t = .rmLock p k ∧ t' = .rmCount p k ∧ p ∈ σ.bond.paths := by
  obtain ⟨hpaths, hclosed, hexpired, htimer⟩ := hU
  cases h with
  | unlinked p k _ hmem => exact Or.inr ⟨p, k, rfl, rfl, hmem⟩
  | addAppended p _ => exact absurd hpaths (List.append_ne_nil_of_right_ne_nil _ (by simp))
  | chanClosed => cases hclosed
  | timerStopped _ =>
      exact absurd (hclosed.symm.trans (hG.chan rfl)) Bool.false_ne_true
  | timerIdle r _ hne => exact absurd hpaths hne
  | timerExpired r _ _ => cases hexpired
  | graceArmed g => cases htimer
  | countedSome p k _ hne => exact absurd hpaths hne
  | countedEmpty p k _ _ =>
      exact Or.inl ⟨⟨hpaths, hclosed, hexpired, htimer⟩, fun q hq => hq⟩
  | graceLocked g _ _ _ =>
      refine Or.inl ⟨⟨hpaths, hclosed, hexpired, htimer⟩, fun q hq => ?_⟩
      cases g with
      | removed p k => exact hq
      | _ => cases hq
  | graceSkipped g _ hskip =>
      -- there was a reason not to arm a timer, and it is still there
      simp [BondedPacketConn.graceIdle, hpaths, hclosed, hexpired, htimer] at hskip
  | _ =>
      exact Or.inl ⟨⟨hpaths, hclosed, hexpired, htimer⟩, fun q hq => (by cases hq)⟩

/-- Somebody is still at the removal of the path that left last. -/
def Pending (s : Bond) (last : Option Change) : Prop :=
  ∀ p, last = some (.left p) → Untimed s.shared → ∃ t ∈ s.threads, removing p t = true

theorem lastChange_same {last : Option Change} {s s' : Bond} {a : Act Choice Op}
    (h : s'.shared.bond.paths = s.shared.bond.paths) : lastChange last s a s' = last :=
  if_pos h

theorem pending_step {arch : Arch} {s s' : Bond} {last : Option Change}
    {a : Act Choice Op} (hG : ∀ i t, s.threads[i]? = some t → Guarded i s.shared t)
    (hI : Pending s last) (hs : bondStep arch s a = some s') :
    Pending s' (lastChange last s a s') := by
  intro p hlast hU
  cases a with
  | env e =>
      obtain ⟨σ', new, he, rfl⟩ := Machine.step_env hs
      have hf := outside_frame he
      rw [lastChange_same hf.paths] at hlast
      have hU' : Untimed s.shared := ⟨hf.paths.symm.trans hU.paths,
        hf.closed.symm.trans hU.closed, hf.emptyExpired.symm.trans hU.expired,
        (outside_timer he).1.symm.trans hU.timer⟩
      obtain ⟨t, ht, hrem⟩ := hI p hlast hU'
      exact ⟨t, List.mem_append_left _ ht, hrem⟩
  | run i a =>
      obtain ⟨t, σ', t', new, ht, he, rfl⟩ := Machine.step_run hs
      have hin : t' ∈ s.threads.set i t' ++ new :=
        List.mem_of_getElem? (getElem?_mover t' new ht)
      rcases untimed_step (exec_moves he) (hG i t ht) hU with ⟨hU', hkeep⟩ | hunl
      · rw [lastChange_same (hU.paths.trans hU'.paths.symm)] at hlast
        obtain ⟨u, hu, hrem⟩ := hI p hlast hU'
        obtain ⟨j, hj⟩ := List.getElem?_of_mem hu
        by_cases hij : i = j
        · subst hij
          obtain rfl : t = u := Option.some.inj (ht.symm.trans hj)
          exact ⟨t', hin, hkeep p hrem⟩
        · exact ⟨u, List.mem_of_getElem? (getElem?_bystander t' new hij hj), hrem⟩
      · -- the path that was unlinked now is the one that left last
        obtain ⟨q, k, rfl, rfl, hmem⟩ := hunl
        have hne : σ'.bond.paths ≠ s.shared.bond.paths := by
          rw [hU.paths]
          exact (List.ne_nil_of_mem hmem).symm
        have hnew : lastChange last s (.run i a) ⟨σ', s.threads.set i (.rmCount q k) ++ new⟩
            = some (.left q) := by
          simp only [lastChange, if_neg hne, ht]
        obtain rfl : q = p := Change.left.inj (Option.some.inj (hnew.symm.trans hlast))
        exact ⟨.rmCount q k, hin, decide_eq_true rfl⟩

/-- **PENDING**: under every interleaving a bond without a path and without a timer,
    neither closed nor expired, has the goroutine that removed the last path on its
    way to arm one. -/
theorem left_pending {arch : Arch} {p : Changed}
    (h : Reach (changedStep arch) anyStep (newBond, none) p) : Pending p.1 p.2 := by
  refine @Reach.watched_invariant _ _ _ _ anyStep _ _ _ Pending ?_ ?_ _ h
  · intro p hlast
    cases hlast
  intro s last a s' hr hI _ hs
  exact pending_step (sealed_sweep hr.any).2 hI hs

/-- **THE EMPTY GRACE STATE**: under every interleaving of `AddConn`, removals,
    `WriteTo`, `Close` and timer callbacks,

    * a bond that lists a path has no timer and is not expired;
    * an expired bond lists and admits nothing, for ever;
    * behind the timer section of `Close` no timer is recorded, and none is recorded
      or armed and no path admitted, for ever;
    * a bond that is neither closed nor expired, has an empty list, and whose last
      change was the removal of a path that has seen to the grace period has a
      timer. -/
theorem empty_grace_invariant (arch : Arch) (p : Changed)
    (h : Reach (changedStep arch) anyStep (newBond, none) p) :
    (p.1.shared.bond.paths ≠ [] →
      p.1.shared.bond.emptyTimer = none ∧ p.1.shared.bond.emptyExpired = false) ∧
    (p.1.shared.bond.emptyExpired = true → ∀ s, Reach (bondStep arch) anyStep p.1 s →
      s.shared.bond.paths = [] ∧ admitted s.shared = admitted p.1.shared) ∧
    (p.1.shared.stopped = true → ∀ s, Reach (bondStep arch) anyStep p.1 s →
      s.shared.bond.emptyTimer = none ∧ s.shared.timers = p.1.shared.timers ∧
        (∀ r ∈ s.shared.armed, r ∈ p.1.shared.armed) ∧
        admitted s.shared = admitted p.1.shared) ∧
    (p.1.shared.bond.closed = false → p.1.shared.bond.emptyExpired = false →
      p.1.shared.bond.paths = [] → ∀ r, p.2 = some (.left r) →
      (∀ t ∈ p.1.threads, removing r t = false) →
      p.1.shared.bond.emptyTimer.isSome = true) := by
  have hreach : BondReach arch p.1 := Reach.unwatched h
  refine ⟨listed_live hreach, ?_, ?_, ?_⟩
  · intro hx s hs
    exact (expired_for_ever hreach hx hs).2
  · intro hstop s hs
    exact stopped_for_ever hreach hstop hs
  · intro hclosed hexpired hpaths r hlast hdone
    by_contra htimer
    have hnone : p.1.shared.bond.emptyTimer = none := by simpa using htimer
    obtain ⟨t, ht, hrem⟩ := left_pending h r hlast ⟨hpaths, hclosed, hexpired, hnone⟩
    exact absurd ((hdone t ht).symm.trans hrem) Bool.false_ne_true

/-- A path joins and leaves: its removal is over, and the timer is recorded. -/
theorem left_bond_has_timer :
    ∃ p, Reach (changedStep .bits64) anyStep (newBond, none) p ∧
      p.2 = some (.left 0) ∧ p.1.shared.bond.paths = [] ∧
      p.1.shared.bond.emptyTimer.isSome = true := by
  obtain ⟨p, hr, hp⟩ := Reach.of_follow (changedStep .bits64) anyStep (newBond, none)
    (List.flatten [joinOn 0, leaveOn 1])
    (fun p : Changed => decide (p.1.shared.bond.closed = false ∧
      p.1.shared.bond.emptyExpired = false ∧ p.1.shared.bond.paths = [] ∧
      p.2 = some (.left 0) ∧ ∀ t ∈ p.1.threads, removing 0 t = false)) (by decide)
  obtain ⟨hclosed, hexpired, hpaths, hlast, hdone⟩ := of_decide_eq_true hp
  exact ⟨p, hr, hlast, hpaths,
    (empty_grace_invariant .bits64 p hr).2.2.2 hclosed hexpired hpaths 0 hlast hdone⟩

end VkTurnGraceState
