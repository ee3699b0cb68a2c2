import VkTurn.DowngradeProofs

/-! # Waiting on a dead bond

    Before the first path has been seen only the empty-grace timer closes the
    bond.  A path that joins and leaves between two looks of the waiter arms it;
    when it expires the bond is spent for good: it is closed, it lists nothing
    and it takes no path any more (`Spent`).  The waiter looks at the number of
    paths only, so it goes back to its `select`.

    The wake-ups that do end the wait are the context, a rejection, the fallback
    deadline and the failure that completes the failed paths.  `decisive` says of
    one step that a wake-up on a closed bond is one of these, and `Alert` is what
    a run of such steps keeps. -/

namespace VkTurnDeadBond

open ThreadPool VkTurnStripe VkTurnBond VkTurnBondHello VkTurnSetup GoText

/-! ## A spent bond -/

/-- The thread is on its way to close the `closed` channel. -/
def closer : VkTurnBond.Pc → Bool
  | .clOnce => true
  | .clChan => true
  | _ => false

/-- Only the expired grace period closes the bond, and then it lists nothing. -/
structure Spent (b : Bond) : Prop where
  closed : b.shared.bond.closed = true → b.shared.bond.emptyExpired = true
  closers : ∀ t ∈ b.threads, closer t = true → b.shared.bond.emptyExpired = true
  empty : b.shared.bond.emptyExpired = true → b.shared.bond.paths = []

section Step

variable {arch : Arch} {i : Nat} {σ σ' : Shared} {t t' : VkTurnBond.Pc}
variable {new : List VkTurnBond.Pc}

theorem moves_expired (h : VkTurnBond.Moves arch i σ t σ' t' new)
    (hx : σ.bond.emptyExpired = true) : σ'.bond.emptyExpired = true := by
  cases h <;> first | exact hx | rfl

/-- A closer comes from a closer or from the timer's callback, and none is
    started. -/
theorem moves_closer (h : VkTurnBond.Moves arch i σ t σ' t' new) :
    (closer t' = true → closer t = true ∨ σ'.bond.emptyExpired = true) ∧
      (∀ u ∈ new, closer u = false) ∧
      (σ'.bond.closed = true → σ.bond.closed = true ∨ closer t = true) := by
  cases h with
  | onceTaken _ => exact ⟨fun _ => Or.inl rfl, fun u hu => (by cases hu), Or.inl⟩
  | chanClosed => exact ⟨fun hc => (by cases hc), fun u hu => (by cases hu), fun _ => Or.inr rfl⟩
  | timerExpired k _ _ => exact ⟨fun _ => Or.inr rfl, fun u hu => (by cases hu), Or.inl⟩
  | addSpawned p =>
      refine ⟨fun hc => (by cases hc), ?_, Or.inl⟩
      intro u hu
      rw [List.mem_singleton.mp hu]
      rfl
  | notListed p k _ _ =>
      refine ⟨?_, fun u hu => (by cases hu), Or.inl⟩
      cases k <;> exact fun hc => (by cases hc)
  | rmFinished p k =>
      refine ⟨?_, fun u hu => (by cases hu), Or.inl⟩
      cases k <;> exact fun hc => (by cases hc)
  | graceSkipped g _ _ =>
      refine ⟨?_, fun u hu => (by cases hu), Or.inl⟩
      cases g <;> exact fun hc => (by cases hc)
  | graceArmed g =>
      refine ⟨?_, fun u hu => (by cases hu), Or.inl⟩
      cases g <;> exact fun hc => (by cases hc)
  | _ => exact ⟨fun hc => (by cases hc), fun u hu => (by cases hu), Or.inl⟩

/-- An expired bond lists nothing, and nothing new. -/
theorem moves_empty (h : VkTurnBond.Moves arch i σ t σ' t' new)
    (hold : σ.bond.emptyExpired = true → σ.bond.paths = [])
    (hx : σ'.bond.emptyExpired = true) : σ'.bond.paths = [] := by
  have sub : (∀ q ∈ σ'.bond.paths, q ∈ σ.bond.paths) → σ.bond.paths = [] →
      σ'.bond.paths = [] := by
    intro hsub hnil
    rw [hnil] at hsub
    exact List.subset_nil.mp hsub
  cases h with
  | timerExpired k _ hnil => exact hnil
  | addAppended p hfresh => cases hfresh.symm.trans hx
  | unlinked p k _ _ => exact sub (fun q hq => List.mem_of_mem_erase hq) (hold hx)
  | _ => exact hold hx

/-- Without a call of `Close` the outside world starts no closer. -/
theorem outside_closer {e : VkTurnBond.Op} (h : VkTurnBond.outside σ e = some (σ', new))
    (he : e ≠ .close) : ∀ u ∈ new, closer u = false := by
  intro u hu
  cases outside_moves h with
  | closeCalled => exact absurd rfl he
  | received _ => cases hu
  | _ =>
      rw [List.mem_singleton.mp hu]
      rfl

end Step

/-- **SPENT**: whatever a bond does but for a call of `Close`, only its expiry
    closes it. -/
theorem spent_step {arch : Arch} {b b' : Bond}
    {a : Act VkTurnBond.Choice VkTurnBond.Op} (h : bondStep arch b a = some b')
    (ha : a ≠ .env .close) (hb : Spent b) : Spent b' := by
  cases a with
  | run i a =>
      obtain ⟨t, σ', t', new, ht, he, rfl⟩ := Machine.step_run h
      have hm := VkTurnBond.exec_moves he
      obtain ⟨hcl, hnew, hchan⟩ := moves_closer hm
      have htc : closer t = true → b.shared.bond.emptyExpired = true :=
        hb.closers t (List.mem_of_getElem? ht)
      refine ⟨?_, ?_, moves_empty hm hb.empty⟩
      · intro hclosed
        rcases hchan hclosed with hold | hself
        · exact moves_expired hm (hb.closed hold)
        · exact moves_expired hm (htc hself)
      · intro u hu hc
        obtain ⟨j, hj⟩ := List.getElem?_of_mem hu
        rcases getElem?_moved hj with ⟨-, rfl⟩ | ⟨-, hold⟩ | hin
        · rcases hcl hc with hself | hx
          · exact moves_expired hm (htc hself)
          · exact hx
        · exact moves_expired hm (hb.closers u (List.mem_of_getElem? hold) hc)
        · cases (hnew u hin).symm.trans hc
  | env e =>
      obtain ⟨σ', new, he, rfl⟩ := Machine.step_env h
      have hf := outside_frame he
      refine ⟨?_, ?_, ?_⟩
      · rw [hf.closed, hf.emptyExpired]
        exact hb.closed
      · intro u hu hc
        rw [hf.emptyExpired]
        rcases List.mem_append.mp hu with hold | hin
        · exact hb.closers u hold hc
        · cases (outside_closer he (fun hk => ha (congrArg Act.env hk)) u hin).symm.trans hc
      · rw [hf.emptyExpired, hf.paths]
        exact hb.empty

/-! ## The waiter -/

/-- The bond is closed. -/
def dead (σ : Setup) : Bool := σ.bond.shared.bond.closed

/-- The waiter is not waiting after a wake-up on a closed bond, and a wait that
    ended with such a wake-up ended with an error. -/
def NeverOnDead (s : SetupPool) : Prop :=
  (∀ w, .select w ∈ s.threads → w.wokeClosed = false) ∧
    ∀ ended, s.shared.waited = some ended → ended.wokeClosed = true →
      ended.err.isSome = true

/-- The wake-ups that the loop of the waiter acts upon. -/
def endsWait (cfg : VkTurnSetup.Config) (σ : Setup) (w : Waiting) : Wake → Bool
  | .ctx => true
  | .state => false
  | .deadline => true
  | .event =>
      match σ.events with
      | [] => true
      | event :: _ =>
          event.err.isRejection || decide (cfg.protocol = bondProtocolV2 ∧
            (w.fail event).failedPaths.length ≥ cfg.numSessions)

/-- In this step, a wake-up on a closed bond is one that the loop acts upon. -/
def decisive (cfg : VkTurnSetup.Config) (s : SetupPool) :
    Act VkTurnSetup.Choice VkTurnSetup.Op → Bool
  | .run i (.wake k) =>
      match s.threads[i]? with
      | some (.select w) => !dead s.shared || endsWait cfg s.shared w k
      | _ => true
  | _ => true

/-- What the waiter knows of its last wake-up. -/
def Alert (_ : Nat) (σ : Setup) : VkTurnSetup.Pc → Prop
  | .look w => w.wokeClosed = false
  | .select w => w.wokeClosed = false
  | .deadline w => w.wokeClosed = true → dead σ = true
  | .failed w => w.wokeClosed = true → dead σ = true
  | _ => True

/-- A wait that ended with a wake-up on a closed bond ended with an error. -/
def EndedWell (σ : Setup) : Prop :=
  ∀ ended, σ.waited = some ended → ended.wokeClosed = true → ended.err.isSome = true

theorem endedWell_return {σ : Setup} {w : Waiting} {err : Option WaitError}
    (h : w.wokeClosed = true → err.isSome = true) : EndedWell (σ.return w err) := by
  intro ended hw hclosed
  obtain rfl : WaitEnd.mk err σ.reports w.wokeClosed = ended := Option.some.inj hw
  exact h hclosed

section Reached

variable {cfg : VkTurnSetup.Config} {s : SetupPool}

/-- While a thread is waiting, the bond is open or spent. -/
theorem spent_while_waiting
    {ok : SetupPool → Act VkTurnSetup.Choice VkTurnSetup.Op → Prop}
    (h : Reach (setupStep cfg) ok newGeneration s) :
    ∀ (i : Nat) (t : VkTurnSetup.Pc), s.threads[i]? = some t → waiting t = true →
      Spent s.shared.bond := by
  refine (Machine.owickiGries (M := setupMachine cfg)
    (J := Reach (setupStep cfg) ok newGeneration) (fun s hs => hs) (fun _ => True)
    (fun _ σ t => waiting t = true → Spent σ.bond) ?_ ?_ ?_ ?_ h).2
  · refine ⟨trivial, fun i t _ _ => ⟨fun hc => (by cases hc), fun u hu => (by cases hu), ?_⟩⟩
    exact fun hx => (by cases hx)
  · intro s i t a σ' t' new _ _ _ he _ hL
    have hm := VkTurnSetup.exec_moves he
    refine ⟨trivial, ?_, ?_⟩
    · intro hw
      have hwt := (hm.waited_eq.1 hw).1
      rcases hm.bond_eq with hb | ⟨x, hb, hclose⟩
      · rw [hb]
        exact hL hwt
      · refine spent_step hb ?_ (hL hwt)
        intro hx
        obtain ⟨e, rfl⟩ := hclose (Act.env.inj hx)
        cases hwt
    · intro n u hu hw
      cases (hm.creating_eq.2 u hu).2.symm.trans hw
  · intro s i j t u a σ' t' new hreach hij ht hu he _ _ hLu hw
    rcases (VkTurnSetup.exec_moves he).bond_eq with hb | ⟨x, hb, hclose⟩
    · rw [hb]
      exact hLu hw
    · refine spent_step hb ?_ (hLu hw)
      intro hx
      -- whoever closes the bond is the creator, and so is the waiter
      obtain ⟨e, rfl⟩ := hclose (Act.env.inj hx)
      cases waiter_alone hreach hij ht hu hw
  · intro s e σ' new hreach _ he _
    obtain ⟨hh, rfl⟩ := VkTurnSetup.outside_happens he
    refine ⟨trivial, fun n u hu => (by cases hu), ?_⟩
    intro j u hu hLu hw
    rcases hh.bond_eq with hb | ⟨x, hb, hclose⟩
    · rw [hb]
      exact hLu hw
    · refine spent_step hb ?_ (hLu hw)
      intro hx
      exact hclose hx (still_waiting hreach j u hu hw)

/-- The waiter of a dead bond sees no path. -/
theorem dead_count {ok : SetupPool → Act VkTurnSetup.Choice VkTurnSetup.Op → Prop}
    (h : Reach (setupStep cfg) ok newGeneration s) {i : Nat} {t : VkTurnSetup.Pc}
    (ht : s.threads[i]? = some t) (hw : waiting t = true) (hd : dead s.shared = true) :
    s.shared.count = 0 := by
  have hspent := spent_while_waiting h i t ht hw
  rw [Setup.count, BondedPacketConn.count, hspent.empty (hspent.closed hd)]
  rfl

/-- A waiter that goes back to its loop was not woken up on a dead bond. -/
theorem decisive_look {i : Nat} {a : VkTurnSetup.Choice} {w w' : Waiting} {σ' : Setup}
    {new : List VkTurnSetup.Pc} (hok : decisive cfg s (.run i a) = true)
    (ht : s.threads[i]? = some (.select w))
    (he : VkTurnSetup.exec cfg s.shared (.select w) a = some (σ', .look w', new)) :
    dead s.shared = false := by
  cases a with
  | wake k =>
      have hends : dead s.shared = true → endsWait cfg s.shared w k = true := by
        intro hd
        simpa [decisive, ht, hd] using hok
      by_contra hd
      have hyes := hends (Bool.eq_true_of_not_eq_false hd)
      cases k with
      | ctx =>
          unfold VkTurnSetup.exec at he
          dsimp only at he
          split at he <;> cases he
      | state => cases hyes
      | deadline =>
          unfold VkTurnSetup.exec at he
          dsimp only at he
          split at he <;> cases he
      | event =>
          cases hq : s.shared.events with
          | nil =>
              unfold VkTurnSetup.exec at he
              simp only [hq] at he
              cases he
          | cons event rest =>
              simp only [endsWait, hq, Bool.or_eq_true, decide_eq_true_eq] at hyes
              unfold VkTurnSetup.exec at he
              simp only [hq, afterEvent] at he
              by_cases hrej : event.err.isRejection = true
              · rw [if_pos hrej] at he
                cases he
              · obtain ⟨hv2, hall⟩ := hyes.resolve_left hrej
                have hall' : ((s.shared.woke w).fail event).failedPaths.length
                    ≥ cfg.numSessions := hall
                rw [if_neg hrej, if_neg (not_not.mpr hv2), if_pos hall'] at he
                cases he
  | _ => cases he

/-- A waiter that saw a path did not wake up on a dead bond. -/
theorem awake_of_count {ok : SetupPool → Act VkTurnSetup.Choice VkTurnSetup.Op → Prop}
    (h : Reach (setupStep cfg) ok newGeneration s) {i : Nat} {t : VkTurnSetup.Pc}
    (ht : s.threads[i]? = some t) (hw : waiting t = true) {woke : Bool}
    (hd : woke = true → dead s.shared = true) (hpos : 0 < s.shared.count) :
    woke = false := by
  cases woke with
  | false => rfl
  | true =>
      have := dead_count h ht hw (hd rfl)
      omega

/-- One section of a waiter, where a wake-up on a dead bond ends the wait. -/
theorem alert_step {i : Nat} {a : VkTurnSetup.Choice} {t t' : VkTurnSetup.Pc}
    {σ' : Setup} {new : List VkTurnSetup.Pc}
    (h : Reach (setupStep cfg) (fun s a => decisive cfg s a = true) newGeneration s)
    (ht : s.threads[i]? = some t) (hok : decisive cfg s (.run i a) = true)
    (he : VkTurnSetup.exec cfg s.shared t a = some (σ', t', new))
    (hI : EndedWell s.shared) (hL : Alert i s.shared t) :
    EndedWell σ' ∧ Alert i σ' t' := by
  have hm := VkTurnSetup.exec_moves he
  cases hm with
  | notPositive _ => exact ⟨endedWell_return fun hc => (by cases hc), trivial⟩
  | entered => exact ⟨hI, rfl⟩
  | sawPath w _ =>
      exact ⟨endedWell_return fun hc => (by cases (Eq.symm hL).trans hc), trivial⟩
  | sawNone w _ => exact ⟨hI, hL⟩
  | wokeCtx w _ => exact ⟨endedWell_return fun _ => rfl, trivial⟩
  | wokeState w bond _ => exact ⟨hI, decisive_look hok ht he⟩
  | wokeDeadline w _ => exact ⟨hI, fun hd => hd⟩
  | wokeRejected w event rest _ _ => exact ⟨endedWell_return fun _ => rfl, trivial⟩
  | wokeV1 w event rest _ _ _ => exact ⟨hI, decisive_look hok ht he⟩
  | wokeLast w event rest _ _ _ _ => exact ⟨hI, fun hd => hd⟩
  | wokeFailed w event rest _ _ _ _ => exact ⟨hI, decisive_look hok ht he⟩
  | deadlineOver w _ => exact ⟨endedWell_return fun _ => rfl, trivial⟩
  | deadlinePath w hpos => exact ⟨hI, awake_of_count h ht rfl hL hpos⟩
  | failedOver w _ => exact ⟨endedWell_return fun _ => rfl, trivial⟩
  | failedPath w hpos => exact ⟨hI, awake_of_count h ht rfl hL hpos⟩
  | _ => exact ⟨hI, trivial⟩

theorem alert_keep {σ σ' : Setup} {j : Nat} {u : VkTurnSetup.Pc}
    (h : dead σ = true → dead σ' = true) (hu : Alert j σ u) : Alert j σ' u := by
  cases u with
  | look w => exact hu
  | select w => exact hu
  | deadline w => exact fun hc => h (hu hc)
  | failed w => exact fun hc => h (hu hc)
  | _ => trivial

/-- **ALERT**: throughout a run of decisive steps a waiter that goes on waiting
    was not woken up on a dead bond. -/
theorem alert (h : Reach (setupStep cfg) (fun s a => decisive cfg s a = true)
    newGeneration s) : Annotated EndedWell Alert s := by
  refine Machine.owickiGries (M := setupMachine cfg)
    (J := Reach (setupStep cfg) (fun s a => decisive cfg s a = true) newGeneration)
    (fun s hs => hs) EndedWell Alert ?_ ?_ ?_ ?_ h
  · refine ⟨fun _ hw => (by cases hw), ?_⟩
    intro i t ht
    rw [List.mem_singleton.mp (List.mem_of_getElem? ht)]
    trivial
  · intro s i t a σ' t' new hreach ht hok he hI hL
    obtain ⟨hI', hL'⟩ := alert_step hreach ht hok he hI hL
    refine ⟨hI', hL', ?_⟩
    intro n u hu
    have hnot := ((VkTurnSetup.exec_moves he).creating_eq.2 u hu).2
    cases u with
    | look w => cases hnot
    | select w => cases hnot
    | deadline w => cases hnot
    | failed w => cases hnot
    | _ => trivial
  · intro s i j t u a σ' t' new _ _ _ _ he _ _ hLu
    refine alert_keep ?_ hLu
    intro hd
    rcases (VkTurnSetup.exec_moves he).bond_eq with hb | ⟨x, hb, -⟩
    · rw [dead, hb]
      exact hd
    · exact bondStep_closed hb hd
  · intro s e σ' new _ _ he hI
    obtain ⟨hh, rfl⟩ := VkTurnSetup.outside_happens he
    refine ⟨?_, fun n u hu => (by cases hu), ?_⟩
    · rw [EndedWell, hh.frame.1]
      exact hI
    · intro j u _ hLu
      refine alert_keep ?_ hLu
      intro hd
      rcases hh.bond_eq with hb | ⟨x, hb, -⟩
      · rw [dead, hb]
        exact hd
      · exact bondStep_closed hb hd

end Reached

/-- **NO WAIT ON A DEAD BOND**: in every run in which each wake-up on a closed
    bond is a cancellation, a rejection, the fallback deadline or the V2 failure
    that completes the failed paths, the waiter returns an error at its first
    wake-up on a closed bond. -/
theorem dead_bond_ends_wait (cfg : VkTurnSetup.Config) (s : SetupPool)
    (h : Reach (setupStep cfg) (fun s a => decisive cfg s a = true) newGeneration s) :
    NeverOnDead s := by
  obtain ⟨hI, hL⟩ := alert h
  refine ⟨?_, hI⟩
  intro w hw
  obtain ⟨i, hi⟩ := List.getElem?_of_mem hw
  exact hL i _ hi

/-! ## Runs -/

open VkTurnDowngrade

/-- The only path of a V2 generation joins and leaves while the waiter is in its
    `select`, and the grace period expires: the bond is closed. -/
def joinLeaveExpire : List (Act VkTurnSetup.Choice VkTurnSetup.Op) :=
  startWait ++ [.run 1 .go, .run 1 .go, .run 1 (.dial .conn), .run 1 .go,
      .run 1 (.write wholeWrite), .run 1 (.read (wholeRead bondHelloV2Ack)), .run 1 .go,
      .run 1 .go]
    ++ List.replicate 4 (.env (.bond (.run 0 .go)))
    ++ List.replicate 5 (.env (.bond (.run 1 .go)))
    ++ [.env (.bond (.env (.fire 0)))]
    ++ List.replicate 3 (.env (.bond (.run 2 .go)))

/-- The waiter is cancelled after the bond has died. -/
theorem dead_bond_cancelled :
    ∃ s ended, Reach (setupStep (v2Paths 1)) (fun s a => decisive (v2Paths 1) s a = true)
      newGeneration s ∧ s.shared.waited = some ended ∧ ended.wokeClosed = true ∧
      ended.err.isSome = true := by
  obtain ⟨s, hr, hp⟩ := Reach.of_follow (setupStep (v2Paths 1))
    (fun s a => decisive (v2Paths 1) s a = true) newGeneration
    (List.flatten [joinLeaveExpire, [.env .cancel, .run 0 (.wake .ctx)]])
    (fun s : SetupPool => s.shared.waited.any (·.wokeClosed)) (by decide)
  obtain ⟨ended, hw, hwoke⟩ := Option.any_eq_true _ _ |>.mp hp
  exact ⟨s, ended, hr, hw, hwoke,
    (dead_bond_ends_wait (v2Paths 1) s hr).2 ended hw hwoke⟩

/-- A waiter in its `select`, after a wake-up on a closed bond. -/
def waitsOnDead : VkTurnSetup.Pc → Bool
  | .select w => w.wokeClosed
  | _ => false

/-- **A DEAD BOND IS WAITED ON**: the notification of the dead bond wakes the
    waiter up, it counts no path and it waits again. -/
theorem dead_bond_waited_on :
    ¬ ∀ s, Reach (setupStep (v2Paths 1)) anyStep newGeneration s → NeverOnDead s := by
  intro hall
  obtain ⟨s, hr, hp⟩ := Reach.of_follow (setupStep (v2Paths 1)) anyStep newGeneration
    (List.flatten [joinLeaveExpire, [.run 0 (.wake .state), .run 0 .go]])
    (fun s : SetupPool => s.threads.any waitsOnDead) (by decide)
  obtain ⟨t, ht, hwoke⟩ := List.any_eq_true.mp hp
  cases t with
  | select w => cases ((hall s hr).1 w ht).symm.trans hwoke
  | _ => cases hwoke

end VkTurnDeadBond
