import VkTurn.DowngradeProofs
import VkTurn.GroupTableProofs
import VkTurn.TransportSlotProofs

/-! # What a bond still holds when it is shut down

    `Close` sweeps the paths that are listed.  A path that its reader or a writer
    has unlinked before is for that goroutine to close and to clean up, outside
    any lock, and `Close` waits for nobody: it can return with the path open.

    Only that can go wrong.  A path that was listed is disposed of, or listed
    still, or in the hands of a removal (`disposed_or_removing`); a finished
    sweep has left nothing listed.  So where every sweep ends with no removal
    under way, everything that was ever listed is disposed of
    (`swept_disposed`), in a bond by itself and in the bonds of a server and of a
    client's generation. -/

namespace VkTurnShutdown

open ThreadPool VkTurnStripe VkTurnBond VkTurnDisposal

/-! ## The end of a sweep -/

/-- A `removePath` has unlinked a path and has still to close it or to clean it
    up. -/
def removing : Pc → Bool
  | .rmCount _ _ => true
  | .graceLock (.removed _ _) => true
  | .graceArm (.removed _ _) => true
  | .rmNotify _ _ => true
  | .rmClose _ _ => true
  | .rmCleanup _ _ => true
  | _ => false

/-- In this step, a `Close` that comes to the end of its sweep finds no removal
    under way. -/
def calmEnd (b : Bond) : Act Choice Op → Bool
  | .run i _ =>
      match b.threads[i]? with
      | some (.clSweep []) => b.threads.all fun t => !removing t
      | _ => true
  | .env _ => true

/-- The states of a bond whose sweeps all end calmly. -/
abbrev CalmReach (arch : Arch) : Bond → Prop :=
  Reach (bondStep arch) (fun b a => calmEnd b a = true) newBond

theorem calmEnd_sweep {b : Bond} {i : Nat} {a : Choice}
    (h : calmEnd b (.run i a) = true) (ht : b.threads[i]? = some (.clSweep [])) :
    ∀ u ∈ b.threads, removing u = false := by
  intro u hu
  rw [calmEnd, ht] at h
  exact Bool.not_eq_true' _ ▸ List.all_eq_true.mp h u hu

/-! ## Paths on their way in -/

/-- The thread brings the path, or disposes of it because it was turned away. -/
def arriving (p : PathRef) : Pc → Bool
  | .addLock q => q = p
  | .addTest q => q = p
  | .closeConn q => q = p
  | .closeCleanup q => q = p
  | .closeDone q => q = p
  | _ => false

theorem one_arriving_resume (p : PathRef) (k : Caller) :
    one (arriving p) k.resume = 0 := by
  cases k <;> rfl

theorem one_arriving_grace (p : PathRef) (g : GraceCaller) :
    one (arriving p) g.resume = 0 := by
  cases g <;> rfl

theorem count_cleanup_appended (σ : Shared) (q p : PathRef) :
    (σ.cleanupEvents q).count (.appended p) = 0 := by
  rcases cleanupEvents_cases σ q with ⟨-, hc⟩ | ⟨-, hc⟩ <;> rw [hc] <;> rfl

/-- Only `AddConn` lists a path. -/
theorem emits_appended {σ : Shared} {t : Pc} {p : PathRef}
    (h : .appended p ∈ emits σ t) : t = .addTest p := by
  have hcleanup : ∀ q, .appended p ∉ σ.cleanupEvents q := by
    intro q hq
    have hpos := List.count_pos_iff.mpr hq
    rw [count_cleanup_appended] at hpos
    cases hpos
  cases t with
  | addTest q =>
      simp only [emits] at h
      split at h
      · cases h
      · cases List.mem_singleton.mp h
        rfl
  | closeCleanup q => exact absurd h (hcleanup q)
  | rmCleanup q k => exact absurd h (hcleanup q)
  | closeConn q | rmClose q k | closeDone q | rmDone q k => cases List.mem_singleton.mp h
  | _ => cases h

/-- A path that is listed was on its way in, and then it is not any more. -/
theorem moves_arriving {arch : Arch} {i : Nat} {σ σ' : Shared} {t t' : Pc}
    {new : List Pc} (h : Moves arch i σ t σ' t' new) (p : PathRef) :
    (emits σ t).count (.appended p) + one (arriving p) t' ≤ one (arriving p) t ∧
      load (one (arriving p)) new = 0 := by
  cases h with
  | addAppended q hx =>
      refine ⟨?_, rfl⟩
      rw [emits, hx, if_neg Bool.false_ne_true, List.count_singleton]
      by_cases hqp : q = p
      · subst hqp
        simp [one, arriving]
      · simp [one, arriving, hqp]
  | addExpired q hx =>
      refine ⟨?_, rfl⟩
      rw [emits, hx, if_pos rfl, List.count_nil, Nat.zero_add]
      exact le_refl _
  | refusedCleanup q =>
      refine ⟨?_, rfl⟩
      rw [emits, count_cleanup_appended, Nat.zero_add]
      exact le_refl _
  | rmCleaned q k =>
      refine ⟨?_, rfl⟩
      rw [emits, count_cleanup_appended, Nat.zero_add]
      exact le_refl _
  | rmFinished q k =>
      rw [one_arriving_resume]
      exact ⟨Nat.zero_le _, rfl⟩
  | notListed q k _ _ =>
      rw [one_arriving_resume]
      exact ⟨Nat.zero_le _, rfl⟩
  | graceSkipped g _ _ =>
      rw [one_arriving_grace]
      exact ⟨Nat.zero_le _, rfl⟩
  | graceArmed g =>
      rw [one_arriving_grace]
      exact ⟨Nat.zero_le _, rfl⟩
  | _ => exact ⟨by simp [emits, one, arriving], rfl⟩

section Reached

variable {arch : Arch} {b : Bond}

/-- A path is listed once, and not while it is on its way in. -/
theorem listed_or_arriving (h : BondReach arch b) (p : PathRef) :
    b.shared.log.count (.appended p) + load (one (arriving p)) b.threads
      ≤ allocated p b.shared := by
  refine Machine.reach_tallies (M := bondMachine arch) (J := fun _ => True)
    (fun _ _ => trivial) (one (arriving p))
    (fun σ n => σ.log.count (.appended p) + n ≤ allocated p σ) (Nat.zero_le _) ?_ ?_ h
  · intro s i t a σ' t' new rest _ _ _ hI he
    have hm := exec_moves he
    obtain ⟨hle, hnew⟩ := moves_arriving hm p
    have hal : allocated p σ' = allocated p s.shared := by
      rw [allocated, allocated, hm.heap_eq]
    rw [hm.log_eq, List.count_append, hnew, hal]
    omega
  · intro s e σ' new total _ hI he
    have hlog := (outside_frame he).log
    rcases outside_new he with ⟨hheap, hnew⟩ | ⟨path, hheap, rfl⟩
    · have hz : load (one (arriving p)) new = 0 := by
        refine load_eq_zero fun t ht => ?_
        have hentry := hnew t ht
        cases t <;> first | rfl | cases hentry
      rw [hlog, hz, allocated, hheap]
      exact hI
    · have hone : load (one (arriving p)) [.addLock s.shared.heap.length]
          = [s.shared.heap.length].count p := by
        simp [load, one, arriving, List.count_singleton]
      rw [hlog, hone, allocated, hheap, List.length_append, List.length_singleton,
        issued_succ]
      rw [allocated] at hI
      omega

/-- A listed path is allocated, and nobody brings it any more. -/
theorem arrived (h : BondReach arch b) {p : PathRef} (hp : .appended p ∈ b.shared.log) :
    p < b.shared.heap.length ∧ ∀ u ∈ b.threads, arriving p u = false := by
  have htally := listed_or_arriving h p
  have hpos := List.count_pos_iff.mpr hp
  have hal := allocated_le p b.shared
  refine ⟨?_, ?_⟩
  · by_contra hge
    rw [allocated, if_neg hge] at htally
    omega
  · intro u hu
    by_contra hbring
    obtain ⟨i, hi⟩ := List.getElem?_of_mem hu
    have hle := le_load (one (arriving p)) hi
    rw [one_true (Bool.eq_true_of_not_eq_false hbring)] at hle
    omega

/-! ## Disposed of, listed or being removed -/

/-- The path's connection is closed and its cleanup, if there is one, was run. -/
structure Disposed (σ : Shared) (p : PathRef) : Prop where
  closed : .connClosed p ∈ σ.log
  cleaned : σ.hasCleanup p = true → .cleanedUp p ∈ σ.log

/-- A trail with the first two events of a disposal. -/
theorem disposed_of_trail {σ : Shared} {p : PathRef}
    (h : [.connClosed p] ++ σ.cleanupEvents p <+: trail σ.log p) : Disposed σ p := by
  have hin : ∀ e ∈ [.connClosed p] ++ σ.cleanupEvents p, e ∈ σ.log := fun e he =>
    (List.mem_filter.mp (h.subset he)).1
  refine ⟨hin _ (List.mem_append_left _ (List.mem_singleton.mpr rfl)), ?_⟩
  intro hc
  refine hin _ (List.mem_append_right _ ?_)
  rw [Shared.cleanupEvents, if_pos hc]
  exact List.mem_singleton.mpr rfl

/-- Disposed of stays disposed of. -/
theorem disposed_step {b' : Bond} {a : Act Choice Op} (hs : bondStep arch b a = some b')
    {p : PathRef} (hp : p < b.shared.heap.length) (h : Disposed b.shared p) :
    Disposed b'.shared p := by
  have hlog := bondStep_log_grows hs
  obtain ⟨more, hheap⟩ := bondStep_heap_grows hs
  have hsame : b'.shared.hasCleanup p = b.shared.hasCleanup p := by
    rw [Shared.hasCleanup, Shared.hasCleanup, ← hheap, List.getElem?_append_left hp]
  refine ⟨hlog.subset h.closed, fun hc => hlog.subset (h.cleaned ?_)⟩
  rw [← hsame]
  exact hc

/-- **NOTHING ELSE HOLDS A PATH**: under every interleaving, a path that was listed
    is disposed of, or is listed still, or a `removePath` has it in hand. -/
theorem disposed_or_removing (h : BondReach arch b) {p : PathRef}
    (hp : .appended p ∈ b.shared.log) :
    Disposed b.shared p ∨ p ∈ b.shared.bond.paths ∨ ∃ u ∈ b.threads, removing u = true := by
  obtain ⟨hlt, halone⟩ := arrived h hp
  obtain ⟨hI, hL⟩ := trails h
  rcases finished_or_held h hlt with hdone | hlisted | ⟨i, u, hu, ho⟩
  · refine Or.inl (disposed_of_trail ?_)
    rw [(hI p).2.2 hdone]
    exact List.prefix_append ..
  · exact Or.inr (Or.inl hlisted)
  have hmem := List.mem_of_getElem? hu
  have hfree := halone u hmem
  have hbring : ∀ q, owner u = some q → decide (q = p) = true := by
    intro q hq
    exact decide_eq_true (Option.some.inj (hq.symm.trans ho))
  cases u with
  | rmDone q k =>
      obtain rfl : q = p := Option.some.inj ho
      refine Or.inl (disposed_of_trail ?_)
      rw [hL i _ hu q ho]
      exact List.prefix_rfl
  | rmCount q k | rmNotify q k | rmClose q k | rmCleanup q k => exact Or.inr (Or.inr ⟨_, hmem, rfl⟩)
  | graceLock g =>
      cases g with
      | removed q k => exact Or.inr (Or.inr ⟨_, hmem, rfl⟩)
      | _ => cases ho
  | graceArm g =>
      cases g with
      | removed q k => exact Or.inr (Or.inr ⟨_, hmem, rfl⟩)
      | _ => cases ho
  | addLock q | addTest q | closeConn q | closeCleanup q | closeDone q =>
      cases hfree.symm.trans (hbring q rfl)
  | _ => cases ho

/-! ## Calm ends -/

/-- Nothing is listed by a bond that has been swept, nor by the end of its
    sweep. -/
theorem appended_before {b' : Bond} {a : Act Choice Op} (h : BondReach arch b)
    (hs : bondStep arch b a = some b') (hf : b'.shared.bond.closeOnce = .finished)
    {p : PathRef} (hp : .appended p ∈ b'.shared.log) : .appended p ∈ b.shared.log := by
  have hsealed := (sealed_sweep (Reach.tail a h trivial hs)).1
  cases a with
  | env e =>
      obtain ⟨σ', new, he, rfl⟩ := Machine.step_env hs
      rw [← (outside_frame he).log]
      exact hp
  | run i a =>
      obtain ⟨t, σ', t', new, ht, he, rfl⟩ := Machine.step_run hs
      have hm := exec_moves he
      rw [show σ'.log = _ from hm.log_eq] at hp
      rcases List.mem_append.mp hp with hold | hnew
      · exact hold
      -- what `AddConn` lists would still be listed
      obtain rfl := emits_appended hnew
      have hpaths : σ'.bond.paths = [] := (hsealed.empty hf).2
      cases hm with
      | addAppended _ hx => cases (List.append_eq_nil_iff.mp hpaths).2
      | addExpired _ hx =>
          rw [emits, if_pos hx] at hnew
          cases hnew

/-- **A CALM END LEAVES NOTHING**: where sweeps end calmly, a swept bond has
    disposed of everything it ever listed. -/
theorem swept_disposed (h : CalmReach arch b) :
    b.shared.bond.closeOnce = .finished →
      ∀ p, .appended p ∈ b.shared.log → Disposed b.shared p := by
  refine Reach.invariant (I := fun b : Bond => b.shared.bond.closeOnce = .finished →
    ∀ p, .appended p ∈ b.shared.log → Disposed b.shared p) (fun hf => (by cases hf)) ?_ h
  intro b a b' hr hI hok hs hf' p hp'
  have hreach : BondReach arch b := hr.any
  have hp := appended_before hreach hs hf' hp'
  refine disposed_step hs (arrived hreach hp).1 ?_
  by_cases hf : b.shared.bond.closeOnce = .finished
  · exact hI hf p hp
  -- this step is the end of the sweep
  cases a with
  | env e =>
      obtain ⟨σ', new, he, rfl⟩ := Machine.step_env hs
      exact absurd ((outside_frame he).closeOnce ▸ hf') hf
  | run i a =>
      have hempty := ((sealed_sweep (Reach.tail (.run i a) hreach trivial hs)).1.empty hf').2
      obtain ⟨t, σ', t', new, ht, he, rfl⟩ := Machine.step_run hs
      obtain ⟨rfl, hpaths⟩ := (exec_moves he).finished_new hf hf'
      rcases disposed_or_removing hreach hp with hd | hlisted | ⟨u, hu, hrem⟩
      · exact hd
      · rw [← hpaths, show σ'.bond.paths = [] from hempty] at hlisted
        cases hlisted
      · cases (calmEnd_sweep hok ht u hu).symm.trans hrem

/-- A `Close` that has returned has found the sweep made. -/
theorem finished_of_returned (h : BondReach arch b) (hret : .returned .closed ∈ b.threads) :
    b.shared.bond.closeOnce = .finished := by
  obtain ⟨i, hi⟩ := List.getElem?_of_mem hret
  exact ((sealed_sweep h).2 i _ hi).finish rfl

end Reached

/-! ## The bonds of a server -/

section Server

open VkTurnServer VkTurnHandover VkTurnRegistration VkTurnGroupTable VkTurnTransportSlot

/-- In this step of a server, a bond that moves ends its sweep calmly. -/
def calmServer (s : ServerPool) : Act VkTurnServer.Choice VkTurnServer.Op → Bool
  | .env (.bond g a) =>
      match s.shared.objs[g]? with
      | some grp => calmEnd grp.bond a
      | none => true
  | _ => true

variable {cfg : VkTurnServer.Config} {limiter : VkTurnLimiter.ConnectionLimiter}
  {s : ServerPool}

theorem group_calm
    (h : Reach (serverStep cfg) (fun s a => calmServer s a = true) (newServer limiter) s)
    {g : GroupRef} {grp : Group} (hg : s.shared.objs[g]? = some grp) :
    CalmReach cfg.arch grp.bond := by
  refine bonds_reached_by (fun _ _ => rfl) ?_ h g grp hg
  intro s g grp a hok hg
  simp only [calmServer, hg] at hok
  exact hok

/-- The run of a group ends behind the sweep of its bond: its group is in the
    table no more. -/
theorem swept_of_ended {ok : ServerPool → Act VkTurnServer.Choice VkTurnServer.Op → Prop}
    (h : Reach (serverStep cfg) ok (newServer limiter) s) {g : GroupRef} {grp : Group}
    (hg : s.shared.objs[g]? = some grp) (hend : .runEnded g ∈ s.threads) :
    swept grp.bond := by
  rcases (group_registered h).1.registered g grp hg with hreg | hs
  · have hbooks := entry_or_ended h g
    have hentered : entered g s.shared = true := by
      rw [entered, hg]
      exact decide_eq_true hreg
    have hmade : made g s.shared = true := by
      rw [made, hg]
      rfl
    obtain ⟨i, hi⟩ := List.getElem?_of_mem hend
    have hle := le_load (one (ended g)) hi
    have hone : one (ended g) (.runEnded g) = 1 := one_true (decide_eq_true rfl)
    rw [one_true hentered, one_true hmade] at hbooks
    omega
  · exact hs

/-- Where sweeps end calmly, a group whose run has ended has given back the slot
    of every connection that joined it. -/
theorem ended_released
    (h : Reach (serverStep cfg) (fun s a => calmServer s a = true) (newServer limiter) s)
    {g : GroupRef} {grp : Group} (hg : s.shared.objs[g]? = some grp)
    (hend : .runEnded g ∈ s.threads) {p : PathRef} {c : Conn}
    (hp : .appended p ∈ grp.bond.shared.log) (hc : connOf grp.bond p = some c) :
    Released s.shared c := by
  have hI := (slots h).1
  have hd := swept_disposed (group_calm h hg) (swept_of_ended h hg hend) p hp
  refine hI.cleaned c ⟨g, grp, p, hg, hc, hd.cleaned ?_⟩
  obtain ⟨path, hpath, -⟩ := Option.map_eq_some_iff.mp hc
  rw [Shared.hasCleanup, hpath]
  exact hI.cleanup g grp hg path (List.mem_of_getElem? hpath)

end Server

/-! ## The bond of a generation -/

section Client

open VkTurnSetup

/-- In this step of a generation, its bond ends its sweep calmly. -/
def calmSetup (s : SetupPool) : Act VkTurnSetup.Choice VkTurnSetup.Op → Bool
  | .env (.bond a) => calmEnd s.shared.bond a
  | _ => true

variable {cfg : VkTurnSetup.Config} {s : SetupPool}

/-- A maintainer joins with the cleanup of its TURN allocation. -/
theorem heap_cleanups {ok : SetupPool → Act VkTurnSetup.Choice VkTurnSetup.Op → Prop}
    (h : Reach (setupStep cfg) ok newGeneration s) :
    ∀ path ∈ s.shared.bond.shared.heap, path.cleanup = true := by
  refine Reach.invariant (I := fun s : SetupPool =>
    ∀ path ∈ s.shared.bond.shared.heap, path.cleanup = true) (fun _ hp => (by cases hp)) ?_ h
  intro s a s' _ hI _ hs
  cases a with
  | run i a =>
      obtain ⟨t, σ', t', new, _, he, rfl⟩ := Machine.step_run hs
      cases VkTurnSetup.exec_moves he with
      | added id c bond hb =>
          intro path hpath
          rw [(VkTurnHomogeneity.adders_addConn hb).2.2.2] at hpath
          rcases List.mem_append.mp hpath with hold | hnew
          · exact hI path hold
          · rw [List.mem_singleton.mp hnew]
      | closes e bond hb =>
          intro path hpath
          rw [bondStep_heap hb fun c k hk => (by cases hk)] at hpath
          exact hI path hpath
      | wokeState w bond hb =>
          intro path hpath
          rw [bondStep_heap hb fun c k hk => (by cases hk)] at hpath
          exact hI path hpath
      | _ => exact hI
  | env e =>
      obtain ⟨σ', new, he, rfl⟩ := Machine.step_env hs
      obtain ⟨hh, -⟩ := VkTurnSetup.outside_happens he
      cases hh with
      | bond a bond hallow hb =>
          intro path hpath
          rw [bondStep_heap hb ?_] at hpath
          · exact hI path hpath
          · rintro c k rfl
            cases hallow
      | _ => exact hI

theorem generation_calm
    (h : Reach (setupStep cfg) (fun s a => calmSetup s a = true) newGeneration s) :
    CalmReach cfg.arch s.shared.bond :=
  bond_reached_by (fun _ _ => rfl) (fun _ _ hok => hok) h

end Client

/-! ## Shutdown -/

open VkTurnServer VkTurnSetup VkTurnTransportSlot VkTurnHomogeneity

/-- **SHUTDOWN IS COMPLETE WHERE SWEEPS END CALMLY**: in every run in which a
    `Close` that comes to the end of its sweep finds no removal between the
    unlinking of a path and the end of its cleanup, whatever readers, writers and
    further `Close` calls do,

    * when a `Close` of the bond has returned, every path that was ever listed has
      been closed and cleaned up;
    * when the run of a server's group has ended, which is what the manager's
      `Wait` waits for, the slot of every connection that joined it is given back;
    * when a `Close` of a generation's bond has returned, every path that joined is
      closed and the cleanup of its allocation was run. -/
theorem close_completes_disposal (arch : Arch) (cfg : VkTurnServer.Config)
    (limiter : VkTurnLimiter.ConnectionLimiter) (gen : VkTurnSetup.Config) :
    (∀ b, CalmReach arch b → .returned .closed ∈ b.threads →
      ∀ p, .appended p ∈ b.shared.log → .connClosed p ∈ b.shared.log ∧
        (b.shared.hasCleanup p = true → .cleanedUp p ∈ b.shared.log)) ∧
    (∀ s, Reach (serverStep cfg) (fun s a => calmServer s a = true) (newServer limiter) s →
      ∀ (g : GroupRef) (grp : Group), s.shared.objs[g]? = some grp →
        .runEnded g ∈ s.threads →
        ∀ p c, .appended p ∈ grp.bond.shared.log → connOf grp.bond p = some c →
          Released s.shared c) ∧
    (∀ s, Reach (setupStep gen) (fun s a => calmSetup s a = true) newGeneration s →
      .returned .closed ∈ s.shared.bond.threads →
      ∀ p, .appended p ∈ s.shared.bond.shared.log →
        .connClosed p ∈ s.shared.bond.shared.log ∧
        .cleanedUp p ∈ s.shared.bond.shared.log) := by
  refine ⟨?_, ?_, ?_⟩
  · intro b h hret p hp
    have hd := swept_disposed h (finished_of_returned h.any hret) p hp
    exact ⟨hd.closed, hd.cleaned⟩
  · intro s h g grp hg hend p c hp hc
    exact ended_released h hg hend hp hc
  · intro s h hret p hp
    have hcalm := generation_calm h
    have hd := swept_disposed hcalm (finished_of_returned hcalm.any hret) p hp
    refine ⟨hd.closed, hd.cleaned ?_⟩
    have hlt := (arrived hcalm.any hp).1
    rw [Shared.hasCleanup, List.getElem?_eq_getElem hlt]
    exact heap_cleanups h _ (List.getElem_mem hlt)

/-- The only path of a generation joins, its session cannot be made, and the bond
    is closed. -/
def joinThenGiveUp : List (Act VkTurnSetup.Choice VkTurnSetup.Op) := List.flatten
  [VkTurnDowngrade.startWait,
    [.run 1 .go, .run 1 .go, .run 1 (.dial .conn), .run 1 .go,
      .run 1 (.write VkTurnBondHello.wholeWrite),
      .run 1 (.read (VkTurnBondHello.wholeRead VkTurnBondHello.bondHelloV2Ack)),
      .run 1 .go, .run 1 .go],
    List.replicate 4 (.env (.bond (.run 0 .go))),
    [.run 0 (.wake .state), .run 0 .go, .run 0 .fail, .run 0 .go, .run 0 .go],
    List.replicate 14 (.env (.bond (.run 2 .go)))]

/-- Swept paths are closed and cleaned up, in a bond, a server and a generation. -/
theorem swept_paths_disposed :
    (∃ b, CalmReach .bits64 b ∧ .connClosed 0 ∈ b.shared.log ∧
      .cleanedUp 0 ∈ b.shared.log) ∧
    (∃ s, Reach (serverStep bondConfig) (fun s a => calmServer s a = true)
      (newServer fourConnections) s ∧ .runEnded 0 ∈ s.threads ∧ Released s.shared 0) ∧
    (∃ s, Reach (setupStep (VkTurnDowngrade.v2Paths 1)) (fun s a => calmSetup s a = true)
      newGeneration s ∧ .cleanedUp 0 ∈ s.shared.bond.shared.log) := by
  obtain ⟨hbond, hserver, hclient⟩ := close_completes_disposal .bits64 bondConfig
    fourConnections (VkTurnDowngrade.v2Paths 1)
  refine ⟨?_, ?_, ?_⟩
  · obtain ⟨b, hr, hp⟩ := Reach.of_follow (bondStep .bits64)
      (fun b a => calmEnd b a = true) newBond joinThenClose
      (fun b : Bond => decide (b.shared.heap = [⟨7, true⟩] ∧
        .returned .closed ∈ b.threads ∧ .appended 0 ∈ b.shared.log)) (by decide)
    obtain ⟨hheap, hret, happ⟩ := of_decide_eq_true hp
    obtain ⟨hclosed, hcleaned⟩ := hbond b hr hret 0 happ
    refine ⟨b, hr, hclosed, hcleaned ?_⟩
    rw [Shared.hasCleanup, hheap]
    rfl
  · obtain ⟨s, hr, hp⟩ := Reach.of_follow (serverStep bondConfig)
      (fun s a => calmServer s a = true) (newServer fourConnections)
      (List.flatten [joinThenSweep, [.run 1 .go, .run 1 .go]])
      (fun s : ServerPool => decide (.runEnded 0 ∈ s.threads) &&
        (s.shared.objs[0]?).any fun grp : Group =>
          decide (.appended 0 ∈ grp.bond.shared.log ∧ connOf grp.bond 0 = some 0)) (by decide)
    obtain ⟨hend, hgrp⟩ := Bool.and_eq_true_iff.mp hp
    obtain ⟨grp, hg, hpath⟩ := Option.any_eq_true _ _ |>.mp hgrp
    obtain ⟨happ, hconn⟩ := of_decide_eq_true hpath
    exact ⟨s, hr, of_decide_eq_true hend,
      hserver s hr 0 grp hg (of_decide_eq_true hend) 0 0 happ hconn⟩
  · obtain ⟨s, hr, hp⟩ := Reach.of_follow (setupStep (VkTurnDowngrade.v2Paths 1))
      (fun s a => calmSetup s a = true) newGeneration joinThenGiveUp
      (fun s : SetupPool => decide (.returned .closed ∈ s.shared.bond.threads ∧
        .appended 0 ∈ s.shared.bond.shared.log)) (by decide)
    obtain ⟨hret, happ⟩ := of_decide_eq_true hp
    exact ⟨s, hr, (hclient s hr hret 0 happ).2⟩

/-- A path joins, its reader unlinks it, and before the reader goes on the group's
    run closes the bond and ends. -/
def unlinkThenClose : List (Act VkTurnServer.Choice VkTurnServer.Op) := List.flatten
  [enterBond 0 (helloRecord "1"), joinBond 0 0,
    List.replicate 2 (.env (.bond 0 (.run 1 .go))), [.run 1 .fail, .run 1 .go],
    List.replicate 6 (.env (.bond 0 (.run 2 .go))), [.run 1 .go, .run 1 .go]]

/-- **A CLOSED BOND CAN HOLD A PATH**: the bond's `Close` has returned and the
    group's run is over, and a path that had joined is neither closed nor cleaned
    up, so its slot is still taken. -/
theorem closed_bond_holds_path :
    ∃ (s : ServerPool) (grp : Group), ServerReach bondConfig fourConnections s ∧
      s.shared.objs[0]? = some grp ∧ BondReach bondConfig.arch grp.bond ∧
      .returned .closed ∈ grp.bond.threads ∧ .appended 0 ∈ grp.bond.shared.log ∧
      .connClosed 0 ∉ grp.bond.shared.log ∧ .cleanedUp 0 ∉ grp.bond.shared.log ∧
      connOf grp.bond 0 = some 0 ∧ .runEnded 0 ∈ s.threads ∧
      s.shared.leases.map (·.released) = [false] := by
  obtain ⟨s, hr, hp⟩ := Reach.of_follow (serverStep bondConfig) anyStep
    (newServer fourConnections) unlinkThenClose
    (fun s : ServerPool => decide (.runEnded 0 ∈ s.threads ∧
        s.shared.leases.map (·.released) = [false]) &&
      (s.shared.objs[0]?).any fun grp : Group =>
        decide (.returned .closed ∈ grp.bond.threads ∧ .appended 0 ∈ grp.bond.shared.log ∧
          .connClosed 0 ∉ grp.bond.shared.log ∧ .cleanedUp 0 ∉ grp.bond.shared.log ∧
          connOf grp.bond 0 = some 0)) (by decide)
  obtain ⟨hserver, hgrp⟩ := Bool.and_eq_true_iff.mp hp
  obtain ⟨hend, hheld⟩ := of_decide_eq_true hserver
  obtain ⟨grp, hg, hbond⟩ := Option.any_eq_true _ _ |>.mp hgrp
  obtain ⟨hret, happ, hopen, hdirty, hconn⟩ := of_decide_eq_true hbond
  exact ⟨s, grp, hr, hg, VkTurnHandover.bonds_reached hr 0 grp hg, hret, happ, hopen,
    hdirty, hconn, hend, hheld⟩

end VkTurnShutdown
