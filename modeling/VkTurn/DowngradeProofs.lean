import VkTurn.BondSetupProofs

/-! # Rejections and the downgrade to V1

    A client in auto mode downgrades to V1 when `waitForFirstBondPath` returns
    `errVLESSBondV2Unavailable`; an explicit rejection by the server is not to
    be hidden that way.  The waiter returns a rejection when it RECEIVES it.
    Between the report and its receipt the rejection is in the channel, and the
    two places that return `errVLESSBondV2Unavailable` do not look there; and a
    full channel drops it.

    `heeded` says of one step that neither happens, and `Pending` is what a run
    of such steps keeps: a rejection that was reported is still in the channel,
    or the wait is over. -/

namespace VkTurnDowngrade

open ThreadPool VkTurnStripe VkTurnBond VkTurnBondHello VkTurnSetup GoText

/-- The event is an explicit rejection. -/
def rejects (event : SetupEvent) : Bool := event.err.isRejection

/-- A wait that ended with `errVLESSBondV2Unavailable` ended before any rejection
    was reported. -/
def NoDowngrade (s : SetupPool) : Prop :=
  ∀ ended err, s.shared.waited = some ended → ended.err = some err →
    err.unavailable = true → ∀ event ∈ ended.reports, rejects event = false

/-- In this step no rejection is dropped, and `errVLESSBondV2Unavailable` is not
    returned over one in the channel. -/
def heeded (cfg : VkTurnSetup.Config) (s : SetupPool) :
    Act VkTurnSetup.Choice VkTurnSetup.Op → Bool
  | .run i _ =>
      match s.threads[i]? with
      | some (.report _ err) =>
          !err.isRejection || decide (s.shared.events.length < cfg.numSessions)
      | some (.deadline _) =>
          decide (0 < s.shared.count) || s.shared.events.all (! rejects ·)
      | some (.failed _) =>
          decide (0 < s.shared.count) || s.shared.events.all (! rejects ·)
      | _ => true
  | .env _ => true

/-- Until the wait is over, every rejection reported is in the channel. -/
structure Pending (σ : Setup) : Prop where
  queued : σ.waited = none → ∀ event ∈ σ.reports, rejects event = true → event ∈ σ.events
  heard : ∀ ended err, σ.waited = some ended → ended.err = some err →
    err.unavailable = true → ∀ event ∈ ended.reports, rejects event = false

/-- Where the wait, the channel and the reports are left alone, so is this. -/
theorem pending_frame {σ σ' : Setup} (h : Pending σ) (hw : σ'.waited = σ.waited)
    (he : σ'.events = σ.events) (hr : σ'.reports = σ.reports) : Pending σ' :=
  ⟨by rw [hw, he, hr]; exact h.queued, by rw [hw]; exact h.heard⟩

/-- Returning anything but `errVLESSBondV2Unavailable` is safe. -/
theorem pending_return {σ : Setup} {w : Waiting} {err : Option WaitError}
    (h : err.any WaitError.unavailable = false) : Pending (σ.return w err) := by
  refine ⟨fun hw => (by cases hw), ?_⟩
  rintro ended e hw he hun
  obtain rfl : WaitEnd.mk err σ.reports w.wokeClosed = ended := Option.some.inj hw
  obtain rfl : err = some e := he
  cases h.symm.trans hun

/-- So is returning it while the channel has no rejection. -/
theorem pending_unavailable {σ : Setup} {w : Waiting} {err : Option WaitError}
    (h : Pending σ) (hw : σ.waited = none)
    (hclear : ∀ event ∈ σ.events, rejects event = false) : Pending (σ.return w err) := by
  refine ⟨fun hw' => (by cases hw'), ?_⟩
  rintro ended e hw' - - event hevent
  obtain rfl : WaitEnd.mk err σ.reports w.wokeClosed = ended := Option.some.inj hw'
  cases hrej : rejects event with
  | false => rfl
  | true => exact (hclear event (h.queued hw event hevent hrej)).symm.trans hrej |>.symm

/-- Receiving a plain failure takes no rejection out of the channel. -/
theorem pending_receive {σ : Setup} {event : SetupEvent} {rest : List SetupEvent}
    (h : Pending σ) (hq : σ.events = event :: rest) (hplain : rejects event = false)
    (fallback : Fallback) :
    Pending { σ with events := rest, fallback := fallback } := by
  refine ⟨?_, h.heard⟩
  intro hw ev hev hrej
  have hmem := h.queued hw ev hev hrej
  rw [hq] at hmem
  rcases List.mem_cons.mp hmem with rfl | hrest
  · cases hplain.symm.trans hrej
  · exact hrest

/-- A rejection that finds room is in the channel. -/
theorem pending_report {cfg : VkTurnSetup.Config} {σ : Setup} {event : SetupEvent}
    (h : Pending σ)
    (hroom : rejects event = true → σ.events.length < cfg.numSessions) :
    Pending (σ.report cfg event) := by
  refine ⟨?_, h.heard⟩
  intro hw ev hev hrej
  have hold : ev ∈ σ.events → ev ∈ (σ.report cfg event).events := by
    intro hin
    show ev ∈ if _ then _ else _
    split
    · exact List.mem_append_left _ hin
    · exact hin
  rcases List.mem_append.mp hev with hin | hnew
  · exact hold (h.queued hw ev hin hrej)
  · obtain rfl := List.mem_singleton.mp hnew
    show ev ∈ if _ then _ else _
    rw [if_pos (hroom hrej)]
    exact List.mem_append_right _ (List.mem_singleton_self _)

section Reached

variable {cfg : VkTurnSetup.Config} {s : SetupPool}

theorem heeded_clear {i : Nat} {a : VkTurnSetup.Choice} {t : VkTurnSetup.Pc}
    (h : heeded cfg s (.run i a) = true) (ht : s.threads[i]? = some t)
    (hpc : (∃ w, t = .deadline w) ∨ ∃ w, t = .failed w) (hz : s.shared.count = 0) :
    ∀ event ∈ s.shared.events, rejects event = false := by
  have hall : s.shared.events.all (! rejects ·) = true := by
    rcases hpc with ⟨w, rfl⟩ | ⟨w, rfl⟩
    · simpa [heeded, ht, hz] using h
    · simpa [heeded, ht, hz] using h
  intro event hevent
  have := List.all_eq_true.mp hall event hevent
  simpa using this

/-- **PENDING**: throughout a run of heeded steps a rejection that was reported is
    in the channel, or the wait is over. -/
theorem pending (h : Reach (setupStep cfg) (fun s a => heeded cfg s a = true)
    newGeneration s) : Pending s.shared := by
  refine Reach.invariant (I := fun s => Pending s.shared) ?_ ?_ h
  · exact ⟨fun _ _ hev => (by cases hev), fun _ _ hw => (by cases hw)⟩
  intro s a s' hreach hI hok hs
  cases a with
  | run i a =>
      obtain ⟨t, σ', t', new, ht, he, rfl⟩ := Machine.step_run hs
      have hwait := still_waiting hreach i t ht
      have hclear := heeded_clear hok ht
      have hm := VkTurnSetup.exec_moves he
      cases hm with
      | notPositive _ | sawPath w _ | wokeCtx w _ | wokeRejected w event rest _ _ =>
          exact pending_return rfl
      | wokeV1 w event rest hq hplain _ | wokeLast w event rest hq hplain _ _
      | wokeFailed w event rest hq hplain _ _ => exact pending_receive hI hq hplain _
      | deadlineOver w hz =>
          exact pending_unavailable hI (hwait rfl) (hclear (Or.inl ⟨w, rfl⟩) hz)
      | failedOver w hz =>
          exact pending_unavailable hI (hwait rfl) (hclear (Or.inr ⟨w, rfl⟩) hz)
      | reported id err =>
          refine pending_report hI ?_
          intro hrej
          have hrej' : err.isRejection = true := hrej
          simpa [heeded, ht, hrej'] using hok
      | _ => exact pending_frame hI rfl rfl rfl
  | env e =>
      obtain ⟨σ', new, he, rfl⟩ := Machine.step_env hs
      obtain ⟨hh, -⟩ := VkTurnSetup.outside_happens he
      obtain ⟨hw, hev, hrep⟩ := hh.frame
      exact pending_frame hI hw hev hrep

end Reached

/-- **NO DOWNGRADE OVER A REJECTION**: in every run in which no rejection is
    dropped by the full channel and `errVLESSBondV2Unavailable` is not returned
    over a rejection in the channel, it is returned only if no rejection was
    reported. -/
theorem unavailable_means_unrejected (cfg : VkTurnSetup.Config) (s : SetupPool)
    (h : Reach (setupStep cfg) (fun s a => heeded cfg s a = true) newGeneration s) :
    NoDowngrade s :=
  (pending h).heard

/-! ## Runs -/

/-- A V2 generation of so many paths. -/
def v2Paths (n : Nat) : VkTurnSetup.Config where
  arch := .bits64
  tuning := { kcpMtu := 1200, kcpDataShards := 0, kcpParityShards := 0 }
  bondID := ascii "0123456789abcdef"
  protocol := bondProtocolV2
  numSessions := n
  appCancel := true

/-- The creator comes to its `select`. -/
def startWait : List (Act VkTurnSetup.Choice VkTurnSetup.Op) :=
  [.run 0 .go, .run 0 .go, .run 0 .go]

/-- Maintainer `i` dials, sends its hello, reads `record` and reports. -/
def failPath (i : Nat) (record : Bytes) :
    List (Act VkTurnSetup.Choice VkTurnSetup.Op) :=
  [.run i .go, .run i .go, .run i (.dial .conn), .run i .go,
    .run i (.write wholeWrite), .run i (.read (wholeRead record)), .run i .go]

/-- The waiter receives a report and comes back to its `select`. -/
def receive : List (Act VkTurnSetup.Choice VkTurnSetup.Op) :=
  [.run 0 (.wake .event), .run 0 .go]

/-- Both paths of a bond fail plainly: the wait ends with
    `errVLESSBondV2Unavailable`, and no rejection was reported. -/
theorem unavailable_after_two_failures :
    ∃ s ended, Reach (setupStep (v2Paths 2)) (fun s a => heeded (v2Paths 2) s a = true)
      newGeneration s ∧ s.shared.waited = some ended ∧
      (ended.err.any WaitError.unavailable) = true ∧
      ∀ event ∈ ended.reports, rejects event = false := by
  obtain ⟨s, hr, hp⟩ := Reach.of_follow (setupStep (v2Paths 2))
    (fun s a => heeded (v2Paths 2) s a = true) newGeneration
    (startWait ++ failPath 1 (ascii "?\n") ++ receive ++ failPath 2 (ascii "?\n")
      ++ receive)
    (fun s : SetupPool => s.shared.waited.any fun ended =>
      ended.err.any WaitError.unavailable) (by decide)
  obtain ⟨ended, hw, hun⟩ := Option.any_eq_true _ _ |>.mp hp
  obtain ⟨err, herr, hunav⟩ := Option.any_eq_true _ _ |>.mp hun
  exact ⟨s, ended, hr, hw, hun,
    unavailable_means_unrejected (v2Paths 2) s hr ended err hw herr hunav⟩

/-- **A REJECTION CAN BE HIDDEN**: one path has failed plainly and the fallback
    timer runs; the other reports a rejection; the timer fires, and of the two
    ready cases the `select` takes the deadline. -/
theorem rejection_downgraded :
    ¬ ∀ s, Reach (setupStep (v2Paths 2)) anyStep newGeneration s → NoDowngrade s := by
  intro hall
  obtain ⟨s, hr, hp⟩ := Reach.of_follow (setupStep (v2Paths 2)) anyStep newGeneration
    (List.flatten [startWait, failPath 1 (ascii "?\n"), receive,
      failPath 2 (ascii "VKTURNBOND/2 ERR PROFILE_MISMATCH\n"),
      [.env .fire, .run 0 (.wake .deadline), .run 0 .go]])
    (fun s : SetupPool => s.shared.waited.any fun ended =>
      ended.err.any WaitError.unavailable && ended.reports.any rejects) (by decide)
  obtain ⟨ended, hw, hboth⟩ := Option.any_eq_true _ _ |>.mp hp
  obtain ⟨hun, hrej⟩ := Bool.and_eq_true_iff.mp hboth
  obtain ⟨err, herr, hunav⟩ := Option.any_eq_true _ _ |>.mp hun
  obtain ⟨event, hevent, hyes⟩ := List.any_eq_true.mp hrej
  cases (hall s hr ended err hw herr hunav event hevent).symm.trans hyes

end VkTurnDowngrade
