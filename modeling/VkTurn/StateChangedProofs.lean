import VkTurn.BondProofs

/-! # Waking up a consumer of `StateChanged`

    The bond tells one consumer that its list of paths has changed, through a channel with
    one slot: a notification is sent outside the mutex and dropped when the slot is
    full.  The consumer reads `Count`, waits for a notification, and reads `Count` again;
    other cases of its `select` may send it back to `Count` as well.

    What keeps a change from being lost is a DEBT: a call that has changed the list
    owes a notification until it has sent it (`Pc.owes`).  A consumer that has read a
    number that is no longer true has a notification waiting for it, or somebody owes
    it one (`Informed`); both survive every step of the others. -/

namespace VkTurnStateChanged

open ThreadPool VkTurnStripe VkTurnBond

/-! ## A bond with its consumer -/

/-- The consumer: about to call `Count`, or waiting with the number it has read. -/
inductive Consumer where
  | counting
  | waiting (count : Nat)
  deriving DecidableEq, Repr

/-- A bond and its consumer. -/
structure Watched where
  bond : Bond
  consumer : Consumer := .counting

/-- A step of the bond, `Count` of the consumer, a notification received, or another case
    of the consumer's `select`. -/
inductive WatchAct where
  | bond (a : Act Choice Op)
  | count
  | receive
  | other
  deriving DecidableEq

/-- One step.  Nobody but the consumer receives notifications, and `Count` needs the
    mutex free. -/
def watchStep (arch : Arch) (w : Watched) : WatchAct → Option Watched
  | .bond (.env .recvState) => none
  | .bond a =>
      match bondStep arch w.bond a with
      | some b => some { w with bond := b }
      | none => none
  | .count =>
      match w.consumer with
      | .counting =>
          if w.bond.shared.mu = none then
            some { w with consumer := .waiting w.bond.shared.bond.count }
          else none
      | .waiting _ => none
  | .receive =>
      match w.consumer with
      | .waiting _ =>
          match bondStep arch w.bond (.env .recvState) with
          | some b => some { bond := b, consumer := .counting }
          | none => none
      | .counting => none
  | .other =>
      match w.consumer with
      | .waiting _ => some { w with consumer := .counting }
      | .counting => none

/-- Every state of a bond and its consumer, under every interleaving. -/
abbrev WatchReach (arch : Arch) : Watched → Prop :=
  Reach (watchStep arch) anyStep { bond := newBond }

/-- The calls between their change of the list and their notification: `AddConn`, and
    `removePath` for whomever it runs, `Close` included. -/
def owes : Pc → Bool
  | .addNotify _ => true
  | .rmCount _ _ => true
  | .rmNotify _ _ => true
  | .graceLock (.removed _ _) => true
  | .graceArm (.removed _ _) => true
  | _ => false

/-! ## What a step does -/

/-- A step of the bond that is not a notification received. -/
inductive WatchMoves (arch : Arch) (w : Watched) : Watched → Prop where
  | bond {a : Act Choice Op} {b : Bond} : a ≠ .env .recvState → bondStep arch w.bond a = some b →
      WatchMoves arch w { w with bond := b }
  | counted : w.consumer = .counting → w.bond.shared.mu = none →
      WatchMoves arch w { w with consumer := .waiting w.bond.shared.bond.count }
  | received {n : Nat} {b : Bond} : w.consumer = .waiting n →
      bondStep arch w.bond (.env .recvState) = some b →
      WatchMoves arch w { bond := b, consumer := .counting }
  | other {n : Nat} : w.consumer = .waiting n →
      WatchMoves arch w { w with consumer := .counting }

theorem watchStep_moves {arch : Arch} {w w' : Watched} {a : WatchAct}
    (h : watchStep arch w a = some w') : WatchMoves arch w w' := by
  unfold watchStep at h
  split at h
  · cases h
  · rename_i a hne
    split at h
    · cases h
      exact WatchMoves.bond hne ‹_›
    · cases h
  · split at h
    · split at h
      · cases h
        exact WatchMoves.counted ‹_› ‹_›
      · cases h
    · cases h
  · split at h
    · split at h
      · cases h
        exact WatchMoves.received ‹_› ‹_›
      · cases h
    · cases h
  · split at h
    · cases h
      exact WatchMoves.other ‹_›
    · cases h

/-- **EVERY RUN IS A RUN OF THE BOND**, the consumer being one that empties its slot. -/
theorem reach_bond {arch : Arch} {w : Watched} (h : WatchReach arch w) : BondReach arch w.bond := by
  refine @Reach.simulates _ _ _ _ _ _ _ (bondStep arch) anyStep Watched.bond ?_ _ h
  intro w a w' _ _ hs
  cases watchStep_moves hs with
  | bond _ hb => exact Or.inr ⟨_, trivial, hb⟩
  | counted _ _ => exact Or.inl rfl
  | received _ hb => exact Or.inr ⟨_, trivial, hb⟩
  | other _ => exact Or.inl rfl

section Steps

variable {arch : Arch} {i : Nat} {σ σ' : Shared} {t t' : Pc} {new : List Pc}

/-- **DEBTS**: a section leaves its thread owing a notification, or the slot full, or it
    has changed neither the list nor the slot and had nothing to pay. -/
theorem moves_owes (h : Moves arch i σ t σ' t' new) :
    owes t' = true ∨ σ'.bond.stateCh = true ∨
      (σ'.bond.paths = σ.bond.paths ∧ σ'.bond.stateCh = σ.bond.stateCh ∧ owes t = false) := by
  cases h with
  | addAppended p _ => exact Or.inl rfl
  | unlinked p k _ _ => exact Or.inl rfl
  | countedEmpty p k _ _ => exact Or.inl rfl
  | countedSome p k _ _ => exact Or.inl rfl
  | addNotified p | rmNotified p k | clNotified => exact Or.inr (Or.inl rfl)
  | graceSkipped g _ _ =>
      cases g with
      | removed p k => exact Or.inl rfl
      | writeEmpty n => exact Or.inr (Or.inr ⟨rfl, rfl, rfl⟩)
      | writeEnd n => exact Or.inr (Or.inr ⟨rfl, rfl, rfl⟩)
  | graceLocked g _ _ _ =>
      cases g with
      | removed p k => exact Or.inl rfl
      | writeEmpty n => exact Or.inr (Or.inr ⟨rfl, rfl, rfl⟩)
      | writeEnd n => exact Or.inr (Or.inr ⟨rfl, rfl, rfl⟩)
  | graceArmed g =>
      cases g with
      | removed p k => exact Or.inl rfl
      | writeEmpty n => exact Or.inr (Or.inr ⟨rfl, rfl, rfl⟩)
      | writeEnd n => exact Or.inr (Or.inr ⟨rfl, rfl, rfl⟩)
  | _ => exact Or.inr (Or.inr ⟨rfl, rfl, rfl⟩)

/-- The outside world changes neither the list nor, without a receipt, the slot. -/
theorem outside_stateCh {e : Op} (h : outside σ e = some (σ', new)) (he : e ≠ .recvState) :
    σ'.bond.paths = σ.bond.paths ∧ σ'.bond.stateCh = σ.bond.stateCh := by
  refine ⟨(outside_frame h).paths, ?_⟩
  cases outside_moves h with
  | received _ => exact absurd rfl he
  | _ => rfl

end Steps

/-! ## The invariant -/

/-- Who has read this number knows how many paths there are, or will hear of it: a
    notification waits, or a call owes one. -/
def Informed (b : Bond) (n : Nat) : Prop :=
  n = b.shared.bond.count ∨ b.shared.bond.stateCh = true ∨
    ∃ (i : Nat) (t : Pc), b.threads[i]? = some t ∧ owes t = true

/-- **NO STEP OF THE BOND LOSES A CHANGE** -/
theorem Informed.step {arch : Arch} {b b' : Bond} {a : Act Choice Op} {n : Nat}
    (hI : Informed b n) (ha : a ≠ .env .recvState) (h : bondStep arch b a = some b') :
    Informed b' n := by
  cases a with
  | run i a =>
      obtain ⟨t, σ', t', new, ht, he, rfl⟩ := Machine.step_run h
      rcases moves_owes (exec_moves he) with howes | hfull | ⟨hpaths, hslot, hpaid⟩
      · exact Or.inr (Or.inr ⟨i, t', getElem?_mover t' new ht, howes⟩)
      · exact Or.inr (Or.inl hfull)
      · rcases hI with hcount | hfull | ⟨j, u, hu, howes⟩
        · refine Or.inl ?_
          rw [hcount, BondedPacketConn.count, BondedPacketConn.count]
          exact congrArg List.length hpaths.symm
        · exact Or.inr (Or.inl (hslot.trans hfull))
        · -- another call owes it, and has not moved
          have hji : i ≠ j := by
            rintro rfl
            rw [ht] at hu
            obtain rfl := Option.some.inj hu
            rw [hpaid] at howes
            cases howes
          exact Or.inr (Or.inr ⟨j, u, getElem?_bystander t' new hji hu, howes⟩)
  | env e =>
      obtain ⟨σ', new, he, rfl⟩ := Machine.step_env h
      obtain ⟨hpaths, hslot⟩ := outside_stateCh he fun heq => ha (congrArg Act.env heq)
      rcases hI with hcount | hfull | ⟨j, u, hu, howes⟩
      · refine Or.inl ?_
        rw [hcount, BondedPacketConn.count, BondedPacketConn.count]
        exact congrArg List.length hpaths.symm
      · exact Or.inr (Or.inl (hslot.trans hfull))
      · have hjlt : j < b.threads.length := (List.getElem?_eq_some_iff.mp hu).1
        exact Or.inr (Or.inr ⟨j, u, (List.getElem?_append_left hjlt).trans hu, howes⟩)

/-- A consumer that waits is informed. -/
theorem informed {arch : Arch} {w : Watched} (h : WatchReach arch w) {n : Nat}
    (hw : w.consumer = .waiting n) : Informed w.bond n := by
  have hall : ∀ n, w.consumer = .waiting n → Informed w.bond n := by
    refine Reach.invariant
      (I := fun w : Watched => ∀ n, w.consumer = .waiting n → Informed w.bond n) ?_ ?_ h
    · intro n hn
      cases hn
    · intro w a w' _ hI _ hs n hn
      cases watchStep_moves hs with
      | bond hne hb => exact (hI n hn).step hne hb
      | counted _ _ => exact Or.inl (Consumer.waiting.inj hn).symm
      | received _ _ => cases hn
      | other _ => cases hn
  exact hall n hw

/-- **NO LOST WAKE-UP**: in every state of a bond and its consumer, under every
    interleaving: if the consumer waits on `StateChanged`, the channel is empty and no call
    is between its change of the list and its notification, then the number the consumer
    last read is the number of paths. -/
theorem no_lost_wakeup {arch : Arch} {w : Watched} (h : WatchReach arch w) {n : Nat}
    (hwait : w.consumer = .waiting n) (hempty : w.bond.shared.bond.stateCh = false)
    (hquiet : ∀ t ∈ w.bond.threads, owes t = false) :
    n = w.bond.shared.bond.paths.length := by
  rcases informed h hwait with hcount | hfull | ⟨i, t, ht, howes⟩
  · exact hcount
  · rw [hempty] at hfull
    cases hfull
  · rw [hquiet t (List.mem_of_getElem? ht)] at howes
    cases howes

/-- A path is added and one is removed while the consumer waits; the second notification
    finds the slot full and is dropped.  One wake-up later the consumer has read 1. -/
def droppedNotification : List WatchAct :=
  [.bond (.env (.addConn (some 1) false)), .bond (.run 0 .go), .bond (.run 0 .go),
    .bond (.run 0 .go), .bond (.run 0 .go), .count, .receive, .count,
    .bond (.env (.addConn (some 2) false)), .bond (.run 2 .go), .bond (.run 2 .go),
    .bond (.run 2 .go), .bond (.run 2 .go), .bond (.run 1 .go), .bond (.run 1 .go),
    .bond (.run 1 .go), .bond (.run 1 .go), .receive, .count]

/-- The consumer that has slept through two changes has read the right number. -/
theorem dropped_notification_harmless :
    ∃ w, WatchReach .bits64 w ∧ w.consumer = .waiting 1 ∧
      1 = w.bond.shared.bond.paths.length := by
  obtain ⟨w, hr, hw⟩ := Reach.of_follow (watchStep .bits64) anyStep { bond := newBond }
    droppedNotification (fun w => w.consumer == .waiting 1 && !w.bond.shared.bond.stateCh
      && w.bond.threads.all fun t => !owes t) (by decide)
  simp only [Bool.and_eq_true, beq_iff_eq, Bool.not_eq_true', List.all_eq_true] at hw
  exact ⟨w, hr, hw.1.1, no_lost_wakeup hr hw.1.1 hw.1.2 hw.2⟩

end VkTurnStateChanged
