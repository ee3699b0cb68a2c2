import VkTurn.ThreadPoolProofs

/-! # The slot between the supervisor and the accepting side

    `vlessBondSessionSlot` hands the current generation over.  Its waiters are woken by
    CLOSING a channel, and the channel is replaced in the same critical section, so
    a waiter that holds an open channel holds the slot's own: nothing has changed
    since it looked.

    The fields of the slot are read and written under its mutex only, so each critical
    section is one step.  `close` of a closed channel is a panic; that there is
    none is part of what is proved.  Which generations stand at a moment is said on the
    calls made so far (`Standing`), not on the slot. -/

namespace VkTurnSessionSlot

open ThreadPool

/-! ## State -/

/-- A pointer to a `vlessBondGeneration`, by order of receipt. -/
abbrev GenRef := Nat

/-- A channel, by order of creation. -/
abbrev ChanRef := Nat

/-- `vlessBondSessionSlot`. -/
structure SessionSlot where
  current : Option GenRef := none
  changed : ChanRef := 0
  deriving DecidableEq, Repr

/-- `notifyLocked`: the next channel takes the place of the one that is closed. -/
def SessionSlot.notifyLocked (s : SessionSlot) : SessionSlot := { s with changed := s.changed + 1 }

/-- `publish`. -/
def SessionSlot.publish (s : SessionSlot) (g : Option GenRef) : SessionSlot :=
  { s with current := g }.notifyLocked

/-- `clear`. -/
def SessionSlot.clear (s : SessionSlot) (g : Option GenRef) : SessionSlot :=
  if s.current = g then { s with current := none }.notifyLocked else s

theorem SessionSlot.clear_current (s : SessionSlot) (g : Option GenRef) :
    (s.clear g).current = if s.current = g then none else s.current := by
  rw [SessionSlot.clear]
  split <;> rfl

theorem SessionSlot.clear_hit {s : SessionSlot} {g : Option GenRef} (h : s.current = g) :
    s.clear g = { current := none, changed := s.changed + 1 } := if_pos h

/-- What happened to a slot: `publish` and `clear` were called, a call of `wait` or `get`
    (by its thread) has read, a channel was closed. -/
inductive Event where
  | published (g : Option GenRef)
  | cleared (g : Option GenRef)
  | read (i : Nat) (g : Option GenRef)
  | closed (c : ChanRef)
  deriving DecidableEq, Repr

/-- The slot and its channels, of which the flag says that they are closed, with a
    history of what happened. -/
structure Shared where
  slot : SessionSlot := {}
  chans : List Bool := [false]
  log : List Event := []
  deriving DecidableEq, Repr

/-- The channel is open. -/
def Shared.isOpen (σ : Shared) (c : ChanRef) : Bool := σ.chans[c]? == some false

def Shared.note (σ : Shared) (e : Event) : Shared := { σ with log := σ.log ++ [e] }

/-- The slot's channel is closed and a new one is made; the slot is `slot` now. -/
def Shared.renewed (σ : Shared) (slot : SessionSlot) : Shared :=
  { σ with slot := slot
           chans := σ.chans.set σ.slot.changed true ++ [false] }.note (.closed σ.slot.changed)

/-! ## Calls -/

/-- Where a call is.  A waiter that is blocked knows the channel it has read. -/
inductive Pc where
  | publish (g : Option GenRef)
  | clear (g : Option GenRef)
  | get
  | wait
  | blocked (changed : ChanRef)
  | returned (g : Option GenRef)
  | finished
  | panicked
  deriving DecidableEq, Repr

/-- `done`: the `select` of a waiter finds its context done. -/
inductive Choice where
  | go
  | done
  deriving DecidableEq, Repr

/-- A call from outside. -/
inductive Op where
  | publish (g : Option GenRef)
  | clear (g : Option GenRef)
  | get
  | wait
  deriving DecidableEq, Repr

/-- `publish` and a `clear` that hits: the slot becomes `slot`, and `close` of a channel that is
    closed panics. -/
def notified (σ : Shared) (slot : SessionSlot) : Shared × Pc × List Pc :=
  if σ.isOpen σ.slot.changed then (σ.renewed slot, .finished, [])
  else ({ σ with slot := { slot with changed := σ.slot.changed } }, .panicked, [])

/-- One section of thread `i`. -/
def exec (i : Nat) (σ : Shared) : Pc → Choice → Option (Shared × Pc × List Pc)
  | .publish g, .go => some (notified (σ.note (.published g)) (σ.slot.publish g))
  | .clear g, .go =>
      if σ.slot.current = g then some (notified (σ.note (.cleared g)) (σ.slot.clear g))
      else some (σ.note (.cleared g), .finished, [])
  | .get, .go => some (σ.note (.read i σ.slot.current), .returned σ.slot.current, [])
  | .wait, .go =>
      match σ.slot.current with
      | some g => some (σ.note (.read i (some g)), .returned (some g), [])
      | none => some (σ.note (.read i none), .blocked σ.slot.changed, [])
  | .blocked c, .go => if σ.isOpen c then none else some (σ, .wait, [])
  | .blocked _, .done => some (σ, .returned none, [])
  | _, _ => none

/-- A new call. -/
def outside (σ : Shared) : Op → Option (Shared × List Pc)
  | .publish g => some (σ, [.publish g])
  | .clear g => some (σ, [.clear g])
  | .get => some (σ, [.get])
  | .wait => some (σ, [.wait])

/-- The slot as a machine. -/
def slotMachine : Machine Shared Pc Choice Op where
  exec := exec
  env := outside

/-- A slot and the calls inside it. -/
abbrev SlotPool := Pool Shared Pc

/-- `newVLESSBondSessionSlot`. -/
def newSlot : SlotPool := ⟨{}, []⟩

def slotStep : SlotPool → Act Choice Op → Option SlotPool := slotMachine.step

/-- Every state of a slot, under every interleaving. -/
abbrev SlotReach : SlotPool → Prop := Reach slotStep anyStep newSlot

/-! ## What a section can do -/

/-- Sections, on a slot whose channel is open. -/
inductive Moves (i : Nat) (σ : Shared) : Pc → Shared → Pc → Prop where
  | published (g : Option GenRef) :
      Moves i σ (.publish g) ((σ.note (.published g)).renewed (σ.slot.publish g)) .finished
  | cleared (g : Option GenRef) : σ.slot.current = g →
      Moves i σ (.clear g) ((σ.note (.cleared g)).renewed (σ.slot.clear g)) .finished
  | stale (g : Option GenRef) : σ.slot.current ≠ g →
      Moves i σ (.clear g) (σ.note (.cleared g)) .finished
  | got : Moves i σ .get (σ.note (.read i σ.slot.current)) (.returned σ.slot.current)
  | found (g : GenRef) : σ.slot.current = some g →
      Moves i σ .wait (σ.note (.read i (some g))) (.returned (some g))
  | empty : σ.slot.current = none →
      Moves i σ .wait (σ.note (.read i none)) (.blocked σ.slot.changed)
  | woken (c : ChanRef) : σ.isOpen c = false → Moves i σ (.blocked c) σ .wait
  | gaveUp (c : ChanRef) : Moves i σ (.blocked c) σ (.returned none)

theorem notified_eq {σ : Shared} (h : σ.isOpen σ.slot.changed = true) (slot : SessionSlot) :
    notified σ slot = (σ.renewed slot, .finished, []) := if_pos h

theorem exec_moves {i : Nat} {σ σ' : Shared} {t t' : Pc} {a : Choice} {new : List Pc}
    (hopen : σ.isOpen σ.slot.changed = true) (h : exec i σ t a = some (σ', t', new)) :
    Moves i σ t σ' t' ∧ new = [] := by
  cases t with
  | publish g =>
      cases a with
      | done => cases h
      | go =>
          rw [exec, notified_eq (σ := σ.note (.published g)) hopen] at h
          cases h
          exact ⟨Moves.published g, rfl⟩
  | clear g =>
      cases a with
      | done => cases h
      | go =>
          simp only [exec] at h
          split at h
          · rw [notified_eq (σ := σ.note (.cleared g)) hopen] at h
            cases h
            exact ⟨Moves.cleared g ‹_›, rfl⟩
          · cases h
            exact ⟨Moves.stale g ‹_›, rfl⟩
  | get =>
      cases a with
      | done => cases h
      | go =>
          cases h
          exact ⟨Moves.got, rfl⟩
  | wait =>
      cases a with
      | done => cases h
      | go =>
          simp only [exec] at h
          split at h
          · cases h
            exact ⟨Moves.found _ ‹_›, rfl⟩
          · cases h
            exact ⟨Moves.empty ‹_›, rfl⟩
  | blocked c =>
      cases a with
      | go =>
          simp only [exec] at h
          split at h
          · cases h
          · cases h
            exact ⟨Moves.woken c (Bool.eq_false_of_not_eq_true ‹_›), rfl⟩
      | done =>
          cases h
          exact ⟨Moves.gaveUp c, rfl⟩
  | returned g => cases a <;> cases h
  | finished => cases a <;> cases h
  | panicked => cases a <;> cases h

/-! ## The channels -/

/-- The channels that were closed, in order. -/
def closes : List Event → List ChanRef
  | [] => []
  | .closed c :: rest => c :: closes rest
  | _ :: rest => closes rest

theorem closes_append (l m : List Event) : closes (l ++ m) = closes l ++ closes m := by
  induction l with
  | nil => rfl
  | cons e l ih => cases e <;> simp only [List.cons_append, closes, ih]

/-- Exactly the slot's own channel, which is the last one, is open, and the others were closed
    once each. -/
structure ChannelsSound (σ : Shared) : Prop where
  last : σ.slot.changed + 1 = σ.chans.length
  own : ∀ c, σ.chans[c]? = some false ↔ c = σ.slot.changed
  closed : ∀ c ∈ closes σ.log, σ.chans[c]? = some true
  once : (closes σ.log).Nodup

theorem ChannelsSound.isOpen {σ : Shared} (h : ChannelsSound σ) :
    σ.isOpen σ.slot.changed = true := by
  rw [Shared.isOpen, (h.own _).mpr rfl]
  rfl

/-- A section that leaves slot and channels alone and closes nothing. -/
theorem ChannelsSound.note {σ : Shared} {e : Event} (h : ChannelsSound σ) (he : closes [e] = []) :
    ChannelsSound (σ.note e) := by
  have hlog : closes (σ.log ++ [e]) = closes σ.log := by
    rw [closes_append, he, List.append_nil]
  exact ⟨h.last, h.own, hlog ▸ h.closed, hlog ▸ h.once⟩

/-- Closing the slot's channel and putting a new one in its place. -/
theorem ChannelsSound.renewed {σ : Shared} (h : ChannelsSound σ) {slot : SessionSlot}
    (hnext : slot.changed = σ.slot.changed + 1) : ChannelsSound (σ.renewed slot) := by
  have hopen := (h.own σ.slot.changed).mpr rfl
  have hlt : σ.slot.changed < σ.chans.length := (List.getElem?_eq_some_iff.mp hopen).1
  have hset : ∀ c, (σ.chans.set σ.slot.changed true)[c]?
      = if c = σ.slot.changed then some true else σ.chans[c]? := by
    intro c
    rw [List.getElem?_set]
    by_cases hc : σ.slot.changed = c
    · rw [if_pos hc, if_pos hlt, if_pos hc.symm]
    · rw [if_neg hc, if_neg fun he => hc he.symm]
  have hlog : closes (σ.renewed slot).log = closes σ.log ++ [σ.slot.changed] := closes_append ..
  have hnew : σ.slot.changed ∉ closes σ.log := by
    intro hmem
    have := h.closed _ hmem
    rw [hopen] at this
    cases this
  refine ⟨?_, ?_, ?_, ?_⟩
  · show slot.changed + 1 = (σ.chans.set σ.slot.changed true ++ [false]).length
    rw [hnext, h.last, List.length_append, List.length_set]
    rfl
  · intro c
    show (σ.chans.set σ.slot.changed true ++ [false])[c]? = some false ↔ c = slot.changed
    rw [hnext, h.last, getElem?_snoc, List.length_set, hset]
    by_cases hc : c = σ.chans.length
    · rw [if_pos hc]
      exact ⟨fun _ => hc, fun _ => rfl⟩
    · rw [if_neg hc]
      by_cases hown : c = σ.slot.changed
      · rw [if_pos hown]
        exact ⟨fun e => (by cases e), fun e => absurd e hc⟩
      · rw [if_neg hown, h.own]
        exact ⟨fun e => absurd e hown, fun e => absurd e hc⟩
  · intro c hc
    show (σ.chans.set σ.slot.changed true ++ [false])[c]? = some true
    rw [hlog] at hc
    rcases List.mem_append.mp hc with hc | hc
    · exact getElem?_snoc_old (by
        rw [hset]
        split
        · rfl
        · exact h.closed c hc)
    · rw [List.mem_singleton.mp hc]
      exact getElem?_snoc_old (by rw [hset, if_pos rfl])
  · rw [hlog]
    exact List.nodup_append_comm.mp (List.nodup_cons.mpr ⟨hnew, h.once⟩)

/-- No channel that is closed opens again. -/
theorem renewed_closed {σ : Shared} (h : ChannelsSound σ) {slot : SessionSlot}
    (hnext : slot.changed = σ.slot.changed + 1) {c : ChanRef} (hc : c < σ.chans.length) :
    (σ.renewed slot).isOpen c = false := by
  have hne : ¬ c = (σ.renewed slot).slot.changed := by
    show ¬ c = slot.changed
    rw [hnext, h.last]
    exact Nat.ne_of_lt hc
  exact beq_eq_false_iff_ne.mpr (((h.renewed hnext).own c).not.mpr hne)

/-! ## What stands -/

/-- The event is a call of `publish`. -/
def Event.isPublish : Event → Bool
  | .published _ => true
  | _ => false

/-- The generation has been published, and since then nothing was published and it was
    not cleared. -/
def Standing (g : GenRef) (log : List Event) : Prop :=
  ∃ k : Nat, log[k]? = some (.published (some g)) ∧
    ∀ (j : Nat) e, k < j → log[j]? = some e → e.isPublish = false ∧ e ≠ .cleared (some g)

theorem standing_published (g : GenRef) (log : List Event) :
    Standing g (log ++ [.published (some g)]) := by
  refine ⟨log.length, List.getElem?_concat_length, ?_⟩
  intro j e hj he
  have hlt := (List.getElem?_eq_some_iff.mp he).1
  rw [List.length_append, List.length_singleton] at hlt
  omega

theorem Standing.snoc {g : GenRef} {log : List Event} {e : Event} (h : Standing g log)
    (hp : e.isPublish = false) (hc : e ≠ .cleared (some g)) : Standing g (log ++ [e]) := by
  obtain ⟨k, hk, hrest⟩ := h
  refine ⟨k, getElem?_snoc_old hk, ?_⟩
  intro j e' hj he
  rcases getElem?_snoc_cases he with ⟨-, rfl⟩ | ⟨-, hold⟩
  · exact ⟨hp, hc⟩
  · exact hrest j e' hj hold

/-- The slot's generation stands. -/
def CurrentStands (σ : Shared) : Prop := ∀ g, σ.slot.current = some g → Standing g σ.log

theorem CurrentStands.note {σ : Shared} {e : Event} (h : CurrentStands σ)
    (hp : e.isPublish = false) (hc : ∀ g, σ.slot.current = some g → e ≠ .cleared (some g)) :
    CurrentStands (σ.note e) :=
  fun g hg => (h g hg).snoc hp (hc g hg)

theorem CurrentStands.renewed {σ : Shared} {slot : SessionSlot}
    (h : ∀ g, slot.current = some g → Standing g σ.log) : CurrentStands (σ.renewed slot) :=
  fun g hg => (h g hg).snoc rfl fun e => by cases e

/-! ## The calls -/

/-- The shared part of the invariant. -/
structure SlotSound (σ : Shared) : Prop where
  channels : ChannelsSound σ
  stands : CurrentStands σ

/-- What a call may rely on: a blocked one, that its channel is closed or nothing is
    published; one that has returned a generation, that it stood when it was read. -/
def Asserted (i : Nat) (σ : Shared) : Pc → Prop
  | .blocked c => c < σ.chans.length ∧ (σ.isOpen c = true → σ.slot.current = none)
  | .returned (some g) =>
      ∃ k : Nat, σ.log[k]? = some (.read i (some g)) ∧ Standing g (σ.log.take k)
  | .panicked => False
  | _ => True

section Steps

variable {i : Nat} {σ σ' : Shared} {t t' : Pc}

/-- The shared part, section by section. -/
theorem moves_sound (h : Moves i σ t σ' t') (hI : SlotSound σ) : SlotSound σ' := by
  cases h with
  | published g =>
      refine ⟨(hI.channels.note rfl).renewed rfl, CurrentStands.renewed ?_⟩
      intro g' hg
      obtain rfl : g = some g' := hg
      exact standing_published g' σ.log
  | cleared g hhit =>
      rw [SessionSlot.clear_hit hhit]
      refine ⟨(hI.channels.note rfl).renewed rfl, CurrentStands.renewed ?_⟩
      intro g' hg
      cases hg
  | stale g hne =>
      refine ⟨hI.channels.note rfl, hI.stands.note rfl ?_⟩
      rintro g' hg ⟨⟩
      exact hne hg
  | got | found g _ | empty _ =>
      exact ⟨hI.channels.note rfl, hI.stands.note rfl fun g _ e => by cases e⟩
  | woken c _ => exact hI
  | gaveUp c => exact hI

/-- What a section does to the calls that do not act: the history grows, and either the
    slot stays as it is or every channel there was is closed. -/
theorem moves_frame (h : Moves i σ t σ' t') (hI : SlotSound σ) :
    σ.log <+: σ'.log ∧ σ.chans.length ≤ σ'.chans.length ∧
      ((σ'.slot = σ.slot ∧ σ'.chans = σ.chans) ∨
        ∀ c, c < σ.chans.length → σ'.isOpen c = false) := by
  have hgrow : σ.chans.length ≤ (σ.chans.set σ.slot.changed true ++ [false]).length := by
    rw [List.length_append, List.length_set]
    exact Nat.le_add_right ..
  cases h with
  | published g =>
      refine ⟨?_, hgrow, Or.inr ?_⟩
      · exact (List.prefix_append σ.log [.published g]).trans (List.prefix_append ..)
      · intro c hc
        exact renewed_closed (hI.channels.note rfl) rfl hc
  | cleared g hhit =>
      refine ⟨?_, hgrow, Or.inr ?_⟩
      · exact (List.prefix_append σ.log [.cleared g]).trans (List.prefix_append ..)
      · intro c hc
        rw [SessionSlot.clear_hit hhit]
        exact renewed_closed (hI.channels.note rfl) rfl hc
  | stale g _ | got | found g _ | empty _ =>
      exact ⟨List.prefix_append .., le_rfl, Or.inl ⟨rfl, rfl⟩⟩
  | woken c _ => exact ⟨List.prefix_refl _, le_rfl, Or.inl ⟨rfl, rfl⟩⟩
  | gaveUp c => exact ⟨List.prefix_refl _, le_rfl, Or.inl ⟨rfl, rfl⟩⟩

/-- A read of the slot's generation, at the end of the history. -/
theorem read_stands {g : GenRef} (hI : SlotSound σ) (hg : σ.slot.current = some g) :
    Asserted i (σ.note (.read i (some g))) (.returned (some g)) := by
  refine ⟨σ.log.length, List.getElem?_concat_length, ?_⟩
  show Standing g ((σ.log ++ [Event.read i (some g)]).take σ.log.length)
  rw [List.take_left' rfl]
  exact hI.stands g hg

/-- The acting call's own assertion. -/
theorem moves_asserted (h : Moves i σ t σ' t') (hI : SlotSound σ) : Asserted i σ' t' := by
  cases h with
  | got =>
      cases hg : σ.slot.current with
      | none => trivial
      | some g => exact read_stands hI hg
  | found g hg => exact read_stands hI hg
  | empty hnone =>
      have hopen := (hI.channels.own σ.slot.changed).mpr rfl
      exact ⟨(List.getElem?_eq_some_iff.mp hopen).1, fun _ => hnone⟩
  | _ => trivial

/-- The assertions of the other calls survive a section. -/
theorem Asserted.stable {j : Nat} {u : Pc} (h : Moves i σ t σ' t') (hI : SlotSound σ)
    (hu : Asserted j σ u) : Asserted j σ' u := by
  obtain ⟨hlog, hlen, hcases⟩ := moves_frame h hI
  cases u with
  | blocked c =>
      obtain ⟨hlt, hnone⟩ := hu
      refine ⟨hlt.trans_le hlen, ?_⟩
      intro hopen
      rcases hcases with ⟨hslot, hchans⟩ | hclosed
      · rw [hslot]
        refine hnone ?_
        rwa [Shared.isOpen, hchans] at hopen
      · rw [hclosed c hlt] at hopen
        cases hopen
  | returned r =>
      cases r with
      | none => trivial
      | some g =>
          obtain ⟨k, hk, hstands⟩ := hu
          obtain ⟨more, hmore⟩ := hlog
          have hlt : k < σ.log.length := (List.getElem?_eq_some_iff.mp hk).1
          refine ⟨k, ?_, ?_⟩
          · rw [← hmore, List.getElem?_append_left hlt]
            exact hk
          · rw [← hmore, List.take_append_of_le_length hlt.le]
            exact hstands
  | panicked => exact hu
  | _ => trivial

end Steps

theorem outside_frame {σ σ' : Shared} {e : Op} {new : List Pc}
    (h : outside σ e = some (σ', new)) : σ' = σ ∧ ∀ (i : Nat), ∀ t ∈ new, Asserted i σ t := by
  cases e <;> cases h <;>
    exact ⟨rfl, fun i t ht => by rw [List.mem_singleton.mp ht]; trivial⟩

/-- **THE SLOT'S INVARIANT** and the assertion of every call, in every state. -/
theorem annotated {s : SlotPool} (h : SlotReach s) : Annotated SlotSound Asserted s := by
  refine Machine.owickiGries (J := fun _ => True) (fun _ _ => trivial) SlotSound Asserted
    ?_ ?_ ?_ ?_ h
  · refine ⟨⟨⟨rfl, ?_, ?_, List.nodup_nil⟩, ?_⟩, ?_⟩
    · intro c
      cases c with
      | zero => exact ⟨fun _ => rfl, fun _ => rfl⟩
      | succ c => exact ⟨fun e => (by cases e), fun e => (by cases e)⟩
    · intro c hc
      cases hc
    · intro g hg
      cases hg
    · intro i t ht
      cases ht
  · intro s i t a σ' t' new _ _ _ he hI _
    obtain ⟨hm, rfl⟩ := exec_moves hI.channels.isOpen he
    exact ⟨moves_sound hm hI, moves_asserted hm hI, fun _ u hu => by cases hu⟩
  · intro s i j t u a σ' t' new _ _ _ _ he hI _ hu
    exact hu.stable (exec_moves hI.channels.isOpen he).1 hI
  · intro s e σ' new _ _ he hI
    obtain ⟨rfl, hnew⟩ := outside_frame he
    exact ⟨hI, hnew, fun _ _ _ hu => hu⟩

/-- **SESSION SLOT HAND-OVER**: in every state of a slot, whatever calls of `publish`,
    `clear`, `get` and `wait` there are and however they interleave:

    a waiter that is blocked on an open channel waits for a slot that is empty, and one
    whose channel is closed can go on; a generation that `wait` or `get` returned had been
    published and neither cleared nor replaced when it was read; no channel was closed twice,
    no call panicked, and the slot's channel is open; and `clear` of any other than the
    current generation leaves slot and channels alone. -/
theorem slot_hand_over {s : SlotPool} (h : SlotReach s) :
    (∀ (i : Nat) c, s.threads[i]? = some (.blocked c) →
      if s.shared.isOpen c then s.shared.slot.current = none
      else exec i s.shared (.blocked c) .go = some (s.shared, .wait, [])) ∧
    (∀ (i : Nat) g, s.threads[i]? = some (.returned (some g)) →
      ∃ k : Nat, s.shared.log[k]? = some (.read i (some g)) ∧
        Standing g (s.shared.log.take k)) ∧
    (closes s.shared.log).Nodup ∧
    s.shared.isOpen s.shared.slot.changed = true ∧
    (∀ t ∈ s.threads, t ≠ .panicked) ∧
    ∀ (i : Nat) g σ' t' new, exec i s.shared (.clear g) .go = some (σ', t', new) →
      s.shared.slot.current ≠ g →
      σ'.slot = s.shared.slot ∧ σ'.chans = s.shared.chans := by
  obtain ⟨hI, hcalls⟩ := annotated h
  refine ⟨?_, ?_, hI.channels.once, hI.channels.isOpen, ?_, ?_⟩
  · intro i c ht
    split
    · exact (hcalls i _ ht).2 ‹_›
    · rw [exec, if_neg ‹_›]
  · intro i g ht
    exact hcalls i _ ht
  · rintro t ht rfl
    obtain ⟨i, hi⟩ := List.getElem?_of_mem ht
    exact hcalls i _ hi
  · intro i g σ' t' new he hne
    rw [exec, if_neg hne] at he
    cases he
    exact ⟨rfl, rfl⟩

/-- A waiter blocks, generation 1 is published and cleared before it wakes up, generation 2 is
    published, a late `clear` of generation 1 follows, and the waiter returns. -/
def lateWaiter : List (Act Choice Op) :=
  [.env .wait, .run 0 .go, .env (.publish (some 1)), .run 1 .go, .env (.clear (some 1)),
    .run 2 .go, .env (.publish (some 2)), .run 3 .go, .env (.clear (some 1)), .run 4 .go,
    .run 0 .go, .run 0 .go]

/-- The waiter has generation 2, which stood when it was read. -/
theorem late_waiter_served :
    ∃ s, SlotReach s ∧ s.threads[0]? = some (.returned (some 2)) ∧
      ∃ k : Nat, s.shared.log[k]? = some (.read 0 (some 2)) ∧
        Standing 2 (s.shared.log.take k) := by
  obtain ⟨s, hr, hs⟩ := Reach.of_follow slotStep anyStep newSlot lateWaiter
    (fun s => s.threads[0]? == some (.returned (some 2))) (by decide)
  have ht := eq_of_beq hs
  exact ⟨s, hr, ht, (slot_hand_over hr).2.1 0 2 ht⟩

end VkTurnSessionSlot
