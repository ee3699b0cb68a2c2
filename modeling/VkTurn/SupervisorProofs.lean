import VkTurn.BondProofs
import VkTurn.GoTextProofs
import VkTurn.SessionSlotProofs

/-! # The supervisor of a bond's generations

    `superviseVLESSBond` asks a factory for a generation, publishes it in a slot,
    waits until it ends, takes it out of the slot, closes it, and begins again
    after a delay.  The context may be cancelled at any point, other goroutines
    call `fail` on the generation, and its session, its paths and the clock move
    on their own.

    The program below has a section for every load, store and channel operation.
    What matters of it is a machine with few phases (`Phase`, `Turn`): every
    section is one of its turns or changes nothing of it (`exec_turns`).  The
    trail that the abstract machine leaves is a sequence of complete rounds and
    at most one unfinished round (`Rounds`, `Trails`), and from the rounds
    everything is counted. -/

namespace VkTurnSupervisor

open ThreadPool VkTurnBond GoText
open VkTurnSessionSlot (GenRef SessionSlot)

/-! ## State -/

/-- A minute, in nanoseconds. -/
def vlessBondStableGeneration : Int := 60000000000

/-- Ten seconds, in nanoseconds. -/
def vlessBondZeroPathGrace : Int := 10000000000

/-- The bond of a generation as `wait` sees it: the value of `Count`, and whether
    the channel of `StateChanged` has something to receive. -/
structure Paths where
  count : Nat
  changed : Bool := false
  deriving DecidableEq, Repr

/-- `vlessBondGeneration`.  The session may be nil; of a session it is known
    whether its `CloseChan` is closed.  `cleanup` says whether the function is
    not nil. -/
structure Generation where
  id : Bytes
  session : Option Bool
  bonded : Option Paths
  startedAt : Int
  cleanup : Bool
  cleanupOnce : Once := .fresh
  failOnce : Once := .fresh
  failed : Bool := false
  failureErr : Option Bytes := none
  zeroGrace : Int
  deriving DecidableEq, Repr

/-- `newVLESSBondGeneration`, at time `now`. -/
def newVLESSBondGeneration (now : Int) (id : Bytes) (session : Option Bool)
    (bonded : Option Paths) (cleanup : Bool) : Generation :=
  { id := id, session := session, bonded := bonded, startedAt := now, cleanup := cleanup
    zeroGrace := vlessBondZeroPathGrace }

/-- `shortBondID`. -/
def shortBondID (id : Bytes) : Bytes :=
  if id.length ≤ 8 then id else id.take 8

/-- Why `wait` returns: `ctx.Err()`, "vless bond generation %s has no smux
    session", "… smux session closed", the failure, "… failed", "… has no active
    paths for %s". -/
inductive WaitError where
  | cancelled
  | noSession (id : Bytes)
  | sessionClosed (id : Bytes)
  | failure (err : Bytes)
  | failed (id : Bytes)
  | noPaths (id : Bytes) (grace : Int)
  deriving DecidableEq, Repr

/-- A generation that a factory built, `age` nanoseconds before it returns it. -/
structure Built where
  id : Bytes
  session : Option Bool
  bonded : Option Paths
  cleanup : Bool
  age : Nat
  deriving DecidableEq, Repr

/-- The generation, returned at time `now`. -/
def Built.generation (b : Built) (now : Int) : Generation :=
  newVLESSBondGeneration (now - b.age) b.id b.session b.bonded b.cleanup

/-- What a factory returns. -/
structure Outcome where
  generation : Option Built
  err : Option Bytes
  deriving DecidableEq, Repr

/-- What the supervisor did, in order. -/
inductive Event where
  | called
  | published (g : GenRef)
  | opened
  | cleared (g : GenRef)
  | sessionClosed
  | cleaned (g : GenRef)
  | closed (g : GenRef)
  deriving DecidableEq, Repr

/-- The shared state. -/
structure Shared where
  gens : List Generation := []
  slot : SessionSlot := {}
  ctxDone : Bool := false
  now : Int := 0
  sessionReconnects : Nat := 0
  log : List Event := []
  deriving DecidableEq, Repr

/-- Replace a generation. -/
def Shared.setGen (σ : Shared) (g : GenRef) (x : Generation) : Shared :=
  { σ with gens := σ.gens.set g x }

/-- One more event. -/
def Shared.note (σ : Shared) (e : Event) : Shared := { σ with log := σ.log ++ [e] }

/-! ## Control points -/

/-- A place between two sections; `a` is `attempt`. -/
inductive Pc where
  -- superviseVLESSBond
  | top (a : Nat)
  | calling (a : Nat)
  | setupFailed (a : Nat) (err : Bytes)
  | publish (a : Nat) (g : GenRef)
  | open (a : Nat) (g : GenRef)
  -- wait
  | waitEnter (a : Nat) (g : GenRef)
  | waitLoop (a : Nat) (g : GenRef) (zeroDeadline : Option Int)
  | waitSelect (a : Nat) (g : GenRef) (zeroDeadline : Option Int)
  | waitFailed (a : Nat) (g : GenRef)
  | waitZero (a : Nat) (g : GenRef)
  -- after wait
  | clear (a : Nat) (g : GenRef) (err : WaitError)
  | closeMetric (a : Nat) (g : GenRef) (err : WaitError)
  | lifetime (a : Nat) (g : GenRef) (err : WaitError)
  -- close
  | closing (a : Nat) (g : GenRef) (err : WaitError) (life : Int)
  | cleanup (a : Nat) (g : GenRef) (err : WaitError) (life : Int)
  | closeEnd (a : Nat) (g : GenRef) (err : WaitError) (life : Int)
  -- after close
  | stopped (a : Nat) (err : WaitError) (life : Int)
  | reconnect (a : Nat)
  -- waitContextDelay
  | delay (a : Nat)
  | sleeping (a : Nat) (deadline : Int)
  | returned
  -- fail, in another goroutine
  | failOnce (g : GenRef) (err : Bytes)
  | failSet (g : GenRef) (err : Bytes)
  | failClose (g : GenRef)
  | failEnd (g : GenRef)
  | failReturned
  deriving DecidableEq, Repr

/-- What a section depends on beside the state: what the factory returns, and
    which ready case a `select` takes. -/
inductive Choice where
  | go
  | result (o : Outcome)
  | ctx
  | session
  | failed
  | state
  | timer
  deriving DecidableEq, Repr

/-- What happens outside the supervisor. -/
inductive Op where
  | cancel
  | tick (d : Nat)
  | closeSession (g : GenRef)
  | setPaths (g : GenRef) (count : Nat) (changed : Bool)
  | fail (g : GenRef) (err : Option Bytes)
  deriving DecidableEq, Repr

/-! ## Sections -/

/-- The sections of `wait`. -/
def execWait (σ : Shared) (a : Nat) (g : GenRef) (x : Generation) :
    Pc → Choice → Option (Shared × Pc)
  | .waitEnter _ _, .go =>
      if x.session = none then some (σ, .clear a g (.noSession (shortBondID x.id)))
      else some (σ, .waitLoop a g none)
  | .waitLoop _ _ zero, .go =>
      -- the timer runs while the bond has no path, and is stopped otherwise
      match x.bonded with
      | none => some (σ, .waitSelect a g none)
      | some b =>
          if b.count = 0 then
            match zero with
            | none => some (σ, .waitSelect a g (some (σ.now + x.zeroGrace)))
            | some d => some (σ, .waitSelect a g (some d))
          else some (σ, .waitSelect a g none)
  | .waitSelect _ _ _, .ctx =>
      if σ.ctxDone then some (σ, .clear a g .cancelled) else none
  | .waitSelect _ _ _, .session =>
      if x.session = some true then
        some (σ, .clear a g (.sessionClosed (shortBondID x.id)))
      else none
  | .waitSelect _ _ _, .failed =>
      if x.failed then some (σ, .waitFailed a g) else none
  | .waitSelect _ _ zero, .state =>
      match x.bonded with
      | none => none
      | some b =>
          if b.changed then
            some (σ.setGen g { x with bonded := some { b with changed := false } },
              .waitLoop a g zero)
          else none
  | .waitSelect _ _ (some d), .timer =>
      if d ≤ σ.now then some (σ, .waitZero a g) else none
  | .waitFailed _ _, .go =>
      match x.failureErr with
      | some err => some (σ, .clear a g (.failure err))
      | none => some (σ, .clear a g (.failed (shortBondID x.id)))
  | .waitZero _ _, .go =>
      match x.bonded with
      | none => some (σ, .waitLoop a g none)
      | some b =>
          if b.count = 0 then
            some (σ, .clear a g (.noPaths (shortBondID x.id) x.zeroGrace))
          else some (σ, .waitLoop a g none)
  | _, _ => none

/-- The sections of `close`, `cleanupOnce.Do` included. -/
def execClose (σ : Shared) (a : Nat) (g : GenRef) (x : Generation) (err : WaitError)
    (life : Int) : Pc → Option (Shared × Pc)
  | .closing _ _ _ _ =>
      match x.cleanupOnce with
      | .fresh =>
          some (σ.setGen g { x with cleanupOnce := .running }, .cleanup a g err life)
      | .running => none
      | .finished => some (σ.note (.closed g), .stopped a err life)
  | .cleanup _ _ _ _ =>
      if x.cleanup then some (σ.note (.cleaned g), .closeEnd a g err life)
      else some (σ, .closeEnd a g err life)
  | .closeEnd _ _ _ _ =>
      some ((σ.setGen g { x with cleanupOnce := .finished }).note (.closed g),
        .stopped a err life)
  | _ => none

/-- The sections of `fail`. -/
def execFail (σ : Shared) (g : GenRef) (x : Generation) : Pc → Option (Shared × Pc)
  | .failOnce _ err =>
      match x.failOnce with
      | .fresh => some (σ.setGen g { x with failOnce := .running }, .failSet g err)
      | .running => none
      | .finished => some (σ, .failReturned)
  | .failSet _ err => some (σ.setGen g { x with failureErr := some err }, .failClose g)
  | .failClose _ => some (σ.setGen g { x with failed := true }, .failEnd g)
  | .failEnd _ => some (σ.setGen g { x with failOnce := .finished }, .failReturned)
  | _ => none

/-- One section of `superviseVLESSBond`, outside `wait` and `close`. -/
def execLoop (retryDelay : Nat → Int) (σ : Shared) : Pc → Choice → Option (Shared × Pc)
  | .top a, .go =>
      if σ.ctxDone then some (σ, .returned) else some (σ.note .called, .calling a)
  | .calling a, .result o =>
      -- a generation that comes with an error is dropped
      match o.generation, o.err with
      | none, none =>
          some (σ, .setupFailed a (ascii "vless bond generation factory returned nil"))
      | none, some err => some (σ, .setupFailed a err)
      | some b, some err =>
          some ({ σ with gens := σ.gens ++ [b.generation σ.now] }, .setupFailed a err)
      | some b, none =>
          some ({ σ with gens := σ.gens ++ [b.generation σ.now] }, .publish a σ.gens.length)
  | .setupFailed a _, .go =>
      if σ.ctxDone then some (σ, .returned) else some (σ, .reconnect a)
  | .publish a g, .go =>
      some ({ σ with slot := σ.slot.publish (some g) }.note (.published g), .open a g)
  | .open a g, .go => some (σ.note .opened, .waitEnter a g)
  | .clear a g err, .go =>
      some ({ σ with slot := σ.slot.clear (some g) }.note (.cleared g), .closeMetric a g err)
  | .closeMetric a g err, .go => some (σ.note .sessionClosed, .lifetime a g err)
  | .stopped a _ life, .go =>
      if σ.ctxDone then some (σ, .returned)
      else some (σ, .reconnect (if life ≥ vlessBondStableGeneration then 0 else a))
  | .reconnect a, .go =>
      some ({ σ with sessionReconnects := σ.sessionReconnects + 1 }, .delay a)
  | .delay a, .go =>
      if retryDelay a ≤ 0 then
        if σ.ctxDone then some (σ, .returned) else some (σ, .top (a + 1))
      else some (σ, .sleeping a (σ.now + retryDelay a))
  | .sleeping _ _, .ctx => if σ.ctxDone then some (σ, .returned) else none
  | .sleeping a d, .timer => if d ≤ σ.now then some (σ, .top (a + 1)) else none
  | _, _ => none

/-- One section. -/
def exec (retryDelay : Nat → Int) (σ : Shared) (t : Pc) (c : Choice) :
    Option (Shared × Pc) :=
  match t with
  | .waitEnter a g => (σ.gens[g]?).bind fun x => execWait σ a g x t c
  | .waitLoop a g _ => (σ.gens[g]?).bind fun x => execWait σ a g x t c
  | .waitSelect a g _ => (σ.gens[g]?).bind fun x => execWait σ a g x t c
  | .waitFailed a g => (σ.gens[g]?).bind fun x => execWait σ a g x t c
  | .waitZero a g => (σ.gens[g]?).bind fun x => execWait σ a g x t c
  | .lifetime a g err =>
      (σ.gens[g]?).map fun x => (σ, .closing a g err (σ.now - x.startedAt))
  | .closing a g err life => (σ.gens[g]?).bind fun x => execClose σ a g x err life t
  | .cleanup a g err life => (σ.gens[g]?).bind fun x => execClose σ a g x err life t
  | .closeEnd a g err life => (σ.gens[g]?).bind fun x => execClose σ a g x err life t
  | .failOnce g _ => (σ.gens[g]?).bind fun x => execFail σ g x t
  | .failSet g _ => (σ.gens[g]?).bind fun x => execFail σ g x t
  | .failClose g => (σ.gens[g]?).bind fun x => execFail σ g x t
  | .failEnd g => (σ.gens[g]?).bind fun x => execFail σ g x t
  | _ => execLoop retryDelay σ t c

/-- The outside world.  `fail(nil)` fails with a text of its own. -/
def outside (σ : Shared) : Op → Option (Shared × List Pc)
  | .cancel => some ({ σ with ctxDone := true }, [])
  | .tick d => some ({ σ with now := σ.now + d }, [])
  | .closeSession g =>
      match σ.gens[g]? with
      | none => none
      | some x => some (σ.setGen g { x with session := x.session.map fun _ => true }, [])
  | .setPaths g count changed =>
      match σ.gens[g]? with
      | none => none
      | some x =>
          some (σ.setGen g { x with bonded := x.bonded.map fun _ => ⟨count, changed⟩ }, [])
  | .fail g err =>
      if g < σ.gens.length then
        some (σ, [.failOnce g (err.getD (ascii "vless bond generation failed"))])
      else none

/-- The supervisor and the goroutines that call `fail`. -/
def supervisorMachine (retryDelay : Nat → Int) : Machine Shared Pc Choice Op where
  exec := fun _ σ t c => (exec retryDelay σ t c).map fun r => (r.1, r.2, [])
  env := outside

abbrev SupervisorPool := Pool Shared Pc

/-- One step. -/
def supervisorStep (retryDelay : Nat → Int) :
    SupervisorPool → Act Choice Op → Option SupervisorPool :=
  (supervisorMachine retryDelay).step

/-- The factory returns a generation or an error, not both. -/
def either : SupervisorPool → Act Choice Op → Prop
  | _, .run _ (.result o) => o.generation = none ∨ o.err = none
  | _, _ => True

instance (s : SupervisorPool) (a : Act Choice Op) : Decidable (either s a) := by
  unfold either
  split <;> infer_instance

/-- Every state of a supervisor, under every interleaving and with every factory
    that returns a generation or an error. -/
abbrev SupervisorReach (retryDelay : Nat → Int) : SupervisorPool → Prop :=
  Reach (supervisorStep retryDelay) either ⟨{}, [.top 0]⟩

/-! ## The machine with few phases -/

/-- How far the supervisor has come with a generation. -/
inductive Stage where
  | received
  | published
  | opened
  | cleared
  | metered
  | cleaning
  | cleaned
  deriving DecidableEq, Repr

/-- Where the supervisor is. -/
inductive Phase where
  | idle
  | calling
  | serving (g : GenRef) (st : Stage)
  deriving DecidableEq, Repr

/-- The phase of a control point; goroutines that call `fail` have none. -/
def Pc.phase : Pc → Option Phase
  | .top _ => some .idle
  | .calling _ => some .calling
  | .setupFailed _ _ => some .idle
  | .publish _ g => some (.serving g .received)
  | .open _ g => some (.serving g .published)
  | .waitEnter _ g => some (.serving g .opened)
  | .waitLoop _ g _ => some (.serving g .opened)
  | .waitSelect _ g _ => some (.serving g .opened)
  | .waitFailed _ g => some (.serving g .opened)
  | .waitZero _ g => some (.serving g .opened)
  | .clear _ g _ => some (.serving g .opened)
  | .closeMetric _ g _ => some (.serving g .cleared)
  | .lifetime _ g _ => some (.serving g .metered)
  | .closing _ g _ _ => some (.serving g .metered)
  | .cleanup _ g _ _ => some (.serving g .cleaning)
  | .closeEnd _ g _ _ => some (.serving g .cleaned)
  | .stopped _ _ _ => some .idle
  | .reconnect _ => some .idle
  | .delay _ => some .idle
  | .sleeping _ _ => some .idle
  | .returned => some .idle
  | .failOnce _ _ => none
  | .failSet _ _ => none
  | .failClose _ => none
  | .failEnd _ => none
  | .failReturned => none

/-- What the phases are about: of every generation whether it has a cleanup
    function and its `cleanupOnce`, the slot, and the trail. -/
structure Core where
  gens : List (Bool × Once)
  slot : Option GenRef
  log : List Event
  deriving DecidableEq, Repr

def Generation.core (x : Generation) : Bool × Once := (x.cleanup, x.cleanupOnce)

def Shared.core (σ : Shared) : Core :=
  ⟨σ.gens.map Generation.core, σ.slot.current, σ.log⟩

/-- The turns of the machine with few phases. -/
inductive Turn (κ : Core) : Phase → Core → Phase → Prop where
  | call : Turn κ .idle { κ with log := κ.log ++ [.called] } .calling
  | refuse : Turn κ .calling κ .idle
  | receive (c : Bool) :
      Turn κ .calling { κ with gens := κ.gens ++ [(c, .fresh)] }
        (.serving κ.gens.length .received)
  | publish (g : GenRef) :
      Turn κ (.serving g .received)
        { κ with slot := some g, log := κ.log ++ [.published g] } (.serving g .published)
  | openSession (g : GenRef) :
      Turn κ (.serving g .published) { κ with log := κ.log ++ [.opened] }
        (.serving g .opened)
  | clear (g : GenRef) :
      Turn κ (.serving g .opened)
        { κ with slot := if κ.slot = some g then none else κ.slot
                 log := κ.log ++ [.cleared g] }
        (.serving g .cleared)
  | closeSession (g : GenRef) :
      Turn κ (.serving g .cleared) { κ with log := κ.log ++ [.sessionClosed] }
        (.serving g .metered)
  | enter (g : GenRef) (c : Bool) : κ.gens[g]? = some (c, .fresh) →
      Turn κ (.serving g .metered) { κ with gens := κ.gens.set g (c, .running) }
        (.serving g .cleaning)
  | skip (g : GenRef) (c : Bool) : κ.gens[g]? = some (c, .finished) →
      Turn κ (.serving g .metered) { κ with log := κ.log ++ [.closed g] } .idle
  | clean (g : GenRef) (c : Bool) (o : Once) : κ.gens[g]? = some (c, o) →
      Turn κ (.serving g .cleaning)
        { κ with log := κ.log ++ if c then [.cleaned g] else [] } (.serving g .cleaned)
  | leave (g : GenRef) (c : Bool) (o : Once) : κ.gens[g]? = some (c, o) →
      Turn κ (.serving g .cleaned)
        { κ with gens := κ.gens.set g (c, .finished), log := κ.log ++ [.closed g] } .idle

/-- A section is a turn or changes nothing of the machine with few phases. -/
def Turns (σ : Shared) (t : Pc) (σ' : Shared) (t' : Pc) : Prop :=
  (σ'.core = σ.core ∧ t'.phase = t.phase) ∨
    ∃ p p', t.phase = some p ∧ t'.phase = some p' ∧ Turn σ.core p σ'.core p'

section Sections

variable {σ σ' : Shared} {t t' : Pc} {a : Nat} {g : GenRef} {x : Generation}

/-- A generation replaced by one with the same cleanup leaves the machine with
    few phases alone. -/
theorem core_setGen_same (hx : σ.gens[g]? = some x) {y : Generation}
    (hy : y.core = x.core) : (σ.setGen g y).core = σ.core := by
  have hlt := (List.getElem?_eq_some_iff.mp hx).1
  have hmap : (σ.gens.set g y).map Generation.core = σ.gens.map Generation.core := by
    refine List.ext_getElem? fun i => ?_
    rw [List.getElem?_map, List.getElem?_map, List.getElem?_set]
    by_cases hgi : g = i
    · subst hgi
      rw [if_pos rfl, if_pos hlt, hx, Option.map_some, Option.map_some, hy]
    · rw [if_neg hgi]
  simp only [Shared.core, Shared.setGen, hmap]

theorem core_get (hx : σ.gens[g]? = some x) :
    σ.core.gens[g]? = some (x.cleanup, x.cleanupOnce) := by
  rw [Shared.core, List.getElem?_map, hx]
  rfl

theorem core_setGen (σ : Shared) (g : GenRef) (y : Generation) :
    (σ.setGen g y).core = { σ.core with gens := σ.core.gens.set g y.core } := by
  simp only [Shared.core, Shared.setGen, List.map_set]

/-- The sections of `wait` change nothing of the machine with few phases. -/
theorem execWait_turns {c : Choice} (hx : σ.gens[g]? = some x)
    (ht : t.phase = some (.serving g .opened))
    (h : execWait σ a g x t c = some (σ', t')) : Turns σ t σ' t' := by
  refine Or.inl ?_
  rw [ht]
  unfold execWait at h
  split at h <;> (try split at h) <;> (try split at h) <;> (try split at h) <;>
    simp only [Option.some.injEq, Prod.mk.injEq, reduceCtorEq] at h
  all_goals obtain ⟨rfl, rfl⟩ := h
  all_goals first
    | exact ⟨rfl, rfl⟩
    | exact ⟨core_setGen_same hx rfl, rfl⟩

theorem execClose_turns {err : WaitError} {life : Int} (hx : σ.gens[g]? = some x)
    (h : execClose σ a g x err life t = some (σ', t'))
    (ht : t = .closing a g err life ∨ t = .cleanup a g err life ∨ t = .closeEnd a g err life) :
    Turns σ t σ' t' := by
  refine Or.inr ?_
  have hget := core_get hx
  rcases ht with rfl | rfl | rfl
  · simp only [execClose] at h
    split at h <;> simp only [Option.some.injEq, Prod.mk.injEq, reduceCtorEq] at h
    · rename_i hfresh
      obtain ⟨rfl, rfl⟩ := h
      rw [hfresh] at hget
      refine ⟨_, _, rfl, rfl, ?_⟩
      rw [core_setGen]
      exact Turn.enter g x.cleanup hget
    · rename_i hfin
      obtain ⟨rfl, rfl⟩ := h
      rw [hfin] at hget
      exact ⟨_, _, rfl, rfl, Turn.skip g x.cleanup hget⟩
  · have hturn := Turn.clean g x.cleanup x.cleanupOnce hget
    simp only [execClose] at h
    split at h <;> simp only [Option.some.injEq, Prod.mk.injEq] at h
    · rename_i hc
      obtain ⟨rfl, rfl⟩ := h
      rw [if_pos hc] at hturn
      exact ⟨_, _, rfl, rfl, hturn⟩
    · rename_i hc
      obtain ⟨rfl, rfl⟩ := h
      rw [if_neg hc, List.append_nil] at hturn
      exact ⟨_, _, rfl, rfl, hturn⟩
  · simp only [execClose, Option.some.injEq, Prod.mk.injEq] at h
    obtain ⟨rfl, rfl⟩ := h
    refine ⟨_, _, rfl, rfl, ?_⟩
    have hturn := Turn.leave g x.cleanup x.cleanupOnce hget
    rw [show (σ.setGen g { x with cleanupOnce := .finished }).note (.closed g)
      = { σ with gens := (σ.setGen g { x with cleanupOnce := .finished }).gens
                 log := σ.log ++ [.closed g] } from rfl]
    have hcore := core_setGen σ g { x with cleanupOnce := .finished }
    simp only [Shared.core, Shared.setGen, Core.mk.injEq] at hcore hturn ⊢
    rw [hcore.1]
    exact hturn

/-- The sections of `fail` change nothing of the machine with few phases. -/
theorem execFail_turns (hx : σ.gens[g]? = some x) (ht : t.phase = none)
    (h : execFail σ g x t = some (σ', t')) : Turns σ t σ' t' := by
  refine Or.inl ?_
  rw [ht]
  unfold execFail at h
  split at h <;> (try split at h) <;>
    simp only [Option.some.injEq, Prod.mk.injEq, reduceCtorEq] at h
  all_goals obtain ⟨rfl, rfl⟩ := h
  all_goals first
    | exact ⟨rfl, rfl⟩
    | exact ⟨core_setGen_same hx rfl, rfl⟩

theorem execLoop_turns {retryDelay : Nat → Int} {c : Choice}
    (hc : ∀ a o, t = .calling a → c = .result o → o.generation = none ∨ o.err = none)
    (h : execLoop retryDelay σ t c = some (σ', t')) : Turns σ t σ' t' := by
  unfold execLoop at h
  split at h
  · -- top
    split at h <;> simp only [Option.some.injEq, Prod.mk.injEq] at h <;> obtain ⟨rfl, rfl⟩ := h
    · exact Or.inl ⟨rfl, rfl⟩
    · exact Or.inr ⟨_, _, rfl, rfl, Turn.call⟩
  · -- the factory returns
    rename_i a o
    split at h <;> simp only [Option.some.injEq, Prod.mk.injEq] at h <;> obtain ⟨rfl, rfl⟩ := h
    · exact Or.inr ⟨_, _, rfl, rfl, Turn.refuse⟩
    · exact Or.inr ⟨_, _, rfl, rfl, Turn.refuse⟩
    · rename_i hgen herr
      rcases hc a o rfl rfl with hnone | hnone
      · rw [hgen] at hnone
        cases hnone
      · rw [herr] at hnone
        cases hnone
    · rename_i b _ _
      refine Or.inr ⟨_, _, rfl, rfl, ?_⟩
      have hturn : Turn σ.core _ _ _ := Turn.receive b.cleanup
      rw [show σ.core.gens.length = σ.gens.length from List.length_map _] at hturn
      simp only [Shared.core, List.map_append] at hturn ⊢
      exact hturn
  · -- the setup failed
    split at h <;> simp only [Option.some.injEq, Prod.mk.injEq] at h <;> obtain ⟨rfl, rfl⟩ := h <;>
      exact Or.inl ⟨rfl, rfl⟩
  · -- publish
    rename_i a g
    simp only [Option.some.injEq, Prod.mk.injEq] at h
    obtain ⟨rfl, rfl⟩ := h
    exact Or.inr ⟨_, _, rfl, rfl, Turn.publish g⟩
  · -- SessionOpened
    rename_i a g
    simp only [Option.some.injEq, Prod.mk.injEq] at h
    obtain ⟨rfl, rfl⟩ := h
    exact Or.inr ⟨_, _, rfl, rfl, Turn.openSession g⟩
  · -- clear
    rename_i a g err
    simp only [Option.some.injEq, Prod.mk.injEq] at h
    obtain ⟨rfl, rfl⟩ := h
    refine Or.inr ⟨_, _, rfl, rfl, ?_⟩
    have hturn : Turn σ.core _ _ _ := Turn.clear g
    rw [show σ.core.slot = σ.slot.current from rfl, ← SessionSlot.clear_current] at hturn
    exact hturn
  · -- SessionClosed
    rename_i a g err
    simp only [Option.some.injEq, Prod.mk.injEq] at h
    obtain ⟨rfl, rfl⟩ := h
    exact Or.inr ⟨_, _, rfl, rfl, Turn.closeSession g⟩
  · -- after close
    split at h <;> simp only [Option.some.injEq, Prod.mk.injEq] at h <;> obtain ⟨rfl, rfl⟩ := h <;>
      exact Or.inl ⟨rfl, rfl⟩
  · -- SessionReconnected
    simp only [Option.some.injEq, Prod.mk.injEq] at h
    obtain ⟨rfl, rfl⟩ := h
    exact Or.inl ⟨rfl, rfl⟩
  · -- waitContextDelay
    split at h <;> (try split at h) <;> simp only [Option.some.injEq, Prod.mk.injEq] at h <;>
      obtain ⟨rfl, rfl⟩ := h <;> exact Or.inl ⟨rfl, rfl⟩
  · -- cancelled in the delay
    split at h <;> simp only [Option.some.injEq, Prod.mk.injEq, reduceCtorEq] at h
    obtain ⟨rfl, rfl⟩ := h
    exact Or.inl ⟨rfl, rfl⟩
  · -- the delay is over
    split at h <;> simp only [Option.some.injEq, Prod.mk.injEq, reduceCtorEq] at h
    obtain ⟨rfl, rfl⟩ := h
    exact Or.inl ⟨rfl, rfl⟩
  · cases h

/-- **REFINEMENT**: every section is a turn of the machine with few phases, or
    changes nothing of it. -/
theorem exec_turns {retryDelay : Nat → Int} {c : Choice}
    (hc : ∀ a o, t = .calling a → c = .result o → o.generation = none ∨ o.err = none)
    (h : exec retryDelay σ t c = some (σ', t')) : Turns σ t σ' t' := by
  unfold exec at h
  split at h
  all_goals first
    | exact execLoop_turns hc h
    | skip
  case h_6 a g err =>
    -- the lifetime is read off the clock
    rw [Option.map_eq_some_iff] at h
    obtain ⟨x, hx, h⟩ := h
    simp only [Prod.mk.injEq] at h
    obtain ⟨rfl, rfl⟩ := h
    exact Or.inl ⟨rfl, rfl⟩
  all_goals
    rw [Option.bind_eq_some_iff] at h
    obtain ⟨x, hx, h⟩ := h
  all_goals first
    | exact execWait_turns hx rfl h
    | exact execFail_turns hx rfl h
    | exact execClose_turns hx h (Or.inl rfl)
    | exact execClose_turns hx h (Or.inr (Or.inl rfl))
    | exact execClose_turns hx h (Or.inr (Or.inr rfl))

/-- The outside world changes nothing of the machine with few phases. -/
theorem outside_core {e : Op} {new : List Pc} (h : outside σ e = some (σ', new)) :
    σ'.core = σ.core ∧ ∀ u ∈ new, u.phase = none := by
  unfold outside at h
  split at h
  · simp only [Option.some.injEq, Prod.mk.injEq] at h
    obtain ⟨rfl, rfl⟩ := h
    exact ⟨rfl, fun u hu => (by cases hu)⟩
  · simp only [Option.some.injEq, Prod.mk.injEq] at h
    obtain ⟨rfl, rfl⟩ := h
    exact ⟨rfl, fun u hu => (by cases hu)⟩
  · split at h <;> simp only [Option.some.injEq, Prod.mk.injEq, reduceCtorEq] at h
    rename_i x hx
    obtain ⟨rfl, rfl⟩ := h
    exact ⟨core_setGen_same hx rfl, fun u hu => (by cases hu)⟩
  · split at h <;> simp only [Option.some.injEq, Prod.mk.injEq, reduceCtorEq] at h
    rename_i x hx
    obtain ⟨rfl, rfl⟩ := h
    exact ⟨core_setGen_same hx rfl, fun u hu => (by cases hu)⟩
  · split at h <;> simp only [Option.some.injEq, Prod.mk.injEq, reduceCtorEq] at h
    obtain ⟨rfl, rfl⟩ := h
    exact ⟨rfl, fun u hu => (by rw [List.mem_singleton.mp hu]; rfl)⟩

end Sections

/-! ## Rounds -/

/-- What the supervisor has done with generation `g` after its receipt. -/
def Stage.events (g : GenRef) (c : Bool) : Stage → List Event
  | .received => []
  | .published => [.published g]
  | .opened => [.published g, .opened]
  | .cleared => [.published g, .opened, .cleared g]
  | .metered => [.published g, .opened, .cleared g, .sessionClosed]
  | .cleaning => [.published g, .opened, .cleared g, .sessionClosed]
  | .cleaned =>
      [.published g, .opened, .cleared g, .sessionClosed] ++ if c then [.cleaned g] else []

/-- The slot while generation `g` is served. -/
def Stage.slot (g : GenRef) : Stage → Option GenRef
  | .published => some g
  | .opened => some g
  | _ => none

/-- The `cleanupOnce` of the generation that is served. -/
def Stage.once : Stage → Once
  | .cleaning => .running
  | .cleaned => .running
  | _ => .fresh

/-- The trails of complete rounds in which the generations `gs` were received;
    for each it is known whether it has a cleanup function. -/
inductive Rounds : List Bool → List Event → Prop where
  | none : Rounds [] []
  | refused {gs : List Bool} {l : List Event} : Rounds gs l → Rounds gs (l ++ [.called])
  | served {gs : List Bool} {l : List Event} (c : Bool) : Rounds gs l →
      Rounds (gs ++ [c])
        (l ++ [.called] ++ Stage.cleaned.events gs.length c ++ [.closed gs.length])

/-- What holds in a phase: the trail is complete rounds and what the phase says of
    the round that is not complete. -/
def Trails (κ : Core) : Phase → Prop
  | .idle => κ.slot = none ∧ Rounds (κ.gens.map Prod.fst) κ.log
  | .calling => κ.slot = none ∧ ∃ l, Rounds (κ.gens.map Prod.fst) l ∧ κ.log = l ++ [.called]
  | .serving g st =>
      κ.slot = st.slot g ∧ ∃ gs c l, κ.gens = gs ++ [(c, st.once)] ∧ g = gs.length ∧
        Rounds (gs.map Prod.fst) l ∧ κ.log = l ++ [.called] ++ st.events g c

/-- The last generation. -/
theorem getElem?_last {gs : List (Bool × Once)} {x y : Bool × Once}
    (h : (gs ++ [x])[gs.length]? = some y) : y = x := by
  rw [List.getElem?_append_right (Nat.le_refl _), Nat.sub_self] at h
  exact (Option.some.inj h).symm

theorem set_last (gs : List (Bool × Once)) (x y : Bool × Once) :
    (gs ++ [x]).set gs.length y = gs ++ [y] := by
  rw [List.set_append_right _ _ (Nat.le_refl _), Nat.sub_self]
  rfl

/-- **TURNS KEEP TRAILS**. -/
theorem turn_trails {κ κ' : Core} {p p' : Phase} (h : Turn κ p κ' p') (hT : Trails κ p) :
    Trails κ' p' := by
  cases h with
  | call => exact ⟨hT.1, κ.log, hT.2, rfl⟩
  | refuse =>
      obtain ⟨hslot, l, hl, hlog⟩ := hT
      refine ⟨hslot, ?_⟩
      rw [hlog]
      exact Rounds.refused hl
  | receive c =>
      obtain ⟨hslot, l, hl, hlog⟩ := hT
      exact ⟨hslot, κ.gens, c, l, rfl, rfl, hl, by rw [hlog]; exact (List.append_nil _).symm⟩
  | publish g =>
      obtain ⟨-, gs, c, l, hgens, hg, hl, hlog⟩ := hT
      exact ⟨rfl, gs, c, l, hgens, hg, hl, by simp only [hlog, Stage.events, List.append_assoc]; rfl⟩
  | openSession g =>
      obtain ⟨hslot, gs, c, l, hgens, hg, hl, hlog⟩ := hT
      exact ⟨hslot, gs, c, l, hgens, hg, hl,
        by simp only [hlog, Stage.events, List.append_assoc]; rfl⟩
  | clear g =>
      obtain ⟨hslot, gs, c, l, hgens, hg, hl, hlog⟩ := hT
      exact ⟨if_pos hslot, gs, c, l, hgens, hg, hl,
        by simp only [hlog, Stage.events, List.append_assoc]; rfl⟩
  | closeSession g =>
      obtain ⟨hslot, gs, c, l, hgens, hg, hl, hlog⟩ := hT
      exact ⟨hslot, gs, c, l, hgens, hg, hl,
        by simp only [hlog, Stage.events, List.append_assoc]; rfl⟩
  | enter g d hget =>
      obtain ⟨hslot, gs, c, l, hgens, rfl, hl, hlog⟩ := hT
      rw [hgens] at hget
      obtain ⟨rfl, -⟩ := Prod.mk.inj (getElem?_last hget)
      exact ⟨hslot, gs, d, l, by simp only [hgens, set_last]; rfl, rfl, hl, hlog⟩
  | skip g d hget =>
      -- the generation that is served has not been closed
      obtain ⟨hslot, gs, c, l, hgens, rfl, hl, hlog⟩ := hT
      rw [hgens] at hget
      cases (Prod.mk.inj (getElem?_last hget)).2
  | clean g d o hget =>
      obtain ⟨hslot, gs, c, l, hgens, rfl, hl, hlog⟩ := hT
      rw [hgens] at hget
      obtain ⟨rfl, -⟩ := Prod.mk.inj (getElem?_last hget)
      refine ⟨hslot, gs, d, l, hgens, rfl, hl, ?_⟩
      simp only [hlog, Stage.events, List.append_assoc]
  | leave g d o hget =>
      obtain ⟨hslot, gs, c, l, hgens, rfl, hl, hlog⟩ := hT
      rw [hgens] at hget
      obtain ⟨rfl, -⟩ := Prod.mk.inj (getElem?_last hget)
      refine ⟨hslot, ?_⟩
      have hround := Rounds.served d hl
      rw [List.length_map] at hround
      simp only [hgens, set_last, hlog, List.map_append]
      exact hround

/-! ## Runs -/

/-- Goroutines that run the supervisor. -/
def Pc.supervises (t : Pc) : Bool := t.phase.isSome

/-- What the assertion of a control point says. -/
def Supervises (_ : Nat) (σ : Shared) (t : Pc) : Prop :=
  ∀ p, t.phase = some p → Trails σ.core p

section Runs

variable {retryDelay : Nat → Int} {s : SupervisorPool}

theorem turns_supervises {σ σ' : Shared} {t t' : Pc} (h : Turns σ t σ' t') :
    t'.supervises = t.supervises := by
  unfold Pc.supervises
  rcases h with ⟨-, hphase⟩ | ⟨p, p', hp, hp', -⟩
  · rw [hphase]
  · rw [hp, hp']
    rfl

theorem run_turns {i : Nat} {c : Choice} {σ σ' : Shared} {t t' : Pc} {new : List Pc}
    (hok : either s (.run i c))
    (h : (supervisorMachine retryDelay).exec i σ t c = some (σ', t', new)) :
    Turns σ t σ' t' ∧ new = [] := by
  obtain ⟨⟨σ₁, t₁⟩, he, hr⟩ := Option.map_eq_some_iff.mp h
  simp only [Prod.mk.injEq] at hr
  obtain ⟨rfl, rfl, rfl⟩ := hr
  refine ⟨exec_turns (fun a o _ ho => ?_) he, rfl⟩
  subst ho
  exact hok

/-- The other goroutines change nothing of the machine with few phases. -/
theorem run_other {i : Nat} {c : Choice} {σ σ' : Shared} {t t' : Pc} {new : List Pc}
    (ht : t.phase = none)
    (h : (supervisorMachine retryDelay).exec i σ t c = some (σ', t', new)) :
    σ'.core = σ.core := by
  obtain ⟨⟨σ₁, t₁⟩, he, hr⟩ := Option.map_eq_some_iff.mp h
  simp only [Prod.mk.injEq] at hr
  obtain ⟨rfl, rfl, rfl⟩ := hr
  rcases exec_turns (fun a o hcall _ => (by rw [hcall] at ht; cases ht)) he with
    ⟨hcore, -⟩ | ⟨p, p', hp, -, -⟩
  · exact hcore
  · rw [ht] at hp
    cases hp

/-- One goroutine runs the supervisor. -/
theorem one_supervisor (h : SupervisorReach retryDelay s) :
    load (one Pc.supervises) s.threads = 1 := by
  refine Reach.invariant (I := fun s : SupervisorPool =>
    load (one Pc.supervises) s.threads = 1) rfl ?_ h
  intro s a s' _ hI hok hs
  cases a with
  | run i c =>
      obtain ⟨t, σ', t', new, ht, he, rfl⟩ := Machine.step_run hs
      obtain ⟨hturns, rfl⟩ := run_turns hok he
      have hset := load_set (one Pc.supervises) t' ht
      rw [one, one, turns_supervises hturns] at hset
      show load (one Pc.supervises) (s.threads.set i t' ++ []) = 1
      rw [List.append_nil]
      omega
  | env e =>
      obtain ⟨σ', new, he, rfl⟩ := Machine.step_env hs
      have hnew : load (one Pc.supervises) new = 0 := by
        refine load_eq_zero fun u hu => ?_
        rw [one, Pc.supervises, (outside_core he).2 u hu]
        rfl
      rw [load_append, hnew]
      exact hI

/-- **SUPERVISION**: under every interleaving the supervisor's place in the code
    says how far its trail is. -/
theorem supervised (h : SupervisorReach retryDelay s) :
    Annotated (fun _ => True) Supervises s := by
  refine Machine.owickiGries (M := supervisorMachine retryDelay)
    (J := SupervisorReach retryDelay) (fun s hs => hs) (fun _ => True) Supervises
    ?_ ?_ ?_ ?_ h
  · refine ⟨trivial, ?_⟩
    intro i t ht p hp
    rw [List.mem_singleton.mp (List.mem_of_getElem? ht)] at hp
    obtain rfl := Option.some.inj hp
    exact ⟨rfl, Rounds.none⟩
  · intro s i t c σ' t' new _ _ hok he _ hL
    obtain ⟨hturns, rfl⟩ := run_turns hok he
    refine ⟨trivial, ?_, fun n u hu => (by cases hu)⟩
    intro q hq
    rcases hturns with ⟨hcore, hphase⟩ | ⟨p, p', hp, hp', hturn⟩
    · rw [hcore]
      exact hL q (hphase ▸ hq)
    · obtain rfl : p' = q := Option.some.inj (hp'.symm.trans hq)
      exact turn_trails hturn (hL p hp)
  · intro s i j t u c σ' t' new hr hij ht hu he _ _ hLu p hp
    have hnone : t.phase = none := by
      by_contra hsome
      have hone := one_supervisor hr
      have htwo := add_le_load (one Pc.supervises) hij ht hu
      have h1 := one_pos_iff.mpr (show t.supervises = true from
        Option.isSome_iff_ne_none.mpr hsome)
      have h2 := one_pos_iff.mpr (show u.supervises = true by rw [Pc.supervises, hp]; rfl)
      omega
    rw [run_other hnone he]
    exact hLu p hp
  · intro s e σ' new _ _ he _
    obtain ⟨hcore, hnone⟩ := outside_core he
    refine ⟨trivial, ?_, ?_⟩
    · intro n u hu p hp
      rw [hnone u hu] at hp
      cases hp
    · intro j u _ hLu p hp
      rw [hcore]
      exact hLu p hp

/-- The supervisor is somewhere. -/
theorem exists_phase (h : SupervisorReach retryDelay s) : ∃ p, Trails s.shared.core p := by
  have hsome : 0 < load (one Pc.supervises) s.threads := by
    rw [one_supervisor h]
    exact Nat.one_pos
  obtain ⟨i, t, ht, hpos⟩ := exists_of_load_pos hsome
  obtain ⟨p, hp⟩ := Option.isSome_iff_exists.mp (one_pos_iff.mp hpos)
  exact ⟨p, (supervised h).2 i t ht p hp⟩

/-- A supervisor at a control point leaves the trail of its phase. -/
theorem trails_of_mem (h : SupervisorReach retryDelay s) {t : Pc} (ht : t ∈ s.threads)
    {p : Phase} (hp : t.phase = some p) : Trails s.shared.core p := by
  obtain ⟨i, hi⟩ := List.getElem?_of_mem ht
  exact (supervised h).2 i t hi p hp

end Runs

/-! ## Counting -/

/-- The supervisor is done with a generation: it has published, cleared and closed
    it once, and its cleanup function, if there is one, has run once. -/
structure Done (log : List Event) (g : GenRef) (cleanup : Bool) : Prop where
  published : log.count (.published g) = 1
  cleared : log.count (.cleared g) = 1
  closed : log.count (.closed g) = 1
  cleaned : log.count (.cleaned g) = if cleanup then 1 else 0

/-- Nothing was done with a generation. -/
structure Untouched (log : List Event) (g : GenRef) : Prop where
  published : log.count (.published g) = 0
  cleared : log.count (.cleared g) = 0
  closed : log.count (.closed g) = 0
  cleaned : log.count (.cleaned g) = 0

/-- Later events about other generations change nothing. -/
theorem Done.append {log more : List Event} {g : GenRef} {c : Bool} (h : Done log g c)
    (hmore : Untouched more g) : Done (log ++ more) g c := by
  constructor <;> rw [List.count_append]
  · rw [h.published, hmore.published]
  · rw [h.cleared, hmore.cleared]
  · rw [h.closed, hmore.closed]
  · rw [h.cleaned, hmore.cleaned, Nat.add_zero]

theorem Untouched.append {log more : List Event} {g : GenRef} (h : Untouched log g)
    (hmore : Untouched more g) : Untouched (log ++ more) g := by
  constructor <;> rw [List.count_append]
  · rw [h.published, hmore.published]
  · rw [h.cleared, hmore.cleared]
  · rw [h.closed, hmore.closed]
  · rw [h.cleaned, hmore.cleaned]

theorem untouched_called (g : GenRef) : Untouched [.called] g :=
  ⟨rfl, rfl, rfl, rfl⟩

theorem Untouched.sublist {log part : List Event} {g : GenRef} (h : Untouched log g)
    (hpart : part.Sublist log) : Untouched part g where
  published := Nat.le_zero.mp (h.published ▸ hpart.count_le _)
  cleared := Nat.le_zero.mp (h.cleared ▸ hpart.count_le _)
  closed := Nat.le_zero.mp (h.closed ▸ hpart.count_le _)
  cleaned := Nat.le_zero.mp (h.cleaned ▸ hpart.count_le _)

/-- The events up to a stage are a part of those of the whole round. -/
theorem events_sublist (g : GenRef) (c : Bool) (st : Stage) :
    (st.events g c).Sublist (Stage.cleaned.events g c) := by
  cases st with
  | cleaned => exact List.Sublist.refl _
  | _ => exact List.IsPrefix.sublist ⟨_, rfl⟩

theorem untouched_events {g d : GenRef} (h : d ≠ g) (st : Stage) (c : Bool) :
    Untouched (st.events d c) g := by
  have hround : Untouched (Stage.cleaned.events d c) g := by
    constructor <;> cases c <;> simp [Stage.events, h]
  exact hround.sublist (events_sublist d c st)

theorem untouched_closed {g d : GenRef} (h : d ≠ g) : Untouched [.closed d] g := by
  constructor <;> simp [h]

/-- One round is enough. -/
theorem done_round {log : List Event} {g : GenRef} (h : Untouched log g) (c : Bool) :
    Done (log ++ [.called] ++ Stage.cleaned.events g c ++ [.closed g]) g c := by
  constructor <;> simp only [List.count_append, h.published, h.cleared, h.closed, h.cleaned] <;>
    cases c <;> simp [Stage.events]

/-- **ROUNDS COUNT**: after complete rounds every generation that was received is
    done, no other was touched, and as many sessions were closed as opened. -/
theorem rounds_count {gs : List Bool} {log : List Event} (h : Rounds gs log) :
    (∀ g c, gs[g]? = some c → Done log g c) ∧ (∀ g, gs.length ≤ g → Untouched log g) ∧
      log.count .opened = log.count .sessionClosed := by
  induction h with
  | none => exact ⟨fun g c hg => (by cases hg), fun g _ => ⟨rfl, rfl, rfl, rfl⟩, rfl⟩
  | refused h ih =>
      obtain ⟨hdone, hnot, hopen⟩ := ih
      refine ⟨fun g c hg => (hdone g c hg).append (untouched_called g),
        fun g hg => (hnot g hg).append (untouched_called g), ?_⟩
      rw [List.count_append, List.count_append, hopen]
      rfl
  | @served gs l c h ih =>
      obtain ⟨hdone, hnot, hopen⟩ := ih
      refine ⟨?_, ?_, ?_⟩
      · intro g d hg
        rw [getElem?_snoc] at hg
        by_cases hlast : g = gs.length
        · rw [if_pos hlast] at hg
          obtain rfl := Option.some.inj hg
          subst hlast
          exact done_round (hnot _ (Nat.le_refl _)) c
        · rw [if_neg hlast] at hg
          have hne : gs.length ≠ g := fun he => hlast he.symm
          exact (((hdone g d hg).append (untouched_called g)).append
            (untouched_events hne .cleaned c)).append (untouched_closed hne)
      · intro g hg
        rw [List.length_append, List.length_singleton] at hg
        have hne : gs.length ≠ g := Nat.ne_of_lt hg
        exact (((hnot g (Nat.le_of_lt hg)).append (untouched_called g)).append
          (untouched_events hne .cleaned c)).append (untouched_closed hne)
      · simp only [List.count_append, hopen]
        cases c <;> simp [Stage.events]

/-- A generation that is served was touched at most once. -/
theorem events_count_le (g : GenRef) (c : Bool) (st : Stage) :
    (st.events g c).count (.published g) ≤ 1 ∧ (st.events g c).count (.closed g) ≤ 1 ∧
      (st.events g c).count (.cleaned g) ≤ 1 ∧
      ((st.events g c).count .opened = (st.events g c).count .sessionClosed ∨
        (st.events g c).count .opened = (st.events g c).count .sessionClosed + 1) := by
  have hpart := events_sublist g c st
  have hround : (Stage.cleaned.events g c).count (.published g) ≤ 1 ∧
      (Stage.cleaned.events g c).count (.closed g) ≤ 1 ∧
      (Stage.cleaned.events g c).count (.cleaned g) ≤ 1 := by
    cases c <;> simp [Stage.events]
  refine ⟨(hpart.count_le _).trans hround.1, (hpart.count_le _).trans hround.2.1,
    (hpart.count_le _).trans hround.2.2, ?_⟩
  -- a session is open from `opened` until it is metered
  cases st with
  | opened => exact Or.inr rfl
  | cleared => exact Or.inr rfl
  | cleaned => cases c <;> exact Or.inl rfl
  | _ => exact Or.inl rfl

/-- What the counts of a trail say of the generations and the sessions. -/
structure Counted (κ : Core) : Prop where
  once : ∀ g, κ.log.count (.published g) ≤ 1 ∧ κ.log.count (.closed g) ≤ 1 ∧
    κ.log.count (.cleaned g) ≤ 1
  older : ∀ g x, κ.gens[g]? = some x → g + 1 < κ.gens.length → Done κ.log g x.1
  slot : κ.slot = none ∨ κ.gens ≠ [] ∧ κ.slot = some (κ.gens.length - 1)
  stands : ∀ g, κ.slot = some g ↔
    κ.log.count (.published g) = 1 ∧ κ.log.count (.cleared g) = 0
  sessions : κ.log.count .opened = κ.log.count .sessionClosed ∨
    κ.log.count .opened = κ.log.count .sessionClosed + 1

theorem Done.once {log : List Event} {g : GenRef} {c : Bool} (h : Done log g c) :
    log.count (.published g) ≤ 1 ∧ log.count (.closed g) ≤ 1 ∧ log.count (.cleaned g) ≤ 1 := by
  rw [h.published, h.closed, h.cleaned]
  exact ⟨Nat.le_refl 1, Nat.le_refl 1, by split <;> omega⟩

/-- Complete rounds, by generation. -/
theorem rounds_done {gens : List (Bool × Once)} {log : List Event}
    (h : Rounds (gens.map Prod.fst) log) {g : GenRef} {x : Bool × Once}
    (hx : gens[g]? = some x) : Done log g x.1 :=
  (rounds_count h).1 g x.1 (by rw [List.getElem?_map, hx]; rfl)

theorem rounds_once {gs : List Bool} {log : List Event} (h : Rounds gs log) (g : GenRef) :
    log.count (.published g) ≤ 1 ∧ log.count (.closed g) ≤ 1 ∧ log.count (.cleaned g) ≤ 1 := by
  obtain ⟨hdone, hnot, -⟩ := rounds_count h
  cases hg : gs[g]? with
  | some c => exact (hdone g c hg).once
  | none =>
      have hz := hnot g (List.getElem?_eq_none_iff.mp hg)
      rw [hz.published, hz.closed, hz.cleaned]
      exact ⟨Nat.zero_le 1, Nat.zero_le 1, Nat.zero_le 1⟩

/-- Behind complete rounds no generation stands. -/
theorem rounds_none_stands {gs : List Bool} {log : List Event} (h : Rounds gs log) (g : GenRef) :
    ¬ (log.count (.published g) = 1 ∧ log.count (.cleared g) = 0) := by
  obtain ⟨hdone, hnot, -⟩ := rounds_count h
  cases hg : gs[g]? with
  | some c =>
      rw [(hdone g c hg).cleared]
      exact fun hstands => absurd hstands.2 Nat.one_ne_zero
  | none =>
      rw [(hnot g (List.getElem?_eq_none_iff.mp hg)).published]
      exact fun hstands => absurd hstands.1 Nat.zero_ne_one

/-- A generation that is served stands while it is published and not cleared. -/
theorem events_stands (g : GenRef) (c : Bool) (st : Stage) :
    st.slot g = some g ↔
      (st.events g c).count (.published g) = 1 ∧ (st.events g c).count (.cleared g) = 0 := by
  cases st with
  | cleaned => cases c <;> simp [Stage.slot, Stage.events]
  | _ => simp [Stage.slot, Stage.events]

/-- **TRAILS COUNT**: whatever the phase, the trail says how often each generation
    was published and closed. -/
theorem trails_counted {κ : Core} {p : Phase} (h : Trails κ p) : Counted κ := by
  cases p with
  | idle =>
      obtain ⟨hslot, hrounds⟩ := h
      refine ⟨rounds_once hrounds, fun g x hx _ => rounds_done hrounds hx, Or.inl hslot, ?_,
        Or.inl (rounds_count hrounds).2.2⟩
      intro g
      rw [hslot, iff_false_right (rounds_none_stands hrounds g)]
      exact Option.some_ne_none g |>.symm
  | calling =>
      -- the call itself is a refused round
      obtain ⟨hslot, l, hrounds, hlog⟩ := h
      have hcalled := Rounds.refused hrounds
      rw [← hlog] at hcalled
      refine ⟨rounds_once hcalled, fun g x hx _ => rounds_done hcalled hx, Or.inl hslot, ?_,
        Or.inl (rounds_count hcalled).2.2⟩
      intro g
      rw [hslot, iff_false_right (rounds_none_stands hcalled g)]
      exact Option.some_ne_none g |>.symm
  | serving g st =>
      obtain ⟨hslot, gs, c, l, hgens, rfl, hrounds, hlog⟩ := h
      have hcalled := Rounds.refused hrounds
      generalize l ++ [Event.called] = m at hcalled hlog
      obtain ⟨-, hnot, hopen⟩ := rounds_count hcalled
      obtain ⟨hp, hc, hcl, hses⟩ := events_count_le gs.length c st
      have hzero := hnot gs.length (le_of_eq (List.length_map _))
      refine ⟨?_, ?_, ?_, ?_, ?_⟩
      · intro g
        rw [hlog]
        by_cases hg : gs.length = g
        · subst hg
          simp only [List.count_append, hzero.published, hzero.closed,
            hzero.cleaned, Nat.zero_add]
          exact ⟨hp, hc, hcl⟩
        · have hother := untouched_events hg st c
          simp only [List.count_append, hother.published, hother.closed,
            hother.cleaned, Nat.add_zero]
          exact rounds_once hcalled g
      · intro g x hx hlt
        rw [hgens, List.length_append, List.length_singleton] at hlt
        have hlt' : g < gs.length := Nat.lt_of_succ_lt_succ hlt
        rw [hgens, List.getElem?_append_left hlt'] at hx
        rw [hlog]
        exact (rounds_done hcalled hx).append (untouched_events (Nat.ne_of_gt hlt') st c)
      · rw [hslot, hgens, List.length_append, List.length_singleton, Nat.add_sub_cancel]
        cases st with
        | published => exact Or.inr ⟨by simp, rfl⟩
        | opened => exact Or.inr ⟨by simp, rfl⟩
        | _ => exact Or.inl rfl
      · intro g
        rw [hlog, hslot]
        by_cases hg : gs.length = g
        · subst hg
          simp only [List.count_append, hzero.published, hzero.cleared, Nat.zero_add]
          exact events_stands gs.length c st
        · have hother := untouched_events hg st c
          simp only [List.count_append, hother.published, hother.cleared, Nat.add_zero]
          rw [iff_false_right (rounds_none_stands hcalled g)]
          cases st <;> simp [Stage.slot, hg]
      · rw [hlog, List.count_append, List.count_append, hopen]
        omega

/-- **SUPERVISOR**: for every factory that returns a generation or an error and
    under every interleaving with closing sessions, failures, the clock and a
    cancellation, the factory is called only when the slot is empty and every
    generation received before was published, cleared and closed once and its
    cleanup function has run once; no generation is published or closed twice;
    the slot is empty or has the latest generation, and it has a generation
    exactly from its publication until it is cleared; at most one session is open
    by the calls of `SessionOpened` and `SessionClosed`; and when the supervisor
    returns, the slot is empty, all generations are done and no session is
    open. -/
theorem supervisor_lifecycle (retryDelay : Nat → Int) (s : SupervisorPool)
    (h : SupervisorReach retryDelay s) :
    (∀ a, .calling a ∈ s.threads → s.shared.slot.current = none ∧
      ∀ g x, s.shared.gens[g]? = some x → Done s.shared.log g x.cleanup) ∧
    (∀ g, s.shared.log.count (.published g) ≤ 1 ∧ s.shared.log.count (.closed g) ≤ 1 ∧
      s.shared.log.count (.cleaned g) ≤ 1) ∧
    (∀ g x, s.shared.gens[g]? = some x → g + 1 < s.shared.gens.length →
      Done s.shared.log g x.cleanup) ∧
    (s.shared.slot.current = none ∨
      s.shared.gens ≠ [] ∧ s.shared.slot.current = some (s.shared.gens.length - 1)) ∧
    (∀ g, s.shared.slot.current = some g ↔
      s.shared.log.count (.published g) = 1 ∧ s.shared.log.count (.cleared g) = 0) ∧
    ((s.shared.log.count .opened : Int) - s.shared.log.count .sessionClosed = 0 ∨
      (s.shared.log.count .opened : Int) - s.shared.log.count .sessionClosed = 1) ∧
    (.returned ∈ s.threads → s.shared.slot.current = none ∧
      (s.shared.log.count .opened : Int) - s.shared.log.count .sessionClosed = 0 ∧
      ∀ g x, s.shared.gens[g]? = some x → Done s.shared.log g x.cleanup) := by
  obtain ⟨p, hp⟩ := exists_phase h
  have hcount := trails_counted hp
  refine ⟨?_, hcount.once, ?_, ?_, hcount.stands, ?_, ?_⟩
  · intro a ha
    obtain ⟨hslot, l, hrounds, hlog⟩ := trails_of_mem h ha rfl
    have hcalled := Rounds.refused hrounds
    rw [← hlog] at hcalled
    exact ⟨hslot, fun g x hx => rounds_done hcalled (core_get hx)⟩
  · intro g x hx hlt
    exact hcount.older g _ (core_get hx) (by rw [Shared.core, List.length_map]; exact hlt)
  · rcases hcount.slot with hnone | ⟨hne, hsome⟩
    · exact Or.inl hnone
    · refine Or.inr ⟨fun he => hne ?_, ?_⟩
      · rw [Shared.core, he]
        rfl
      · rw [Shared.core, List.length_map] at hsome
        exact hsome
  · have := hcount.sessions
    simp only [Shared.core] at this
    omega
  · intro hret
    obtain ⟨hslot, hrounds⟩ := trails_of_mem h hret rfl
    have hopen := (rounds_count hrounds).2.2
    simp only [Shared.core] at hopen
    exact ⟨hslot, by omega, fun g x hx => rounds_done hrounds (core_get hx)⟩

/-- A setup fails, the next one gives a generation, which another goroutine fails;
    the context is cancelled after the generation was closed. -/
theorem failed_generation_done :
    ∃ s, SupervisorReach (fun _ => 1) s ∧ .returned ∈ s.threads ∧
      s.shared.gens.length = 1 ∧ s.shared.slot.current = none ∧ Done s.shared.log 0 true := by
  obtain ⟨s, hr, hp⟩ := Reach.of_follow (supervisorStep fun _ => 1) either ⟨{}, [.top 0]⟩
    [.run 0 .go, .run 0 (.result ⟨none, some []⟩), .run 0 .go, .run 0 .go, .run 0 .go,
      .env (.tick 1), .run 0 .timer, .run 0 .go,
      .run 0 (.result ⟨some ⟨[], some false, none, true, 0⟩, none⟩), .run 0 .go, .run 0 .go,
      .run 0 .go, .run 0 .go, .env (.fail 0 none), .run 1 .go, .run 1 .go, .run 1 .go,
      .run 1 .go, .run 0 .failed, .run 0 .go, .run 0 .go, .run 0 .go, .run 0 .go, .run 0 .go,
      .run 0 .go, .run 0 .go, .env .cancel, .run 0 .go]
    (fun s : SupervisorPool => s.threads = [.returned, .failReturned] &&
      s.shared.gens.map Generation.cleanup = [true]) (by decide)
  simp only [Bool.and_eq_true, decide_eq_true_eq] at hp
  obtain ⟨hthreads, hgens⟩ := hp
  have hret : Pc.returned ∈ s.threads := by
    rw [hthreads]
    exact List.mem_cons_self ..
  obtain ⟨-, -, -, -, -, -, hend⟩ := supervisor_lifecycle (fun _ => 1) s hr
  obtain ⟨hslot, -, hdone⟩ := hend hret
  obtain ⟨x, hx⟩ : ∃ x, s.shared.gens = [x] :=
    List.length_eq_one_iff.mp (by rw [← List.length_map Generation.cleanup, hgens]; rfl)
  rw [hx] at hgens
  have hclean : x.cleanup = true := (List.cons.inj hgens).1
  refine ⟨s, hr, hret, by rw [hx]; rfl, hslot, ?_⟩
  rw [← hclean]
  exact hdone 0 x (by rw [hx]; rfl)

end VkTurnSupervisor
