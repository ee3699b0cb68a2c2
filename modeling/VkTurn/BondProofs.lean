import VkTurn.GoTextProofs
import VkTurn.ThreadPoolProofs
import VkTurn.StripeProofs

/-! # The bonded packet connection as a thread pool

    `BondedPacketConn` is entered by many goroutines at once: `AddConn`
    callers, one `readLoop` per admitted path, `WriteTo` callers, `Close`
    callers and the callback of the empty-grace timer.  This file is its
    faithful model.  A control point (`Pc`) is a place between two atomic
    sections of a source function; `exec` runs one section.

    The mutex `b.mu` is explicit where a section is not atomic against the rest
    of the program: `AddConn` and `startEmptyGrace` look at the `closed`
    channel while they hold the mutex, and `Close` closes that channel without
    it.  Every other section is one step that needs the mutex free.

    `Moves` lists what a section can do, one constructor per branch of the
    source; every invariant of the bond is proved over `Moves`, never by
    unfolding `exec`. -/

namespace VkTurnBond

open ThreadPool VkTurnStripe GoText

/-! ## Path write errors -/

/-- What the code asks of a Go error: the sentinels `errors.Is` finds in it,
    `Timeout()` of the `net.Error` that `errors.As` finds, and its text. -/
structure GoError where
  isErrClosed : Bool := false
  isErrClosedPipe : Bool := false
  isEOF : Bool := false
  timeout : Option Bool := none
  text : Bytes := []
  deriving DecidableEq, Repr

/-- `isPermanentPathError`: is the path dead, rather than slow. -/
def isPermanentPathError (err : GoError) : Bool :=
  if err.isErrClosed || err.isErrClosedPipe || err.isEOF then true
  else if err.timeout = some true then false
  else
    let msg := toLowerText err.text
    if containsText msg (ascii "deadline exceeded") || containsText msg (ascii "timeout")
      || containsText msg (ascii "temporarily") || containsText msg (ascii "short write")
      || containsText msg (ascii "buffer") then false
    else containsText msg (ascii "closed") || containsText msg (ascii "broken pipe")
      || containsText msg (ascii "reset") || containsText msg (ascii "use of closed")

/-- `ioShortWrite`. -/
def ioShortWrite (n want : Nat) : GoError where
  text := ascii "short write: wrote " ++ decimal n ++ ascii " of " ++ decimal want ++ ascii " bytes"

/-- What one `path.conn.Write` returned. -/
structure WriteResult where
  n : Nat
  err : Option GoError
  deriving DecidableEq, Repr

/-- The error of a write after the short-write test of `WriteTo`. -/
def WriteResult.failure (r : WriteResult) (want : Nat) : Option GoError :=
  match r.err with
  | some e => some e
  | none => if r.n = want then none else some (ioShortWrite r.n want)

/-! ## State -/

/-- A pointer to a `bondedPath`, by order of allocation. -/
abbrev PathRef := Nat

/-- A `time.AfterFunc` timer, by order of creation. -/
abbrev TimerRef := Nat

/-- A `net.Conn`. -/
abbrev Conn := Nat

/-- `sync.Once`. -/
inductive Once where
  | fresh
  | running
  | finished
  deriving DecidableEq, Repr

/-- A `bondedPath`: its connection, and whether its cleanup is not `nil`. -/
structure BondedPath where
  conn : Conn
  cleanup : Bool
  deriving DecidableEq, Repr

/-- The fields of `BondedPacketConn` that decide what its methods do.
    `stateCh` is the one-slot notification channel. -/
structure BondedPacketConn where
  paths : List PathRef := []
  nextPath : UInt64 := 0
  stateCh : Bool := false
  closeOnce : Once := .fresh
  closed : Bool := false
  emptyTimer : Option TimerRef := none
  emptyExpired : Bool := false
  deriving DecidableEq, Repr

/-- What is done to a path, in the order it is done. -/
inductive Event where
  | appended (p : PathRef)
  | connClosed (p : PathRef)
  | cleanedUp (p : PathRef)
  | doneClosed (p : PathRef)
  deriving DecidableEq, Repr

/-- The bond and what its goroutines share.  `heap` holds every `bondedPath`
    allocated, `mu` the thread that holds `b.mu` between two sections, `armed`
    the timers that have neither fired nor been stopped.  Two history
    variables: `log`, and `stopped`, that `Close` has left its timer section. -/
structure Shared where
  bond : BondedPacketConn := {}
  heap : List BondedPath := []
  mu : Option Nat := none
  timers : Nat := 0
  armed : List TimerRef := []
  stopped : Bool := false
  log : List Event := []
  deriving DecidableEq, Repr

/-- `notifyStateChanged`: a full slot stays full. -/
def BondedPacketConn.notifyStateChanged (b : BondedPacketConn) : BondedPacketConn :=
  { b with stateCh := true }

/-- `Count`. -/
def BondedPacketConn.count (b : BondedPacketConn) : Nat := b.paths.length

/-- `startEmptyGrace` has nothing to arm. -/
def BondedPacketConn.graceIdle (b : BondedPacketConn) : Bool :=
  b.paths ≠ [] || b.emptyTimer.isSome || b.emptyExpired

/-- `b.emptyTimer.Stop(); b.emptyTimer = nil`, when there is a timer. -/
def Shared.stopTimer (σ : Shared) : Shared :=
  { σ with armed := σ.armed.filter (fun t => σ.bond.emptyTimer ≠ some t)
           bond := { σ.bond with emptyTimer := none } }

/-- The locked end of `AddConn`: cancel the grace timer, list the path. -/
def Shared.append (σ : Shared) (p : PathRef) : Shared :=
  let σ := σ.stopTimer
  { σ with mu := none
           bond := { σ.bond with paths := σ.bond.paths ++ [p] }
           log := σ.log ++ [.appended p] }

/-- The locked part of `removePath`, when the path is listed. -/
def Shared.unlink (σ : Shared) (p : PathRef) : Shared :=
  { σ with bond := { σ.bond with paths := σ.bond.paths.erase p } }

/-- The locked end of `startEmptyGrace`: a new timer. -/
def Shared.arm (σ : Shared) : Shared :=
  { σ with mu := none
           timers := σ.timers + 1
           armed := σ.armed ++ [σ.timers]
           bond := { σ.bond with emptyTimer := some σ.timers } }

/-- Record one event. -/
def Shared.record (σ : Shared) (e : Event) : Shared :=
  { σ with log := σ.log ++ [e] }

/-- `notifyStateChanged` on the shared bond. -/
def Shared.notify (σ : Shared) : Shared :=
  { σ with bond := σ.bond.notifyStateChanged }

/-- `path.cleanup != nil`. -/
def Shared.hasCleanup (σ : Shared) (p : PathRef) : Bool :=
  match σ.heap[p]? with
  | some path => path.cleanup
  | none => false

/-- The cleanup of a path, when it has one. -/
def Shared.cleanupEvents (σ : Shared) (p : PathRef) : List Event :=
  if σ.hasCleanup p then [.cleanedUp p] else []

/-- `if path.cleanup != nil { path.cleanup() }`. -/
def Shared.runCleanup (σ : Shared) (p : PathRef) : Shared :=
  { σ with log := σ.log ++ σ.cleanupEvents p }

/-! ## Control points -/

/-- The frame below a `removePath` call.  `WriteTo` still has the rest of its
    attempts to make, the sweep of `Close` the rest of its snapshot. -/
inductive Caller where
  | readLoop
  | writeTo (n : Nat) (rest : List (Option PathRef))
  | close (rest : List PathRef)
  deriving DecidableEq, Repr

/-- The frame below a `startEmptyGrace` call. -/
inductive GraceCaller where
  | removed (p : PathRef) (k : Caller)
  | writeEmpty (n : Nat)
  | writeEnd (n : Nat)
  deriving DecidableEq, Repr

/-- What a finished call returned: `AddConn` the done channel of its path,
    `WriteTo` a byte count or `net.ErrClosed`, `Close` nil. -/
inductive Ret where
  | done (p : PathRef)
  | nilDone
  | wrote (n : Nat)
  | errClosed
  | closed
  | ended
  deriving DecidableEq, Repr

/-- A place between two sections.  The group of a control point is the source
    function that it is in. -/
inductive Pc where
  -- AddConn
  | addLock (p : PathRef)
  | addTest (p : PathRef)
  | addNotify (p : PathRef)
  | addSpawn (p : PathRef)
  -- closePath
  | closeConn (p : PathRef)
  | closeCleanup (p : PathRef)
  | closeDone (p : PathRef)
  -- readLoop
  | reading (p : PathRef)
  -- removePath
  | rmLock (p : PathRef) (k : Caller)
  | rmCount (p : PathRef) (k : Caller)
  | rmNotify (p : PathRef) (k : Caller)
  | rmClose (p : PathRef) (k : Caller)
  | rmCleanup (p : PathRef) (k : Caller)
  | rmDone (p : PathRef) (k : Caller)
  -- startEmptyGrace
  | graceLock (g : GraceCaller)
  | graceArm (g : GraceCaller)
  -- WriteTo
  | wEnter (n : Nat)
  | wSnapshot (n : Nat)
  | wStripe (n : Nat) (paths : List PathRef)
  | wTry (n : Nat) (rest : List (Option PathRef))
  | wEndCheck (n : Nat)
  | wEndCount (n : Nat)
  | wDrop (n : Nat)
  -- Close
  | clOnce
  | clChan
  | clTimer
  | clNotify
  | clSnapshot
  | clSweep (rest : List PathRef)
  -- the callback of the empty-grace timer
  | tmLock (t : TimerRef)
  -- the end of a goroutine
  | returned (r : Ret)
  | panicked
  deriving DecidableEq, Repr

/-- The control points at which a thread holds `b.mu`. -/
def Pc.locks : Pc → Bool
  | .addTest _ => true
  | .graceArm _ => true
  | _ => false

/-- Where a `removePath` call returns to. -/
def Caller.resume : Caller → Pc
  | .readLoop => .returned .ended
  | .writeTo n rest => .wTry n rest
  | .close rest => .clSweep rest

/-- Where a `startEmptyGrace` call returns to. -/
def GraceCaller.resume : GraceCaller → Pc
  | .removed p k => .rmNotify p k
  | .writeEmpty n => .wDrop n
  | .writeEnd n => .returned (.wrote n)

/-- What is not up to the bond: the result of a write.  `go` is every other
    section; on `reading` it says that the read loop is over, because `Read`
    failed or because the bond closed on a packet that waited for room. -/
inductive Choice where
  | go
  | wrote (r : WriteResult)
  deriving DecidableEq, Repr

/-- Calls from outside, the timer, and a consumer of `StateChanged`. -/
inductive Op where
  | addConn (conn : Option Conn) (cleanup : Bool)
  | writeTo (n : Nat)
  | close
  | fire (t : TimerRef)
  | recvState
  deriving DecidableEq, Repr

/-! ## Sections -/

/-- One section of thread `i`. -/
def exec (arch : Arch) (i : Nat) (σ : Shared) :
    Pc → Choice → Option (Shared × Pc × List Pc)
  | .addLock p, .go =>
      if σ.mu = none then
        if σ.bond.closed then some (σ, .closeConn p, [])
        else some ({ σ with mu := some i }, .addTest p, [])
      else none
  | .addTest p, .go =>
      if σ.bond.emptyExpired then some ({ σ with mu := none }, .closeConn p, [])
      else some (σ.append p, .addNotify p, [])
  | .addNotify p, .go => some (σ.notify, .addSpawn p, [])
  | .addSpawn p, .go => some (σ, .returned (.done p), [.reading p])
  | .closeConn p, .go => some (σ.record (.connClosed p), .closeCleanup p, [])
  | .closeCleanup p, .go => some (σ.runCleanup p, .closeDone p, [])
  | .closeDone p, .go =>
      some (σ.record (.doneClosed p), .returned (.done p), [])
  | .reading p, .go => some (σ, .rmLock p .readLoop, [])
  | .rmLock p k, .go =>
      if σ.mu = none then
        if p ∈ σ.bond.paths then some (σ.unlink p, .rmCount p k, [])
        else some (σ, k.resume, [])
      else none
  | .rmCount p k, .go =>
      if σ.mu = none then
        if σ.bond.count = 0 then some (σ, .graceLock (.removed p k), [])
        else some (σ, .rmNotify p k, [])
      else none
  | .rmNotify p k, .go => some (σ.notify, .rmClose p k, [])
  | .rmClose p k, .go => some (σ.record (.connClosed p), .rmCleanup p k, [])
  | .rmCleanup p k, .go => some (σ.runCleanup p, .rmDone p k, [])
  | .rmDone p k, .go => some (σ.record (.doneClosed p), k.resume, [])
  | .graceLock g, .go =>
      if σ.mu = none then
        if σ.bond.graceIdle || σ.bond.closed then some (σ, g.resume, [])
        else some ({ σ with mu := some i }, .graceArm g, [])
      else none
  | .graceArm g, .go => some (σ.arm, g.resume, [])
  | .wEnter n, .go =>
      if σ.bond.closed then some (σ, .returned .errClosed, [])
      else some (σ, .wSnapshot n, [])
  | .wSnapshot n, .go =>
      if σ.mu = none then
        if σ.bond.paths = [] then some (σ, .graceLock (.writeEmpty n), [])
        else some (σ, .wStripe n σ.bond.paths, [])
      else none
  | .wStripe n paths, .go =>
      some ({ σ with bond := { σ.bond with nextPath := σ.bond.nextPath + 1 } },
        .wTry n (attempts arch σ.bond.nextPath paths), [])
  | .wTry n [], .go => some (σ, .wEndCheck n, [])
  | .wTry _ (none :: _), .go => some (σ, .panicked, [])
  | .wTry n (some p :: rest), .wrote r =>
      match r.failure n with
      | none => some (σ, .returned (.wrote r.n), [])
      | some e =>
          if isPermanentPathError e then some (σ, .rmLock p (.writeTo n rest), [])
          else some (σ, .wTry n rest, [])
  | .wEndCheck n, .go =>
      if σ.bond.closed then some (σ, .returned .errClosed, [])
      else some (σ, .wEndCount n, [])
  | .wEndCount n, .go =>
      if σ.mu = none then
        if σ.bond.count = 0 then some (σ, .graceLock (.writeEnd n), [])
        else some (σ, .returned (.wrote n), [])
      else none
  | .wDrop n, .go =>
      if σ.bond.closed then some (σ, .returned .errClosed, [])
      else some (σ, .returned (.wrote n), [])
  | .clOnce, .go =>
      match σ.bond.closeOnce with
      | .fresh =>
          some ({ σ with bond := { σ.bond with closeOnce := .running } }, .clChan, [])
      | .running => none
      | .finished => some (σ, .returned .closed, [])
  | .clChan, .go =>
      some ({ σ with bond := { σ.bond with closed := true } }, .clTimer, [])
  | .clTimer, .go =>
      if σ.mu = none then
        some ({ σ.stopTimer with stopped := true }, .clNotify, [])
      else none
  | .clNotify, .go => some (σ.notify, .clSnapshot, [])
  | .clSnapshot, .go =>
      if σ.mu = none then some (σ, .clSweep σ.bond.paths, []) else none
  | .clSweep [], .go =>
      some ({ σ with bond := { σ.bond with closeOnce := .finished } },
        .returned .closed, [])
  | .clSweep (p :: rest), .go => some (σ, .rmLock p (.close rest), [])
  | .tmLock _, .go =>
      if σ.mu = none then
        if σ.bond.count ≠ 0 then
          some ({ σ with bond := { σ.bond with emptyTimer := none } },
            .returned .ended, [])
        else
          some ({ σ with bond :=
            { σ.bond with emptyExpired := true, emptyTimer := none } }, .clOnce, [])
      else none
  | _, _ => none

/-- The outside world: a new call starts a thread, an armed timer fires its
    callback, a consumer empties the notification slot. -/
def outside (σ : Shared) : Op → Option (Shared × List Pc)
  | .addConn none _ => some (σ, [.returned .nilDone])
  | .addConn (some conn) cleanup =>
      some ({ σ with heap := σ.heap ++ [⟨conn, cleanup⟩] }, [.addLock σ.heap.length])
  | .writeTo 0 => some (σ, [.returned (.wrote 0)])
  | .writeTo (n + 1) => some (σ, [.wEnter (n + 1)])
  | .close => some (σ, [.clOnce])
  | .fire t =>
      if t ∈ σ.armed then
        some ({ σ with armed := σ.armed.filter (· ≠ t) }, [.tmLock t])
      else none
  | .recvState =>
      if σ.bond.stateCh then
        some ({ σ with bond := { σ.bond with stateCh := false } }, [])
      else none

/-- The bond as a machine. -/
def bondMachine (arch : Arch) : Machine Shared Pc Choice Op where
  exec := exec arch
  env := outside

/-- A bond and the goroutines inside it. -/
abbrev Bond := Pool Shared Pc

/-- `NewBondedPacketConn`. -/
def newBond : Bond := ⟨{}, []⟩

/-- One step of a bond. -/
def bondStep (arch : Arch) : Bond → Act Choice Op → Option Bond :=
  (bondMachine arch).step

/-- Every state of a bond, under every interleaving. -/
abbrev BondReach (arch : Arch) : Bond → Prop :=
  Reach (bondStep arch) anyStep newBond

/-! ## What a section can do -/

/-- `Moves i σ t σ' t' new`: thread `i` at `t` can run one section, which leaves
    the shared state `σ'`, the thread at `t'` and the threads `new` started. -/
inductive Moves (arch : Arch) (i : Nat) (σ : Shared) :
    Pc → Shared → Pc → List Pc → Prop where
  | addRefused (p : PathRef) : σ.mu = none → σ.bond.closed = true →
      Moves arch i σ (.addLock p) σ (.closeConn p) []
  | addLocked (p : PathRef) : σ.mu = none → σ.bond.closed = false →
      Moves arch i σ (.addLock p) { σ with mu := some i } (.addTest p) []
  | addExpired (p : PathRef) : σ.bond.emptyExpired = true →
      Moves arch i σ (.addTest p) { σ with mu := none } (.closeConn p) []
  | addAppended (p : PathRef) : σ.bond.emptyExpired = false →
      Moves arch i σ (.addTest p) (σ.append p) (.addNotify p) []
  | addNotified (p : PathRef) :
      Moves arch i σ (.addNotify p) σ.notify (.addSpawn p) []
  | addSpawned (p : PathRef) :
      Moves arch i σ (.addSpawn p) σ (.returned (.done p)) [.reading p]
  | refusedConn (p : PathRef) :
      Moves arch i σ (.closeConn p) (σ.record (.connClosed p)) (.closeCleanup p) []
  | refusedCleanup (p : PathRef) :
      Moves arch i σ (.closeCleanup p) (σ.runCleanup p) (.closeDone p) []
  | refusedDone (p : PathRef) :
      Moves arch i σ (.closeDone p) (σ.record (.doneClosed p))
        (.returned (.done p)) []
  | readEnded (p : PathRef) :
      Moves arch i σ (.reading p) σ (.rmLock p .readLoop) []
  | unlinked (p : PathRef) (k : Caller) : σ.mu = none → p ∈ σ.bond.paths →
      Moves arch i σ (.rmLock p k) (σ.unlink p) (.rmCount p k) []
  | notListed (p : PathRef) (k : Caller) : σ.mu = none → p ∉ σ.bond.paths →
      Moves arch i σ (.rmLock p k) σ k.resume []
  | countedEmpty (p : PathRef) (k : Caller) : σ.mu = none → σ.bond.paths = [] →
      Moves arch i σ (.rmCount p k) σ (.graceLock (.removed p k)) []
  | countedSome (p : PathRef) (k : Caller) : σ.mu = none → σ.bond.paths ≠ [] →
      Moves arch i σ (.rmCount p k) σ (.rmNotify p k) []
  | rmNotified (p : PathRef) (k : Caller) :
      Moves arch i σ (.rmNotify p k) σ.notify (.rmClose p k) []
  | rmClosed (p : PathRef) (k : Caller) :
      Moves arch i σ (.rmClose p k) (σ.record (.connClosed p)) (.rmCleanup p k) []
  | rmCleaned (p : PathRef) (k : Caller) :
      Moves arch i σ (.rmCleanup p k) (σ.runCleanup p) (.rmDone p k) []
  | rmFinished (p : PathRef) (k : Caller) :
      Moves arch i σ (.rmDone p k) (σ.record (.doneClosed p)) k.resume []
  | graceSkipped (g : GraceCaller) : σ.mu = none →
      (σ.bond.graceIdle || σ.bond.closed) = true →
      Moves arch i σ (.graceLock g) σ g.resume []
  | graceLocked (g : GraceCaller) : σ.mu = none → σ.bond.graceIdle = false →
      σ.bond.closed = false →
      Moves arch i σ (.graceLock g) { σ with mu := some i } (.graceArm g) []
  | graceArmed (g : GraceCaller) :
      Moves arch i σ (.graceArm g) σ.arm g.resume []
  | writeClosed (n : Nat) : σ.bond.closed = true →
      Moves arch i σ (.wEnter n) σ (.returned .errClosed) []
  | writeEntered (n : Nat) : σ.bond.closed = false →
      Moves arch i σ (.wEnter n) σ (.wSnapshot n) []
  | snapshotEmpty (n : Nat) : σ.mu = none → σ.bond.paths = [] →
      Moves arch i σ (.wSnapshot n) σ (.graceLock (.writeEmpty n)) []
  | snapshotTaken (n : Nat) : σ.mu = none → σ.bond.paths ≠ [] →
      Moves arch i σ (.wSnapshot n) σ (.wStripe n σ.bond.paths) []
  | striped (n : Nat) (paths : List PathRef) :
      Moves arch i σ (.wStripe n paths)
        { σ with bond := { σ.bond with nextPath := σ.bond.nextPath + 1 } }
        (.wTry n (attempts arch σ.bond.nextPath paths)) []
  | attemptsOver (n : Nat) : Moves arch i σ (.wTry n []) σ (.wEndCheck n) []
  | attemptPanicked (n : Nat) (rest : List (Option PathRef)) :
      Moves arch i σ (.wTry n (none :: rest)) σ .panicked []
  | accepted (n : Nat) (p : PathRef) (rest : List (Option PathRef))
      (r : WriteResult) : r.failure n = none →
      Moves arch i σ (.wTry n (some p :: rest)) σ (.returned (.wrote r.n)) []
  | permanent (n : Nat) (p : PathRef) (rest : List (Option PathRef))
      (r : WriteResult) (e : GoError) : r.failure n = some e →
      isPermanentPathError e = true →
      Moves arch i σ (.wTry n (some p :: rest)) σ (.rmLock p (.writeTo n rest)) []
  | transient (n : Nat) (p : PathRef) (rest : List (Option PathRef))
      (r : WriteResult) (e : GoError) : r.failure n = some e →
      isPermanentPathError e = false →
      Moves arch i σ (.wTry n (some p :: rest)) σ (.wTry n rest) []
  | endClosed (n : Nat) : σ.bond.closed = true →
      Moves arch i σ (.wEndCheck n) σ (.returned .errClosed) []
  | endOpen (n : Nat) : σ.bond.closed = false →
      Moves arch i σ (.wEndCheck n) σ (.wEndCount n) []
  | endEmpty (n : Nat) : σ.mu = none → σ.bond.paths = [] →
      Moves arch i σ (.wEndCount n) σ (.graceLock (.writeEnd n)) []
  | endSome (n : Nat) : σ.mu = none → σ.bond.paths ≠ [] →
      Moves arch i σ (.wEndCount n) σ (.returned (.wrote n)) []
  | dropClosed (n : Nat) : σ.bond.closed = true →
      Moves arch i σ (.wDrop n) σ (.returned .errClosed) []
  | dropOpen (n : Nat) : σ.bond.closed = false →
      Moves arch i σ (.wDrop n) σ (.returned (.wrote n)) []
  | onceTaken : σ.bond.closeOnce = .fresh →
      Moves arch i σ .clOnce
        { σ with bond := { σ.bond with closeOnce := .running } } .clChan []
  | onceOver : σ.bond.closeOnce = .finished →
      Moves arch i σ .clOnce σ (.returned .closed) []
  | chanClosed :
      Moves arch i σ .clChan
        { σ with bond := { σ.bond with closed := true } } .clTimer []
  | timerStopped : σ.mu = none →
      Moves arch i σ .clTimer { σ.stopTimer with stopped := true } .clNotify []
  | clNotified : Moves arch i σ .clNotify σ.notify .clSnapshot []
  | sweepTaken : σ.mu = none →
      Moves arch i σ .clSnapshot σ (.clSweep σ.bond.paths) []
  | sweepOver :
      Moves arch i σ (.clSweep [])
        { σ with bond := { σ.bond with closeOnce := .finished } }
        (.returned .closed) []
  | sweepNext (p : PathRef) (rest : List PathRef) :
      Moves arch i σ (.clSweep (p :: rest)) σ (.rmLock p (.close rest)) []
  | timerIdle (t : TimerRef) : σ.mu = none → σ.bond.paths ≠ [] →
      Moves arch i σ (.tmLock t)
        { σ with bond := { σ.bond with emptyTimer := none } } (.returned .ended) []
  | timerExpired (t : TimerRef) : σ.mu = none → σ.bond.paths = [] →
      Moves arch i σ (.tmLock t)
        { σ with bond :=
          { σ.bond with emptyExpired := true, emptyTimer := none } } .clOnce []

/-- The result of a write, which only an attempt of `WriteTo` waits for. -/
theorem exec_wrote {arch : Arch} {i : Nat} {σ σ' : Shared} {t t' : Pc} {r : WriteResult}
    {new : List Pc} (h : exec arch i σ t (.wrote r) = some (σ', t', new)) :
    Moves arch i σ t σ' t' new := by
  cases t with
  | wTry n rest =>
      rcases rest with _ | ⟨_ | p, rest⟩
      · cases h
      · cases h
      · simp only [exec] at h
        split at h
        · cases h
          exact .accepted n p rest r ‹_›
        · split at h <;> cases h
          · exact .permanent n p rest r _ ‹_› ‹_›
          · exact .transient n p rest r _ ‹_› (Bool.eq_false_iff.mpr ‹_›)
  | clSweep rest => cases rest <;> cases h
  | _ => cases h

/-- A section does one of the listed moves. -/
theorem exec_moves {arch : Arch} {i : Nat} {σ σ' : Shared} {t t' : Pc}
    {a : Choice} {new : List Pc} (h : exec arch i σ t a = some (σ', t', new)) :
    Moves arch i σ t σ' t' new := by
  have hcount : σ.bond.count = 0 ↔ σ.bond.paths = [] := List.length_eq_zero_iff
  cases a with
  | wrote r => exact exec_wrote h
  | go =>
      cases t with
      | addLock p =>
          obtain ⟨hmu, h⟩ := Option.ite_none_right_eq_some.mp h
          split at h <;> cases h
          · exact .addRefused p hmu ‹_›
          · exact .addLocked p hmu (Bool.eq_false_iff.mpr ‹_›)
      | addTest p =>
          simp only [exec] at h
          split at h <;> cases h
          · exact .addExpired p ‹_›
          · exact .addAppended p (Bool.eq_false_iff.mpr ‹_›)
      | addNotify p => cases h; exact .addNotified p
      | addSpawn p => cases h; exact .addSpawned p
      | closeConn p => cases h; exact .refusedConn p
      | closeCleanup p => cases h; exact .refusedCleanup p
      | closeDone p => cases h; exact .refusedDone p
      | reading p => cases h; exact .readEnded p
      | rmLock p k =>
          obtain ⟨hmu, h⟩ := Option.ite_none_right_eq_some.mp h
          split at h <;> cases h
          · exact .unlinked p k hmu ‹_›
          · exact .notListed p k hmu ‹_›
      | rmCount p k =>
          obtain ⟨hmu, h⟩ := Option.ite_none_right_eq_some.mp h
          split at h <;> cases h
          · exact .countedEmpty p k hmu (hcount.mp ‹_›)
          · exact .countedSome p k hmu (hcount.not.mp ‹_›)
      | rmNotify p k => cases h; exact .rmNotified p k
      | rmClose p k => cases h; exact .rmClosed p k
      | rmCleanup p k => cases h; exact .rmCleaned p k
      | rmDone p k => cases h; exact .rmFinished p k
      | graceLock g =>
          obtain ⟨hmu, h⟩ := Option.ite_none_right_eq_some.mp h
          split at h <;> cases h
          · exact .graceSkipped g hmu ‹_›
          · rename_i hbusy
            obtain ⟨hidle, hopen⟩ := Bool.or_eq_false_iff.mp (Bool.eq_false_iff.mpr hbusy)
            exact .graceLocked g hmu hidle hopen
      | graceArm g => cases h; exact .graceArmed g
      | wEnter n =>
          simp only [exec] at h
          split at h <;> cases h
          · exact .writeClosed n ‹_›
          · exact .writeEntered n (Bool.eq_false_iff.mpr ‹_›)
      | wSnapshot n =>
          obtain ⟨hmu, h⟩ := Option.ite_none_right_eq_some.mp h
          split at h <;> cases h
          · exact .snapshotEmpty n hmu ‹_›
          · exact .snapshotTaken n hmu ‹_›
      | wStripe n paths => cases h; exact .striped n paths
      | wTry n rest =>
          rcases rest with _ | ⟨_ | p, rest⟩ <;> cases h
          · exact .attemptsOver n
          · exact .attemptPanicked n rest
      | wEndCheck n =>
          simp only [exec] at h
          split at h <;> cases h
          · exact .endClosed n ‹_›
          · exact .endOpen n (Bool.eq_false_iff.mpr ‹_›)
      | wEndCount n =>
          obtain ⟨hmu, h⟩ := Option.ite_none_right_eq_some.mp h
          split at h <;> cases h
          · exact .endEmpty n hmu (hcount.mp ‹_›)
          · exact .endSome n hmu (hcount.not.mp ‹_›)
      | wDrop n =>
          simp only [exec] at h
          split at h <;> cases h
          · exact .dropClosed n ‹_›
          · exact .dropOpen n (Bool.eq_false_iff.mpr ‹_›)
      | clOnce =>
          simp only [exec] at h
          split at h <;> cases h
          · exact .onceTaken ‹_›
          · exact .onceOver ‹_›
      | clChan => cases h; exact .chanClosed
      | clTimer =>
          obtain ⟨hmu, h⟩ := Option.ite_none_right_eq_some.mp h
          cases h
          exact .timerStopped hmu
      | clNotify => cases h; exact .clNotified
      | clSnapshot =>
          obtain ⟨hmu, h⟩ := Option.ite_none_right_eq_some.mp h
          cases h
          exact .sweepTaken hmu
      | clSweep rest =>
          cases rest with
          | nil => cases h; exact .sweepOver
          | cons p rest => cases h; exact .sweepNext p rest
      | tmLock t =>
          obtain ⟨hmu, h⟩ := Option.ite_none_right_eq_some.mp h
          split at h <;> cases h
          · exact .timerIdle t hmu (hcount.not.mp ‹_›)
          · exact .timerExpired t hmu (hcount.mp (not_not.mp ‹_›))
      | returned r => cases h
      | panicked => cases h

/-- What the outside world can do. -/
inductive OutsideMoves (σ : Shared) : Op → Shared → List Pc → Prop where
  | nilAdded (cleanup : Bool) :
      OutsideMoves σ (.addConn none cleanup) σ [.returned .nilDone]
  | addCalled (conn : Conn) (cleanup : Bool) :
      OutsideMoves σ (.addConn (some conn) cleanup)
        { σ with heap := σ.heap ++ [⟨conn, cleanup⟩] } [.addLock σ.heap.length]
  | nothingWritten : OutsideMoves σ (.writeTo 0) σ [.returned (.wrote 0)]
  | writeCalled (n : Nat) : OutsideMoves σ (.writeTo (n + 1)) σ [.wEnter (n + 1)]
  | closeCalled : OutsideMoves σ .close σ [.clOnce]
  | fired (r : TimerRef) : r ∈ σ.armed →
      OutsideMoves σ (.fire r) { σ with armed := σ.armed.filter (· ≠ r) } [.tmLock r]
  | received : σ.bond.stateCh = true →
      OutsideMoves σ .recvState { σ with bond := { σ.bond with stateCh := false } } []

theorem outside_moves {σ σ' : Shared} {e : Op} {new : List Pc}
    (h : outside σ e = some (σ', new)) : OutsideMoves σ e σ' new := by
  unfold outside at h
  split at h <;> (try split at h) <;>
    simp only [Option.some.injEq, Prod.mk.injEq, reduceCtorEq] at h
  all_goals obtain ⟨rfl, rfl⟩ := h
  all_goals constructor
  all_goals assumption

/-! ## Frames: what a section leaves alone -/

/-- What a thread's next section records. -/
def emits (σ : Shared) : Pc → List Event
  | .addTest p => if σ.bond.emptyExpired then [] else [.appended p]
  | .closeConn p => [.connClosed p]
  | .rmClose p _ => [.connClosed p]
  | .closeCleanup p => σ.cleanupEvents p
  | .rmCleanup p _ => σ.cleanupEvents p
  | .closeDone p => [.doneClosed p]
  | .rmDone p _ => [.doneClosed p]
  | _ => []

section Frames

variable {arch : Arch} {i : Nat} {σ σ' : Shared} {t t' : Pc} {new : List Pc}

theorem Moves.log_eq (h : Moves arch i σ t σ' t' new) :
    σ'.log = σ.log ++ emits σ t := by
  cases h <;> simp_all [emits, Shared.append, Shared.stopTimer, Shared.notify,
    Shared.record, Shared.runCleanup, Shared.unlink, Shared.arm]

theorem Moves.heap_eq (h : Moves arch i σ t σ' t' new) : σ'.heap = σ.heap := by
  cases h <;> rfl

/-- The `closed` channel never reopens. -/
theorem Moves.closed_mono (h : Moves arch i σ t σ' t' new)
    (hc : σ.bond.closed = true) : σ'.bond.closed = true := by
  cases h <;> first | exact hc | rfl

theorem Moves.stopped_mono (h : Moves arch i σ t σ' t' new)
    (hc : σ.stopped = true) : σ'.stopped = true := by
  cases h <;> first | exact hc | rfl

/-- Only the section of `Close` that stops the timer sets `stopped`, and it
    needs the mutex free. -/
theorem Moves.stopped_new (h : Moves arch i σ t σ' t' new)
    (h0 : σ.stopped = false) (h1 : σ'.stopped = true) :
    t = .clTimer ∧ σ.mu = none := by
  cases h with
  | timerStopped hmu => exact ⟨rfl, hmu⟩
  | _ => exact absurd (h0.symm.trans h1) Bool.false_ne_true

/-- Nobody takes the mutex from another thread. -/
theorem Moves.mu_frame (h : Moves arch i σ t σ' t' new)
    (hmine : t.locks = true → σ.mu = some i) {j : Nat} (hij : i ≠ j)
    (hmu : σ.mu = some j) : σ'.mu = some j := by
  have hbusy : σ.mu ≠ none := by rw [hmu]; exact Option.some_ne_none j
  have hother : σ.mu ≠ some i := by
    rw [hmu]
    exact fun e => hij (Option.some.inj e).symm
  cases h <;> first
    | exact hmu
    | exact absurd ‹σ.mu = none› hbusy
    | exact absurd (hmine rfl) hother

/-- A thread that holds the mutex after its section took it there. -/
theorem Moves.mu_taken (h : Moves arch i σ t σ' t' new)
    (hl : t'.locks = true) : σ'.mu = some i := by
  cases h with
  | addLocked p _ _ => rfl
  | graceLocked g _ _ _ => rfl
  | notListed p k _ _ => cases k <;> cases hl
  | rmFinished p k => cases k <;> cases hl
  | graceSkipped g _ _ => cases g <;> cases hl
  | graceArmed g => cases g <;> cases hl
  | _ => cases hl

/-- The list only shrinks, except where `AddConn` lists its path. -/
theorem Moves.paths_sub (h : Moves arch i σ t σ' t' new) :
    (∀ q ∈ σ'.bond.paths, q ∈ σ.bond.paths) ∨
      ∃ p, t = .addTest p ∧ t' = .addNotify p ∧
        σ'.bond.paths = σ.bond.paths ++ [p] := by
  cases h with
  | addAppended p _ => exact Or.inr ⟨p, rfl, rfl, rfl⟩
  | unlinked p k _ _ => exact Or.inl fun q hq => List.mem_of_mem_erase hq
  | _ => exact Or.inl fun q hq => hq

/-- `closeOnce` stays finished. -/
theorem Moves.finished_mono (h : Moves arch i σ t σ' t' new)
    (hf : σ.bond.closeOnce = .finished) : σ'.bond.closeOnce = .finished := by
  cases h with
  | onceTaken hfresh => rw [hf] at hfresh; cases hfresh
  | sweepOver => rfl
  | _ => exact hf

/-- Only the end of the sweep finishes `closeOnce`. -/
theorem Moves.finished_new (h : Moves arch i σ t σ' t' new)
    (h0 : σ.bond.closeOnce ≠ .finished) (h1 : σ'.bond.closeOnce = .finished) :
    t = .clSweep [] ∧ σ'.bond.paths = σ.bond.paths := by
  cases h with
  | sweepOver => exact ⟨rfl, rfl⟩
  | onceTaken _ => cases h1
  | _ => exact absurd h1 h0

/-- How a thread comes to the places from which it goes on relying on what it
    has seen. -/
theorem Moves.arrives (h : Moves arch i σ t σ' t' new) :
    (∀ p, t' = .addTest p → σ.bond.closed = false ∧ σ'.stopped = σ.stopped) ∧
      (t' = .clTimer → σ'.bond.closed = true) ∧
      (t' = .clNotify → σ'.stopped = true) ∧
      (t' = .clSnapshot → t = .clNotify ∧ σ'.stopped = σ.stopped) ∧
      (t' = .returned .closed → σ'.bond.closeOnce = .finished) := by
  cases h with
  | addLocked p _ hc => exact ⟨fun _ _ => ⟨hc, rfl⟩, by simp⟩
  | onceOver hf => exact ⟨by simp, by simp, by simp, by simp, fun _ => hf⟩
  | sweepOver => exact ⟨by simp, by simp, by simp, by simp, fun _ => rfl⟩
  | chanClosed => exact ⟨by simp, fun _ => rfl, by simp⟩
  | timerStopped _ => exact ⟨by simp, by simp, fun _ => rfl, by simp⟩
  | clNotified => exact ⟨by simp, by simp, by simp, fun _ => ⟨rfl, rfl⟩, by simp⟩
  | notListed p k _ _ => cases k <;> simp [Caller.resume]
  | rmFinished p k => cases k <;> simp [Caller.resume]
  | graceSkipped g _ _ => cases g <;> simp [GraceCaller.resume]
  | graceArmed g => cases g <;> simp [GraceCaller.resume]
  | _ => simp

/-- What the outside world leaves alone. -/
structure OutsideFrame (σ σ' : Shared) : Prop where
  paths : σ'.bond.paths = σ.bond.paths
  closed : σ'.bond.closed = σ.bond.closed
  closeOnce : σ'.bond.closeOnce = σ.bond.closeOnce
  emptyExpired : σ'.bond.emptyExpired = σ.bond.emptyExpired
  mu : σ'.mu = σ.mu
  stopped : σ'.stopped = σ.stopped
  log : σ'.log = σ.log

theorem outside_frame {e : Op} (h : outside σ e = some (σ', new)) :
    OutsideFrame σ σ' := by
  cases outside_moves h <;> exact ⟨rfl, rfl, rfl, rfl, rfl, rfl, rfl⟩

/-- Where the threads that the outside world starts begin, `AddConn` apart. -/
def Pc.entry : Pc → Bool
  | .returned .nilDone => true
  | .returned (.wrote _) => true
  | .wEnter _ => true
  | .clOnce => true
  | .tmLock _ => true
  | _ => false

/-- The outside world allocates a path for an `AddConn` call, or starts threads
    that have no path. -/
theorem outside_new {e : Op} (h : outside σ e = some (σ', new)) :
    (σ'.heap = σ.heap ∧ ∀ t ∈ new, t.entry = true) ∨
      ∃ path, σ'.heap = σ.heap ++ [path] ∧ new = [.addLock σ.heap.length] := by
  cases outside_moves h with
  | addCalled conn cleanup => exact Or.inr ⟨_, rfl, rfl⟩
  | _ => exact Or.inl ⟨rfl, by simp [Pc.entry]⟩

/-- Without a call of `AddConn` no path is allocated. -/
theorem outside_quiet {e : Op} (h : outside σ e = some (σ', new))
    (hadd : ∀ c k, e ≠ .addConn c k) :
    σ'.heap = σ.heap ∧ ∀ t ∈ new, t.entry = true := by
  cases outside_moves h with
  | addCalled conn cleanup => exact absurd rfl (hadd _ _)
  | _ => exact ⟨rfl, by simp [Pc.entry]⟩

/-- Only `AddConn` allocates paths. -/
theorem bondStep_heap {b b' : Bond} {a : Act Choice Op} (h : bondStep arch b a = some b')
    (ha : ∀ c k, a ≠ .env (.addConn c k)) : b'.shared.heap = b.shared.heap := by
  cases a with
  | run i a =>
      obtain ⟨t, σ', t', new, _, he, rfl⟩ := Machine.step_run h
      exact (exec_moves he).heap_eq
  | env e =>
      obtain ⟨σ', new, he, rfl⟩ := Machine.step_env h
      exact (outside_quiet he fun c k hk => ha c k (congrArg Act.env hk)).1

/-- Allocated paths stay. -/
theorem bondStep_heap_grows {b b' : Bond} {a : Act Choice Op}
    (h : bondStep arch b a = some b') : b.shared.heap <+: b'.shared.heap := by
  refine Machine.step_shared (R := fun σ σ' => σ.heap <+: σ'.heap) ?_ ?_ h
  · intro i σ t a σ' t' new he
    rw [(exec_moves he).heap_eq]
  · intro σ e σ' new he
    rcases outside_new he with ⟨hsame, -⟩ | ⟨path, hmore, -⟩
    · rw [hsame]
    · rw [hmore]
      exact List.prefix_append ..

/-- What was done stays on record. -/
theorem bondStep_log_grows {b b' : Bond} {a : Act Choice Op}
    (h : bondStep arch b a = some b') : b.shared.log <+: b'.shared.log := by
  refine Machine.step_shared (R := fun σ σ' => σ.log <+: σ'.log) ?_ ?_ h
  · intro i σ t a σ' t' new he
    rw [(exec_moves he).log_eq]
    exact List.prefix_append ..
  · intro σ e σ' new he
    rw [(outside_frame he).log]

/-- A closed bond stays closed, whatever it does. -/
theorem bondStep_closed {b b' : Bond} {a : Act Choice Op}
    (h : bondStep arch b a = some b') (hc : b.shared.bond.closed = true) :
    b'.shared.bond.closed = true := by
  refine Machine.step_shared (R := fun σ σ' => σ.bond.closed = true → σ'.bond.closed = true)
    ?_ ?_ h hc
  · intro i σ t a σ' t' new he hc
    exact (exec_moves he).closed_mono hc
  · intro σ e σ' new he hc
    exact (outside_frame he).closed.trans hc

/-- A finished `closeOnce` stays finished, whatever the bond does. -/
theorem bondStep_finished {b b' : Bond} {a : Act Choice Op}
    (h : bondStep arch b a = some b') (hf : b.shared.bond.closeOnce = .finished) :
    b'.shared.bond.closeOnce = .finished := by
  refine Machine.step_shared
    (R := fun σ σ' => σ.bond.closeOnce = .finished → σ'.bond.closeOnce = .finished) ?_ ?_ h hf
  · intro i σ t a σ' t' new he hf
    exact (exec_moves he).finished_mono hf
  · intro σ e σ' new he hf
    exact (outside_frame he).closeOnce.trans hf

end Frames

end VkTurnBond
