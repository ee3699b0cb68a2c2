import VkTurn.BondHelloProofs

/-! # Setting up a bond generation on the client

    `createVLESSBondGeneration` starts one maintainer per path and waits in
    `waitForFirstBondPath`.  A maintainer dials, sends its hello, reads the
    acknowledgement, hands its connection to the bond and starts over when the
    path is gone; a failed hello or acknowledgement is reported on a bounded
    channel that drops what does not fit.  The waiter looks at the number of
    paths and then selects among the context, the bond's notifications, the
    reports and, once a V2 path has failed, a fallback timer.

    The bond is the thread pool of `BondProofs`, nested: what its goroutines do
    is a step of the outside world here.  Which ready case a `select` takes is
    the scheduler's choice. -/

namespace VkTurnSetup

open ThreadPool VkTurnStripe VkTurnBond VkTurnBondHello GoText

/-! ## State -/

/-- What a generation is created with.  `appCancel` is that `globalAppCancel` is
    set. -/
structure Config where
  arch : Arch
  tuning : Tuning
  bondID : Bytes
  protocol : Int
  numSessions : Nat
  appCancel : Bool
  deriving DecidableEq, Repr

/-- The hello every path of the generation sends. -/
def Config.hello (cfg : Config) : BondHello :=
  if cfg.protocol = bondProtocolV2 then
    currentBondHello cfg.tuning cfg.bondID cfg.numSessions
  else { version := bondProtocolV1, bondID := cfg.bondID }

/-- The errors a maintainer reports: "write bond hello: %w" and "read bond V2
    acknowledgement: %w". -/
inductive SetupError where
  | writeHello (e : HelloError)
  | readAck (e : HelloError)
  deriving DecidableEq, Repr

/-- `errors.Is(err, ErrBondHelloRejected)`. -/
def SetupError.isRejection : SetupError → Bool
  | .writeHello e => e.isRejection
  | .readAck e => e.isRejection

/-- `vlessBondPathSetupEvent`. -/
structure SetupEvent where
  pathID : Nat
  err : SetupError
  deriving DecidableEq, Repr

/-- What `waitForFirstBondPath` returns: its own complaint, the error of the
    context, `errVLESSBondV2Unavailable` from the fallback deadline or from the
    failure of every path, or a reported rejection. -/
inductive WaitError where
  | expectedPaths
  | ctx
  | deadline (last : Option SetupError)
  | allFailed (last : Option SetupError)
  | rejected (e : SetupError)
  deriving DecidableEq, Repr

/-- `errors.Is(err, errVLESSBondV2Unavailable)`. -/
def WaitError.unavailable : WaitError → Bool
  | .deadline _ => true
  | .allFailed _ => true
  | _ => false

/-- The fallback timer: not created, running, fired with its value unread, or of
    no more effect. -/
inductive Fallback where
  | unset
  | running
  | fired
  | spent
  deriving DecidableEq, Repr

/-- `time.NewTimer`, when there is no timer yet. -/
def Fallback.start : Fallback → Fallback
  | .unset => .running
  | f => f

/-- The deferred `Stop`. -/
def Fallback.stop : Fallback → Fallback
  | .running => .spent
  | f => f

/-- How the wait ended, with two histories: what had been reported by then, and
    whether the bond was closed at the last wake-up. -/
structure WaitEnd where
  err : Option WaitError
  reports : List SetupEvent
  wokeClosed : Bool
  deriving DecidableEq, Repr

/-- What the goroutines of a generation share.  `dialed` numbers the
    connections, `reports` is every report made, also a dropped one, and
    `waited` the end of the wait. -/
structure Setup where
  bond : Bond := newBond
  events : List SetupEvent := []
  ctxDone : Bool := false
  fallback : Fallback := .unset
  pathWG : Nat := 0
  dialed : Nat := 0
  reports : List SetupEvent := []
  waited : Option WaitEnd := none

/-- The local variables of the waiter, and the history of its last wake-up. -/
structure Waiting where
  failedPaths : List Nat := []
  lastSetupErr : Option SetupError := none
  wokeClosed : Bool := false
  deriving DecidableEq, Repr

/-- `failedPaths[id] = struct{}{}; lastSetupErr = err`. -/
def Waiting.fail (w : Waiting) (event : SetupEvent) : Waiting :=
  { w with failedPaths := if event.pathID ∈ w.failedPaths then w.failedPaths
                          else w.failedPaths ++ [event.pathID]
           lastSetupErr := some event.err }

/-- Note whether the bond is closed as the waiter wakes up. -/
def Setup.woke (σ : Setup) (w : Waiting) : Waiting :=
  { w with wokeClosed := σ.bond.shared.bond.closed }

/-- `waitForFirstBondPath` returns. -/
def Setup.return (σ : Setup) (w : Waiting) (err : Option WaitError) : Setup :=
  { σ with fallback := σ.fallback.stop
           waited := some ⟨err, σ.reports, w.wokeClosed⟩ }

/-- `reportVLESSBondPathSetupError`: a full channel drops the report. -/
def Setup.report (cfg : Config) (σ : Setup) (event : SetupEvent) : Setup :=
  { σ with events := if σ.events.length < cfg.numSessions then σ.events ++ [event]
                     else σ.events
           reports := σ.reports ++ [event] }

/-- A maintainer returns. -/
def Setup.pathDone (σ : Setup) : Setup := { σ with pathWG := σ.pathWG - 1 }

/-- `bonded.Count()` can be read: nobody holds the bond's mutex. -/
def Setup.countable (σ : Setup) : Prop := σ.bond.shared.mu = none

instance (σ : Setup) : Decidable σ.countable := inferInstanceAs (Decidable (_ = _))

/-- `bonded.Count()`. -/
def Setup.count (σ : Setup) : Nat := σ.bond.shared.bond.count

/-! ## Control points -/

/-- The errors of `createVLESSBondGeneration`. -/
inductive CreateError where
  | unsupportedProtocol
  | wait (e : WaitError)
  | session
  deriving DecidableEq, Repr

/-- A place between two sections. -/
inductive Pc where
  -- createVLESSBondGeneration
  | create
  | session
  | cancelling (e : CreateError)
  | closing (e : CreateError)
  | closed (e : CreateError) (tid : Nat)
  | waitPaths (e : CreateError)
  | created (r : Option CreateError)
  -- waitForFirstBondPath
  | enter
  | look (w : Waiting)
  | select (w : Waiting)
  | deadline (w : Waiting)
  | failed (w : Waiting)
  -- maintainVLESSBondPath
  | delay (id : Nat)
  | top (id : Nat)
  | dial (id : Nat)
  | dialed (id : Nat) (c : Conn)
  | hello (id : Nat) (c : Conn)
  | ack (id : Nat) (c : Conn)
  | report (id : Nat) (err : SetupError)
  | cleanup (id : Nat)
  | retry (id : Nat)
  | acked (id : Nat) (c : Conn)
  | add (id : Nat) (c : Conn)
  | adding (id : Nat) (tid : Nat)
  | joined (id : Nat) (p : PathRef)
  | ended (id : Nat)
  deriving DecidableEq, Repr

/-- How `createDTLSConnection` ends. -/
inductive Dial where
  | conn
  | authRejected
  | fatalCaptcha
  | failed
  deriving DecidableEq, Repr

/-- The ready case a `select` of the waiter takes. -/
inductive Wake where
  | ctx
  | state
  | deadline
  | event
  deriving DecidableEq, Repr

/-- What is not up to the code.  `ctx` is the `ctx.Done()` case of a maintainer's
    wait, `fail` a KCP or smux session that cannot be made. -/
inductive Choice where
  | go
  | ctx
  | fail
  | wake (k : Wake)
  | dial (d : Dial)
  | write (w : WriteEnd)
  | read (r : ReadEnd)
  deriving DecidableEq, Repr

/-- The parent context is cancelled; the fallback timer fires; the bond moves. -/
inductive Op where
  | cancel
  | fire
  | bond (a : Act VkTurnBond.Choice VkTurnBond.Op)
  deriving DecidableEq

/-- The wait ended with a path. -/
def Setup.established (σ : Setup) : Bool := σ.waited.any (·.err.isNone)

/-- What the bond can do by itself.  Its packets, its notifications and its
    `Close` belong to the generation once that is established. -/
def bondAllowed (σ : Setup) : Act VkTurnBond.Choice VkTurnBond.Op → Bool
  | .run _ _ => true
  | .env (.fire _) => true
  | .env (.addConn _ _) => false
  | .env _ => σ.established

/-! ## Sections -/

/-- What the waiter does with a report. -/
def afterEvent (cfg : Config) (σ : Setup) (w : Waiting) (event : SetupEvent) :
    Setup × Pc :=
  if event.err.isRejection then
    (σ.return w (some (.rejected event.err)), .cancelling (.wait (.rejected event.err)))
  else if cfg.protocol ≠ bondProtocolV2 then (σ, .look w)
  else
    let w := w.fail event
    let σ := { σ with fallback := σ.fallback.start }
    if w.failedPaths.length ≥ cfg.numSessions then (σ, .failed w) else (σ, .look w)

/-- One section of a thread. -/
def exec (cfg : Config) (σ : Setup) :
    Pc → Choice → Option (Setup × Pc × List Pc)
  | .create, .go =>
      if cfg.protocol = bondProtocolV1 ∨ cfg.protocol = bondProtocolV2 then
        some ({ σ with pathWG := cfg.numSessions }, .enter,
          (List.range cfg.numSessions).map .delay)
      else some (σ, .cancelling .unsupportedProtocol, [])
  | .session, .go => some (σ, .created none, [])
  | .session, .fail => some (σ, .cancelling .session, [])
  | .cancelling e, .go => some ({ σ with ctxDone := true }, .closing e, [])
  | .closing e, .go =>
      match bondStep cfg.arch σ.bond (.env .close) with
      | none => none
      | some bond => some ({ σ with bond := bond }, .closed e σ.bond.threads.length, [])
  | .closed e tid, .go =>
      if σ.bond.threads[tid]? = some (.returned .closed) then some (σ, .waitPaths e, [])
      else none
  | .waitPaths e, .go =>
      if σ.pathWG = 0 then some (σ, .created (some e), []) else none
  | .enter, .go =>
      if cfg.numSessions < 1 then
        some (σ.return {} (some .expectedPaths), .cancelling (.wait .expectedPaths), [])
      else some (σ, .look {}, [])
  | .look w, .go =>
      if σ.countable then
        if σ.count > 0 then some (σ.return w none, .session, [])
        else some (σ, .select w, [])
      else none
  | .select w, .wake .ctx =>
      if σ.ctxDone then
        some (σ.return (σ.woke w) (some .ctx), .cancelling (.wait .ctx), [])
      else none
  | .select w, .wake .state =>
      match bondStep cfg.arch σ.bond (.env .recvState) with
      | none => none
      | some bond => some ({ σ with bond := bond }, .look (σ.woke w), [])
  | .select w, .wake .deadline =>
      if σ.fallback = .fired then
        some ({ σ with fallback := .spent }, .deadline (σ.woke w), [])
      else none
  | .select w, .wake .event =>
      match σ.events with
      | [] => none
      | event :: rest =>
          match afterEvent cfg { σ with events := rest } (σ.woke w) event with
          | (σ', t') => some (σ', t', [])
  | .deadline w, .go =>
      if σ.countable then
        if σ.count = 0 then
          some (σ.return w (some (.deadline w.lastSetupErr)),
            .cancelling (.wait (.deadline w.lastSetupErr)), [])
        else some (σ, .look w, [])
      else none
  | .failed w, .go =>
      if σ.countable then
        if σ.count = 0 then
          some (σ.return w (some (.allFailed w.lastSetupErr)),
            .cancelling (.wait (.allFailed w.lastSetupErr)), [])
        else some (σ, .look w, [])
      else none
  | .delay id, .go =>
      -- the first path has no delay, and only looks at the context
      if id = 0 ∧ σ.ctxDone then none else some (σ, .top id, [])
  | .delay id, .ctx => if σ.ctxDone then some (σ.pathDone, .ended id, []) else none
  | .top id, .go =>
      if σ.ctxDone then some (σ.pathDone, .ended id, []) else some (σ, .dial id, [])
  | .dial id, .dial .conn =>
      some ({ σ with dialed := σ.dialed + 1 }, .dialed id σ.dialed, [])
  | .dial id, .dial .authRejected =>
      some ({ σ.pathDone with ctxDone := σ.ctxDone || cfg.appCancel }, .ended id, [])
  | .dial id, .dial .fatalCaptcha =>
      some ({ σ.pathDone with ctxDone := σ.ctxDone || cfg.appCancel }, .ended id, [])
  | .dial id, .dial .failed => some (σ, .retry id, [])
  | .dialed id c, .go =>
      if σ.ctxDone then some (σ.pathDone, .ended id, []) else some (σ, .hello id c, [])
  | .hello id c, .write w =>
      match writeBondHelloConfig w cfg.hello with
      | (_, some e) => some (σ, .report id (.writeHello e), [])
      | (_, none) =>
          if cfg.hello.version = bondProtocolV2 then some (σ, .ack id c, [])
          else some (σ, .acked id c, [])
  | .ack id c, .read r =>
      match readBondHelloAck r with
      | some e => some (σ, .report id (.readAck e), [])
      | none => some (σ, .acked id c, [])
  | .report id err, .go => some (σ.report cfg ⟨id, err⟩, .cleanup id, [])
  | .cleanup id, .go => some (σ, .retry id, [])
  | .retry id, .go => some (σ, .top id, [])
  | .retry id, .ctx => if σ.ctxDone then some (σ.pathDone, .ended id, []) else none
  | .acked id c, .go =>
      if σ.ctxDone then some (σ.pathDone, .ended id, []) else some (σ, .add id c, [])
  | .add id c, .go =>
      match bondStep cfg.arch σ.bond (.env (.addConn (some c) true)) with
      | none => none
      | some bond => some ({ σ with bond := bond }, .adding id σ.bond.threads.length, [])
  | .adding id tid, .go =>
      match σ.bond.threads[tid]? with
      | some (.returned (.done p)) => some (σ, .joined id p, [])
      | _ => none
  | .joined id _, .ctx => if σ.ctxDone then some (σ.pathDone, .ended id, []) else none
  | .joined id p, .go =>
      if .doneClosed p ∈ σ.bond.shared.log then
        if σ.ctxDone then some (σ.pathDone, .ended id, []) else some (σ, .retry id, [])
      else none
  | _, _ => none

/-- The outside world. -/
def outside (cfg : Config) (σ : Setup) : Op → Option (Setup × List Pc)
  | .cancel => some ({ σ with ctxDone := true }, [])
  | .fire => if σ.fallback = .running then some ({ σ with fallback := .fired }, []) else none
  | .bond a =>
      if bondAllowed σ a then
        match bondStep cfg.arch σ.bond a with
        | none => none
        | some bond => some ({ σ with bond := bond }, [])
      else none

/-- A generation as a machine. -/
def setupMachine (cfg : Config) : Machine Setup Pc Choice Op where
  exec := fun _ => exec cfg
  env := outside cfg

/-- A generation and its goroutines. -/
abbrev SetupPool := Pool Setup Pc

/-- A call of `createVLESSBondGeneration`. -/
def newGeneration : SetupPool := ⟨{}, [.create]⟩

/-- One step of a generation. -/
def setupStep (cfg : Config) : SetupPool → Act Choice Op → Option SetupPool :=
  (setupMachine cfg).step

/-! ## What a section can do -/

/-- `Moves σ t σ' t' new`: a thread at `t` can run one section, which leaves the
    shared state `σ'`, the thread at `t'` and the threads `new` started. -/
inductive Moves (cfg : Config) (σ : Setup) : Pc → Setup → Pc → List Pc → Prop where
  | started : Moves cfg σ .create { σ with pathWG := cfg.numSessions } .enter
      ((List.range cfg.numSessions).map .delay)
  | unsupported : Moves cfg σ .create σ (.cancelling .unsupportedProtocol) []
  | sessionMade : Moves cfg σ .session σ (.created none) []
  | sessionFailed : Moves cfg σ .session σ (.cancelling .session) []
  | cancelled (e : CreateError) :
      Moves cfg σ (.cancelling e) { σ with ctxDone := true } (.closing e) []
  | closes (e : CreateError) (bond : Bond) :
      bondStep cfg.arch σ.bond (.env .close) = some bond →
      Moves cfg σ (.closing e) { σ with bond := bond }
        (.closed e σ.bond.threads.length) []
  | closeReturned (e : CreateError) (tid : Nat) :
      Moves cfg σ (.closed e tid) σ (.waitPaths e) []
  | pathsEnded (e : CreateError) :
      Moves cfg σ (.waitPaths e) σ (.created (some e)) []
  | notPositive : cfg.numSessions = 0 →
      Moves cfg σ .enter (σ.return {} (some .expectedPaths))
        (.cancelling (.wait .expectedPaths)) []
  | entered : Moves cfg σ .enter σ (.look {}) []
  | sawPath (w : Waiting) : 0 < σ.count →
      Moves cfg σ (.look w) (σ.return w none) .session []
  | sawNone (w : Waiting) : σ.count = 0 → Moves cfg σ (.look w) σ (.select w) []
  | wokeCtx (w : Waiting) : σ.ctxDone = true →
      Moves cfg σ (.select w) (σ.return (σ.woke w) (some .ctx))
        (.cancelling (.wait .ctx)) []
  | wokeState (w : Waiting) (bond : Bond) :
      bondStep cfg.arch σ.bond (.env .recvState) = some bond →
      Moves cfg σ (.select w) { σ with bond := bond } (.look (σ.woke w)) []
  | wokeDeadline (w : Waiting) : σ.fallback = .fired →
      Moves cfg σ (.select w) { σ with fallback := .spent } (.deadline (σ.woke w)) []
  | wokeRejected (w : Waiting) (event : SetupEvent) (rest : List SetupEvent) :
      σ.events = event :: rest → event.err.isRejection = true →
      Moves cfg σ (.select w)
        (Setup.return { σ with events := rest } (σ.woke w) (some (.rejected event.err)))
        (.cancelling (.wait (.rejected event.err))) []
  | wokeV1 (w : Waiting) (event : SetupEvent) (rest : List SetupEvent) :
      σ.events = event :: rest → event.err.isRejection = false →
      cfg.protocol ≠ bondProtocolV2 →
      Moves cfg σ (.select w) { σ with events := rest } (.look (σ.woke w)) []
  | wokeLast (w : Waiting) (event : SetupEvent) (rest : List SetupEvent) :
      σ.events = event :: rest → event.err.isRejection = false →
      cfg.protocol = bondProtocolV2 →
      ((σ.woke w).fail event).failedPaths.length ≥ cfg.numSessions →
      Moves cfg σ (.select w)
        { σ with events := rest, fallback := σ.fallback.start }
        (.failed ((σ.woke w).fail event)) []
  | wokeFailed (w : Waiting) (event : SetupEvent) (rest : List SetupEvent) :
      σ.events = event :: rest → event.err.isRejection = false →
      cfg.protocol = bondProtocolV2 →
      ((σ.woke w).fail event).failedPaths.length < cfg.numSessions →
      Moves cfg σ (.select w)
        { σ with events := rest, fallback := σ.fallback.start }
        (.look ((σ.woke w).fail event)) []
  | deadlineOver (w : Waiting) : σ.count = 0 →
      Moves cfg σ (.deadline w) (σ.return w (some (.deadline w.lastSetupErr)))
        (.cancelling (.wait (.deadline w.lastSetupErr))) []
  | deadlinePath (w : Waiting) : 0 < σ.count →
      Moves cfg σ (.deadline w) σ (.look w) []
  | failedOver (w : Waiting) : σ.count = 0 →
      Moves cfg σ (.failed w) (σ.return w (some (.allFailed w.lastSetupErr)))
        (.cancelling (.wait (.allFailed w.lastSetupErr))) []
  | failedPath (w : Waiting) : 0 < σ.count →
      Moves cfg σ (.failed w) σ (.look w) []
  | delayed (id : Nat) : Moves cfg σ (.delay id) σ (.top id) []
  | delayCancelled (id : Nat) : Moves cfg σ (.delay id) σ.pathDone (.ended id) []
  | topCancelled (id : Nat) : Moves cfg σ (.top id) σ.pathDone (.ended id) []
  | dials (id : Nat) : Moves cfg σ (.top id) σ (.dial id) []
  | dialedConn (id : Nat) :
      Moves cfg σ (.dial id) { σ with dialed := σ.dialed + 1 } (.dialed id σ.dialed) []
  | dialFatal (id : Nat) :
      Moves cfg σ (.dial id) { σ.pathDone with ctxDone := σ.ctxDone || cfg.appCancel }
        (.ended id) []
  | dialFailed (id : Nat) : Moves cfg σ (.dial id) σ (.retry id) []
  | dialCancelled (id : Nat) (c : Conn) :
      Moves cfg σ (.dialed id c) σ.pathDone (.ended id) []
  | greets (id : Nat) (c : Conn) : Moves cfg σ (.dialed id c) σ (.hello id c) []
  | helloUnsent (id : Nat) (c : Conn) (e : HelloError) :
      Moves cfg σ (.hello id c) σ (.report id (.writeHello e)) []
  | helloSent (id : Nat) (c : Conn) : Moves cfg σ (.hello id c) σ (.ack id c) []
  | helloSentV1 (id : Nat) (c : Conn) : Moves cfg σ (.hello id c) σ (.acked id c) []
  | ackFailed (id : Nat) (c : Conn) (e : HelloError) :
      Moves cfg σ (.ack id c) σ (.report id (.readAck e)) []
  | ackRead (id : Nat) (c : Conn) : Moves cfg σ (.ack id c) σ (.acked id c) []
  | reported (id : Nat) (err : SetupError) :
      Moves cfg σ (.report id err) (σ.report cfg ⟨id, err⟩) (.cleanup id) []
  | cleaned (id : Nat) : Moves cfg σ (.cleanup id) σ (.retry id) []
  | retried (id : Nat) : Moves cfg σ (.retry id) σ (.top id) []
  | retryCancelled (id : Nat) : Moves cfg σ (.retry id) σ.pathDone (.ended id) []
  | ackCancelled (id : Nat) (c : Conn) :
      Moves cfg σ (.acked id c) σ.pathDone (.ended id) []
  | joins (id : Nat) (c : Conn) : Moves cfg σ (.acked id c) σ (.add id c) []
  | added (id : Nat) (c : Conn) (bond : Bond) :
      bondStep cfg.arch σ.bond (.env (.addConn (some c) true)) = some bond →
      Moves cfg σ (.add id c) { σ with bond := bond }
        (.adding id σ.bond.threads.length) []
  | addReturned (id tid : Nat) (p : PathRef) :
      Moves cfg σ (.adding id tid) σ (.joined id p) []
  | pathCancelled (id : Nat) (p : PathRef) :
      Moves cfg σ (.joined id p) σ.pathDone (.ended id) []
  | pathGone (id : Nat) (p : PathRef) : Moves cfg σ (.joined id p) σ (.retry id) []

/-- What the waiter does with a report is one of the listed moves. -/
theorem afterEvent_moves {cfg : Config} {σ σ' : Setup} {w : Waiting} {t' : Pc}
    {event : SetupEvent} {rest : List SetupEvent} (hq : σ.events = event :: rest)
    (h : afterEvent cfg { σ with events := rest } (σ.woke w) event = (σ', t')) :
    Moves cfg σ (.select w) σ' t' [] := by
  rw [afterEvent] at h
  split at h
  · rename_i hrej
    cases h
    exact .wokeRejected w event rest hq hrej
  · rename_i hrej
    have hplain : event.err.isRejection = false := Bool.eq_false_iff.mpr hrej
    split at h
    · rename_i hv1
      cases h
      exact .wokeV1 w event rest hq hplain hv1
    · rename_i hv2
      have hproto : cfg.protocol = bondProtocolV2 := not_not.mp hv2
      dsimp only at h
      split at h
      · rename_i hall
        cases h
        exact .wokeLast w event rest hq hplain hproto hall
      · rename_i hsome
        cases h
        exact .wokeFailed w event rest hq hplain hproto (Nat.lt_of_not_le hsome)

/-- A section does one of the listed moves. -/
theorem exec_moves {cfg : Config} {σ σ' : Setup} {t t' : Pc} {a : Choice}
    {new : List Pc} (h : exec cfg σ t a = some (σ', t', new)) :
    Moves cfg σ t σ' t' new := by
  cases a with
  | go =>
      cases t with
      | create =>
          simp only [exec] at h
          split at h <;> cases h
          · exact .started
          · exact .unsupported
      | session => cases h; exact .sessionMade
      | cancelling e => cases h; exact .cancelled e
      | closing e =>
          simp only [exec] at h
          split at h <;> cases h
          exact .closes e _ ‹_›
      | closed e tid =>
          obtain ⟨-, h⟩ := Option.ite_none_right_eq_some.mp h
          cases h
          exact .closeReturned e tid
      | waitPaths e =>
          obtain ⟨-, h⟩ := Option.ite_none_right_eq_some.mp h
          cases h
          exact .pathsEnded e
      | enter =>
          simp only [exec] at h
          split at h <;> cases h
          · exact .notPositive  (Nat.lt_one_iff.mp ‹_›)
          · exact .entered
      | look w =>
          obtain ⟨-, h⟩ := Option.ite_none_right_eq_some.mp h
          split at h <;> cases h
          · exact .sawPath w ‹_›
          · exact .sawNone w (Nat.eq_zero_of_not_pos ‹_›)
      | deadline w =>
          obtain ⟨-, h⟩ := Option.ite_none_right_eq_some.mp h
          split at h <;> cases h
          · exact .deadlineOver w ‹_›
          · exact .deadlinePath w (Nat.pos_of_ne_zero ‹_›)
      | failed w =>
          obtain ⟨-, h⟩ := Option.ite_none_right_eq_some.mp h
          split at h <;> cases h
          · exact .failedOver w ‹_›
          · exact .failedPath w (Nat.pos_of_ne_zero ‹_›)
      | delay id =>
          simp only [exec] at h
          split at h <;> cases h
          exact .delayed id
      | top id =>
          simp only [exec] at h
          split at h <;> cases h
          · exact .topCancelled id
          · exact .dials id
      | dialed id c =>
          simp only [exec] at h
          split at h <;> cases h
          · exact .dialCancelled id c
          · exact .greets id c
      | report id err => cases h; exact .reported id err
      | cleanup id => cases h; exact .cleaned id
      | retry id => cases h; exact .retried id
      | acked id c =>
          simp only [exec] at h
          split at h <;> cases h
          · exact .ackCancelled id c
          · exact .joins id c
      | add id c =>
          simp only [exec] at h
          split at h <;> cases h
          exact .added id c _ ‹_›
      | adding id tid =>
          simp only [exec] at h
          split at h <;> cases h
          exact .addReturned id tid _
      | joined id p =>
          obtain ⟨-, h⟩ := Option.ite_none_right_eq_some.mp h
          split at h <;> cases h
          · exact .pathCancelled id p
          · exact .pathGone id p
      | _ => cases h
  | ctx =>
      cases t with
      | delay id =>
          obtain ⟨-, h⟩ := Option.ite_none_right_eq_some.mp h
          cases h
          exact .delayCancelled id
      | retry id =>
          obtain ⟨-, h⟩ := Option.ite_none_right_eq_some.mp h
          cases h
          exact .retryCancelled id
      | joined id p =>
          obtain ⟨-, h⟩ := Option.ite_none_right_eq_some.mp h
          cases h
          exact .pathCancelled id p
      | _ => cases h
  | fail =>
      cases t with
      | session => cases h; exact .sessionFailed
      | _ => cases h
  | wake k =>
      cases t with
      | select w =>
          cases k with
          | ctx =>
              obtain ⟨hdone, h⟩ := Option.ite_none_right_eq_some.mp h
              cases h
              exact .wokeCtx w hdone
          | state =>
              simp only [exec] at h
              split at h <;> cases h
              exact .wokeState w _ ‹_›
          | deadline =>
              obtain ⟨hfired, h⟩ := Option.ite_none_right_eq_some.mp h
              cases h
              exact .wokeDeadline w hfired
          | event =>
              simp only [exec] at h
              split at h <;> cases h
              exact afterEvent_moves ‹_› rfl
      | _ => cases h
  | dial d =>
      cases t with
      | dial id =>
          cases d with
          | conn => cases h; exact .dialedConn id
          | authRejected => cases h; exact .dialFatal id
          | fatalCaptcha => cases h; exact .dialFatal id
          | failed => cases h; exact .dialFailed id
      | _ => cases h
  | write w =>
      cases t with
      | hello id c =>
          simp only [exec] at h
          split at h
          · cases h
            exact .helloUnsent id c _
          · split at h <;> cases h
            · exact .helloSent id c
            · exact .helloSentV1 id c
      | _ => cases h
  | read r =>
      cases t with
      | ack id c =>
          simp only [exec] at h
          split at h <;> cases h
          · exact .ackFailed id c _
          · exact .ackRead id c
      | _ => cases h

/-! ## One creator -/

/-- One for the thread of `createVLESSBondGeneration`. -/
def creating : Pc → Nat
  | .create => 1
  | .session => 1
  | .cancelling _ => 1
  | .closing _ => 1
  | .closed _ _ => 1
  | .waitPaths _ => 1
  | .created _ => 1
  | .enter => 1
  | .look _ => 1
  | .select _ => 1
  | .deadline _ => 1
  | .failed _ => 1
  | _ => 0

/-- `waitForFirstBondPath` has not returned yet. -/
def waiting : Pc → Bool
  | .create => true
  | .enter => true
  | .look _ => true
  | .select _ => true
  | .deadline _ => true
  | .failed _ => true
  | _ => false

theorem creating_of_waiting {t : Pc} (h : waiting t = true) : creating t = 1 := by
  cases t <;> first | rfl | cases h

section Step

variable {cfg : Config} {σ σ' : Setup} {t t' : Pc} {new : List Pc}

theorem mem_delays {n : Nat} {u : Pc} (h : u ∈ (List.range n).map Pc.delay) :
    ∃ id, u = .delay id := by
  obtain ⟨id, -, rfl⟩ := List.mem_map.mp h
  exact ⟨id, rfl⟩

/-- A creator stays one, and starts maintainers only. -/
theorem Moves.creating_eq (h : Moves cfg σ t σ' t' new) :
    creating t' = creating t ∧ ∀ u ∈ new, creating u = 0 ∧ waiting u = false := by
  cases h with
  | started =>
      refine ⟨rfl, ?_⟩
      intro u hu
      obtain ⟨id, rfl⟩ := mem_delays hu
      exact ⟨rfl, rfl⟩
  | _ => exact ⟨rfl, fun u hu => (by cases hu)⟩

/-- Only a waiter that returns writes down the end of the wait. -/
theorem Moves.waited_eq (h : Moves cfg σ t σ' t' new) :
    (waiting t' = true → waiting t = true ∧ σ'.waited = σ.waited) ∧
      (σ'.waited = σ.waited ∨ waiting t = true) := by
  cases h with
  | notPositive _ | sawPath w _ | wokeCtx w _ | wokeRejected w event rest _ _ | deadlineOver w _
  | failedOver w _ => exact ⟨fun hw => (by cases hw), Or.inr rfl⟩
  | _ => exact ⟨fun hw => ⟨(by first | rfl | cases hw), rfl⟩, Or.inl rfl⟩

/-- The bond stays as it is, or takes a step, which is a call of `Close` only
    where the creator gives up. -/
theorem Moves.bond_eq (h : Moves cfg σ t σ' t' new) :
    σ'.bond = σ.bond ∨ ∃ call, bondStep cfg.arch σ.bond (.env call) = some σ'.bond ∧
      (call = .close → ∃ e, t = .closing e) := by
  cases h with
  | closes e bond hb => exact Or.inr ⟨_, hb, fun _ => ⟨e, rfl⟩⟩
  | wokeState w bond hb => exact Or.inr ⟨_, hb, fun hk => (by cases hk)⟩
  | added id c bond hb => exact Or.inr ⟨_, hb, fun hk => (by cases hk)⟩
  | _ => exact Or.inl rfl

/-- What the outside world can do. -/
inductive Happens (cfg : Config) (σ : Setup) : Setup → Prop where
  | cancelled : Happens cfg σ { σ with ctxDone := true }
  | fired : Happens cfg σ { σ with fallback := .fired }
  | bond (a : Act VkTurnBond.Choice VkTurnBond.Op) (bond : Bond) :
      bondAllowed σ a = true → bondStep cfg.arch σ.bond a = some bond →
      Happens cfg σ { σ with bond := bond }

/-- What a bond's step did. -/
theorem outside_bond {a : Act VkTurnBond.Choice VkTurnBond.Op}
    (h : outside cfg σ (.bond a) = some (σ', new)) :
    ∃ bond, bondAllowed σ a = true ∧ bondStep cfg.arch σ.bond a = some bond ∧
      σ' = { σ with bond := bond } ∧ new = [] := by
  simp only [outside] at h
  split at h
  · rename_i hallow
    cases hb : bondStep cfg.arch σ.bond a with
    | none => rw [hb] at h; cases h
    | some bond =>
        rw [hb] at h
        cases h
        exact ⟨bond, hallow, rfl, rfl, rfl⟩
  · cases h

theorem outside_happens {e : Op} (h : outside cfg σ e = some (σ', new)) :
    Happens cfg σ σ' ∧ new = [] := by
  cases e with
  | cancel =>
      cases h
      exact ⟨.cancelled, rfl⟩
  | fire =>
      simp only [outside] at h
      split at h <;> cases h
      exact ⟨.fired, rfl⟩
  | bond a =>
      obtain ⟨bond, hallow, hb, rfl, rfl⟩ := outside_bond h
      exact ⟨.bond a bond hallow hb, rfl⟩

/-- It ends no wait and reports nothing. -/
theorem Happens.frame (h : Happens cfg σ σ') :
    σ'.waited = σ.waited ∧ σ'.events = σ.events ∧ σ'.reports = σ.reports := by
  cases h <;> exact ⟨rfl, rfl, rfl⟩

/-- Until the wait has ended with a path it does not close the bond. -/
theorem Happens.bond_eq (h : Happens cfg σ σ') :
    σ'.bond = σ.bond ∨ ∃ a, bondStep cfg.arch σ.bond a = some σ'.bond ∧
      (a = .env .close → σ.waited ≠ none) := by
  cases h with
  | bond a bond hallow hb =>
      refine Or.inr ⟨a, hb, ?_⟩
      rintro rfl hw
      have hest : σ.established = true := hallow
      rw [Setup.established, hw] at hest
      cases hest
  | _ => exact Or.inl rfl

end Step

section Reached

variable {cfg : Config} {s : SetupPool} {ok : SetupPool → Act Choice Op → Prop}

/-- The bond of a generation is one that a bond by itself can reach, and where the
    steps of the generation's run keep a condition on the bond's own steps, by
    such steps alone. -/
theorem bond_reached_by {q : Bond → Act VkTurnBond.Choice VkTurnBond.Op → Prop}
    (hcall : ∀ b e, q b (.env e))
    (hq : ∀ (s : SetupPool) a, ok s (.env (.bond a)) → q s.shared.bond a)
    (h : Reach (setupStep cfg) ok newGeneration s) :
    Reach (bondStep cfg.arch) q newBond s.shared.bond := by
  refine Reach.invariant (I := fun s =>
    Reach (bondStep cfg.arch) q newBond s.shared.bond) Reach.start ?_ h
  intro s a s' _ hI hok hs
  cases a with
  | run i a =>
      obtain ⟨t, σ', t', new, _, he, rfl⟩ := Machine.step_run hs
      rcases (exec_moves he).bond_eq with hb | ⟨call, hb, -⟩
      · rw [show σ'.bond = s.shared.bond from hb]
        exact hI
      · exact Reach.tail _ hI (hcall _ _) hb
  | env e =>
      obtain ⟨σ', new, he, rfl⟩ := Machine.step_env hs
      cases e with
      | bond a =>
          obtain ⟨bond, -, hb, rfl, -⟩ := outside_bond he
          exact Reach.tail a hI (hq s a hok) hb
      | cancel =>
          cases he
          exact hI
      | fire =>
          simp only [setupMachine, outside] at he
          split at he <;> cases he
          exact hI

/-- A generation has one creator. -/
theorem one_creator (h : Reach (setupStep cfg) ok newGeneration s) :
    load creating s.threads = 1 := by
  have hcons := Machine.reach_conserves (M := setupMachine cfg) (fun _ => 0) creating
    (fun _ => 1) rfl ?_ ?_ h
  · simpa using hcons
  · intro i σ t a σ' t' new he
    obtain ⟨hsame, hnew⟩ := (exec_moves he).creating_eq
    have hz : load creating new = 0 := load_eq_zero fun u hu => (hnew u hu).1
    omega
  · intro σ e σ' new he
    obtain ⟨-, rfl⟩ := outside_happens he
    rfl

/-- Next to a waiter no other thread is a creator. -/
theorem waiter_alone (h : Reach (setupStep cfg) ok newGeneration s) {i j : Nat} {t u : Pc}
    (hij : i ≠ j) (ht : s.threads[i]? = some t) (hu : s.threads[j]? = some u)
    (hw : waiting u = true) : creating t = 0 := by
  have hsum := add_le_load creating hij ht hu
  rw [creating_of_waiting hw, one_creator h] at hsum
  omega

/-- While a thread is waiting, no wait has ended. -/
theorem still_waiting (h : Reach (setupStep cfg) ok newGeneration s) :
    ∀ (i : Nat) (t : Pc), s.threads[i]? = some t → waiting t = true →
      s.shared.waited = none := by
  refine (Machine.owickiGries (M := setupMachine cfg)
    (J := Reach (setupStep cfg) ok newGeneration) (fun s hs => hs) (fun _ => True)
    (fun _ σ t => waiting t = true → σ.waited = none) ?_ ?_ ?_ ?_ h).2
  · exact ⟨trivial, fun i t _ _ => rfl⟩
  · intro s i t a σ' t' new _ _ _ he _ hL
    have hm := exec_moves he
    refine ⟨trivial, ?_, ?_⟩
    · intro hw
      obtain ⟨hold, hsame⟩ := hm.waited_eq.1 hw
      exact hsame.trans (hL hold)
    · intro n u hu hw
      cases (hm.creating_eq.2 u hu).2.symm.trans hw
  · intro s i j t u a σ' t' new hreach hij ht hu he _ _ hLu hw
    rcases (exec_moves he).waited_eq.2 with hsame | htw
    · exact hsame.trans (hLu hw)
    · have := waiter_alone hreach hij ht hu hw
      rw [creating_of_waiting htw] at this
      cases this
  · intro s e σ' new _ _ he _
    obtain ⟨hh, rfl⟩ := outside_happens he
    refine ⟨trivial, fun n u hu => (by cases hu), ?_⟩
    intro j u _ hLu hw
    exact hh.frame.1.trans (hLu hw)

end Reached

end VkTurnSetup
