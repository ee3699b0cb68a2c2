import VkTurn.GoScopeProofs
import VkTurn.GoTimeProofs

/-! # A UDP session of the server

    `handleUDPConnection` forwards packets between a DTLS connection and a UDP backend.  Two
    goroutines read, one from each; a function given to `AfterFunc` interrupts both once the
    context has ended; and a WATCHDOG ends the session when no packet has come from the
    client for `udpIdleTimeout`.

    The watchdog takes no lock.  A packet stores the time since the start (`touch`: the clock
    is read, then the value stored), and the watchdog reads the clock, then loads the value, and
    sleeps for what is left.  Each of these is a step of its own here, so a packet can come
    between any two of them.  The clock moves by steps of its own too.

    * `session_scopes`: a session is a scope over its two connections;
    * `timed`: what is stored is the time of the last touch, so the watchdog is right about
      silence.

    What the connections answer, and when, is not up to the code.  The lines that the code
    logs are left out. -/

namespace VkTurnUdpSession

open ThreadPool GoText GoTime GoScope

/-! ## State -/

/-- `udpIdleTimeout`. -/
def udpIdleTimeout : Duration := 30 * minute

def udpPacketBufferSize : Nat := 2048

/-- The DTLS connection (`conn`) and the backend's (`serverConn`). -/
inductive Conn where
  | incoming
  | outgoing
  deriving DecidableEq, Repr

/-- What the hook sets and the call clears, in this order. -/
def conns : List Conn := [.incoming, .outgoing]

/-- A goroutine that reads from one connection and writes to the other; only the one that
    reads from the client touches.  `storing` has the instant at which the clock was read. -/
inductive Reader where
  | unstarted
  | reading
  | touching (data : Bytes)
  | storing (data : Bytes) (instant : Nat)
  | writing (data : Bytes)
  | cancelling
  | finishing
  | ended
  deriving DecidableEq, Repr

/-- One direction: its goroutine, and the packets that it has received and sent. -/
structure Flow where
  reader : Reader := .ended
  received : List Bytes := []
  sent : List Bytes := []

/-- The goroutine of `waitUntilIdle`.  `loading` has the instant at which the clock was read. -/
inductive Watchdog where
  | unstarted
  | top
  | loading (instant : Nat)
  | setting (remaining : Duration)
  | sleeping (wake : Int)
  | cancelling
  | closing
  | ended
  deriving DecidableEq, Repr

/-- The call: `newUDPActivity` (`creating` and `touching`: nobody else sees the activity before it
    returns), the waits and the cleanup. -/
inductive Main where
  | dialing
  | creating
  | touching
  | waiting
  | cancelling
  | watching
  | stopping
  | awaiting
  | clearing (todo : List Conn)
  | closing
  | returned
  deriving DecidableEq, Repr

/-- What the watchdog knew when it found the session idle: the instant at which it had read the
    clock, and the touches stored when it loaded. -/
structure Verdict where
  instant : Nat
  touches : List Nat
  deriving DecidableEq, Repr

/-- The session; a direction is named by the connection that is read.  Histories: packets, the
    instants of the touches, the watchdog's verdict, and the deadlines that were not cleared. -/
structure Session where
  ctx : Bool := false
  ctx2 : Bool := false
  clock : Nat := 0
  started : Nat := 0
  last : Duration := 0
  main : Main := .dialing
  flows : Conn → Flow := fun _ => {}
  watchdog : Watchdog := .ended
  hook : Hook Conn := .stopped
  deadlines : Conn → Bool := fun _ => false
  serverConn : Bool := false
  touches : List Nat := []
  verdict : Option Verdict := none
  uncleared : List Conn := []

/-- Before the call dials. -/
def newSession : Session := {}

/-- `activity.last.Store`, of the time since the start at an instant. -/
def Session.touch (s : Session) (instant : Nat) : Session :=
  { s with last := sub instant s.started, touches := s.touches ++ [instant] }

def Session.goto (s : Session) (c : Conn) (f : Flow) : Session :=
  { s with flows := Function.update s.flows c f }

/-! ## Sections -/

/-- What a read or a write returns; `go` is every other section. -/
inductive ReaderChoice where
  | go
  | packet (data : Bytes)
  | fails
  | sent (ok : Bool)
  deriving DecidableEq, Repr

/-- `fired` and `done` are the two cases of the watchdog's `select`. -/
inductive WatchChoice where
  | go
  | fired
  | done
  deriving DecidableEq, Repr

/-- One scheduling choice; `ok` is what a dial or a `SetDeadline` answers. -/
inductive Choice where
  | main (ok : Bool)
  | reader (c : Conn) (choice : ReaderChoice)
  | watchdog (choice : WatchChoice)
  | hook (ok : Bool)
  | cancel
  | propagate
  | tick (elapsed : Nat)
  deriving DecidableEq, Repr

/-- One section of a reader. -/
def readerStep (s : Session) (c : Conn) (f : Flow) : ReaderChoice → Reader → Option Session
  | .packet data, .reading =>
      let data := data.take udpPacketBufferSize
      some (s.goto c { f with reader := if c = .incoming then .touching data else .writing data
                              received := f.received ++ [data] })
  | .fails, .reading => some (s.goto c { f with reader := .cancelling })
  | .go, .touching data => some (s.goto c { f with reader := .storing data s.clock })
  | .go, .storing data instant =>
      some ((s.touch instant).goto c { f with reader := .writing data })
  | .sent true, .writing data =>
      some (s.goto c { f with reader := .reading, sent := f.sent ++ [data] })
  | .sent false, .writing _ => some (s.goto c { f with reader := .cancelling })
  | .go, .cancelling =>
      some (({ s with ctx2 := true } : Session).goto c { f with reader := .finishing })
  | .go, .finishing => some (s.goto c { f with reader := .ended })
  | _, _ => none

/-- `timeout - idleFor`, in the arithmetic of durations. -/
def Session.remaining (s : Session) (instant : Nat) : Duration :=
  udpIdleTimeout - (sub instant s.started - s.last)

/-- `remaining <= 0`. -/
def Session.idle (s : Session) (instant : Nat) : Bool := decide (s.remaining instant ≤ 0)

/-- The watchdog has loaded `last`: it returns, or goes on to its timer. -/
def Session.judge (s : Session) (instant : Nat) : Session :=
  if s.idle instant then
    { s with verdict := some ⟨instant, s.touches⟩, watchdog := .cancelling }
  else { s with watchdog := .setting (s.remaining instant) }

/-- One section of the watchdog.  A timer that is stopped too late has its value in the channel,
    so the receive that follows does not block. -/
def watchdogStep (s : Session) : WatchChoice → Watchdog → Option Session
  | .go, .top => some { s with watchdog := .loading s.clock }
  | .go, .loading instant => some (s.judge instant)
  | .go, .setting remaining => some { s with watchdog := .sleeping (s.clock + remaining.toInt) }
  | .fired, .sleeping wake => if wake ≤ s.clock then some { s with watchdog := .top } else none
  | .done, .sleeping _ => if s.ctx2 then some { s with watchdog := .closing } else none
  | .go, .cancelling => some { s with ctx2 := true, watchdog := .closing }
  | .go, .closing => some { s with watchdog := .ended }
  | _, _ => none

/-- One section of the call. -/
def mainStep (s : Session) (ok : Bool) : Main → Option Session
  | .dialing =>
      if ok then
        some { s with ctx2 := s.ctx, main := .creating, hook := .armed, serverConn := true
                      flows := fun _ => { reader := .unstarted }, watchdog := .unstarted
                      uncleared := [] }
      else some { s with main := .returned }
  | .creating => some { s with started := s.clock, main := .touching }
  | .touching =>
      some { s.touch s.clock with
             main := .waiting, flows := fun _ => { reader := .reading }, watchdog := .top }
  | .waiting =>
      if (s.flows .incoming).reader = .ended ∧ (s.flows .outgoing).reader = .ended then
        some { s with main := .cancelling }
      else none
  | .cancelling => some { s with ctx2 := true, main := .watching }
  | .watching => if s.watchdog = .ended then some { s with main := .stopping } else none
  | .stopping =>
      if s.hook = .armed then some { s with hook := .stopped, main := .clearing conns }
      else some { s with main := .awaiting }
  | .awaiting => if s.hook = .done then some { s with main := .clearing conns } else none
  | .clearing (c :: todo) =>
      some { s with deadlines := mark s.deadlines c false ok, main := .clearing todo
                    uncleared := if ok then s.uncleared else c :: s.uncleared }
  | .clearing [] => some { s with main := .closing }
  | .closing => some { s with serverConn := false, main := .returned }
  | .returned => none

/-- One section of the function given to `AfterFunc`, or its start. -/
def hookStep (s : Session) (ok : Bool) : Option Session :=
  (s.hook.step conns s.ctx2 s.deadlines ok).map fun x => { s with hook := x.1, deadlines := x.2 }

/-- One step. -/
def sessionStep (s : Session) : Choice → Option Session
  | .main ok => mainStep s ok s.main
  | .reader c choice => readerStep s c (s.flows c) choice (s.flows c).reader
  | .watchdog choice => watchdogStep s choice s.watchdog
  | .hook ok => hookStep s ok
  | .cancel => some { s with ctx := true }
  | .propagate => if s.ctx then some { s with ctx2 := true } else none
  | .tick elapsed => some { s with clock := s.clock + elapsed }

/-- Every state, whatever happens. -/
abbrev SessionReach : Session → Prop := Reach sessionStep anyStep newSession

/-! ## Inversion -/

/-- What a section of a reader does. -/
inductive ReaderMoves (s : Session) (c : Conn) (f : Flow) : Session → Prop where
  | receives {data : Bytes} (hat : f.reader = .reading) :
      ReaderMoves s c f
        (s.goto c { f with reader := if c = .incoming then .touching data else .writing data
                           received := f.received ++ [data] })
  | fails (hat : f.reader = .reading) :
      ReaderMoves s c f (s.goto c { f with reader := .cancelling })
  | clocks {data : Bytes} (hat : f.reader = .touching data) :
      ReaderMoves s c f (s.goto c { f with reader := .storing data s.clock })
  | stores {data : Bytes} {instant : Nat} (hat : f.reader = .storing data instant) :
      ReaderMoves s c f ((s.touch instant).goto c { f with reader := .writing data })
  | sends {data : Bytes} (hat : f.reader = .writing data) :
      ReaderMoves s c f (s.goto c { f with reader := .reading, sent := f.sent ++ [data] })
  | breaks {data : Bytes} (hat : f.reader = .writing data) :
      ReaderMoves s c f (s.goto c { f with reader := .cancelling })
  | cancels (hat : f.reader = .cancelling) :
      ReaderMoves s c f
        (({ s with ctx2 := true } : Session).goto c { f with reader := .finishing })
  | finishes (hat : f.reader = .finishing) :
      ReaderMoves s c f (s.goto c { f with reader := .ended })

/-- What a section of the watchdog does. -/
inductive WatchMoves (s : Session) : Session → Prop where
  | clocks (hat : s.watchdog = .top) : WatchMoves s { s with watchdog := .loading s.clock }
  | finds {instant : Nat} (hat : s.watchdog = .loading instant)
      (hidle : s.idle instant = true) :
      WatchMoves s { s with verdict := some ⟨instant, s.touches⟩, watchdog := .cancelling }
  | loads {instant : Nat} (hat : s.watchdog = .loading instant) :
      WatchMoves s { s with watchdog := .setting (s.remaining instant) }
  | sets {remaining : Duration} (hat : s.watchdog = .setting remaining) :
      WatchMoves s { s with watchdog := .sleeping (s.clock + remaining.toInt) }
  | wakes {wake : Int} (hat : s.watchdog = .sleeping wake) (hwake : wake ≤ s.clock) :
      WatchMoves s { s with watchdog := .top }
  | stops {wake : Int} (hat : s.watchdog = .sleeping wake) (hctx : s.ctx2 = true) :
      WatchMoves s { s with watchdog := .closing }
  | cancels (hat : s.watchdog = .cancelling) :
      WatchMoves s { s with ctx2 := true, watchdog := .closing }
  | closes (hat : s.watchdog = .closing) : WatchMoves s { s with watchdog := .ended }

/-- What a section of the call does. -/
inductive MainMoves (s : Session) : Session → Prop where
  | dials (hat : s.main = .dialing) :
      MainMoves s { s with ctx2 := s.ctx, main := .creating, hook := .armed, serverConn := true
                           flows := fun _ => { reader := .unstarted }, watchdog := .unstarted
                           uncleared := [] }
  | fails (hat : s.main = .dialing) : MainMoves s { s with main := .returned }
  | creates (hat : s.main = .creating) :
      MainMoves s { s with started := s.clock, main := .touching }
  | starts (hat : s.main = .touching) :
      MainMoves s { s.touch s.clock with
                    main := .waiting, flows := fun _ => { reader := .reading }
                    watchdog := .top }
  | joins (hat : s.main = .waiting) (hin : (s.flows .incoming).reader = .ended)
      (hout : (s.flows .outgoing).reader = .ended) : MainMoves s { s with main := .cancelling }
  | cancels (hat : s.main = .cancelling) :
      MainMoves s { s with ctx2 := true, main := .watching }
  | watches (hat : s.main = .watching) (hended : s.watchdog = .ended) :
      MainMoves s { s with main := .stopping }
  | stops (hat : s.main = .stopping) (harmed : s.hook = .armed) :
      MainMoves s { s with hook := .stopped, main := .clearing conns }
  | misses (hat : s.main = .stopping) (harmed : s.hook ≠ .armed) :
      MainMoves s { s with main := .awaiting }
  | awaits (hat : s.main = .awaiting) (hdone : s.hook = .done) :
      MainMoves s { s with main := .clearing conns }
  | clears {c : Conn} {todo : List Conn} (ok : Bool) (hat : s.main = .clearing (c :: todo)) :
      MainMoves s { s with deadlines := mark s.deadlines c false ok, main := .clearing todo
                           uncleared := if ok then s.uncleared else c :: s.uncleared }
  | cleared (hat : s.main = .clearing []) : MainMoves s { s with main := .closing }
  | closes (hat : s.main = .closing) :
      MainMoves s { s with serverConn := false, main := .returned }

/-- What a step does. -/
inductive Moves (s : Session) : Session → Prop where
  | main {s' : Session} (h : MainMoves s s') : Moves s s'
  | reader {s' : Session} (c : Conn) (h : ReaderMoves s c (s.flows c) s') : Moves s s'
  | watchdog {s' : Session} (h : WatchMoves s s') : Moves s s'
  | hook {ok : Bool} {x : Hook Conn × (Conn → Bool)}
      (h : s.hook.step conns s.ctx2 s.deadlines ok = some x) :
      Moves s { s with hook := x.1, deadlines := x.2 }
  | cancel : Moves s { s with ctx := true }
  | propagate (hctx : s.ctx = true) : Moves s { s with ctx2 := true }
  | tick (elapsed : Nat) : Moves s { s with clock := s.clock + elapsed }

section Inversion

variable {s s' : Session}

theorem readerStep_moves {c : Conn} {f : Flow} {choice : ReaderChoice}
    (h : readerStep s c f choice f.reader = some s') : ReaderMoves s c f s' := by
  generalize hat : f.reader = reader at h
  unfold readerStep at h
  split at h
  case h_1 => cases h; exact .receives hat
  case h_2 => cases h; exact .fails hat
  case h_3 => cases h; exact .clocks hat
  case h_4 => cases h; exact .stores hat
  case h_5 => cases h; exact .sends hat
  case h_6 => cases h; exact .breaks hat
  case h_7 => cases h; exact .cancels hat
  case h_8 => cases h; exact .finishes hat
  case h_9 => cases h

theorem watchdogStep_moves {choice : WatchChoice}
    (h : watchdogStep s choice s.watchdog = some s') : WatchMoves s s' := by
  generalize hat : s.watchdog = watchdog at h
  cases choice with
  | go =>
      cases watchdog with
      | top => cases h; exact .clocks hat
      | loading instant =>
          obtain rfl : s.judge instant = s' := Option.some.inj h
          rw [Session.judge]
          split
          · exact .finds hat ‹_›
          · exact .loads hat
      | setting remaining => cases h; exact .sets hat
      | cancelling => cases h; exact .cancels hat
      | closing => cases h; exact .closes hat
      | _ => cases h
  | fired =>
      cases watchdog with
      | sleeping wake =>
          obtain ⟨hwake, hs⟩ := Option.ite_none_right_eq_some.mp h
          cases hs; exact .wakes hat hwake
      | _ => cases h
  | done =>
      cases watchdog with
      | sleeping wake =>
          obtain ⟨hctx, hs⟩ := Option.ite_none_right_eq_some.mp h
          cases hs; exact .stops hat hctx
      | _ => cases h

theorem mainStep_moves {ok : Bool} (h : mainStep s ok s.main = some s') : MainMoves s s' := by
  generalize hat : s.main = main at h
  unfold mainStep at h
  split at h
  case h_1 =>
    split at h
    · cases h; exact .dials hat
    · cases h; exact .fails hat
  case h_2 => cases h; exact .creates hat
  case h_3 => cases h; exact .starts hat
  case h_4 =>
    split at h
    case isTrue hends => cases h; exact .joins hat hends.1 hends.2
    case isFalse => cases h
  case h_5 => cases h; exact .cancels hat
  case h_6 =>
    split at h
    · cases h; exact .watches hat ‹_›
    · cases h
  case h_7 =>
    split at h
    · cases h; exact .stops hat ‹_›
    · cases h; exact .misses hat ‹_›
  case h_8 =>
    split at h
    · cases h; exact .awaits hat ‹_›
    · cases h
  case h_9 => cases h; exact .clears ok hat
  case h_10 => cases h; exact .cleared hat
  case h_11 => cases h; exact .closes hat
  case h_12 => cases h

/-- A step is one of the readers, the watchdog, the call or the rest. -/
theorem sessionStep_moves {choice : Choice} (h : sessionStep s choice = some s') :
    Moves s s' := by
  cases choice with
  | main ok => exact .main (mainStep_moves h)
  | reader c choice => exact .reader c (readerStep_moves h)
  | watchdog choice => exact .watchdog (watchdogStep_moves h)
  | hook ok =>
      obtain ⟨x, hx, rfl⟩ := Option.map_eq_some_iff.mp h
      exact .hook hx
  | cancel => cases h; exact .cancel
  | propagate =>
      simp only [sessionStep, Option.ite_none_right_eq_some, Option.some.injEq] at h
      obtain ⟨hctx, rfl⟩ := h
      exact .propagate hctx
  | tick elapsed => cases h; exact .tick elapsed

/-- A reader that moves has started and has not ended. -/
theorem ReaderMoves.awake {c : Conn} {f : Flow} (h : ReaderMoves s c f s') :
    f.reader ≠ .unstarted ∧ f.reader ≠ .ended := by
  cases h with
  | _ hat =>
      rw [hat]
      exact ⟨fun he => (by cases he), fun he => (by cases he)⟩

theorem WatchMoves.awake (h : WatchMoves s s') :
    s.watchdog ≠ .unstarted ∧ s.watchdog ≠ .ended := by
  cases h with
  | _ hat =>
      rw [hat]
      exact ⟨fun he => (by cases he), fun he => (by cases he)⟩

/-- Only the call moves the call. -/
theorem ReaderMoves.main_eq {c : Conn} {f : Flow} (h : ReaderMoves s c f s') :
    s'.main = s.main := by
  cases h <;> rfl

theorem WatchMoves.main_eq (h : WatchMoves s s') : s'.main = s.main := by
  cases h <;> rfl

/-- **INVARIANT RULE** of the session: what holds at the start and is kept by every move. -/
theorem SessionReach.keeps {I : Session → Prop} (h0 : I newSession)
    (hmoves : ∀ s s', SessionReach s → I s → Moves s s' → I s') (h : SessionReach s) : I s := by
  refine Reach.invariant (I := I) h0 ?_ h
  intro s choice s' hr hs _ hstep
  exact hmoves s s' hr hs (sessionStep_moves hstep)

end Inversion

/-! ## A session is a scope -/

/-- One for a goroutine that has not called `wg.Done`. -/
def Reader.count : Reader → Nat
  | .ended => 0
  | _ => 1

theorem Reader.count_eq_zero {reader : Reader} : reader.count = 0 ↔ reader = .ended := by
  cases reader <;> simp [Reader.count]

def Session.workers (s : Session) : Nat :=
  (s.flows .incoming).reader.count + (s.flows .outgoing).reader.count

def Main.owner : Main → Owner Conn
  | .dialing => .away
  | .creating => .working
  | .touching => .working
  | .waiting => .working
  | .cancelling => .joined
  | .watching => .joined
  | .stopping => .joined
  | .awaiting => .awaiting
  | .clearing todo => .clearing todo
  | .closing => .clearing []
  | .returned => .away

/-- The session without its packets, its clock and its watchdog. -/
def Session.scope (s : Session) : Scope Conn where
  cancelled := s.ctx2
  workers := s.workers
  hook := s.hook
  owner := s.main.owner
  marks := s.deadlines
  uncleared := s.uncleared

/-- A step of the scope, or none. -/
def Scopes (s s' : Session) : Prop := Scope.Follows conns conns True s.scope s'.scope

section Scope

variable {s s' : Session}

theorem ReaderMoves.scopes {c : Conn} (h : ReaderMoves s c (s.flows c) s') : Scopes s s' := by
  cases h with
  | cancels hat =>
      refine Or.inr (Scope.Step.cancel.of_eq ?_)
      cases c <;> simp [Session.scope, Session.workers, Session.goto, Reader.count, hat]
  | finishes hat =>
      refine Or.inr (.finish ?_)
      cases c <;>
        simp [Session.scope, Session.workers, Session.goto, Reader.count, hat, Nat.add_comm]
  | _ hat =>
      refine Or.inl ?_
      cases c <;>
        simp [Session.scope, Session.workers, Session.goto, Session.touch, Reader.count, hat]

theorem WatchMoves.scopes (h : WatchMoves s s') : Scopes s s' := by
  cases h with
  | cancels hat => exact Or.inr .cancel
  | _ => exact Or.inl rfl

/-- Until the call has dialed, only the context and the clock change. -/
theorem undialed (h : SessionReach s) (hmain : s.main = .dialing) :
    s = { newSession with ctx := s.ctx, ctx2 := s.ctx2, clock := s.clock } := by
  refine SessionReach.keeps (I := fun s => s.main = .dialing →
    s = { newSession with ctx := s.ctx, ctx2 := s.ctx2, clock := s.clock }) ?_ ?_ h hmain
  · intro _
    rfl
  · intro s s' _ hs hmoves he
    cases hmoves with
    | main h => cases h <;> cases he
    | reader c h =>
        have hended : (s.flows c).reader = .ended := by
          rw [hs (h.main_eq.symm.trans he)]
          rfl
        exact absurd hended h.awake.2
    | watchdog h =>
        have hended : s.watchdog = .ended := by
          rw [hs (h.main_eq.symm.trans he)]
          rfl
        exact absurd hended h.awake.2
    | hook h =>
        rw [hs he] at h
        cases h
    | cancel => rw [hs he]
    | propagate => rw [hs he]
    | tick elapsed => rw [hs he]

/-- The call has not started its goroutines. -/
def Main.early : Main → Bool
  | .creating => true
  | .touching => true
  | _ => false

/-- Before the call starts them, the goroutines do nothing. -/
theorem unstarted (h : SessionReach s) :
    s.main.early = true →
      s.flows = (fun _ => { reader := .unstarted }) ∧ s.watchdog = .unstarted := by
  refine SessionReach.keeps (I := fun s => s.main.early = true →
    s.flows = (fun _ => { reader := .unstarted }) ∧ s.watchdog = .unstarted) ?_ ?_ h
  · intro he
    cases he
  · intro s s' _ hs hmoves he
    cases hmoves with
    | main h =>
        cases h with
        | dials => exact ⟨rfl, rfl⟩
        | creates hat => exact hs (by rw [hat]; rfl)
        | _ => cases he
    | reader c h =>
        rw [h.main_eq] at he
        exact absurd (congrArg Flow.reader (congrFun (hs he).1 c)) h.awake.1
    | watchdog h =>
        rw [h.main_eq] at he
        exact absurd (hs he).2 h.awake.1
    | hook h => exact hs he
    | cancel => exact hs he
    | propagate => exact hs he
    | tick => exact hs he

theorem MainMoves.scopes (hr : SessionReach s) (h : MainMoves s s') : Scopes s s' := by
  cases h with
  | dials hat =>
      refine Or.inr (Scope.Step.of_eq (.enter s.ctx 2 (fun _ => false) ?_) ?_)
      · exact congrArg Main.owner hat
      · simp [Session.scope, Session.workers, Main.owner, Reader.count]
  | starts hat =>
      have hidle := (unstarted hr (by rw [hat]; rfl)).1
      refine Or.inl ?_
      simp [Session.scope, Session.workers, Session.touch, Main.owner, Reader.count, hat, hidle]
  | joins hat hin hout =>
      refine Or.inr (.join (congrArg Main.owner hat) ?_)
      simp [Session.scope, Session.workers, Reader.count, hin, hout]
  | cancels hat =>
      refine Or.inr (Scope.Step.cancel.of_eq ?_)
      simp [Session.scope, Session.workers, Main.owner, hat]
  | stops hat harmed => exact Or.inr (.stop (congrArg Main.owner hat) harmed)
  | misses hat harmed => exact Or.inr (.miss (congrArg Main.owner hat) harmed)
  | awaits hat hdone => exact Or.inr (.await (congrArg Main.owner hat) hdone)
  | clears ok hat => exact Or.inr (.clear ok (congrArg Main.owner hat))
  | closes hat => exact Or.inr (.leave (congrArg Main.owner hat))
  | _ hat => exact Or.inl (by simp [Session.scope, Session.workers, Main.owner, hat])

/-- **A SESSION IS A SCOPE**: every move is one of the scope over the two connections, or none
    of it. -/
theorem session_scopes (hr : SessionReach s) (h : Moves s s') : Scopes s s' := by
  cases h with
  | main h => exact h.scopes hr
  | reader c h => exact h.scopes
  | watchdog h => exact h.scopes
  | hook h => exact Or.inr (.hook (fun _ => trivial) h)
  | cancel => exact Or.inl rfl
  | propagate => exact Or.inr .cancel
  | tick => exact Or.inl rfl

/-- **THE SCOPE IS TIDY** on every run. -/
theorem session_tidy (h : SessionReach s) : s.scope.Tidy conns conns :=
  Scope.tidy (fun _ ha => ha) (by rfl)
    (fun _ _ _ hr hstep => session_scopes hr (sessionStep_moves hstep)) h

/-- The call returns after its goroutines. -/
theorem returned_ends (h : SessionReach s) (hmain : s.main = .returned) (c : Conn) :
    (s.flows c).reader = .ended := by
  have hzero : s.workers = 0 := by
    refine (session_tidy h).joined ?_
    show s.main.owner ≠ .working
    rw [hmain]
    intro he
    cases he
  cases c with
  | incoming => exact Reader.count_eq_zero.mp (Nat.eq_zero_of_add_eq_zero_right hzero)
  | outgoing => exact Reader.count_eq_zero.mp (Nat.eq_zero_of_add_eq_zero_left hzero)

end Scope

/-! ## The watchdog and the backend's connection -/

/-- The call has waited for the watchdog. -/
def Main.watched : Main → Bool
  | .stopping => true
  | .awaiting => true
  | .clearing _ => true
  | .closing => true
  | .returned => true
  | _ => false

/-- What the call has seen to its end, and what it holds. -/
structure Held (s : Session) : Prop where
  watchdog : s.main.watched = true → s.watchdog = .ended
  serverConn : s.main = .returned → s.serverConn = false

section Held

variable {s s' : Session}

/-- **WHO HOLDS WHAT**: watchdog and backend connection, by place in the call. -/
theorem held (h : SessionReach s) : Held s := by
  refine SessionReach.keeps (I := Held) ⟨fun _ => rfl, fun he => (by cases he)⟩ ?_ h
  intro s s' hr hs hmoves
  cases hmoves with
  | main h =>
      cases h with
      | fails hat =>
          refine ⟨fun _ => ?_, fun _ => ?_⟩
          · show s.watchdog = .ended
            rw [undialed hr hat]
            rfl
          · show s.serverConn = false
            rw [undialed hr hat]
            rfl
      | watches hat hended => exact ⟨fun _ => hended, fun he => (by cases he)⟩
      | stops hat | misses hat | awaits hat | clears ok hat | cleared hat =>
          exact ⟨fun _ => hs.watchdog (by rw [hat]; rfl), fun he => (by cases he)⟩
      | closes hat => exact ⟨fun _ => hs.watchdog (by rw [hat]; rfl), fun _ => rfl⟩
      | _ => exact ⟨fun he => (by cases he), fun he => (by cases he)⟩
  | reader c h => cases h <;> exact ⟨hs.watchdog, hs.serverConn⟩
  | watchdog h =>
      have hconn : s'.serverConn = s.serverConn := by cases h <;> rfl
      refine ⟨?_, ?_⟩
      · intro he
        rw [h.main_eq] at he
        exact absurd (hs.watchdog he) h.awake.2
      · rw [h.main_eq, hconn]
        exact hs.serverConn
  | hook h | cancel | propagate | tick => exact ⟨hs.watchdog, hs.serverConn⟩

end Held

/-! ## Packets -/

/-- The packet that a reader holds. -/
def Reader.inHand : Reader → List Bytes
  | .touching data => [data]
  | .storing data _ => [data]
  | .writing data => [data]
  | _ => []

/-- A reader that has not met an error. -/
def Reader.live : Reader → Bool
  | .cancelling => false
  | .finishing => false
  | .ended => false
  | _ => true

/-- What was sent is what was received, without the packet in hand or the one that failed. -/
structure Flow.Forwarded (f : Flow) : Prop where
  live : f.reader.live = true → f.received = f.sent ++ f.reader.inHand
  most : ∃ rest, f.received = f.sent ++ rest ∧ rest.length ≤ 1

section Packets

variable {s s' : Session}

theorem Flow.forwarded_of_live {f : Flow} (h : f.received = f.sent ++ f.reader.inHand) :
    f.Forwarded := by
  refine ⟨fun _ => h, f.reader.inHand, h, ?_⟩
  cases f.reader <;> simp [Reader.inHand]

/-- A reader that gives up keeps what it had. -/
theorem Flow.Forwarded.gives_up {f : Flow} (h : f.Forwarded) {reader : Reader}
    (hdead : reader.live = false) : ({ f with reader := reader } : Flow).Forwarded :=
  ⟨fun he => (by rw [show reader.live = true from he] at hdead; cases hdead), h.most⟩

theorem goto_self (s : Session) (c : Conn) (f : Flow) : (s.goto c f).flows c = f :=
  Function.update_self ..

theorem goto_other {c d : Conn} (h : d ≠ c) (s : Session) (f : Flow) :
    (s.goto c f).flows d = s.flows d :=
  Function.update_of_ne h ..

/-- A section of one reader is one of its own packets. -/
theorem ReaderMoves.forwarded {c : Conn} {f : Flow} (h : ReaderMoves s c f s')
    (hf : f.Forwarded) : (s'.flows c).Forwarded := by
  have hlive := hf.live
  cases h with
  | receives hat =>
      rw [hat] at hlive
      rw [goto_self]
      refine Flow.forwarded_of_live ?_
      show f.received ++ [_] = f.sent ++ Reader.inHand (if c = .incoming then _ else _)
      rw [hlive rfl]
      split <;> simp [Reader.inHand]
  | clocks hat | stores hat =>
      rw [hat] at hlive
      rw [goto_self]
      exact Flow.forwarded_of_live (hlive rfl)
  | sends hat =>
      rw [hat] at hlive
      rw [goto_self]
      refine Flow.forwarded_of_live ?_
      rw [hlive rfl]
      simp [Reader.inHand]
  | _ => rw [goto_self]; exact hf.gives_up rfl

/-- **IN ORDER**: each direction has sent what it received, but perhaps the last. -/
theorem forwarded (h : SessionReach s) : ∀ c, (s.flows c).Forwarded := by
  refine SessionReach.keeps (I := fun s => ∀ c, (s.flows c).Forwarded) ?_ ?_ h
  · intro c
    exact Flow.forwarded_of_live rfl
  · intro s s' hr hs hmoves
    cases hmoves with
    | main h =>
        cases h with
        | dials | starts => exact fun c => Flow.forwarded_of_live rfl
        | _ => exact hs
    | reader c h =>
        intro d
        by_cases hd : d = c
        · subst hd
          exact h.forwarded (hs d)
        · have hother : s'.flows d = s.flows d := by cases h <;> exact goto_other hd ..
          rw [hother]
          exact hs d
    | watchdog h => cases h <;> exact hs
    | hook h => exact hs
    | cancel => exact hs
    | propagate => exact hs
    | tick => exact hs

end Packets

/-! ## The clock, the touches and the watchdog -/

/-- One for a packet whose touch is not stored yet. -/
def Reader.pending : Reader → Nat
  | .touching _ => 1
  | .storing _ _ => 1
  | _ => 0

/-- What is stored is the time of the last touch, nobody is about to store an earlier one, and
    the watchdog's verdict is about all touches. -/
structure Timed (s : Session) : Prop where
  early : s.main.early = true → s.touches = [] ∧ s.last = 0
  last : 0 ≤ s.last.toInt ∧ s.started + s.last.toInt ≤ s.clock
  latest : ∀ t ∈ s.touches, (t : Int) ≤ s.started + s.last.toInt
  storing : ∀ data t, (s.flows .incoming).reader = .storing data t →
    s.started + s.last.toInt ≤ t ∧ t ≤ s.clock
  backend : (s.flows .outgoing).reader.pending = 0
  count : s.touches.length + (s.flows .incoming).reader.pending
    ≤ (s.flows .incoming).received.length + 1
  loading : ∀ t, s.watchdog = .loading t → t ≤ s.clock
  verdict : ∀ v, s.verdict = some v → ∀ t ∈ v.touches, (t : Int) + udpIdleTimeout.toInt ≤ v.instant

section Clock

variable {s s' : Session}

/-- A touch at an instant that is not before what is stored.  The duration is exact for 73
    years. -/
theorem Timed.touch (hs : Timed s) (hbound : s.clock ≤ 2 ^ 61) {t : Nat}
    (hlow : s.started + s.last.toInt ≤ t) (hpast : t ≤ s.clock) :
    (0 ≤ (s.touch t).last.toInt ∧ s.started + (s.touch t).last.toInt ≤ s.clock) ∧
      ∀ u ∈ (s.touch t).touches, (u : Int) ≤ s.started + (s.touch t).last.toInt := by
  have hpos := hs.last.1
  have hexact : (s.touch t).last.toInt = (t : Int) - s.started :=
    toInt_between ⟨by omega, by omega⟩
  rw [hexact]
  refine ⟨by omega, ?_⟩
  intro u hu
  rcases List.mem_append.mp hu with hu | hu
  · have hold := hs.latest u hu
    omega
  · obtain rfl := List.mem_singleton.mp hu
    omega

/-- A reader moves after the call has started it. -/
theorem ReaderMoves.not_early {c : Conn} (hr : SessionReach s)
    (h : ReaderMoves s c (s.flows c) s') : ¬ s'.main.early = true := by
  intro he
  rw [h.main_eq] at he
  exact h.awake.1 (congrArg Flow.reader (congrFun (unstarted hr he).1 c))

/-- Only the client's reader touches, with a clock reading it has taken. -/
theorem ReaderMoves.timed {c : Conn} (hr : SessionReach s) (hbound : s.clock ≤ 2 ^ 61)
    (h : ReaderMoves s c (s.flows c) s') (hs : Timed s) : Timed s' := by
  have hearly := h.not_early hr
  have hcount := hs.count
  cases c with
  | outgoing =>
      -- this reader touches nothing, and leaves the other one where it is
      have hother : ∀ (σ : Session) (f : Flow),
          (σ.goto .outgoing f).flows .incoming = σ.flows .incoming :=
        fun σ f => goto_other (by simp) σ f
      cases h with
      | clocks hat | stores hat =>
          have hnone := hs.backend
          rw [hat] at hnone
          cases hnone
      | _ =>
          refine { hs with early := fun he => absurd he hearly, storing := ?_, backend := ?_,
                           count := ?_ }
          · rw [hother]
            exact hs.storing
          · rw [goto_self]
            rfl
          · rw [hother]
            exact hcount
  | incoming =>
      have hbackend : ∀ {σ : Session} (f : Flow), σ.flows = s.flows →
          ((σ.goto .incoming f).flows .outgoing).reader.pending = 0 := by
        intro σ f hσ
        rw [goto_other (by simp), hσ]
        exact hs.backend
      -- a reader that is not about to store
      have hgoes : ∀ {σ : Session} {f : Flow}, (∀ data t, f.reader ≠ .storing data t) →
          ∀ data t, ((σ.goto .incoming f).flows .incoming).reader = .storing data t →
          s.started + s.last.toInt ≤ t ∧ t ≤ s.clock := by
        intro σ f hnot data t he
        rw [goto_self] at he
        exact absurd he (hnot data t)
      cases h with
      | clocks hat =>
          rw [hat] at hcount
          refine { hs with early := fun he => absurd he hearly, storing := ?_,
                           backend := hbackend _ rfl, count := ?_ }
          · intro data t he
            rw [goto_self] at he
            cases he
            exact ⟨hs.last.2, le_rfl⟩
          · rw [goto_self]
            exact hcount
      | @stores data t hat =>
          rw [hat] at hcount
          obtain ⟨hlow, hpast⟩ := hs.storing data t hat
          obtain ⟨hlast, hlatest⟩ := hs.touch hbound hlow hpast
          refine { hs with early := fun he => absurd he hearly, last := hlast, latest := hlatest
                           storing := ?_, backend := hbackend _ rfl, count := ?_ }
          · intro data u he
            rw [goto_self] at he
            cases he
          · rw [goto_self]
            show (s.touches ++ [t]).length + 0 ≤ _
            rw [List.length_append]
            exact hcount
      | receives hat =>
          rw [hat] at hcount
          refine { hs with early := fun he => absurd he hearly, storing := hgoes (by simp)
                           backend := hbackend _ rfl, count := ?_ }
          rw [goto_self]
          show s.touches.length + 1 ≤ (_ ++ [_]).length + 1
          rw [List.length_append]
          exact Nat.add_le_add_right hcount 1
      | _ hat =>
          rw [hat] at hcount
          refine { hs with early := fun he => absurd he hearly, storing := hgoes (by simp)
                           backend := hbackend _ rfl, count := ?_ }
          rw [goto_self]
          exact hcount

theorem MainMoves.timed (hr : SessionReach s) (hbound : s.clock ≤ 2 ^ 61) (h : MainMoves s s')
    (hs : Timed s) : Timed s' := by
  cases h with
  | dials hat =>
      refine ⟨fun _ => ?_, hs.last, hs.latest, fun data t he => (by cases he), rfl, ?_,
        fun t he => (by cases he), hs.verdict⟩
      · show s.touches = [] ∧ s.last = 0
        rw [undialed hr hat]
        exact ⟨rfl, rfl⟩
      · show s.touches.length ≤ 1
        rw [undialed hr hat]
        exact Nat.zero_le 1
  | creates hat =>
      obtain ⟨hnone, hzero⟩ := hs.early (by rw [hat]; rfl)
      have hreaders := (unstarted hr (by rw [hat]; rfl)).1
      have hlast : s.last.toInt = 0 := by
        rw [hzero]
        rfl
      refine { hs with early := fun _ => ⟨hnone, hzero⟩, last := ⟨hs.last.1, ?_⟩, latest := ?_
                       storing := ?_ }
      · show (s.clock : Int) + s.last.toInt ≤ s.clock
        omega
      · intro t ht
        have hmem : t ∈ s.touches := ht
        rw [hnone] at hmem
        cases hmem
      · intro data t he
        have hstoring : (s.flows .incoming).reader = .storing data t := he
        rw [hreaders] at hstoring
        cases hstoring
  | starts hat =>
      obtain ⟨hnone, -⟩ := hs.early (by rw [hat]; rfl)
      obtain ⟨hlast, hlatest⟩ := hs.touch hbound hs.last.2 le_rfl
      refine ⟨fun he => (by cases he), hlast, hlatest, fun data t he => (by cases he), rfl, ?_,
        fun t he => (by cases he), hs.verdict⟩
      show (s.touches ++ [s.clock]).length ≤ 1
      rw [hnone]
      exact le_rfl
  | _ =>
      exact { hs with early := fun he => (by cases he) }

/-- If what is left is not positive, the timeout has passed since the time that is stored. -/
theorem idle_toInt (hs : Timed s) (hbound : s.clock ≤ 2 ^ 61) {instant : Nat}
    (hpast : instant ≤ s.clock) (hidle : s.idle instant = true) :
    s.started + s.last.toInt + udpIdleTimeout.toInt ≤ instant := by
  obtain ⟨hpos, hlast⟩ := hs.last
  have htimeout : udpIdleTimeout.toInt = 1800000000000 := by decide
  have hsince : (sub instant s.started).toInt = (instant : Int) - s.started :=
    toInt_between ⟨by omega, by omega⟩
  have hfor : (sub instant s.started - s.last).toInt
      = (instant : Int) - s.started - s.last.toInt := by
    rw [toInt_sub_of_fits (by rw [hsince]; exact ⟨by omega, by omega⟩), hsince]
  have hrem : (s.remaining instant).toInt
      = udpIdleTimeout.toInt - ((instant : Int) - s.started - s.last.toInt) := by
    rw [Session.remaining, toInt_sub_of_fits, hfor]
    rw [hfor, htimeout]
    exact ⟨by omega, by omega⟩
  have hzero := Int64.le_iff_toInt_le.mp (of_decide_eq_true hidle)
  rw [Int64.toInt_zero, hrem] at hzero
  omega

theorem WatchMoves.timed (hbound : s.clock ≤ 2 ^ 61) (h : WatchMoves s s') (hs : Timed s) :
    Timed s' := by
  cases h with
  | clocks hat =>
      refine { hs with loading := ?_ }
      intro t he
      cases he
      exact le_rfl
  | @finds instant hat hidle =>
      have hsilent := idle_toInt hs hbound (hs.loading instant hat) hidle
      refine { hs with loading := fun t he => (by cases he), verdict := ?_ }
      intro v hv t ht
      cases hv
      have hle := hs.latest t ht
      show (t : Int) + udpIdleTimeout.toInt ≤ instant
      omega
  | _ =>
      exact { hs with loading := fun t he => (by cases he) }

/-- **THE CLOCK AND THE WATCHDOG**, over every run of at most 73 years. -/
theorem timed (h : SessionReach s) : s.clock ≤ 2 ^ 61 → Timed s := by
  refine SessionReach.keeps (I := fun s => s.clock ≤ 2 ^ 61 → Timed s) ?_ ?_ h
  · intro _
    exact ⟨fun he => (by cases he), ⟨le_rfl, le_rfl⟩, fun t ht => (by cases ht),
      fun data t he => (by cases he), rfl, Nat.zero_le _, fun t he => (by cases he),
      fun v hv => (by cases hv)⟩
  · intro s s' hr hs hmoves hbound
    cases hmoves with
    | main h =>
        have hsame : s.clock ≤ 2 ^ 61 := by cases h <;> exact hbound
        exact h.timed hr hsame (hs hsame)
    | reader c h =>
        have hsame : s.clock ≤ 2 ^ 61 := by cases h <;> exact hbound
        exact h.timed hr hsame (hs hsame)
    | watchdog h =>
        have hsame : s.clock ≤ 2 ^ 61 := by cases h <;> exact hbound
        exact h.timed hsame (hs hsame)
    | hook | cancel | propagate =>
        exact { hs hbound with }
    | tick elapsed =>
        have hle : s.clock ≤ s.clock + elapsed := Nat.le_add_right _ _
        have hold := hs (hle.trans hbound)
        have hlast := hold.last
        refine { hold with last := ⟨hlast.1, ?_⟩, storing := ?_
                           loading := fun t he => (hold.loading t he).trans hle }
        · show s.started + s.last.toInt ≤ ((s.clock + elapsed : Nat) : Int)
          omega
        · intro data t he
          exact ⟨(hold.storing data t he).1, (hold.storing data t he).2.trans hle⟩

end Clock

/-! ## Main results -/

/-- **A SESSION ENDS CLEAN**: when the call has returned, both readers, the watchdog and the
    function given to `AfterFunc` have ended, the backend's connection is closed, and a
    deadline that is still set is one that the call failed to clear.  In each direction the
    packets were sent in the order in which they came, all but perhaps the last. -/
theorem returned_session_is_clean {s : Session} (h : SessionReach s) (hmain : s.main = .returned) :
    (∀ c, (s.flows c).reader = .ended) ∧ s.watchdog = .ended ∧ s.hook.quiet = true ∧
      s.serverConn = false ∧ (∀ c, s.deadlines c = true → c ∈ s.uncleared) ∧
      ∀ c, ∃ rest, (s.flows c).received = (s.flows c).sent ++ rest ∧ rest.length ≤ 1 := by
  have htidy := session_tidy h
  have haway : s.scope.owner = .away := by
    show s.main.owner = .away
    rw [hmain]
    rfl
  refine ⟨returned_ends h hmain, (held h).watchdog (by rw [hmain]; rfl),
    htidy.quiet (by rw [haway]; rfl), (held h).serverConn hmain, ?_, fun c => (forwarded h c).most⟩
  intro c hc
  have hin := htidy.left c hc
  rwa [Scope.owing, haway] at hin

/-- A session starts, and a packet of the client comes five nanoseconds later.  The watchdog wakes,
    finds that five are left and sleeps for them. -/
def oneMorePacket : List Choice :=
  List.replicate 3 (.main true) ++ List.replicate 3 (.watchdog .go) ++
    [.tick 5, .reader .incoming (.packet [1]), .reader .incoming .go, .reader .incoming .go,
     .reader .incoming (.sent true), .tick 1799999999995, .watchdog .fired] ++
    List.replicate 3 (.watchdog .go)

/-- Nothing comes, and the watchdog ends the session. -/
def fallsSilent : List Choice :=
  [.tick 5, .watchdog .fired] ++ List.replicate 4 (.watchdog .go)

/-- The hook interrupts, the readers end, the call cleans up. -/
def comesDown : List Choice :=
  List.replicate 4 (.hook true) ++
    [.reader .incoming .fails, .reader .incoming .go, .reader .incoming .go,
     .reader .outgoing .fails, .reader .outgoing .go, .reader .outgoing .go] ++
    List.replicate 9 (.main true)

theorem silent_session_is_clean :
    ∃ s, SessionReach s ∧ (s.flows .incoming).sent = [[1]] ∧
      (∀ c, (s.flows c).reader = .ended) ∧ s.serverConn = false := by
  obtain ⟨s, hr, hp⟩ := Reach.of_follow sessionStep anyStep newSession
    (oneMorePacket ++ fallsSilent ++ comesDown)
    (fun s => decide (s.main = .returned ∧ (s.flows .incoming).sent = [[1]])) (by decide)
  obtain ⟨hmain, hsent⟩ := of_decide_eq_true hp
  obtain ⟨hends, -, -, hclosed, -⟩ := returned_session_is_clean hr hmain
  exact ⟨s, hr, hsent, hends, hclosed⟩

/-- **IDLE MEANS SILENT**: the watchdog ends the session only if, when it looked, the timeout had
    passed since every touch that was stored.  There is one touch for the start and at most one for
    each packet of the client: packets of the backend do not keep a session. -/
theorem idle_means_silent {s : Session} (h : SessionReach s) (hbound : s.clock ≤ 2 ^ 61) :
    (∀ v, s.verdict = some v →
      ∀ t ∈ v.touches, (t : Int) + udpIdleTimeout.toInt ≤ v.instant) ∧
    s.touches.length ≤ (s.flows .incoming).received.length + 1 := by
  have hs := timed h hbound
  exact ⟨hs.verdict, (Nat.le_add_right _ _).trans hs.count⟩

theorem silence_is_found :
    ∃ (s : Session) (v : Verdict), SessionReach s ∧ s.verdict = some v ∧ v.touches = [0, 5] ∧
      ∀ t ∈ v.touches, (t : Int) + udpIdleTimeout.toInt ≤ v.instant := by
  obtain ⟨s, hr, hp⟩ := Reach.of_follow sessionStep anyStep newSession
    (oneMorePacket ++ fallsSilent)
    (fun s => decide (s.verdict = some ⟨1800000000005, [0, 5]⟩ ∧ s.clock ≤ 2 ^ 61)) (by decide)
  obtain ⟨hv, hbound⟩ := of_decide_eq_true hp
  exact ⟨s, _, hr, hv, rfl, (idle_means_silent hr hbound).1 _ hv⟩

end VkTurnUdpSession
