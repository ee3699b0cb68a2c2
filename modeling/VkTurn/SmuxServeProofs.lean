import VkTurn.BackendGateProofs
import VkTurn.GoScopeProofs

/-! # Sessions of the server and their streams

    `handleVLESSConnection` builds a KCP and an smux session over a DTLS connection and calls
    `serveSmuxSession`, which accepts streams until that fails.  A stream is let in by the
    BACKEND GATE; a goroutine of its own then dials the backend, copies in both directions,
    and closes and releases what it has.  All sessions of the process share one gate.

    The state embeds the gate as it is modelled on its own, with the calls of its methods:
    a thread that calls a method has the number of its call, and each of its steps is one of
    the gate.  So every run is a run of the gate (`gate_reach`), and what is known of the gate
    is known here.  Deferred calls run in their order, last first.

    * Each call belongs to one thread (`calls_counted`), each unreleased lease to one stream
      (`leases_counted`), each open stream to one thread (`streams_counted`);
    * from these, the number of backend connections, what a session leaves behind, and the
      books of a server without sessions.

    A session of a bond is served by `serveSmuxSession` as well; here each session is one of
    `handleVLESSConnection`.  What smux, KCP and the copies do is not up to the code. -/

namespace VkTurnSmuxServe

open ThreadPool GoScope
open VkTurnBackendGate (Gate GatePool LimRef LeaseRef gateStep GateReach newBackendGate
  newBackendGate_ok BackendLease sound inner counted slot_fresh slot_begun)
open VkTurnBackendGate renaming Pc → Call, Moves → CallMoves

/-! ## State -/

/-- A session.  The flags say that the connection is open.  `dtlsHook` closes the DTLS connection
    when the context of the server ends, `smuxHook` the smux session when `sessionCtx` does. -/
structure Session where
  limiter : LimRef := 0
  sessionCtx : Bool := false
  dtlsHook : Hook Unit := .armed
  smuxHook : Hook Unit := .stopped
  dtls : Bool := true
  kcp : Bool := false
  smux : Bool := false
  wg : Nat := 0
  deriving DecidableEq, Repr

/-- An accepted stream: of which session, and whether it is open. -/
structure Stream where
  session : Nat
  isOpen : Bool := true
  deriving DecidableEq, Repr

/-- The server; `gated` is false for a nil gate. -/
structure Server where
  gate : GatePool
  gated : Bool := true
  ctx : Bool := false
  sessions : List Session := []
  streams : List Stream := []
  activeSessions : Int := 0

/-- Session `k` as it is then. -/
def Server.put (σ : Server) (k : Nat) (s : Session) : Server :=
  { σ with sessions := σ.sessions.set k s }

/-- `stream.Close`. -/
def Server.closeStream (σ : Server) (x : Nat) : Server :=
  { σ with streams := σ.streams.modify x fun s => { s with isOpen := false } }

/-! ## Control points -/

/-- The goroutine of a session; `x` is a stream in hand, `i` a call of the gate. -/
inductive Serve where
  -- handleVLESSConnection
  | newKCP
  | smuxServer
  | counting
  -- serveSmuxSession
  | limiting
  | starting
  | accepting
  | admitting (x : Nat)
  | acquiring (x i : Nat)
  | spawning (x : Nat) (b : LeaseRef)
  | rejecting (x : Nat)
  | cancelling
  | waiting
  | deferred
  | stopping
  | awaiting
  -- the deferred calls of handleVLESSConnection
  | uncounting
  | closeSmux
  | closeKCP
  | stopClose
  | awaitClose
  | returned
  deriving DecidableEq, Repr

/-- The goroutine of a stream. -/
inductive Handle where
  | dialing
  | piping
  | closingConn
  | closingStream
  | releasing
  | calling (i : Nat)
  | finishing
  | ended
  deriving DecidableEq, Repr

/-- A goroutine: of session `k`, or of stream `x` of session `k` with lease `b`. -/
inductive Thread where
  | serve (k : Nat) (pc : Serve)
  | handler (k x : Nat) (b : LeaseRef) (pc : Handle)
  deriving DecidableEq, Repr

/-- A DTLS connection comes, the context of the server ends, or it reaches that of a session, or
    the function of one of its two `AfterFunc` calls takes a step. -/
inductive Op where
  | connect
  | cancel
  | propagate (k : Nat)
  | dtlsHook (k : Nat)
  | smuxHook (k : Nat)
  deriving DecidableEq, Repr

/-! ## Sections -/

/-- A section of a call of the gate, and where the call is then. -/
def resume (p : GatePool) (i : Nat) : Option (GatePool × Call) :=
  (gateStep p (.run i ())).bind fun p' => (p'.threads[i]?).map fun f => (p', f)

/-- What the session does when its call of `Acquire` is at `f`: it has a lease, it has none, or the
    call goes on. -/
def answered (x i : Nat) : Call → Serve
  | .acquired b => .spawning x b
  | f => if f.returned then .rejecting x else .acquiring x i

/-- What the stream does when its call of `Release` is at `f`. -/
def released (i : Nat) (f : Call) : Handle :=
  if f.returned then .finishing else .calling i

/-- A section that only concerns the session; `ctx` says whether the context of the server has
    ended, `ok` what the call of the section answers. -/
def own (ctx ok : Bool) (s : Session) : Serve → Option (Session × Serve)
  | .newKCP => some (if ok then ({ s with kcp := true }, .smuxServer) else (s, .stopClose))
  | .smuxServer => some (if ok then ({ s with smux := true }, .counting) else (s, .closeKCP))
  | .starting => some ({ s with sessionCtx := ctx, smuxHook := .armed }, .accepting)
  | .cancelling => some ({ s with sessionCtx := true }, .waiting)
  | .waiting => if s.wg = 0 then some (s, .deferred) else none
  | .deferred => some ({ s with sessionCtx := true }, .stopping)
  | .stopping =>
      some (if s.smuxHook = .armed then ({ s with smuxHook := .stopped }, .uncounting)
        else (s, .awaiting))
  | .awaiting => if s.smuxHook = .done then some (s, .uncounting) else none
  | .closeSmux => some ({ s with smux := false }, .closeKCP)
  | .closeKCP => some ({ s with kcp := false }, .stopClose)
  | .stopClose =>
      some (if s.dtlsHook = .armed then ({ s with dtlsHook := .stopped }, .returned)
        else (s, .awaitClose))
  | .awaitClose => if s.dtlsHook = .done then some (s, .returned) else none
  | _ => none

/-- One section of session `k`, which is `s`. -/
def serveExec (σ : Server) (k : Nat) (s : Session) (ok : Bool) :
    Serve → Option (Server × Serve × List Thread)
  | .counting => some ({ σ with activeSessions := σ.activeSessions + 1 }, .limiting, [])
  | .limiting =>
      if σ.gated then
        (gateStep σ.gate (.env .newSession)).map fun p => (({ σ with gate := p } : Server).put k
          { s with limiter := σ.gate.shared.limiters.length }, .starting, [])
      else some (σ.put k { s with smux := false }, .uncounting, [])
  | .accepting =>
      if ok then
        some ({ σ with streams := σ.streams ++ [{ session := k }] },
          .admitting σ.streams.length, [])
      else some (σ, .cancelling, [])
  | .admitting x =>
      (gateStep σ.gate (.env (.acquire (some s.limiter)))).map fun p =>
        ({ σ with gate := p }, .acquiring x σ.gate.threads.length, [])
  | .acquiring x i =>
      (resume σ.gate i).map fun r => ({ σ with gate := r.1 }, answered x i r.2, [])
  | .spawning x b =>
      some (σ.put k { s with wg := s.wg + 1 }, .accepting, [.handler k x b .dialing])
  | .rejecting x => some (σ.closeStream x, .accepting, [])
  | .uncounting => some ({ σ with activeSessions := σ.activeSessions - 1 }, .closeSmux, [])
  | pc => (own σ.ctx ok s pc).map fun r => (σ.put k r.1, r.2, [])

/-- One section of a stream's goroutine; `ok` is what the dial answers. -/
def handleExec (σ : Server) (k : Nat) (s : Session) (x : Nat) (b : LeaseRef) (ok : Bool) :
    Handle → Option (Server × Handle)
  | .dialing => some (σ, if ok then .piping else .closingStream)
  | .piping => some (σ, .closingConn)
  | .closingConn => some (σ, .closingStream)
  | .closingStream => some (σ.closeStream x, .releasing)
  | .releasing =>
      (gateStep σ.gate (.env (.release (some b)))).map fun p =>
        ({ σ with gate := p }, .calling σ.gate.threads.length)
  | .calling i => (resume σ.gate i).map fun r => ({ σ with gate := r.1 }, released i r.2)
  | .finishing => some (σ.put k { s with wg := s.wg - 1 }, .ended)
  | .ended => none

/-- One section. -/
def exec (σ : Server) (t : Thread) (ok : Bool) : Option (Server × Thread × List Thread) :=
  match t with
  | .serve k pc =>
      (σ.sessions[k]?).bind fun s =>
        (serveExec σ k s ok pc).map fun r => (r.1, .serve k r.2.1, r.2.2)
  | .handler k x b pc =>
      (σ.sessions[k]?).bind fun s =>
        (handleExec σ k s x b ok pc).map fun r => (r.1, .handler k x b r.2, [])

/-- What happens to a session from outside.  Each of the two functions given to `AfterFunc` makes
    one call, which closes a connection. -/
def nudge (ctx : Bool) (s : Session) : Op → Option Session
  | .propagate _ => if ctx then some { s with sessionCtx := true } else none
  | .dtlsHook _ =>
      (s.dtlsHook.step [()] ctx (fun _ => !s.dtls) true).map fun r =>
        { s with dtlsHook := r.1, dtls := !r.2 () }
  | .smuxHook _ =>
      (s.smuxHook.step [()] s.sessionCtx (fun _ => !s.smux) true).map fun r =>
        { s with smuxHook := r.1, smux := !r.2 () }
  | _ => none

/-- What happens from outside. -/
def outside (σ : Server) (op : Op) : Option (Server × List Thread) :=
  match op with
  | .connect =>
      some ({ σ with sessions := σ.sessions ++ [{}] }, [.serve σ.sessions.length .newKCP])
  | .cancel => some ({ σ with ctx := true }, [])
  | .propagate k | .dtlsHook k | .smuxHook k =>
      (σ.sessions[k]?).bind fun s => (nudge σ.ctx s op).map fun s' => (σ.put k s', [])

/-- The server as a machine. -/
def serverMachine : Machine Server Thread Bool Op where
  exec := fun _ => exec
  env := outside

/-- The server and its goroutines. -/
abbrev ServerPool := Pool Server Thread

/-- A server with a gate, or with none. -/
def newServer (g : Gate) (gated : Bool) : ServerPool := ⟨{ gate := ⟨g, []⟩, gated := gated }, []⟩

/-- Every state of a server, under every interleaving. -/
abbrev ServerReach (g : Gate) (gated : Bool) : ServerPool → Prop :=
  Reach serverMachine.step anyStep (newServer g gated)

/-! ## What a section can do -/

/-- What a section of session `k` can do. -/
inductive ServeMoves (σ : Server) (k : Nat) (s : Session) :
    Serve → Server → Serve → List Thread → Prop where
  | own {ok : Bool} {pc pc' : Serve} {s' : Session} (h : own σ.ctx ok s pc = some (s', pc')) :
      ServeMoves σ k s pc (σ.put k s') pc' []
  | counts : ServeMoves σ k s .counting { σ with activeSessions := σ.activeSessions + 1 }
      .limiting []
  | limits {p : GatePool} (hp : gateStep σ.gate (.env .newSession) = some p) :
      ServeMoves σ k s .limiting (({ σ with gate := p } : Server).put k
        { s with limiter := σ.gate.shared.limiters.length }) .starting []
  | ungated : ServeMoves σ k s .limiting (σ.put k { s with smux := false }) .uncounting []
  | accepts : ServeMoves σ k s .accepting
      { σ with streams := σ.streams ++ [{ session := k }] } (.admitting σ.streams.length) []
  | failsAccept : ServeMoves σ k s .accepting σ .cancelling []
  | admits (x : Nat) {p : GatePool}
      (hp : gateStep σ.gate (.env (.acquire (some s.limiter))) = some p) :
      ServeMoves σ k s (.admitting x) { σ with gate := p } (.acquiring x σ.gate.threads.length) []
  | acquires (x i : Nat) {p : GatePool} {f : Call} (hp : gateStep σ.gate (.run i ()) = some p)
      (hf : p.threads[i]? = some f) :
      ServeMoves σ k s (.acquiring x i) { σ with gate := p } (answered x i f) []
  | spawns (x : Nat) (b : LeaseRef) : ServeMoves σ k s (.spawning x b)
      (σ.put k { s with wg := s.wg + 1 }) .accepting [.handler k x b .dialing]
  | rejects (x : Nat) : ServeMoves σ k s (.rejecting x) (σ.closeStream x) .accepting []
  | uncounts : ServeMoves σ k s .uncounting { σ with activeSessions := σ.activeSessions - 1 }
      .closeSmux []

/-- What a section of a stream's goroutine can do. -/
inductive HandleMoves (σ : Server) (k : Nat) (s : Session) (x : Nat) (b : LeaseRef) :
    Handle → Server → Handle → Prop where
  | dials : HandleMoves σ k s x b .dialing σ .piping
  | failsDial : HandleMoves σ k s x b .dialing σ .closingStream
  | pipes : HandleMoves σ k s x b .piping σ .closingConn
  | closesConn : HandleMoves σ k s x b .closingConn σ .closingStream
  | closesStream : HandleMoves σ k s x b .closingStream (σ.closeStream x) .releasing
  | releases {p : GatePool} (hp : gateStep σ.gate (.env (.release (some b))) = some p) :
      HandleMoves σ k s x b .releasing { σ with gate := p } (.calling σ.gate.threads.length)
  | resumes (i : Nat) {p : GatePool} {f : Call} (hp : gateStep σ.gate (.run i ()) = some p)
      (hf : p.threads[i]? = some f) :
      HandleMoves σ k s x b (.calling i) { σ with gate := p } (released i f)
  | finishes : HandleMoves σ k s x b .finishing (σ.put k { s with wg := s.wg - 1 }) .ended

/-- What a section of a thread does. -/
inductive Moves (σ : Server) : Thread → Server → Thread → List Thread → Prop where
  | serve {k : Nat} {s : Session} {pc pc' : Serve} {σ' : Server} {new : List Thread}
      (hs : σ.sessions[k]? = some s) (h : ServeMoves σ k s pc σ' pc' new) :
      Moves σ (.serve k pc) σ' (.serve k pc') new
  | handler {k x : Nat} {s : Session} {b : LeaseRef} {pc pc' : Handle} {σ' : Server}
      (hs : σ.sessions[k]? = some s) (h : HandleMoves σ k s x b pc σ' pc') :
      Moves σ (.handler k x b pc) σ' (.handler k x b pc') []

/-- A session as others may find it later: what its goroutine relies on is still so. -/
structure Later (s s' : Session) : Prop where
  limiter : s'.limiter = s.limiter
  wg : s.wg = 0 → s'.wg = 0
  smuxHook : s.smuxHook.quiet = true → s'.smuxHook.quiet = true
  dtlsHook : s.dtlsHook.quiet = true → s'.dtlsHook.quiet = true
  smux : s.smux = false → s'.smux = false
  kcp : s.kcp = false → s'.kcp = false

/-- What happens from outside. -/
inductive Happens (σ : Server) : Server → List Thread → Prop where
  | connect : Happens σ { σ with sessions := σ.sessions ++ [{}] }
      [.serve σ.sessions.length .newKCP]
  | cancel : Happens σ { σ with ctx := true } []
  | nudges {k : Nat} {s s' : Session} (hs : σ.sessions[k]? = some s) (hwg : s'.wg = s.wg)
      (h : Later s s') : Happens σ (σ.put k s') []

section Inversion

variable {σ σ' : Server} {k x : Nat} {s : Session}

theorem resume_eq {p : GatePool} {i : Nat} {r : GatePool × Call} (h : resume p i = some r) :
    gateStep p (.run i ()) = some r.1 ∧ r.1.threads[i]? = some r.2 := by
  obtain ⟨p', hp, hmap⟩ := Option.bind_eq_some_iff.mp h
  obtain ⟨f, hf, rfl⟩ := Option.map_eq_some_iff.mp hmap
  exact ⟨hp, hf⟩

theorem serveExec_moves {ok : Bool} {pc pc' : Serve} {new : List Thread}
    (h : serveExec σ k s ok pc = some (σ', pc', new)) : ServeMoves σ k s pc σ' pc' new := by
  have hown : ∀ {pc : Serve}, (own σ.ctx ok s pc).map (fun r => (σ.put k r.1, r.2, [])) =
      some (σ', pc', new) → ServeMoves σ k s pc σ' pc' new := by
    intro pc h
    obtain ⟨⟨s', pc₁⟩, ho, heq⟩ := Option.map_eq_some_iff.mp h
    cases heq
    exact .own ho
  cases pc with
  | counting => cases h; exact .counts
  | limiting =>
      rw [serveExec] at h
      split at h
      · obtain ⟨p, hp, heq⟩ := Option.map_eq_some_iff.mp h
        cases heq
        exact .limits hp
      · cases h; exact .ungated
  | accepting =>
      cases ok with
      | true => cases h; exact .accepts
      | false => cases h; exact .failsAccept
  | admitting x =>
      obtain ⟨p, hp, heq⟩ := Option.map_eq_some_iff.mp h
      cases heq
      exact .admits x hp
  | acquiring x i =>
      obtain ⟨r, hr, heq⟩ := Option.map_eq_some_iff.mp h
      cases heq
      exact .acquires x i (resume_eq hr).1 (resume_eq hr).2
  | spawning x b => cases h; exact .spawns x b
  | rejecting x => cases h; exact .rejects x
  | uncounting => cases h; exact .uncounts
  | _ => exact hown h

theorem handleExec_moves {b : LeaseRef} {ok : Bool} {pc pc' : Handle}
    (h : handleExec σ k s x b ok pc = some (σ', pc')) : HandleMoves σ k s x b pc σ' pc' := by
  cases pc with
  | dialing =>
      cases ok with
      | true => cases h; exact .dials
      | false => cases h; exact .failsDial
  | piping => cases h; exact .pipes
  | closingConn => cases h; exact .closesConn
  | closingStream => cases h; exact .closesStream
  | releasing =>
      obtain ⟨p, hp, heq⟩ := Option.map_eq_some_iff.mp h
      cases heq
      exact .releases hp
  | calling i =>
      obtain ⟨r, hr, heq⟩ := Option.map_eq_some_iff.mp h
      cases heq
      exact .resumes i (resume_eq hr).1 (resume_eq hr).2
  | finishing => cases h; exact .finishes
  | ended => cases h

theorem exec_moves {t t' : Thread} {ok : Bool} {new : List Thread}
    (h : exec σ t ok = some (σ', t', new)) : Moves σ t σ' t' new := by
  cases t with
  | serve k pc =>
      obtain ⟨s, hs, h⟩ := Option.bind_eq_some_iff.mp h
      obtain ⟨⟨σ₁, pc₁, new₁⟩, he, heq⟩ := Option.map_eq_some_iff.mp h
      cases heq
      exact .serve hs (serveExec_moves he)
  | handler k x b pc =>
      obtain ⟨s, hs, h⟩ := Option.bind_eq_some_iff.mp h
      obtain ⟨⟨σ₁, pc₁⟩, he, heq⟩ := Option.map_eq_some_iff.mp h
      cases heq
      exact .handler hs (handleExec_moves he)

theorem nudge_later {ctx : Bool} {op : Op} {s' : Session} (h : nudge ctx s op = some s') :
    s'.wg = s.wg ∧ Later s s' := by
  have hquiet : ∀ {c : Bool} {hook : Hook Unit} {marks : Unit → Bool} {r},
      hook.step [()] c marks true = some r → hook.quiet = true → r.1.quiet = true := by
    intro c hook marks r hr hq
    rw [Hook.step_awake hr] at hq
    cases hq
  cases op with
  | connect => cases h
  | cancel => cases h
  | propagate k =>
      obtain ⟨-, heq⟩ := Option.ite_none_right_eq_some.mp h
      cases heq
      exact ⟨rfl, rfl, id, id, id, id, id⟩
  | dtlsHook k =>
      obtain ⟨r, hr, rfl⟩ := Option.map_eq_some_iff.mp h
      exact ⟨rfl, rfl, id, id, hquiet hr, id, id⟩
  | smuxHook k =>
      obtain ⟨r, hr, rfl⟩ := Option.map_eq_some_iff.mp h
      refine ⟨rfl, rfl, id, hquiet hr, id, fun hc => ?_, id⟩
      show (!r.2 ()) = false
      rcases Hook.step_cases hr with ⟨-, rfl⟩ | ⟨_, _, -, rfl⟩ | ⟨-, rfl⟩ <;> simp [mark, hc]

theorem outside_happens {op : Op} {new : List Thread} (h : outside σ op = some (σ', new)) :
    Happens σ σ' new := by
  have hnudges : ∀ {k : Nat}, (σ.sessions[k]?).bind (fun s => (nudge σ.ctx s op).map fun s' =>
      (σ.put k s', ([] : List Thread))) = some (σ', new) → Happens σ σ' new := by
    intro k h
    obtain ⟨s, hs, h⟩ := Option.bind_eq_some_iff.mp h
    obtain ⟨s', hn, heq⟩ := Option.map_eq_some_iff.mp h
    cases heq
    exact .nudges hs (nudge_later hn).1 (nudge_later hn).2
  cases op with
  | connect => cases h; exact .connect
  | cancel => cases h; exact .cancel
  | _ => exact hnudges h

end Inversion

/-! ## Every run is a run of the gate -/

section Gate

variable {g : Gate} {gated : Bool} {σ σ' : Server} {t t' : Thread} {new : List Thread}
  {p p' : GatePool}

/-- The gate after a section: as it was, or after one step of its own. -/
def StepsGate (σ σ' : Server) : Prop :=
  σ'.gate = σ.gate ∨ ∃ a, gateStep σ.gate a = some σ'.gate

theorem moves_steps (h : Moves σ t σ' t' new) : StepsGate σ σ' := by
  cases h with
  | serve hs hm => cases hm <;> first | exact Or.inl rfl | exact Or.inr ⟨_, ‹_›⟩
  | handler hs hm => cases hm <;> first | exact Or.inl rfl | exact Or.inr ⟨_, ‹_›⟩

theorem happens_gate (h : Happens σ σ' new) : σ'.gate = σ.gate := by
  cases h <;> rfl

/-- **A RUN OF THE GATE**: whatever the sessions do, the gate is in a state of its own runs. -/
theorem gate_reach {s : ServerPool} (h : ServerReach g gated s) : GateReach g s.shared.gate := by
  refine @Reach.simulates _ _ _ _ _ _ _ gateStep anyStep (fun s => s.shared.gate) ?_ _ h
  intro s a s' _ _ hstep
  have hgate : StepsGate s.shared s'.shared :=
    Machine.step_shared (M := serverMachine) (R := StepsGate)
      (fun i σ₁ t ok σ₂ t' new he => moves_steps (exec_moves he))
      (fun σ₁ op σ₂ new he => Or.inl (happens_gate (outside_happens he))) hstep
  rcases hgate with hsame | ⟨x, hx⟩
  · exact Or.inl hsame
  · exact Or.inr ⟨x, trivial, hx⟩

/-- `NewSessionLimiter`. -/
theorem gate_newSession (h : gateStep p (.env .newSession) = some p') :
    p'.threads = p.threads ∧ p'.shared.leases = p.shared.leases := by
  obtain ⟨γ, new, he, rfl⟩ := Machine.step_env h
  unfold VkTurnBackendGate.gateMachine VkTurnBackendGate.outside at he
  simp only at he
  split at he
  · cases he
  · cases he
    exact ⟨List.append_nil _, rfl⟩

/-- The call of `Acquire`. -/
theorem gate_acquire {r : LimRef} (h : gateStep p (.env (.acquire (some r))) = some p') :
    p' = ⟨p.shared, p.threads ++ [.load r .session]⟩ := by
  obtain ⟨γ, new, he, rfl⟩ := Machine.step_env h
  obtain ⟨-, heq⟩ := Option.ite_none_right_eq_some.mp he
  cases heq
  rfl

/-- The call of `Release`. -/
theorem gate_release {b : LeaseRef} (h : gateStep p (.env (.release (some b))) = some p') :
    p' = ⟨p.shared, p.threads ++ [.leaseOnce b]⟩ := by
  obtain ⟨γ, new, he, rfl⟩ := Machine.step_env h
  obtain ⟨-, heq⟩ := Option.ite_none_right_eq_some.mp he
  cases heq
  rfl

/-- A section of a call. -/
theorem gate_run {i : Nat} {f' : Call} (h : gateStep p (.run i ()) = some p')
    (hf' : p'.threads[i]? = some f') :
    ∃ f γ, p.threads[i]? = some f ∧ VkTurnBackendGate.exec p.shared f () = some (γ, f', []) ∧
      CallMoves p.shared f γ f' ∧ p' = ⟨γ, p.threads.set i f'⟩ := by
  obtain ⟨f, γ, f₁, new, hf, he, rfl⟩ := Machine.step_run h
  obtain ⟨hm, rfl⟩ := VkTurnBackendGate.exec_moves he
  obtain rfl : f₁ = f' := Option.some.inj ((getElem?_mover f₁ [] hf).symm.trans hf')
  exact ⟨f, γ, hf, he, hm, by rw [List.append_nil]⟩

end Gate

/-! ## Calls of the gate -/

/-- The thread is in call `i` of the gate. -/
def Thread.calls (i : Nat) : Thread → Bool
  | .serve _ (.acquiring _ j) => j = i
  | .handler _ _ _ (.calling j) => j = i
  | _ => false

/-- One for a call of the gate that has not returned. -/
def inCall (i : Nat) (p : GatePool) : Nat := oneAt (fun f => !f.returned) p.threads i

/-- The stream that a session has in hand. -/
def Serve.stream : Serve → Option Nat
  | .admitting x => some x
  | .acquiring x _ => some x
  | .spawning x _ => some x
  | .rejecting x => some x
  | _ => none

/-- The session is on the gauge. -/
def Serve.counted : Serve → Bool
  | .newKCP => false
  | .smuxServer => false
  | .counting => false
  | .closeSmux => false
  | .closeKCP => false
  | .stopClose => false
  | .awaitClose => false
  | .returned => false
  | _ => true

/-- What is true of session `s` where its goroutine is. -/
def Serve.holds (s : Session) : Serve → Prop
  | .newKCP => s.wg = 0 ∧ s.smuxHook.quiet = true ∧ s.smux = false ∧ s.kcp = false
  | .smuxServer => s.wg = 0 ∧ s.smuxHook.quiet = true ∧ s.smux = false
  | .counting => s.wg = 0 ∧ s.smuxHook.quiet = true
  | .limiting => s.wg = 0 ∧ s.smuxHook.quiet = true
  | .deferred => s.wg = 0
  | .stopping => s.wg = 0
  | .awaiting => s.wg = 0
  | .uncounting => s.wg = 0 ∧ s.smuxHook.quiet = true
  | .closeSmux => s.wg = 0 ∧ s.smuxHook.quiet = true
  | .closeKCP => s.wg = 0 ∧ s.smuxHook.quiet = true ∧ s.smux = false
  | .stopClose => s.wg = 0 ∧ s.smuxHook.quiet = true ∧ s.smux = false ∧ s.kcp = false
  | .awaitClose => s.wg = 0 ∧ s.smuxHook.quiet = true ∧ s.smux = false ∧ s.kcp = false
  | .returned => (s.wg = 0 ∧ s.smuxHook.quiet = true ∧ s.smux = false ∧ s.kcp = false) ∧
      s.dtlsHook.quiet = true
  | _ => True

/-- What a section does that only concerns the session. -/
structure Owns (s s' : Session) (pc pc' : Serve) : Prop where
  wg : s'.wg = s.wg
  limiter : s'.limiter = s.limiter
  before : pc.stream = none
  after : pc'.stream = none
  counted : pc'.counted = pc.counted
  holds : pc.holds s → pc'.holds s'

theorem own_owns {ctx ok : Bool} {s s' : Session} {pc pc' : Serve}
    (h : own ctx ok s pc = some (s', pc')) : Owns s s' pc pc' := by
  cases pc with
  | newKCP =>
      cases ok with
      | true => cases h; exact ⟨rfl, rfl, rfl, rfl, rfl, fun hh => ⟨hh.1, hh.2.1, hh.2.2.1⟩⟩
      | false => cases h; exact ⟨rfl, rfl, rfl, rfl, rfl, id⟩
  | smuxServer =>
      cases ok with
      | true => cases h; exact ⟨rfl, rfl, rfl, rfl, rfl, fun hh => ⟨hh.1, hh.2.1⟩⟩
      | false => cases h; exact ⟨rfl, rfl, rfl, rfl, rfl, id⟩
  | starting => cases h; exact ⟨rfl, rfl, rfl, rfl, rfl, id⟩
  | cancelling => cases h; exact ⟨rfl, rfl, rfl, rfl, rfl, id⟩
  | waiting =>
      obtain ⟨hwg, heq⟩ := Option.ite_none_right_eq_some.mp h
      cases heq
      exact ⟨rfl, rfl, rfl, rfl, rfl, fun _ => hwg⟩
  | deferred => cases h; exact ⟨rfl, rfl, rfl, rfl, rfl, id⟩
  | stopping =>
      rw [own, Option.some.injEq] at h
      split at h
      · cases h; exact ⟨rfl, rfl, rfl, rfl, rfl, fun hh => ⟨hh, rfl⟩⟩
      · cases h; exact ⟨rfl, rfl, rfl, rfl, rfl, id⟩
  | awaiting =>
      obtain ⟨hdone, heq⟩ := Option.ite_none_right_eq_some.mp h
      cases heq
      exact ⟨rfl, rfl, rfl, rfl, rfl, fun hh => ⟨hh, by rw [hdone]; rfl⟩⟩
  | closeSmux => cases h; exact ⟨rfl, rfl, rfl, rfl, rfl, fun hh => ⟨hh.1, hh.2, rfl⟩⟩
  | closeKCP => cases h; exact ⟨rfl, rfl, rfl, rfl, rfl, fun hh => ⟨hh.1, hh.2.1, hh.2.2, rfl⟩⟩
  | stopClose =>
      rw [own, Option.some.injEq] at h
      split at h
      · cases h; exact ⟨rfl, rfl, rfl, rfl, rfl, fun hh => ⟨hh, rfl⟩⟩
      · cases h; exact ⟨rfl, rfl, rfl, rfl, rfl, id⟩
  | awaitClose =>
      obtain ⟨hdone, heq⟩ := Option.ite_none_right_eq_some.mp h
      cases heq
      exact ⟨rfl, rfl, rfl, rfl, rfl, fun hh => ⟨hh, by rw [hdone]; rfl⟩⟩
  | _ => cases h

section Calls

variable {g : Gate} {gated : Bool} {s : ServerPool} {p p' : GatePool}

/-- A session without a stream in hand is in no call. -/
theorem calls_none {pc : Serve} (h : pc.stream = none) (i k : Nat) :
    Thread.calls i (.serve k pc) = false := by
  cases pc <;> first | rfl | cases h

/-- A section of call `j`, by the thread that is in it: nobody else is. -/
theorem inCall_run {i j rest : Nat} {f' : Call} (hp : gateStep p (.run j ()) = some p')
    (hf' : p'.threads[j]? = some f') (hn : (if j = i then 1 else 0) + rest = inCall i p) :
    (if j = i then (if f'.returned then 0 else 1) else 0) + rest = inCall i p' := by
  obtain ⟨f, γ, hf, -, -, rfl⟩ := gate_run hp hf'
  have hle : inCall i p ≤ 1 := oneAt_le_one _ _ _
  by_cases hi : j = i
  · subst hi
    rw [if_pos rfl] at hn
    rw [if_pos rfl, inCall, oneAt, hf']
    cases hret : f'.returned <;> simp [one, hret] <;> omega
  · rw [if_neg hi] at hn ⊢
    rw [hn, inCall, inCall, oneAt, oneAt, List.getElem?_set_ne hi]

/-- The thread after a section of its call is in it unless it has returned. -/
theorem calls_answered (i k x j : Nat) (f : Call) :
    one (Thread.calls i) (.serve k (answered x j f))
      = if j = i then (if f.returned then 0 else 1) else 0 := by
  cases f <;> simp [answered, Thread.calls, one, VkTurnBackendGate.Pc.returned]

theorem calls_released (i k x j : Nat) (b : LeaseRef) (f : Call) :
    one (Thread.calls i) (.handler k x b (released j f))
      = if j = i then (if f.returned then 0 else 1) else 0 := by
  rw [released]
  split
  · rw [ite_self]
    rfl
  · simp [Thread.calls, one]

/-- **ONE CALLER**: each call of the gate that has not returned is one thread's. -/
theorem calls_counted (h : ServerReach g gated s) (i : Nat) :
    load (one (Thread.calls i)) s.threads = inCall i s.shared.gate := by
  refine Machine.reach_tallies (M := serverMachine) (J := fun _ => True) (fun _ _ => trivial)
    (one (Thread.calls i)) (fun σ n => n = inCall i σ.gate) rfl ?_ ?_ h
  · intro s j t ok σ' t' new rest _ _ _ hn he
    cases exec_moves he with
    | @serve k sess _ _ _ _ hs hm =>
        cases hm with
        | own ho =>
            have howns := own_owns ho
            rw [one_false (calls_none howns.before i k)] at hn
            rw [one_false (calls_none howns.after i k)]
            exact hn
        | @limits p hp =>
            show _ = inCall i p
            rw [inCall, (gate_newSession hp).1]
            exact hn
        | admits x hp =>
            obtain rfl := gate_acquire hp
            rw [inCall, oneAt_snoc _ rfl, ← inCall, ← hn, Nat.add_comm]
            simp only [one, Thread.calls, load_nil, decide_eq_true_eq]
            simp
        | acquires x j hp hf =>
            rw [calls_answered, load_nil, Nat.add_zero]
            refine inCall_run hp hf ?_
            rw [← hn]
            simp only [one, Thread.calls, decide_eq_true_eq]
        | _ => exact hn
    | handler hs hm =>
        cases hm with
        | releases hp =>
            obtain rfl := gate_release hp
            rw [inCall, oneAt_snoc _ rfl, ← inCall, ← hn, Nat.add_comm]
            simp only [one, Thread.calls, load_nil, decide_eq_true_eq]
            simp
        | resumes j hp hf =>
            rw [calls_released, load_nil, Nat.add_zero]
            refine inCall_run hp hf ?_
            rw [← hn]
            simp only [one, Thread.calls, decide_eq_true_eq]
        | _ => exact hn
  · intro s op σ' new n _ hn he
    cases outside_happens he <;> exact hn

theorem calls_le_one (h : ServerReach g gated s) (i : Nat) :
    load (one (Thread.calls i)) s.threads ≤ 1 :=
  (calls_counted h i).trans_le (oneAt_le_one _ _ _)

end Calls

/-! ## Goroutines, streams and the gauge -/

/-- The goroutine of session `k`. -/
def Thread.serves (k : Nat) : Thread → Bool
  | .serve j _ => j = k
  | _ => false

/-- The goroutine of a stream of session `k` that has not called `wg.Done`. -/
def Thread.works (k : Nat) : Thread → Bool
  | .handler j _ _ pc => j = k && pc ≠ .ended
  | _ => false

/-- The goroutine has not closed its stream. -/
def Handle.streaming : Handle → Bool
  | .dialing => true
  | .piping => true
  | .closingConn => true
  | .closingStream => true
  | _ => false

/-- The thread has stream `x` to close. -/
def Thread.streams (x : Nat) : Thread → Bool
  | .serve _ pc => pc.stream = some x
  | .handler _ y _ pc => y = x && pc.streaming

def Thread.counted : Thread → Bool
  | .serve _ pc => pc.counted
  | _ => false

/-- The wait group of session `k`. -/
def Server.wgOf (k : Nat) (σ : Server) : Nat := ((σ.sessions[k]?).map Session.wg).getD 0

/-- One for an open stream. -/
def Server.openOf (x : Nat) (σ : Server) : Nat := oneAt Stream.isOpen σ.streams x

section Tallies

variable {g : Gate} {gated : Bool} {σ σ' : Server} {s : ServerPool}

theorem put_sessions {k : Nat} {s : Session} (hs : σ.sessions[k]? = some s) (s' : Session)
    (j : Nat) : (σ.put k s').sessions[j]? = if k = j then some s' else σ.sessions[j]? := by
  show (σ.sessions.set k s')[j]? = _
  rw [List.getElem?_set, if_pos (List.getElem?_eq_some_iff.mp hs).1]

theorem wgOf_put {k : Nat} {s : Session} (hs : σ.sessions[k]? = some s) (s' : Session)
    (j : Nat) : (σ.put k s').wgOf j = if k = j then s'.wg else σ.wgOf j := by
  rw [Server.wgOf, put_sessions hs]
  split <;> rfl

/-- A session whose wait group stays as it is. -/
theorem wgOf_same {k : Nat} {s s' : Session} (hs : σ.sessions[k]? = some s)
    (hwg : s'.wg = s.wg) (j : Nat) : (σ.put k s').wgOf j = σ.wgOf j := by
  rw [wgOf_put hs]
  split
  · rename_i hkj
    rw [Server.wgOf, ← hkj, hs]
    exact hwg
  · rfl

theorem openOf_close (x y : Nat) :
    (σ.closeStream y).openOf x = if y = x then 0 else σ.openOf x := by
  show (((σ.streams.modify y _)[x]?).map _).getD 0 = if y = x then 0 else (_ : Option Nat).getD 0
  rw [List.getElem?_modify]
  by_cases hyx : y = x
  · subst hyx
    cases σ.streams[y]? <;> simp [one]
  · cases σ.streams[x]? <;> simp [hyx]

/-- A thread keeps its stream through a call of `Acquire`. -/
theorem stream_answered (x i : Nat) (f : Call) : (answered x i f).stream = some x := by
  cases f <;> rfl

/-- The session stays on the gauge through a call of `Acquire`. -/
theorem counted_answered (x i : Nat) (f : Call) : (answered x i f).counted = true := by
  cases f <;> rfl

theorem works_released (k j x i : Nat) (b : LeaseRef) (f : Call) :
    Thread.works k (.handler j x b (released i f)) = decide (j = k) := by
  rw [released]
  split <;> exact Bool.and_true _

theorem streaming_released (i : Nat) (f : Call) : (released i f).streaming = false := by
  rw [released]
  split <;> rfl

/-- **ONE GOROUTINE** for each session. -/
theorem serves_counted (h : ServerReach g gated s) (k : Nat) :
    load (one (Thread.serves k)) s.threads = if k < s.shared.sessions.length then 1 else 0 := by
  refine Machine.reach_tallies (M := serverMachine) (J := fun _ => True) (fun _ _ => trivial)
    (one (Thread.serves k)) (fun σ n => n = if k < σ.sessions.length then 1 else 0) rfl ?_ ?_ h
  · intro s j t ok σ' t' new rest _ _ _ hn he
    have hlen : σ'.sessions.length = s.shared.sessions.length := by
      cases exec_moves he with
      | serve hs hm => cases hm <;> first | rfl | exact List.length_set
      | handler hs hm => cases hm <;> first | rfl | exact List.length_set
    rw [hlen, ← hn]
    cases exec_moves he with
    | serve hs hm => cases hm <;> rfl
    | handler hs hm => cases hm <;> rfl
  · intro s op σ' new n _ hn he
    cases outside_happens he with
    | connect =>
        rw [List.length_append, List.length_singleton, issued_succ, ← hn]
        simp [one, Thread.serves, List.count_singleton]
    | cancel => exact hn
    | nudges hs =>
        show n + 0 = if k < (s.shared.sessions.set _ _).length then 1 else 0
        rw [List.length_set]
        exact hn

theorem serves_le_one (h : ServerReach g gated s) (k : Nat) :
    load (one (Thread.serves k)) s.threads ≤ 1 := by
  rw [serves_counted h k]
  split <;> omega

/-- **THE WAIT GROUP** of a session counts the goroutines of its streams. -/
theorem works_counted (h : ServerReach g gated s) (k : Nat) :
    load (one (Thread.works k)) s.threads = s.shared.wgOf k := by
  refine Machine.reach_tallies (M := serverMachine) (J := fun _ => True) (fun _ _ => trivial)
    (one (Thread.works k)) (fun σ n => n = σ.wgOf k) rfl ?_ ?_ h
  · intro s j t ok σ' t' new rest _ _ _ hn he
    have hself : ∀ {j : Nat} {sess : Session}, s.shared.sessions[j]? = some sess → j = k →
        s.shared.wgOf k = sess.wg := by
      intro j sess hs hjk
      rw [Server.wgOf, ← hjk, hs]
      rfl
    cases exec_moves he with
    | @serve j sess _ _ _ _ hs hm =>
        cases hm with
        | own ho =>
            rw [wgOf_same hs (own_owns ho).wg]
            exact hn
        | @limits p hp =>
            exact hn.trans (@wgOf_same { s.shared with gate := p } j sess _ hs (by rfl) k).symm
        | ungated => exact hn.trans (wgOf_same hs (by rfl) k).symm
        | spawns x b =>
            rw [wgOf_put hs]
            by_cases hjk : j = k
            · rw [hself hs hjk] at hn
              simp [one, Thread.works, hjk] at hn ⊢
              omega
            · simpa [one, Thread.works, hjk] using hn
        | _ => exact hn
    | @handler j x sess b _ _ _ hs hm =>
        cases hm with
        | finishes =>
            rw [wgOf_put hs]
            by_cases hjk : j = k
            · rw [hself hs hjk] at hn
              simp [one, Thread.works, hjk] at hn ⊢
              omega
            · simpa [one, Thread.works, hjk] using hn
        | resumes i hp hf =>
            refine Eq.trans ?_ hn
            rw [one, works_released]
            simp [one, Thread.works]
        | _ => exact hn
  · intro s op σ' new n _ hn he
    cases outside_happens he with
    | connect =>
        refine hn.trans ?_
        rw [Server.wgOf, Server.wgOf, getElem?_snoc]
        by_cases hk : k = s.shared.sessions.length
        · rw [if_pos hk, hk, List.getElem?_eq_none (le_refl _)]
          rfl
        · rw [if_neg hk]
    | cancel => exact hn
    | nudges hs hwg => exact hn.trans (wgOf_same hs hwg k).symm

/-- **ONE OWNER** for each open stream. -/
theorem streams_counted (h : ServerReach g gated s) (x : Nat) :
    load (one (Thread.streams x)) s.threads = s.shared.openOf x := by
  refine Machine.reach_tallies (M := serverMachine) (J := fun _ => True) (fun _ _ => trivial)
    (one (Thread.streams x)) (fun σ n => n = σ.openOf x) rfl ?_ ?_ h
  · intro s j t ok σ' t' new rest _ _ _ hn he
    have hle : s.shared.openOf x ≤ 1 := oneAt_le_one _ _ _
    cases exec_moves he with
    | @serve k sess _ _ _ _ hs hm =>
        cases hm with
        | own ho =>
            refine Eq.trans ?_ hn
            simp [one, Thread.streams, (own_owns ho).before, (own_owns ho).after]
        | accepts =>
            have hn' : rest = s.shared.openOf x := (Nat.zero_add rest).symm.trans hn
            rw [Server.openOf, oneAt_snoc _ rfl, ← Server.openOf, ← hn']
            simp [one, Thread.streams, Serve.stream, Nat.add_comm]
        | acquires y i hp hf =>
            refine Eq.trans ?_ hn
            rw [one, Thread.streams, stream_answered]
            rfl
        | spawns y b =>
            refine Eq.trans ?_ hn
            simp [one, Thread.streams, Serve.stream, Handle.streaming]
        | rejects y =>
            rw [openOf_close]
            by_cases hyx : y = x
            · simp [one, Thread.streams, Serve.stream, hyx] at hn ⊢
              omega
            · simpa [one, Thread.streams, Serve.stream, hyx] using hn
        | _ => exact hn
    | @handler k y sess b _ _ _ hs hm =>
        cases hm with
        | closesStream =>
            rw [openOf_close]
            by_cases hyx : y = x
            · simp [one, Thread.streams, Handle.streaming, hyx] at hn ⊢
              omega
            · simpa [one, Thread.streams, Handle.streaming, hyx] using hn
        | resumes i hp hf =>
            refine Eq.trans ?_ hn
            rw [one, Thread.streams, streaming_released]
            simp [one, Thread.streams, Handle.streaming]
        | _ => exact hn
  · intro s op σ' new n _ hn he
    cases outside_happens he <;> exact hn

/-- **THE GAUGE** counts the sessions between `SessionOpened` and `SessionClosed`. -/
theorem sessions_counted (h : ServerReach g gated s) :
    s.shared.activeSessions = (load (one Thread.counted) s.threads : Nat) := by
  refine Machine.reach_tallies (M := serverMachine) (J := fun _ => True) (fun _ _ => trivial)
    (one Thread.counted) (fun σ n => σ.activeSessions = (n : Nat)) rfl ?_ ?_ h
  · intro s j t ok σ' t' new rest _ _ _ hn he
    cases exec_moves he with
    | serve hs hm =>
        cases hm with
        | own ho =>
            refine hn.trans ?_
            rw [one, one, Thread.counted, Thread.counted, (own_owns ho).counted]
            rfl
        | counts =>
            simp [one, Thread.counted, Serve.counted] at hn ⊢
            omega
        | uncounts =>
            simp [one, Thread.counted, Serve.counted] at hn ⊢
            omega
        | acquires y i hp hf =>
            refine hn.trans ?_
            rw [one, one, Thread.counted, Thread.counted, counted_answered]
            rfl
        | _ => exact hn
    | handler hs hm => cases hm <;> exact hn
  · intro s op σ' new n _ hn he
    cases outside_happens he <;> exact hn

end Tallies

/-! ## What the calls of the gate do -/

/-- A call of `Acquire` for the session of limiter `r` that has not returned. -/
def forSession (r : LimRef) : Call → Bool
  | .load q .session => q = r
  | .load _ (.global lease) => lease.limiter = r
  | .swap q _ .session => q = r
  | .swap _ _ (.global lease) => lease.limiter = r
  | .opened session _ => session.limiter = r
  | .rollBack _ => true
  | .rejectMetric _ => true
  | .rejectCount _ => true
  | _ => false

/-- A call of `Release` of lease `b` that has not returned. -/
def ofLease (b : LeaseRef) : Call → Bool
  | .leaseOnce d => d = b
  | .partOnce d _ => d = b
  | .partAdd d _ _ => d = b
  | .partEnd d _ => d = b
  | .leaseGauge d => d = b
  | .leaseEnd d => d = b
  | _ => false

/-- What a step of the gate leaves alone. -/
structure Keeps (γ γ' : Gate) : Prop where
  lease : ∀ (b : LeaseRef) (l : BackendLease), γ.leases[b]? = some l →
    ∃ l' : BackendLease, γ'.leases[b]? = some l' ∧ l'.session.limiter = l.session.limiter
  finished : ∀ b, γ.onceOf b = some .finished → γ'.onceOf b = some .finished

section GateCalls

variable {γ γ' : Gate} {f f' : Call}

theorem Keeps.of_leases (h : γ'.leases = γ.leases) : Keeps γ γ' where
  lease _ l hl := ⟨l, h ▸ hl, rfl⟩
  finished b hb := by
    rw [Gate.onceOf, h]
    exact hb

theorem moves_keeps (h : CallMoves γ f γ' f') : Keeps γ γ' := by
  refine ⟨?_, ?_⟩
  · intro b l hl
    have hset : ∀ {d : LeaseRef} {a a' : BackendLease}, γ.leases[d]? = some a →
        a'.session.limiter = a.session.limiter →
        ∃ l', (γ.setLease d a').leases[b]? = some l' ∧ l'.session.limiter = l.session.limiter :=
      fun ha hsame => set_related hl ha
        (R := fun x x' => x'.session.limiter = x.session.limiter) rfl fun _ => hsame
    cases h with
    | opened session global => exact ⟨l, getElem?_snoc_old hl, rfl⟩
    | rolledBack session _ => exact ⟨l, by rw [VkTurnBackendGate.giveBack_leases]; exact hl, rfl⟩
    | added d p r => exact ⟨l, by rw [VkTurnBackendGate.giveBack_leases]; exact hl, rfl⟩
    | onceTaken d l' hl' _ | ended d l' hl' => exact hset hl' (by rfl)
    | partTaken d p l' hl' _ | partEnded d p l' hl' =>
        exact hset hl' (VkTurnBackendGate.limiter_setPart l' p _ .session)
    | _ => exact ⟨l, hl, rfl⟩
  · intro b hfin
    rcases VkTurnBackendGate.moves_once h b with ⟨-, hsame | ⟨hnone, -⟩⟩ |
      ⟨-, -, -, -, hfresh, -⟩ | ⟨-, -, -, -, hdone⟩
    · rw [hsame]
      exact hfin
    · rw [hnone] at hfin
      cases hfin
    · rw [hfresh] at hfin
      cases hfin
    · exact hdone

/-- A section of `Acquire`: no lease yet, or the new one, for the session of the call. -/
theorem acquire_moves {r : LimRef} (h : CallMoves γ f γ' f') (hf : forSession r f = true) :
    (γ'.leases = γ.leases ∧ (forSession r f' = true ∨ ∃ why n, f' = .refused why n)) ∨
      ∃ session global, f' = .acquired γ.leases.length ∧ session.limiter = r ∧
        γ'.leases = γ.leases ++ [{ session := session, global := global }] := by
  cases h with
  | full q k => cases k <;> exact Or.inl ⟨rfl, Or.inl rfl⟩
  | loaded q k lim _ _ | swapped q k lim _ | missed q current k =>
      cases k <;> exact Or.inl ⟨rfl, Or.inl hf⟩
  | opened session global =>
      exact Or.inr ⟨session, global, rfl, of_decide_eq_true hf, rfl⟩
  | rolledBack session _ =>
      exact Or.inl ⟨VkTurnBackendGate.giveBack_leases γ _, Or.inl rfl⟩
  | rolledBefore session _ => exact Or.inl ⟨rfl, Or.inl rfl⟩
  | metric why => exact Or.inl ⟨rfl, Or.inl rfl⟩
  | count why => exact Or.inl ⟨rfl, Or.inr ⟨why, _, rfl⟩⟩
  | _ => cases hf

/-- What `Release` finds in the `sync.Once` of the lease. -/
theorem exec_leaseOnce {b : LeaseRef} {new : List Call}
    (h : VkTurnBackendGate.exec γ (.leaseOnce b) () = some (γ', f', new)) :
    (γ.onceOf b = some .fresh ∧ f' = .partOnce b .session) ∨ γ.onceOf b = some .finished := by
  rw [VkTurnBackendGate.exec] at h
  cases hl : γ.leases[b]? with
  | none => rw [hl] at h; cases h
  | some l =>
      rw [hl] at h
      have honce : γ.onceOf b = some l.once := by rw [Gate.onceOf, hl]; rfl
      cases ho : l.once with
      | fresh =>
          simp only [ho] at h
          cases h
          exact Or.inl ⟨by rw [honce, ho], rfl⟩
      | running => simp only [ho] at h; cases h
      | finished => exact Or.inr (by rw [honce, ho])

theorem ofLease_open {b : LeaseRef} (h : ofLease b f = true) : f.returned = false := by
  cases f <;> first | rfl | cases h

/-- A section of `Release`: it goes on, or the lease has been released. -/
theorem release_moves {b : LeaseRef}
    (hexec : VkTurnBackendGate.exec γ f () = some (γ', f', [])) (h : CallMoves γ f γ' f')
    (hf : ofLease b f = true) :
    ofLease b f' = true ∨ (f'.returned = true ∧ γ'.onceOf b = some .finished) := by
  cases h with
  | onceTaken d l hl _ => exact Or.inl hf
  | onceOver d =>
      obtain rfl : d = b := of_decide_eq_true hf
      rcases exec_leaseOnce hexec with ⟨-, hne⟩ | hfin
      · cases hne
      · exact Or.inr ⟨rfl, hfin⟩
  | partTaken d p l _ _ => exact Or.inl hf
  | partOver d p l _ _ => cases p <;> exact Or.inl hf
  | added d p r => exact Or.inl hf
  | partEnded d p l _ => cases p <;> exact Or.inl hf
  | gauged d => exact Or.inl hf
  | ended d l hl =>
      obtain rfl : d = b := of_decide_eq_true hf
      refine Or.inr ⟨rfl, ?_⟩
      rw [VkTurnBackendGate.onceOf_setLease hl, if_pos rfl]
  | _ => cases hf

end GateCalls

/-! ## A proof outline -/

/-- The session of a stream. -/
def Server.sessionOf (σ : Server) (x : Nat) : Option Nat := (σ.streams[x]?).map Stream.session

/-- What the goroutine of session `k` knows. -/
structure ServeKnows (σ : Server) (k : Nat) (s : Session) (pc : Serve) : Prop where
  holds : pc.holds s
  stream : ∀ x, pc.stream = some x → σ.sessionOf x = some k
  call : ∀ x i, pc = .acquiring x i →
    ∃ f, σ.gate.threads[i]? = some f ∧ forSession s.limiter f = true
  lease : ∀ x b, pc = .spawning x b →
    ∃ l : BackendLease, σ.gate.shared.leases[b]? = some l ∧ l.session.limiter = s.limiter

/-- What the goroutine of stream `x` of session `k` knows. -/
structure HandleKnows (σ : Server) (k x : Nat) (b : LeaseRef) (pc : Handle) : Prop where
  stream : σ.sessionOf x = some k
  lease : pc ≠ .ended → ∃ (s : Session) (l : BackendLease), σ.sessions[k]? = some s ∧
    σ.gate.shared.leases[b]? = some l ∧ l.session.limiter = s.limiter
  call : ∀ i, pc = .calling i → ∃ f, σ.gate.threads[i]? = some f ∧ ofLease b f = true
  released : pc = .finishing ∨ pc = .ended → σ.gate.shared.onceOf b = some .finished

/-- What a thread knows. -/
def Knows (_ : Nat) (σ : Server) : Thread → Prop
  | .serve k pc => ∃ s, σ.sessions[k]? = some s ∧ ServeKnows σ k s pc
  | .handler k x b pc => HandleKnows σ k x b pc

section Outline

variable {g : Gate} {gated : Bool} {σ σ' : Server} {t t' : Thread} {new : List Thread}

theorem Later.refl (s : Session) : Later s s := ⟨rfl, id, id, id, id, id⟩

theorem Serve.holds_mono {s s' : Session} (hs : Later s s') {pc : Serve} (h : pc.holds s) :
    pc.holds s' := by
  cases pc <;>
    first
      | trivial
      | exact hs.wg h
      | exact ⟨hs.wg h.1, hs.smuxHook h.2⟩
      | exact ⟨hs.wg h.1, hs.smuxHook h.2.1, hs.smux h.2.2⟩
      | exact ⟨hs.wg h.1, hs.smuxHook h.2.1, hs.smux h.2.2.1, hs.kcp h.2.2.2⟩
      | exact ⟨⟨hs.wg h.1.1, hs.smuxHook h.1.2.1, hs.smux h.1.2.2.1, hs.kcp h.1.2.2.2⟩,
          hs.dtlsHook h.2⟩

/-- **FRAME**, the gate: no lease changes hands, none is unreleased again. -/
theorem moves_gate (h : Moves σ t σ' t' new) : Keeps σ.gate.shared σ'.gate.shared := by
  have hrun : ∀ {i : Nat} {p : GatePool} {f : Call}, gateStep σ.gate (.run i ()) = some p →
      p.threads[i]? = some f → Keeps σ.gate.shared p.shared := by
    intro i p f hp hf
    obtain ⟨f₀, γ, -, -, hm, rfl⟩ := gate_run hp hf
    exact moves_keeps hm
  cases h with
  | serve hs hm =>
      cases hm with
      | limits hp => exact .of_leases (gate_newSession hp).2
      | admits x hp => obtain rfl := gate_acquire hp; exact .of_leases rfl
      | acquires x i hp hf => exact hrun hp hf
      | _ => exact .of_leases rfl
  | handler hs hm =>
      cases hm with
      | releases hp => obtain rfl := gate_release hp; exact .of_leases rfl
      | resumes i hp hf => exact hrun hp hf
      | _ => exact .of_leases rfl

/-- **FRAME**, the calls: a call moves by its own thread. -/
theorem moves_call (h : Moves σ t σ' t' new) {i : Nat} {f : Call}
    (hf : σ.gate.threads[i]? = some f) (hne : t.calls i = false) :
    σ'.gate.threads[i]? = some f := by
  have hrun : ∀ {j : Nat} {p : GatePool} {f' : Call}, gateStep σ.gate (.run j ()) = some p →
      p.threads[j]? = some f' → j ≠ i → p.threads[i]? = some f := by
    intro j p f' hp hf' hji
    obtain ⟨-, γ, -, -, -, rfl⟩ := gate_run hp hf'
    show (σ.gate.threads.set j f')[i]? = some f
    rw [List.getElem?_set_ne hji]
    exact hf
  cases h with
  | serve hs hm =>
      cases hm with
      | @limits p hp =>
          show p.threads[i]? = some f
          rw [(gate_newSession hp).1]
          exact hf
      | admits x hp => obtain rfl := gate_acquire hp; exact getElem?_snoc_old hf
      | acquires x j hp hf' => exact hrun hp hf' (of_decide_eq_false hne)
      | _ => exact hf
  | handler hs hm =>
      cases hm with
      | releases hp => obtain rfl := gate_release hp; exact getElem?_snoc_old hf
      | resumes j hp hf' => exact hrun hp hf' (of_decide_eq_false hne)
      | _ => exact hf

theorem closeStream_session (σ : Server) (x y : Nat) :
    (σ.closeStream y).sessionOf x = σ.sessionOf x := by
  show ((σ.streams.modify y _)[x]?).map Stream.session = (σ.streams[x]?).map Stream.session
  rw [List.getElem?_modify]
  cases σ.streams[x]? with
  | none => rfl
  | some stream => by_cases hyx : y = x <;> simp [hyx]

/-- **FRAME**, the streams: a stream stays with its session. -/
theorem moves_stream (h : Moves σ t σ' t' new) {x k : Nat} (hx : σ.sessionOf x = some k) :
    σ'.sessionOf x = some k := by
  cases h with
  | serve hs hm =>
      cases hm with
      | accepts =>
          obtain ⟨stream, hstream, hk⟩ := Option.map_eq_some_iff.mp hx
          exact Option.map_eq_some_iff.mpr ⟨stream, getElem?_snoc_old hstream, hk⟩
      | rejects y => rw [closeStream_session]; exact hx
      | _ => exact hx
  | handler hs hm =>
      cases hm with
      | closesStream => rw [closeStream_session]; exact hx
      | _ => exact hx

/-- What a section leaves of a session: its limiter, which is set once, and, if the goroutine is
    another, all that the goroutine of the session relies on. -/
def Spares (t : Thread) (k : Nat) (s s' : Session) : Prop :=
  (t ≠ .serve k .limiting → s'.limiter = s.limiter) ∧ (t.serves k = false → Later s s')

/-- **FRAME**, the sessions. -/
theorem moves_session (h : Moves σ t σ' t' new) {k : Nat} {s : Session}
    (hs : σ.sessions[k]? = some s) : ∃ s', σ'.sessions[k]? = some s' ∧ Spares t k s s' := by
  have hsame : Spares t k s s := ⟨fun _ => rfl, fun _ => Later.refl s⟩
  have hserves : ∀ {j : Nat} {pc : Serve} {a a' : Session}, t = .serve j pc →
      (t ≠ .serve k .limiting → a'.limiter = a.limiter) → j = k → Spares t k a a' := by
    rintro j pc a a' rfl hlim rfl
    exact ⟨hlim, fun hne => absurd rfl (of_decide_eq_false hne)⟩
  cases h with
  | @serve j a _ _ _ _ hj hm =>
      cases hm with
      | own ho => exact set_related hs hj hsame (hserves rfl fun _ => (own_owns ho).limiter)
      | @limits p hp =>
          refine set_related hs hj hsame fun hjk => ?_
          exact hserves rfl (fun hne => absurd (by rw [hjk]) hne) hjk
      | ungated => exact set_related hs hj hsame (hserves rfl fun _ => rfl)
      | spawns x b => exact set_related hs hj hsame (hserves rfl fun _ => rfl)
      | _ => exact ⟨s, hs, hsame⟩
  | @handler j x a b _ _ _ hj hm =>
      cases hm with
      | finishes =>
          refine set_related hs hj hsame fun _ => ⟨fun _ => rfl, fun _ => ⟨rfl, ?_, id, id, id, id⟩⟩
          intro hw
          show a.wg - 1 = 0
          rw [hw]
      | _ => exact ⟨s, hs, hsame⟩

/-- What the goroutine of a session knows stays so while others move. -/
theorem ServeKnows.stable {k : Nat} {s s' : Session} {pc : Serve} (hk : ServeKnows σ k s pc)
    (hs : Later s s') (hgate : Keeps σ.gate.shared σ'.gate.shared)
    (hstream : ∀ x, σ.sessionOf x = some k → σ'.sessionOf x = some k)
    (hcall : ∀ x i f, pc = .acquiring x i → σ.gate.threads[i]? = some f →
      σ'.gate.threads[i]? = some f) : ServeKnows σ' k s' pc where
  holds := Serve.holds_mono hs hk.holds
  stream x hx := hstream x (hk.stream x hx)
  call x i hat := by
    obtain ⟨f, hf, hfor⟩ := hk.call x i hat
    exact ⟨f, hcall x i f hat hf, by rw [hs.limiter]; exact hfor⟩
  lease x b hat := by
    obtain ⟨l, hl, hlim⟩ := hk.lease x b hat
    obtain ⟨l', hl', hsame⟩ := hgate.lease b l hl
    exact ⟨l', hl', (hsame.trans hlim).trans hs.limiter.symm⟩

theorem HandleKnows.stable {k x : Nat} {b : LeaseRef} {pc : Handle}
    (hk : HandleKnows σ k x b pc) (hgate : Keeps σ.gate.shared σ'.gate.shared)
    (hstream : σ.sessionOf x = some k → σ'.sessionOf x = some k)
    (hsession : pc ≠ .ended → ∀ s, σ.sessions[k]? = some s →
      ∃ s', σ'.sessions[k]? = some s' ∧ s'.limiter = s.limiter)
    (hcall : ∀ i f, pc = .calling i → σ.gate.threads[i]? = some f →
      σ'.gate.threads[i]? = some f) : HandleKnows σ' k x b pc where
  stream := hstream hk.stream
  lease hopen := by
    obtain ⟨s, l, hs, hl, hlim⟩ := hk.lease hopen
    obtain ⟨s', hs', hsame⟩ := hsession hopen s hs
    obtain ⟨l', hl', hkeep⟩ := hgate.lease b l hl
    exact ⟨s', l', hs', hl', (hkeep.trans hlim).trans hsame.symm⟩
  call i hat := by
    obtain ⟨f, hf, hof⟩ := hk.call i hat
    exact ⟨f, hcall i f hat hf, hof⟩
  released hat := hgate.finished b (hk.released hat)

/-- A control point without a stream, a call or a lease in hand. -/
theorem ServeKnows.of_holds {k : Nat} {s : Session} {pc : Serve} (hstream : pc.stream = none)
    (h : pc.holds s) : ServeKnows σ k s pc where
  holds := h
  stream x hx := by
    rw [hstream] at hx
    cases hx
  call x i hat := by
    rw [hat] at hstream
    cases hstream
  lease x b hat := by
    rw [hat] at hstream
    cases hstream

/-- **OUTLINE**, the sessions: a section leads from what its goroutine knows to what it knows
    then. -/
theorem serve_outline {k : Nat} {s : Session} {pc pc' : Serve} (hs : σ.sessions[k]? = some s)
    (h : ServeMoves σ k s pc σ' pc' new) (hk : ServeKnows σ k s pc) :
    ∃ s', σ'.sessions[k]? = some s' ∧ ServeKnows σ' k s' pc' := by
  have hput : ∀ {s' : Session}, (σ.put k s').sessions[k]? = some s' := fun {s'} => by
    rw [put_sessions hs, if_pos rfl]
  cases h with
  | own ho => exact ⟨_, hput, .of_holds (own_owns ho).after ((own_owns ho).holds hk.holds)⟩
  | limits hp => exact ⟨_, hput, .of_holds rfl trivial⟩
  | ungated => exact ⟨_, hput, .of_holds rfl hk.holds⟩
  | spawns x b => exact ⟨_, hput, .of_holds rfl trivial⟩
  | accepts =>
      refine ⟨s, hs, trivial, ?_, fun x i hat => (by cases hat), fun x b hat => (by cases hat)⟩
      intro x hx
      cases hx
      exact Option.map_eq_some_iff.mpr ⟨_, List.getElem?_concat_length, rfl⟩
  | admits x hp =>
      obtain rfl := gate_acquire hp
      refine ⟨s, hs, trivial, hk.stream, ?_, fun y b hat => (by cases hat)⟩
      intro y i hat
      cases hat
      exact ⟨_, List.getElem?_concat_length, decide_eq_true rfl⟩
  | @acquires x i _ f' hp hf' =>
      obtain ⟨f, γ, hf, -, hm, rfl⟩ := gate_run hp hf'
      obtain ⟨f₀, hf₀, hfor⟩ := hk.call x i rfl
      obtain rfl : f = f₀ := Option.some.inj (hf.symm.trans hf₀)
      have hstream : ∀ y, (answered x i f').stream = some y → σ.sessionOf y = some k := by
        intro y hy
        rw [stream_answered] at hy
        exact hk.stream y hy
      rcases acquire_moves hm hfor with ⟨-, hfor' | ⟨why, n, rfl⟩⟩ |
        ⟨session, global, rfl, hlim, hleases⟩
      · -- the call goes on
        have hat : answered x i f' = .acquiring x i := by
          cases f' <;> first | rfl | cases hfor'
        rw [hat] at hstream ⊢
        refine ⟨s, hs, trivial, hstream, ?_, fun y b he => (by cases he)⟩
        intro y j he
        cases he
        exact ⟨f', hf', hfor'⟩
      · exact ⟨s, hs, trivial, hstream, fun y j he => (by cases he), fun y b he => (by cases he)⟩
      · refine ⟨s, hs, trivial, hstream, fun y j he => (by cases he), ?_⟩
        intro y b he
        cases he
        refine ⟨{ session := session, global := global }, ?_, hlim⟩
        show γ.leases[σ.gate.shared.leases.length]? = _
        rw [hleases]
        exact List.getElem?_concat_length
  | counts => exact ⟨s, hs, .of_holds rfl hk.holds⟩
  | failsAccept => exact ⟨s, hs, .of_holds rfl trivial⟩
  | rejects x => exact ⟨s, hs, .of_holds rfl trivial⟩
  | uncounts => exact ⟨s, hs, .of_holds rfl hk.holds⟩

/-- A control point of a stream's goroutine that is in no call and has not released. -/
theorem HandleKnows.of_open {k x : Nat} {b : LeaseRef} {pc pc' : Handle}
    (hk : HandleKnows σ k x b pc) (hopen : pc ≠ .ended) (hcall : ∀ i, pc' ≠ .calling i)
    (hrel : ¬ (pc' = .finishing ∨ pc' = .ended)) : HandleKnows σ k x b pc' :=
  ⟨hk.stream, fun _ => hk.lease hopen, fun i he => absurd he (hcall i), fun he => absurd he hrel⟩

/-- **OUTLINE**, the streams. -/
theorem handle_outline {k x : Nat} {s : Session} {b : LeaseRef} {pc pc' : Handle}
    (h : HandleMoves σ k s x b pc σ' pc') (hk : HandleKnows σ k x b pc) :
    HandleKnows σ' k x b pc' := by
  cases h with
  | closesStream =>
      have hnext : HandleKnows σ k x b .releasing := hk.of_open (by simp) (by simp) (by simp)
      exact ⟨(closeStream_session σ x x).trans hnext.stream, hnext.lease, hnext.call,
        hnext.released⟩
  | releases hp =>
      obtain rfl := gate_release hp
      refine ⟨hk.stream, fun _ => hk.lease (by simp), ?_, fun he => (by simp at he)⟩
      intro i he
      cases he
      exact ⟨_, List.getElem?_concat_length, decide_eq_true rfl⟩
  | @resumes i _ f' hp hf' =>
      obtain ⟨f, γ, hf, hexec, hm, rfl⟩ := gate_run hp hf'
      obtain ⟨f₀, hf₀, hof⟩ := hk.call i rfl
      obtain rfl : f = f₀ := Option.some.inj (hf.symm.trans hf₀)
      obtain ⟨s, l, hs, hl, hlim⟩ := hk.lease (by simp)
      obtain ⟨l', hl', hkeep⟩ := (moves_keeps hm).lease b l hl
      have hlease : ∃ (s : Session) (l : BackendLease), σ.sessions[k]? = some s ∧
          γ.leases[b]? = some l ∧ l.session.limiter = s.limiter :=
        ⟨s, l', hs, hl', hkeep.trans hlim⟩
      rcases release_moves hexec hm hof with hof' | ⟨hret, hfin⟩
      · rw [released, ofLease_open hof']
        refine ⟨hk.stream, fun _ => hlease, ?_, fun he => (by simp at he)⟩
        intro j he
        cases he
        exact ⟨f', hf', hof'⟩
      · rw [released, hret]
        exact ⟨hk.stream, fun _ => hlease, fun j he => (by cases he), fun _ => hfin⟩
  | finishes =>
      exact ⟨hk.stream, fun he => absurd rfl he, fun i he => (by cases he),
        fun _ => hk.released (Or.inl rfl)⟩
  | _ => exact hk.of_open (by simp) (by simp) (by simp)

/-- What comes from outside leaves a session as its goroutine relies on it. -/
theorem happens_session (h : Happens σ σ' new) {k : Nat} {s : Session}
    (hs : σ.sessions[k]? = some s) : ∃ s', σ'.sessions[k]? = some s' ∧ Later s s' := by
  cases h with
  | connect => exact ⟨s, getElem?_snoc_old hs, Later.refl s⟩
  | cancel => exact ⟨s, hs, Later.refl s⟩
  | nudges hj _ hn => exact set_related hs hj (Later.refl s) fun _ => hn

/-- What a thread knows is not touched from outside. -/
theorem Knows.outside (h : Happens σ σ' new) {i : Nat} (hk : Knows i σ t) : Knows i σ' t := by
  have hgate := happens_gate h
  have hkeeps : Keeps σ.gate.shared σ'.gate.shared := .of_leases (by rw [hgate])
  have hstream : ∀ x, σ'.sessionOf x = σ.sessionOf x := fun x => by cases h <;> rfl
  cases t with
  | serve k pc =>
      obtain ⟨s, hs, hk⟩ := hk
      obtain ⟨s', hs', hlater⟩ := happens_session h hs
      exact ⟨s', hs', hk.stable hlater hkeeps (fun x hx => (hstream x).trans hx)
        (fun x n f _ hf => by rw [hgate]; exact hf)⟩
  | handler k x b pc =>
      refine HandleKnows.stable hk hkeeps (hstream x).trans ?_
        (fun n f _ hf => by rw [hgate]; exact hf)
      intro _ s hs
      obtain ⟨s', hs', hlater⟩ := happens_session h hs
      exact ⟨s', hs', hlater.limiter⟩

/-- **THE OUTLINE HOLDS**: in every state of a server each thread knows what it should. -/
theorem knows {s : ServerPool} (h : ServerReach g gated s) :
    ∀ i t, s.threads[i]? = some t → Knows i s.shared t := by
  refine (Machine.owickiGries (M := serverMachine) (J := ServerReach g gated) (fun _ hs => hs)
    (fun _ => True) Knows ?_ ?_ ?_ ?_ h).2
  · exact ⟨trivial, fun i t ht => (by cases ht)⟩
  · intro s i t ok σ' t' new hr ht _ he _ hL
    cases exec_moves he with
    | @serve k sess pc pc' _ _ hs hm =>
        obtain ⟨s₀, hs₀, hk⟩ := hL
        obtain rfl : sess = s₀ := Option.some.inj (hs.symm.trans hs₀)
        refine ⟨trivial, serve_outline hs hm hk, ?_⟩
        intro n u hu
        cases hm with
        | spawns x b =>
            obtain rfl := List.mem_singleton.mp hu
            obtain ⟨l, hl, hlim⟩ := hk.lease x b rfl
            have hput := (put_sessions hs { sess with wg := sess.wg + 1 } k).trans (if_pos rfl)
            exact ⟨hk.stream x rfl, fun _ => ⟨_, l, hput, hl, hlim⟩, fun i he => (by cases he),
              fun he => (by simp at he)⟩
        | _ => cases hu
    | handler hs hm => exact ⟨trivial, handle_outline hm hL, fun n u hu => (by cases hu)⟩
  · intro s i j t u ok σ' t' new hr hij ht hu he _ hLt hLu
    have hm := exec_moves he
    have hother : ∀ n, u.calls n = true → t.calls n = false := fun n hn =>
      only_one (calls_le_one hr n) hij ht hu hn
    cases u with
    | serve k pc =>
        obtain ⟨s₀, hs₀, hk⟩ := hLu
        obtain ⟨s₁, hs₁, -, hlater⟩ := moves_session hm hs₀
        have hne : t.serves k = false := only_one (serves_le_one hr k) hij ht hu (decide_eq_true rfl)
        refine ⟨s₁, hs₁, hk.stable (hlater hne) (moves_gate hm) (fun x => moves_stream hm) ?_⟩
        intro x n f hat hf
        refine moves_call hm hf (hother n ?_)
        rw [hat]
        exact decide_eq_true rfl
    | handler k x b pc =>
        refine hLu.stable (moves_gate hm) (moves_stream hm) ?_ ?_
        · intro hopen s₀ hs₀
          obtain ⟨s₁, hs₁, hlim, -⟩ := moves_session hm hs₀
          refine ⟨s₁, hs₁, hlim ?_⟩
          -- a session that sets its limiter has started no goroutine yet
          rintro rfl
          obtain ⟨s₂, hs₂, hk⟩ := hLt
          have hwg : s.shared.wgOf k = 0 := by
            rw [Server.wgOf, hs₂]
            exact hk.holds.1
          have hworks : Thread.works k (.handler k x b pc) = true := by simp [Thread.works, hopen]
          have hle := le_load (one (Thread.works k)) hu
          rw [works_counted hr k, one_true hworks, hwg] at hle
          omega
        · intro n f hat hf
          refine moves_call hm hf (hother n ?_)
          rw [hat]
          exact decide_eq_true rfl
  · intro s op σ' new hr _ he _
    have hout := outside_happens he
    refine ⟨trivial, ?_, fun j u _ hL => hL.outside hout⟩
    intro n u hu
    cases hout with
    | connect =>
        obtain rfl := List.mem_singleton.mp hu
        exact ⟨{}, List.getElem?_concat_length, .of_holds rfl ⟨rfl, rfl, rfl, rfl⟩⟩
    | _ => cases hu

end Outline

/-! ## The leases -/

/-- A stream that has not begun to release its lease. -/
def Handle.holding : Handle → Bool
  | .releasing => true
  | pc => pc.streaming

/-- The thread holds lease `b` and has not begun to release it. -/
def Thread.holds (b : LeaseRef) : Thread → Bool
  | .serve _ (.spawning _ d) => d = b
  | .handler _ _ d pc => d = b && pc.holding
  | _ => false

/-- A call of `Release` that has not looked at the `sync.Once` of lease `b`. -/
def atOnce (b : LeaseRef) : Call → Bool
  | .leaseOnce d => d = b
  | _ => false

/-- One for a lease that nobody has begun to release. -/
def freshOf (b : LeaseRef) (γ : Gate) : Nat := if γ.onceOf b = some .fresh then 1 else 0

section Leases

variable {γ γ' : Gate} {f f' : Call} {g : Gate} {gated : Bool} {s : ServerPool}

theorem freshOf_le_one (b : LeaseRef) (γ : Gate) : freshOf b γ ≤ 1 := by
  rw [freshOf]
  split <;> omega

theorem freshOf_of_leases (b : LeaseRef) (h : γ'.leases = γ.leases) :
    freshOf b γ' = freshOf b γ := by
  rw [freshOf, freshOf, Gate.onceOf, Gate.onceOf, h]

theorem holds_none {pc : Serve} (h : pc.stream = none) (b : LeaseRef) (k : Nat) :
    Thread.holds b (.serve k pc) = false := by
  cases pc <;> first | rfl | cases h

theorem holds_acquired (b d : LeaseRef) (k x i : Nat) :
    one (Thread.holds b) (.serve k (answered x i (.acquired d))) = if d = b then 1 else 0 := by
  simp only [answered, Thread.holds, one, decide_eq_true_eq]

theorem holds_released (b d : LeaseRef) (k x i : Nat) (f : Call) :
    one (Thread.holds b) (.handler k x d (released i f)) = 0 := by
  rw [released]
  split <;> simp [Thread.holds, one, Handle.holding, Handle.streaming]

/-- A section of `Acquire` gives a new lease to the session that called it. -/
theorem acquire_fresh {r : LimRef} (h : CallMoves γ f γ' f') (hf : forSession r f = true)
    (b : LeaseRef) (k x i : Nat) :
    freshOf b γ' = freshOf b γ + one (Thread.holds b) (.serve k (answered x i f')) ∧
      atOnce b f = false ∧ atOnce b f' = false := by
  have hat : ∀ {f}, forSession r f = true → atOnce b f = false := by
    intro f hf
    cases f <;> first | rfl | cases hf
  rcases acquire_moves h hf with ⟨hleases, hf' | ⟨why, n, rfl⟩⟩ |
    ⟨session, global, rfl, -, hleases⟩
  · refine ⟨?_, hat hf, hat hf'⟩
    rw [freshOf_of_leases b hleases]
    cases f' <;> first | rfl | cases hf'
  · exact ⟨freshOf_of_leases b hleases, hat hf, rfl⟩
  · refine ⟨?_, hat hf, rfl⟩
    have honce : γ'.onceOf b = if b = γ.leases.length then some .fresh else γ.onceOf b := by
      rw [Gate.onceOf, hleases, getElem?_snoc]
      split <;> rfl
    rw [freshOf, honce, freshOf]
    by_cases hb : b = γ.leases.length
    · have hnone : γ.onceOf b = none := by
        rw [Gate.onceOf, List.getElem?_eq_none hb.ge]
        rfl
      rw [if_pos hb, hnone, holds_acquired, if_pos hb.symm]
      rfl
    · rw [if_neg hb, holds_acquired, if_neg (Ne.symm hb), Nat.add_zero]

/-- No section leads to the start of `Release`. -/
theorem moves_atOnce (h : CallMoves γ f γ' f') (b : LeaseRef) : atOnce b f' = false := by
  cases h with
  | full q k => cases k <;> rfl
  | swapped q k _ _ => cases k <;> rfl
  | partOver d p _ _ _ => cases p <;> rfl
  | partEnded d p _ _ => cases p <;> rfl
  | _ => rfl

/-- `Release` gives out no lease. -/
theorem release_leases {d : LeaseRef} (h : CallMoves γ f γ' f') (hf : ofLease d f = true) :
    γ'.leases.length = γ.leases.length := by
  cases h with
  | added _ _ r => rw [VkTurnBackendGate.giveBack_leases]
  | _ => first | rfl | exact List.length_set | cases hf

/-- A section of `Release`, of a lease that is fresh when nobody has looked at it and is being
    released when somebody is inside. -/
theorem release_fresh {d : LeaseRef}
    (hexec : VkTurnBackendGate.exec γ f () = some (γ', f', [])) (h : CallMoves γ f γ' f')
    (hf : ofLease d f = true) (b : LeaseRef) (hfresh : atOnce b f = true → freshOf b γ = 1)
    (hrun : VkTurnBackendGate.inside b f = 1 → γ.onceOf b = some .running) :
    freshOf b γ' + one (atOnce b) f = freshOf b γ + one (atOnce b) f' := by
  rcases VkTurnBackendGate.moves_once h b with ⟨hin, hsame | ⟨hnone, hnew⟩⟩ |
    ⟨-, -, rfl, rfl, hfr, hru⟩ | ⟨hin, -, rfl, rfl, hfin⟩
  · have hfr : freshOf b γ' = freshOf b γ := by rw [freshOf, hsame, freshOf]
    have hnot : atOnce b f = false := by
      by_contra hat
      have hat := Bool.eq_true_of_not_eq_false hat
      cases f with
      | leaseOnce e =>
          obtain rfl : e = b := of_decide_eq_true hat
          rcases exec_leaseOnce hexec with ⟨-, rfl⟩ | hfin
          · simp [VkTurnBackendGate.inside] at hin
          · have hone := hfresh hat
            rw [freshOf, hfin] at hone
            cases hone
      | _ => cases hat
    rw [hfr, one_false hnot, one_false (moves_atOnce h b)]
  · -- a lease that did not exist is not given out here
    have hlen := release_leases h hf
    simp only [Gate.onceOf, Option.map_eq_none_iff, List.getElem?_eq_none_iff,
      Option.map_eq_some_iff] at hnone hnew
    obtain ⟨l, hl, -⟩ := hnew
    exact absurd (List.getElem?_eq_some_iff.mp hl).1 (by omega)
  · simp [freshOf, hfr, hru, one, atOnce]
  · simp [freshOf, hrun hin, hfin, one, atOnce]

/-- **ONE HOLDER**: each lease that nobody has begun to release is held by one thread, or by the
    call that is about to release it. -/
theorem leases_counted (hnil : g.leases = []) (h : ServerReach g gated s) (b : LeaseRef) :
    load (one (Thread.holds b)) s.threads + load (one (atOnce b)) s.shared.gate.threads
      = freshOf b s.shared.gate.shared := by
  refine Machine.reach_tallies (M := serverMachine) (J := ServerReach g gated)
    (fun _ hs => hs) (one (Thread.holds b))
    (fun σ n => n + load (one (atOnce b)) σ.gate.threads = freshOf b σ.gate.shared) ?_ ?_ ?_ h
  · show load _ [] + load _ [] = freshOf b g
    rw [freshOf, Gate.onceOf, hnil]
    rfl
  · intro s j t ok σ' t' new rest hr ht _ hn he
    have hknows := knows hr j t ht
    cases exec_moves he with
    | @serve k sess _ _ _ _ hs hm =>
        cases hm with
        | own ho =>
            rw [one_false (holds_none (own_owns ho).before b k)] at hn
            rw [one_false (holds_none (own_owns ho).after b k)]
            exact hn
        | @limits p hp =>
            show _ + load (one (atOnce b)) p.threads = freshOf b p.shared
            rw [(gate_newSession hp).1, freshOf_of_leases b (gate_newSession hp).2]
            exact hn
        | admits x hp =>
            obtain rfl := gate_acquire hp
            show _ + load (one (atOnce b)) (s.shared.gate.threads ++ [_]) = _
            rw [load_append, ← hn]
            rfl
        | @acquires x i _ f' hp hf' =>
            obtain ⟨f, γ, hf, -, hm, rfl⟩ := gate_run hp hf'
            obtain ⟨s₀, -, hk⟩ := hknows
            obtain ⟨f₀, hf₀, hfor⟩ := hk.call x i rfl
            obtain rfl : f = f₀ := Option.some.inj (hf.symm.trans hf₀)
            obtain ⟨hfresh, hat, hat'⟩ := acquire_fresh hm hfor b k x i
            have hset := load_set (one (atOnce b)) f' hf
            rw [one_false hat, one_false hat'] at hset
            show _ + load (one (atOnce b)) (s.shared.gate.threads.set i f') = freshOf b γ
            rw [hfresh, ← hn, load_nil]
            have hzero : one (Thread.holds b) (.serve k (.acquiring x i)) = 0 := rfl
            omega
        | spawns x d =>
            refine Eq.trans ?_ hn
            simp [one, Thread.holds, Handle.holding, Handle.streaming, Server.put]
        | _ => exact hn
    | @handler k x sess d _ _ _ hs hm =>
        cases hm with
        | releases hp =>
            obtain rfl := gate_release hp
            show _ + load (one (atOnce b)) (s.shared.gate.threads ++ [_]) = _
            rw [load_append, ← hn]
            simp [one, Thread.holds, Handle.holding, Handle.streaming, atOnce]
            omega
        | @resumes i _ f' hp hf' =>
            obtain ⟨f, γ, hf, hexec, hm, rfl⟩ := gate_run hp hf'
            obtain ⟨f₀, hf₀, hof⟩ := hknows.call i rfl
            obtain rfl : f = f₀ := Option.some.inj (hf.symm.trans hf₀)
            have hfresh := release_fresh hexec hm hof b ?_
              fun hin => (VkTurnBackendGate.running_of_inside hnil (gate_reach hr) hf hin).1
            · have hset := load_set (one (atOnce b)) f' hf
              have hzero : one (Thread.holds b) (.handler k x d (.calling i)) = 0 := by
                simp [one, Thread.holds, Handle.holding, Handle.streaming]
              show _ + load (one (atOnce b)) (s.shared.gate.threads.set i f') = freshOf b γ
              rw [holds_released, load_nil]
              omega
            · -- a call at the start of the release found the lease fresh
              intro hat
              have hle := le_load (one (atOnce b)) hf
              have hle1 := freshOf_le_one b s.shared.gate.shared
              rw [one_true hat] at hle
              omega
        | _ => exact hn
  · intro s op σ' new n _ hn he
    cases outside_happens he <;> exact hn

end Leases

/-! ## Main results -/

/-- A stream that dials its backend, has a connection to it, or closes this. -/
def Handle.backend : Handle → Bool
  | .dialing => true
  | .piping => true
  | .closingConn => true
  | _ => false

/-- The lease of a stream. -/
def Thread.lease : Thread → LeaseRef
  | .serve _ _ => 0
  | .handler _ _ b _ => b

/-- A stream with a backend. -/
def Thread.backend : Thread → Bool
  | .serve _ _ => false
  | .handler _ _ _ pc => pc.backend

/-- A stream of session `k` with a backend. -/
def Thread.backendOf (k : Nat) : Thread → Bool
  | .serve _ _ => false
  | .handler j _ _ pc => j = k && pc.backend

section Results

variable {g : Gate} {gated : Bool} {s : ServerPool} {maxGlobal maxSession : Int} {registry : Bool}
  (hg : newBackendGate maxGlobal maxSession registry = .ok g) (h : ServerReach g gated s)

include hg in
theorem no_leases : g.leases = [] := by
  obtain ⟨-, -, rfl⟩ := newBackendGate_ok hg
  rfl

include hg h

/-- A lease that a thread holds has a slot of the gate and one of its session. -/
theorem slots_of_holds {t : Thread} (ht : t ∈ s.threads) {b : LeaseRef} (hb : t.holds b = true)
    {l : BackendLease} (hl : s.shared.gate.shared.leases[b]? = some l) :
    1 ≤ l.slots 0 ∧ 1 ≤ l.slots l.session.limiter := by
  obtain ⟨i, hi⟩ := List.getElem?_of_mem ht
  have hfresh : l.once = .fresh := by
    have hcount := leases_counted (no_leases hg) h b
    have hle := le_load (one (Thread.holds b)) hi
    rw [one_true hb] at hle
    by_contra hno
    rw [freshOf, Gate.onceOf, hl, Option.map_some,
      if_neg fun he => hno (Option.some.inj he)] at hcount
    omega
  have hmem : l ∈ s.shared.gate.shared.leases := List.mem_of_getElem? hl
  have hwhole := ((inner hg (gate_reach h)).1 l hmem).1 hfresh
  have hsession : l.session.once = .fresh := of_decide_eq_true (congrArg Prod.fst hwhole)
  have hglobal : l.global.once = .fresh := of_decide_eq_true (congrArg Prod.snd hwhole)
  have hptr := ((sound hg (gate_reach h)).1.pointers l hmem).1
  refine ⟨?_, ?_⟩
  · rw [BackendLease.slots, slot_fresh hglobal, if_pos hptr]
    exact Nat.le_add_left 1 _
  · rw [BackendLease.slots, slot_fresh hsession, if_pos rfl]
    exact Nat.le_add_right 1 _

/-- Threads that hold leases with a slot of limiter `r` are no more than its limit. -/
theorem holders_le {r : LimRef} {p : Thread → Bool}
    (hheld : ∀ t ∈ s.threads, p t = true → t.holds t.lease = true ∧
      ∃ l, s.shared.gate.shared.leases[t.lease]? = some l ∧ 1 ≤ l.slots r) :
    (s.threads.countP p : Int) ≤ VkTurnBackendGate.bound maxGlobal maxSession r := by
  have hone : ∀ b, load (one (Thread.holds b)) s.threads ≤ 1 := fun b => by
    have hcount := leases_counted (no_leases hg) h b
    have hle := freshOf_le_one b s.shared.gate.shared
    omega
  have hle := load_le_of_held hone hheld
  have hcounted := counted hg (gate_reach h) r
  rw [Gate.Counts, Gate.activeOf] at hcounted
  rw [← load_one]
  cases hlim : s.shared.gate.shared.limiters[r]? with
  | none =>
      simp only [hlim] at hcounted
      obtain ⟨h1, h2, -⟩ := newBackendGate_ok hg
      rw [VkTurnBackendGate.bound]
      split <;> omega
  | some lim =>
      simp only [hlim] at hcounted
      obtain ⟨hmax, hbound⟩ := (sound hg (gate_reach h)).1.bounded r lim hlim
      omega

/-- **BACKENDS STAY WITHIN THE LIMITS**: whatever sessions come and go, however their streams
    overlap and fail, the streams that dial or have a backend are no more than the limit of the
    process, and those of one session no more than the limit of a session. -/
theorem backends_within_limits :
    (s.threads.countP Thread.backend : Int) ≤ maxGlobal ∧
      ∀ k, (s.threads.countP (Thread.backendOf k) : Int) ≤ maxSession := by
  -- a stream with a backend holds its lease, with a slot of the gate and one of its session
  have hlease : ∀ {k x : Nat} {b : LeaseRef} {pc : Handle}, .handler k x b pc ∈ s.threads →
      pc.backend = true → Thread.holds b (.handler k x b pc) = true ∧
      ∃ sess l, s.shared.sessions[k]? = some sess ∧ s.shared.gate.shared.leases[b]? = some l ∧
        l.session.limiter = sess.limiter ∧ 1 ≤ l.slots 0 ∧ 1 ≤ l.slots sess.limiter := by
    intro k x b pc ht hb
    obtain ⟨i, hi⟩ := List.getElem?_of_mem ht
    have hopen : pc ≠ .ended := by
      rintro rfl
      cases hb
    have hheld : Thread.holds b (.handler k x b pc) = true := by
      cases pc <;> first | exact Bool.and_eq_true_iff.mpr ⟨decide_eq_true rfl, rfl⟩ | cases hb
    obtain ⟨sess, l, hs, hl, hlim⟩ := (knows h i _ hi).lease hopen
    obtain ⟨hgate, hsess⟩ := slots_of_holds hg h ht hheld hl
    exact ⟨hheld, sess, l, hs, hl, hlim, hgate, hlim ▸ hsess⟩
  refine ⟨?_, fun k => ?_⟩
  · refine holders_le hg h (r := 0) ?_
    intro t ht hb
    cases t with
    | serve k pc => cases hb
    | handler k x b pc =>
        obtain ⟨hheld, sess, l, -, hl, -, hslot, -⟩ := hlease ht hb
        exact ⟨hheld, l, hl, hslot⟩
  · rcases Nat.eq_zero_or_pos (s.threads.countP (Thread.backendOf k)) with hzero | hpos
    · rw [hzero]
      exact le_trans (by decide) (newBackendGate_ok hg).1
    -- the leases of all of them are for the limiter of the session
    have hof : ∀ t : Thread, t.backendOf k = true →
        ∃ x b pc, t = .handler k x b pc ∧ pc.backend = true := by
      intro t hb
      cases t with
      | serve j pc => cases hb
      | handler j x b pc =>
          obtain ⟨hj, hpc⟩ := Bool.and_eq_true_iff.mp hb
          obtain rfl : j = k := of_decide_eq_true hj
          exact ⟨x, b, pc, rfl, hpc⟩
    obtain ⟨t, ht, hb⟩ := List.countP_pos_iff.mp hpos
    obtain ⟨x, b, pc, rfl, hpc⟩ := hof t hb
    obtain ⟨-, sess, l, hs, hl, hlim, -⟩ := hlease ht hpc
    have hne : sess.limiter ≠ 0 := by
      rw [← hlim]
      exact Nat.one_le_iff_ne_zero.mp
        ((sound hg (gate_reach h)).1.pointers l (List.mem_of_getElem? hl)).2.1
    have hle := holders_le hg h (r := sess.limiter) (p := Thread.backendOf k) ?_
    · rwa [VkTurnBackendGate.bound, if_neg hne] at hle
    · intro t ht hb
      obtain ⟨x, b, pc, rfl, hpc⟩ := hof t hb
      obtain ⟨hheld, sess', l', hs', hl', -, -, hslot⟩ := hlease ht hpc
      obtain rfl : sess = sess' := Option.some.inj (hs.symm.trans hs')
      exact ⟨hheld, l', hl', hslot⟩

/-- A gate with one slot. -/
def oneSlot : Gate := { limiters := [{ maximum := 1 }], maxStreamsPerSession := 1 }

/-- Thread `i` runs `n` sections, and what it calls succeeds. -/
def runs (i n : Nat) : List (Act Bool Op) := List.replicate n (.run i true)

/-- Two sessions come; the first accepts a stream and dials, the second accepts one and is
    refused. -/
def twoSessions : List (Act Bool Op) :=
  [.env .connect, .env .connect] ++ runs 0 13 ++ runs 1 13 ++ runs 2 1

omit hg h in
theorem one_backend :
    ∃ s, ServerReach oneSlot true s ∧ s.shared.streams.length = 2 ∧
      s.threads.countP Thread.backend = 1 ∧ (s.threads.countP Thread.backend : Int) ≤ 1 := by
  obtain ⟨s, hr, hp⟩ := Reach.of_follow serverMachine.step anyStep (newServer oneSlot true)
    twoSessions
    (fun s => decide (s.shared.streams.length = 2 ∧ s.threads.countP Thread.backend = 1))
    (by decide)
  obtain ⟨hstreams, hcount⟩ := of_decide_eq_true hp
  have hgate : newBackendGate 1 1 true = .ok oneSlot := rfl
  exact ⟨s, hr, hstreams, hcount, (backends_within_limits hgate hr).1⟩

omit hg in
/-- A session that has returned has nothing left to do. -/
theorem returned_ended {i k : Nat} (hi : s.threads[i]? = some (.serve k .returned)) {x : Nat}
    {b : LeaseRef} {pc : Handle} (ht : .handler k x b pc ∈ s.threads) : pc = .ended := by
  obtain ⟨sess, hs, hk⟩ := knows h i _ hi
  have hwg : s.shared.wgOf k = 0 := by
    rw [Server.wgOf, hs]
    exact hk.holds.1.1
  obtain ⟨j, hj⟩ := List.getElem?_of_mem ht
  by_contra hopen
  have hle := le_load (one (Thread.works k)) hj
  rw [works_counted h k, hwg, one_true (by simp [Thread.works, hopen])] at hle
  cases hle

omit hg in
/-- The owner of an open stream: the goroutine of its session, or its own. -/
theorem stream_owner {x : Nat} {st : Stream} (hx : s.shared.streams[x]? = some st)
    (hopen : st.isOpen = true) :
    (∃ (i : Nat) (pc : Serve), s.threads[i]? = some (.serve st.session pc) ∧ pc ≠ .returned) ∨
      ∃ b pc, .handler st.session x b pc ∈ s.threads ∧ pc ≠ .ended := by
  have hone : s.shared.openOf x = 1 := by
    simp [Server.openOf, oneAt, hx, one, hopen]
  obtain ⟨i, t, ht, hpos⟩ :=
    exists_of_load_pos (by rw [streams_counted h x, hone]; exact Nat.one_pos)
  have hstream := one_pos_iff.mp hpos
  have hknows := knows h i t ht
  have hsession : ∀ {k : Nat}, s.shared.sessionOf x = some k → st.session = k := by
    intro k hk
    rw [Server.sessionOf, hx] at hk
    exact Option.some.inj hk
  cases t with
  | serve k pc =>
      obtain ⟨sess, hs, hk⟩ := hknows
      have hpc := of_decide_eq_true hstream
      obtain rfl := hsession (hk.stream x hpc)
      refine Or.inl ⟨i, pc, ht, ?_⟩
      rintro rfl
      cases hpc
  | handler k y b pc =>
      obtain ⟨hy, hpc⟩ := Bool.and_eq_true_iff.mp hstream
      obtain rfl : y = x := of_decide_eq_true hy
      obtain rfl := hsession hknows.stream
      refine Or.inr ⟨b, pc, List.mem_of_getElem? ht, ?_⟩
      rintro rfl
      cases hpc

omit hg in
/-- **A SESSION LEAVES NOTHING BEHIND**: when `handleVLESSConnection` has returned, whatever the
    other sessions do, the goroutines of its streams have ended and have released their leases,
    its streams, the smux session and the KCP session are closed, and neither of its two
    `AfterFunc` functions is running or will run. -/
theorem session_leaves_nothing {i k : Nat} (hi : s.threads[i]? = some (.serve k .returned)) :
    (∀ x b pc, .handler k x b pc ∈ s.threads →
      pc = .ended ∧ s.shared.gate.shared.onceOf b = some .finished) ∧
    (∀ st ∈ s.shared.streams, st.session = k → st.isOpen = false) ∧
    ∃ sess, s.shared.sessions[k]? = some sess ∧ sess.smux = false ∧ sess.kcp = false ∧
      sess.smuxHook.quiet = true ∧ sess.dtlsHook.quiet = true := by
  obtain ⟨sess, hs, hk⟩ := knows h i _ hi
  obtain ⟨⟨-, hsmuxHook, hsmux, hkcp⟩, hdtlsHook⟩ := hk.holds
  refine ⟨?_, ?_, sess, hs, hsmux, hkcp, hsmuxHook, hdtlsHook⟩
  · intro x b pc ht
    obtain rfl := returned_ended h hi ht
    obtain ⟨j, hj⟩ := List.getElem?_of_mem ht
    exact ⟨rfl, (knows h j _ hj).released (Or.inr rfl)⟩
  · rintro st hst rfl
    obtain ⟨x, hx⟩ := List.getElem?_of_mem hst
    by_contra hopen
    rcases stream_owner h hx (Bool.eq_true_of_not_eq_false hopen) with
      ⟨j, pc, hj, hpc⟩ | ⟨b, pc, ht, hpc⟩
    · -- the goroutine of the session is the one that has returned
      by_cases hij : i = j
      · subst hij
        cases Option.some.inj (hi.symm.trans hj)
        exact hpc rfl
      · have hother := only_one (serves_le_one h _) hij hi hj (decide_eq_true rfl)
        exact absurd rfl (of_decide_eq_false hother)
    · exact hpc (returned_ended h hi ht)

/-- The stream of the first session ends, its session fails and is interrupted, and returns. -/
def firstReturns : List (Act Bool Op) :=
  runs 2 14 ++ [.run 0 false] ++ runs 0 1 ++
    [.env (.smuxHook 0), .env (.smuxHook 0), .env (.smuxHook 0)] ++ runs 0 8

omit hg h in
theorem first_session_leaves_nothing :
    ∃ s, ServerReach oneSlot true s ∧ s.threads[0]? = some (.serve 0 .returned) ∧
      s.threads[1]? ≠ some (.serve 1 .returned) ∧
      s.shared.gate.shared.onceOf 0 = some .finished := by
  obtain ⟨s, hr, hp⟩ := Reach.of_follow serverMachine.step anyStep (newServer oneSlot true)
    (twoSessions ++ firstReturns)
    (fun s => decide (s.threads[0]? = some (Thread.serve 0 .returned) ∧
      s.threads[1]? ≠ some (Thread.serve 1 .returned) ∧
      Thread.handler 0 0 0 .ended ∈ s.threads)) (by decide)
  obtain ⟨hret, hother, hhandler⟩ := of_decide_eq_true hp
  exact ⟨s, hr, hret, hother, ((session_leaves_nothing hr hret).1 0 0 _ hhandler).2⟩

/-- **AN IDLE SERVER OWES NOTHING**: when all sessions have returned, in whatever order they came
    and went, no call of the gate is in progress, every stream is closed, every lease has been
    released, and the gauge of the sessions, that of the backends, the counter of the gate and
    those of all sessions are zero. -/
theorem idle_server_owes_nothing (hret : ∀ k pc, .serve k pc ∈ s.threads → pc = .returned) :
    VkTurnBackendGate.Quiet s.shared.gate ∧
      (∀ st ∈ s.shared.streams, st.isOpen = false) ∧
      (∀ l ∈ s.shared.gate.shared.leases, l.once = .finished) ∧
      s.shared.activeSessions = 0 ∧ s.shared.gate.shared.activeBackendStreams = 0 ∧
      ∀ lim ∈ s.shared.gate.shared.limiters, lim.active = 0 := by
  have hended : ∀ {k x : Nat} {b : LeaseRef} {pc : Handle}, .handler k x b pc ∈ s.threads →
      pc = .ended := by
    intro k x b pc ht
    by_contra hopen
    obtain ⟨i, hi⟩ := List.getElem?_of_mem ht
    obtain ⟨sess, -, hs, -, -⟩ := (knows h i _ hi).lease hopen
    -- its session has a goroutine, and that has returned
    have hserves := serves_counted h k
    rw [if_pos (List.getElem?_eq_some_iff.mp hs).1] at hserves
    obtain ⟨n, u, hu, hone⟩ := exists_of_load_pos (hserves ▸ Nat.one_pos)
    have hsu := one_pos_iff.mp hone
    cases u with
    | serve m pc' =>
        obtain rfl : m = k := of_decide_eq_true hsu
        obtain rfl := hret m pc' (List.mem_of_getElem? hu)
        exact hopen (returned_ended h hu ht)
    | handler _ _ _ _ => cases hsu
  -- no thread calls or holds anything
  have hover : ∀ t ∈ s.threads,
      (∃ k, t = .serve k .returned) ∨ ∃ k x b, t = .handler k x b .ended := by
    intro t ht
    cases t with
    | serve k pc => exact Or.inl ⟨k, by rw [hret k pc ht]⟩
    | handler k x b pc => exact Or.inr ⟨k, x, b, by rw [hended ht]⟩
  have hzero : ∀ {p : Thread → Bool}, (∀ k, p (.serve k .returned) = false) →
      (∀ k x b, p (.handler k x b .ended) = false) → load (one p) s.threads = 0 := by
    intro p hserve hhandler
    refine load_eq_zero fun t ht => one_false ?_
    rcases hover t ht with ⟨k, rfl⟩ | ⟨k, x, b, rfl⟩
    · exact hserve k
    · exact hhandler k x b
  have hquiet : VkTurnBackendGate.Quiet s.shared.gate := by
    intro f hf
    obtain ⟨i, hi⟩ := List.getElem?_of_mem hf
    have hcalls := calls_counted h i
    rw [hzero (fun _ => rfl) (fun _ _ _ => rfl), inCall, oneAt, hi] at hcalls
    by_contra hopen
    simp [one, hopen] at hcalls
  have hleases : ∀ l ∈ s.shared.gate.shared.leases, l.once = .finished := by
    intro l hl
    obtain ⟨b, hb⟩ := List.getElem?_of_mem hl
    have honce : s.shared.gate.shared.onceOf b = some l.once := by rw [Gate.onceOf, hb]; rfl
    cases hon : l.once with
    | finished => rfl
    | running =>
        have hin := VkTurnBackendGate.one_inside (no_leases hg) (gate_reach h) b
        rw [VkTurnBackendGate.load_quiet hquiet fun f hf => (by cases f <;> first | rfl | cases hf),
          Gate.running, honce, hon, if_pos rfl] at hin
        cases hin
    | fresh =>
        have hcount := leases_counted (no_leases hg) h b
        rw [hzero (fun _ => rfl) (fun _ _ _ => by simp [Thread.holds, Handle.holding,
            Handle.streaming]),
          VkTurnBackendGate.load_quiet hquiet (fun f hf => (by cases f <;> first | rfl | cases hf)),
          freshOf, honce, hon, if_pos rfl] at hcount
        cases hcount
  have hunreleased : s.shared.gate.shared.leases.countP BackendLease.unreleased = 0 := by
    refine List.countP_eq_zero.mpr fun l hl => ?_
    rw [BackendLease.unreleased, hleases l hl]
    decide
  obtain ⟨hgate, hsum, hgauge⟩ := VkTurnBackendGate.quiet_books hg (gate_reach h) hquiet
  refine ⟨hquiet, ?_, hleases, ?_, ?_, ?_⟩
  · intro st hst
    obtain ⟨x, hx⟩ := List.getElem?_of_mem hst
    by_contra hopen
    rcases stream_owner h hx (Bool.eq_true_of_not_eq_false hopen) with
      ⟨j, pc, hj, hpc⟩ | ⟨b, pc, ht, hpc⟩
    · exact hpc (hret _ pc (List.mem_of_getElem? hj))
    · exact hpc (hended ht)
  · rw [sessions_counted h, hzero (fun _ => rfl) (fun _ _ _ => rfl)]
    rfl
  · rw [← hgauge, hgate, hunreleased]
    rfl
  · intro lim hlim
    obtain ⟨r, hr⟩ := List.getElem?_of_mem hlim
    have hcount := counted hg (gate_reach h) r
    rw [Gate.Counts, Gate.activeOf, hr] at hcount
    refine hcount.trans ?_
    rw [load_eq_zero, VkTurnBackendGate.load_quiet hquiet]
    · rfl
    · intro f hf
      cases f <;> first | rfl | cases hf
    · intro l hl
      have hwhole := ((inner hg (gate_reach h)).1 l hl).2 (hleases l hl)
      rw [BackendLease.slots, slot_begun (of_decide_eq_false (congrArg Prod.fst hwhole)),
        slot_begun (of_decide_eq_false (congrArg Prod.snd hwhole))]

omit hg h in
theorem all_returned_owes_nothing :
    ∃ s, ServerReach oneSlot true s ∧ s.threads.length = 3 ∧ s.shared.activeSessions = 0 ∧
      s.shared.gate.shared.activeBackendStreams = 0 := by
  obtain ⟨s, hr, hp⟩ := Reach.of_follow serverMachine.step anyStep (newServer oneSlot true)
    (twoSessions ++ firstReturns ++ runs 1 1 ++ [.run 1 false] ++ runs 1 8)
    (fun s => decide (s.threads = [.serve 0 .returned, .serve 1 .returned, .handler 0 0 0 .ended]))
    (by decide)
  have hthreads := of_decide_eq_true hp
  have hgate : newBackendGate 1 1 true = .ok oneSlot := rfl
  obtain ⟨-, -, -, hsessions, hbackends, -⟩ := idle_server_owes_nothing hgate hr (by
    intro k pc hk
    rw [hthreads] at hk
    simp at hk
    tauto)
  exact ⟨s, hr, by rw [hthreads]; rfl, hsessions, hbackends⟩

end Results

end VkTurnSmuxServe
