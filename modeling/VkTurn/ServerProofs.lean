import Mathlib.Logic.Function.Basic
import VkTurn.BondHelloProofs
import VkTurn.ConnectionLimiterProofs
import VkTurn.DisposalProofs

/-! # The server as a thread pool

    One goroutine per accepted connection walks through the handshake, the
    client authentication and, in bond mode, `vlessBondManager.add`; one
    goroutine per bond group runs its session and tears the group down.  They
    share the connection limiter, the group table under `m.mu`, and each
    group's `g.mu`.  A group's `BondedPacketConn` is the thread pool of
    `BondProofs`, nested: whatever its goroutines do is a step of the outside
    world here, and only `addWithCleanup` can call its `AddConn`.

    The mutex `g.mu` is explicit, since `AddConn` runs while it is held.  The
    sections under `m.mu` are one step each. -/

namespace VkTurnServer

open ThreadPool VkTurnStripe VkTurnBond VkTurnBondHello VkTurnLimiter GoText GoMap

/-! ## State -/

/-- A pointer to a `vlessBondGroup`, by order of creation. -/
abbrev GroupRef := Nat

/-- The settings of a server process. -/
structure Config where
  arch : Arch
  tuning : Tuning
  kcpWindow : Int
  vlessMode : Bool
  vlessBond : Bool
  clientAuth : Bool
  deriving DecidableEq, Repr

/-- `vlessBondGroup`.  `mu` is the thread that holds `g.mu` between two
    sections, `window` the thread whose KCP session is installed, and `setCalls`
    a history of the calls of `SetWindowSize`. -/
structure Group where
  id : Bytes
  hello : BondHello
  bond : Bond := newBond
  started : Bool := false
  mu : Option Nat := none
  maxPaths : Int := 0
  window : Option Nat := none
  appliedWnd : Int := 0
  setCalls : List (Nat × Int) := []

/-- A path joined a bond: its conn, the group, and the group registered under
    that group's ID at that moment. -/
structure Admission where
  conn : Conn
  group : GroupRef
  registered : Option GroupRef
  deriving DecidableEq, Repr

/-- What the goroutines of the server share.  An accepted connection is known by
    the number of its lease.  Histories: the hello read on each connection, the
    control records written on it, how often its handler closed it, and the
    admissions. -/
structure Server where
  limiter : ConnectionLimiter
  leases : List ConnectionLease := []
  transportOpened : Nat := 0
  transportClosed : Nat := 0
  limitRejected : Nat := 0
  groups : Map Bytes GroupRef := []
  objs : List Group := []
  hellos : Conn → Option BondHello := fun _ => none
  records : Conn → List Bytes := fun _ => []
  closes : Conn → Nat := fun _ => 0
  admissions : List Admission := []

/-- `shortID`. -/
def shortID (id : Bytes) : Bytes := if id.length ≤ 8 then id else id.take 8

/-- `maxKCPWindow`. -/
def maxKCPWindow : Int := 8192

/-- `bondedKCPWindow`. -/
def bondedKCPWindow (baseWindow pathCount : Int) : Int :=
  let baseWindow := if baseWindow < 1 then 1 else baseWindow
  if baseWindow ≥ maxKCPWindow then maxKCPWindow
  else
    let pathCount := if pathCount < 1 then 1 else pathCount
    if pathCount > maxKCPWindow.tdiv baseWindow then maxKCPWindow
    else baseWindow * pathCount

/-- `desiredPathCountLocked`. -/
def Group.desiredPathCount (grp : Group) : Int :=
  if grp.hello.version = bondProtocolV2 ∧ grp.hello.expectedPaths > 0 then
    grp.hello.expectedPaths
  else if grp.maxPaths < 1 then 1
  else grp.maxPaths

/-- The window that fits the group. -/
def Group.fittingWindow (cfg : Config) (grp : Group) : Int :=
  bondedKCPWindow cfg.kcpWindow grp.desiredPathCount

/-- `applyWindowLocked`. -/
def Group.applyWindow (cfg : Config) (grp : Group) : Group :=
  match grp.window with
  | none => grp
  | some w =>
      let size := grp.fittingWindow cfg
      if size ≤ grp.appliedWnd then grp
      else { grp with appliedWnd := size, setCalls := grp.setCalls ++ [(w, size)] }

/-- The locked end of `addWithCleanup`: note the number of paths, resize,
    unlock. -/
def Group.sized (cfg : Config) (grp : Group) : Group :=
  let active : Int := grp.bond.shared.bond.count
  { Group.applyWindow cfg
      { grp with maxPaths := if active > grp.maxPaths then active else grp.maxPaths }
    with mu := none }

/-- `installWindowSetter`. -/
def Group.install (cfg : Config) (grp : Group) (w : Nat) : Group :=
  let size := grp.fittingWindow cfg
  { grp with window := some w, appliedWnd := size
             setCalls := grp.setCalls ++ [(w, size)] }

/-- `clearWindowSetter`. -/
def Group.clear (grp : Group) (w : Nat) : Group :=
  if grp.window = some w then { grp with window := none, appliedWnd := 0 } else grp

/-- Replace a group. -/
def Server.setGroup (σ : Server) (g : GroupRef) (grp : Group) : Server :=
  { σ with objs := σ.objs.set g grp }

/-- `releaseConnection`: `lease.Release`, counted when it returned the slot. -/
def Server.releaseConnection (σ : Server) (c : Conn) : Server :=
  match σ.leases[c]? with
  | none => σ
  | some lease =>
      if lease.released then σ
      else { σ with limiter := σ.limiter.release lease.ip
                    leases := σ.leases.set c { lease with released := true }
                    transportClosed := σ.transportClosed + 1 }

/-- Note the records written on a connection. -/
def Server.wrote (σ : Server) (c : Conn) (rs : List Bytes) : Server :=
  { σ with records := Function.update σ.records c (σ.records c ++ rs) }

/-- Note the hello read on a connection. -/
def Server.greeted (σ : Server) (c : Conn) (hello : BondHello) : Server :=
  { σ with hellos := Function.update σ.hellos c (some hello) }

/-- `conn.Close` by the handler or its session. -/
def Server.closeConn (σ : Server) (c : Conn) : Server :=
  { σ with closes := Function.update σ.closes c (σ.closes c + 1) }

/-- The group registered under an ID. -/
def Server.registered (σ : Server) (id : Bytes) : Option Group :=
  (get σ.groups id).bind (σ.objs[·]?)

/-- The second locked section of `add`, when no group is registered. -/
def Server.create (σ : Server) (hello : BondHello) : Server :=
  { σ with groups := insert σ.groups hello.bondID σ.objs.length
           objs := σ.objs ++ [{ id := hello.bondID, hello := hello }] }

/-- The locked part of the termination callback. -/
def Server.unregister (σ : Server) (g : GroupRef) (id : Bytes) : Server :=
  if get σ.groups id = some g then { σ with groups := delete σ.groups id } else σ

/-- The connection of a path. -/
def connOf (bond : Bond) (p : PathRef) : Option Conn :=
  (bond.shared.heap[p]?).map BondedPath.conn

/-- What an event inside a bond is to the server: a cleanup is the
    `releaseConnection` of the path's connection. -/
def Server.bondEvent (g : GroupRef) (grp : Group) (σ : Server) : Event → Server
  | .appended p =>
      match connOf grp.bond p with
      | none => σ
      | some c =>
          { σ with admissions := σ.admissions ++ [⟨c, g, get σ.groups grp.id⟩] }
  | .cleanedUp p =>
      match connOf grp.bond p with
      | none => σ
      | some c => σ.releaseConnection c
  | _ => σ

/-- A group's bond has moved to `bond`. -/
def Server.bondMoved (σ : Server) (g : GroupRef) (grp : Group) (bond : Bond) : Server :=
  (bond.shared.log.drop grp.bond.shared.log.length).foldl
    (Server.bondEvent g { grp with bond := bond })
    (σ.setGroup g { grp with bond := bond })

/-! ## Control points -/

/-- The errors of `add`. -/
inductive AddError where
  | readHello (e : HelloError)
  | tuning (e : HelloError)
  | groupMismatch (shortID : Bytes)
  | unsentReject (cause : AddError) (code : Bytes) (e : HelloError)
  | ackWrite (e : HelloError)
  | pathLimit (shortID : Bytes) (n : Int)
  deriving DecidableEq, Repr

/-- How the work of a handler that still owns its connection ended. -/
inductive Outcome where
  | wrongType
  | handshakeFailed
  | authFailed
  | rejected (e : AddError)
  | ended
  deriving DecidableEq, Repr

/-- A place between two sections. -/
inductive Pc where
  -- the handler of a connection
  | typeCheck (c : Conn)
  | handshake (c : Conn)
  | auth (c : Conn)
  | session (c : Conn)
  -- vlessBondManager.add
  | readHello (c : Conn)
  | reject (c : Conn) (hello : BondHello) (code : Bytes) (cause : AddError)
  | check (c : Conn) (hello : BondHello)
  | ack (c : Conn) (hello : BondHello)
  | join (c : Conn) (hello : BondHello)
  | start (c : Conn) (g : GroupRef)
  -- vlessBondGroup.addWithCleanup
  | limit (c : Conn) (hello : BondHello) (g : GroupRef)
  | call (c : Conn) (hello : BondHello) (g : GroupRef)
  | adding (c : Conn) (hello : BondHello) (g : GroupRef) (tid : Nat)
  -- the deferred functions of the handler
  | closing (c : Conn) (o : Outcome)
  | releasing (c : Conn) (o : Outcome)
  | done (c : Conn) (o : Outcome)
  -- its return when the bond owns the connection
  | accepted (c : Conn)
  -- vlessBondGroup.run
  | runBody (g : GroupRef)
  | serving (g : GroupRef)
  | runClose (g : GroupRef)
  | runClosing (g : GroupRef) (tid : Nat)
  | runDone (g : GroupRef)
  | runEnded (g : GroupRef)
  deriving DecidableEq, Repr

/-- The connection a thread handles. -/
def Pc.conn : Pc → Option Conn
  | .typeCheck c => some c
  | .handshake c => some c
  | .auth c => some c
  | .session c => some c
  | .readHello c => some c
  | .reject c _ _ _ => some c
  | .check c _ => some c
  | .ack c _ => some c
  | .join c _ => some c
  | .start c _ => some c
  | .limit c _ _ => some c
  | .call c _ _ => some c
  | .adding c _ _ _ => some c
  | .closing c _ => some c
  | .releasing c _ => some c
  | .done c _ => some c
  | .accepted c => some c
  | _ => none

/-- What is not up to the server: how a call outside it ends.  `fail` is a wrong
    type, a failed handshake or authentication, or a KCP error; `ctxDone` is the
    cancellation that closes the connection of a plain VLESS session. -/
inductive Choice where
  | go
  | fail
  | ctxDone
  | read (r : ReadEnd)
  | write (w : WriteEnd)
  deriving DecidableEq, Repr

/-- The listener hands over a connection, with the key of its remote address;
    a bond moves. -/
inductive Op where
  | accept (ip : Option Bytes)
  | bond (g : GroupRef) (a : Act VkTurnBond.Choice VkTurnBond.Op)
  deriving DecidableEq

/-- What a bond can do by itself: everything but `AddConn`, and a `Close` from
    outside only once the group's run has registered it with its context. -/
def bondAllowed (grp : Group) : Act VkTurnBond.Choice VkTurnBond.Op → Bool
  | .env (.addConn _ _) => false
  | .env .close => grp.started
  | _ => true

/-! ## Sections -/

/-- After the first locked section: V2 is acknowledged, V1 is not. -/
def afterCheck (c : Conn) (hello : BondHello) : Pc :=
  if hello.version = bondProtocolV2 then .ack c hello else .join c hello

/-- The negotiated number of paths is reached. -/
def Group.full (grp : Group) : Bool :=
  grp.hello.version = bondProtocolV2 ∧
    (grp.bond.shared.bond.count : Int) ≥ grp.hello.expectedPaths

/-- One section of thread `i`. -/
def exec (cfg : Config) (i : Nat) (σ : Server) :
    Pc → Choice → Option (Server × Pc × List Pc)
  | .typeCheck c, .go => some (σ, .handshake c, [])
  | .typeCheck c, .fail => some (σ, .closing c .wrongType, [])
  | .handshake c, .go => some (σ, .auth c, [])
  | .handshake c, .fail => some (σ, .closing c .handshakeFailed, [])
  | .auth c, .go =>
      if cfg.vlessMode && cfg.vlessBond then some (σ, .readHello c, [])
      else some (σ, .session c, [])
  | .auth c, .fail =>
      if cfg.clientAuth then some (σ, .closing c .authFailed, []) else none
  | .session c, .go => some (σ, .closing c .ended, [])
  | .session c, .ctxDone =>
      if cfg.vlessMode then some (σ.closeConn c, .session c, []) else none
  | .readHello c, .read r =>
      match readBondHelloConfig cfg.arch r with
      | (_, some e) => some (σ, .closing c (.rejected (.readHello e)), [])
      | (hello, none) =>
          match validateBondHelloTuning cfg.tuning hello with
          | some e =>
              some (σ.greeted c hello,
                .reject c hello (ascii "PROFILE_MISMATCH") (.tuning e), [])
          | none => some (σ.greeted c hello, .check c hello, [])
  | .reject c hello _ cause, .go =>
      if hello.version = bondProtocolV2 then none
      else some (σ, .closing c (.rejected cause), [])
  | .reject c hello code cause, .write w =>
      if hello.version = bondProtocolV2 then
        match writeBondHelloReject w code with
        | (rs, some e) =>
            some (σ.wrote c rs, .closing c (.rejected (.unsentReject cause code e)), [])
        | (rs, none) => some (σ.wrote c rs, .closing c (.rejected cause), [])
      else none
  | .check c hello, .go =>
      match σ.registered hello.bondID with
      | none => some (σ, afterCheck c hello, [])
      | some grp =>
          if grp.hello = hello then some (σ, afterCheck c hello, [])
          else
            some (σ, .reject c hello (ascii "GROUP_MISMATCH")
              (.groupMismatch (shortID grp.id)), [])
  | .ack c hello, .write w =>
      match writeBondHelloAck w with
      | (rs, some e) => some (σ.wrote c rs, .closing c (.rejected (.ackWrite e)), [])
      | (rs, none) => some (σ.wrote c rs, .join c hello, [])
  | .join c hello, .go =>
      match get σ.groups hello.bondID with
      | none => some (σ.create hello, .limit c hello σ.objs.length, [])
      | some g =>
          match σ.objs[g]? with
          | none => none
          | some grp =>
              if grp.hello = hello then some (σ, .limit c hello g, [])
              else
                some (σ, .closing c (.rejected (.groupMismatch (shortID grp.id))), [])
  | .limit c hello g, .go =>
      match σ.objs[g]? with
      | none => none
      | some grp =>
          if grp.mu = none ∧ grp.bond.shared.mu = none then
            if grp.full then
              some (σ, .closing c
                (.rejected (.pathLimit (shortID grp.id) grp.hello.expectedPaths)), [])
            else some (σ.setGroup g { grp with mu := some i }, .call c hello g, [])
          else none
  | .call c hello g, .go =>
      match σ.objs[g]? with
      | none => none
      | some grp =>
          match bondStep cfg.arch grp.bond (.env (.addConn (some c) true)) with
          | none => none
          | some bond =>
              some (σ.bondMoved g grp bond,
                .adding c hello g grp.bond.threads.length, [])
  | .adding c _ g tid, .go =>
      match σ.objs[g]? with
      | none => none
      | some grp =>
          match grp.bond.threads[tid]? with
          | some (.returned _) =>
              if grp.bond.shared.mu = none then
                some (σ.setGroup g (grp.sized cfg), .start c g, [])
              else none
          | _ => none
  | .start c g, .go =>
      match σ.objs[g]? with
      | none => none
      | some grp =>
          if grp.started then some (σ, .accepted c, [])
          else
            some (σ.setGroup g { grp with started := true }, .accepted c,
              [.runBody g])
  | .closing c o, .go => some (σ.closeConn c, .releasing c o, [])
  | .releasing c o, .go => some (σ.releaseConnection c, .done c o, [])
  | .runBody g, .fail => some (σ, .runClose g, [])
  | .runBody g, .go =>
      match σ.objs[g]? with
      | none => none
      | some grp =>
          if grp.mu = none then some (σ.setGroup g (grp.install cfg i), .serving g, [])
          else none
  | .serving g, .go =>
      match σ.objs[g]? with
      | none => none
      | some grp =>
          if grp.mu = none then some (σ.setGroup g (grp.clear i), .runClose g, [])
          else none
  | .runClose g, .go =>
      match σ.objs[g]? with
      | none => none
      | some grp =>
          match bondStep cfg.arch grp.bond (.env .close) with
          | none => none
          | some bond =>
              some (σ.bondMoved g grp bond, .runClosing g grp.bond.threads.length, [])
  | .runClosing g tid, .go =>
      match σ.objs[g]? with
      | none => none
      | some grp =>
          if grp.bond.threads[tid]? = some (.returned .closed) then
            some (σ, .runDone g, [])
          else none
  | .runDone g, .go =>
      match σ.objs[g]? with
      | none => none
      | some grp => some (σ.unregister g grp.id, .runEnded g, [])
  | _, _ => none

/-- The outside world. -/
def outside (cfg : Config) (σ : Server) : Op → Option (Server × List Pc)
  | .accept ip =>
      match σ.limiter.acquire ip with
      | .error _ => some ({ σ with limitRejected := σ.limitRejected + 1 }, [])
      | .ok (limiter, lease) =>
          some ({ σ with limiter := limiter
                         leases := σ.leases ++ [lease]
                         transportOpened := σ.transportOpened + 1 },
            [.typeCheck σ.leases.length])
  | .bond g a =>
      match σ.objs[g]? with
      | none => none
      | some grp =>
          if bondAllowed grp a then
            match bondStep cfg.arch grp.bond a with
            | none => none
            | some bond => some (σ.bondMoved g grp bond, [])
          else none

/-- The server as a machine. -/
def serverMachine (cfg : Config) : Machine Server Pc Choice Op where
  exec := exec cfg
  env := outside cfg

/-- A server and its goroutines. -/
abbrev ServerPool := Pool Server Pc

/-- A server that has started to listen. -/
def newServer (limiter : ConnectionLimiter) : ServerPool := ⟨{ limiter := limiter }, []⟩

/-- One step of the server. -/
def serverStep (cfg : Config) : ServerPool → Act Choice Op → Option ServerPool :=
  (serverMachine cfg).step

/-- Every state of a server, under every interleaving. -/
abbrev ServerReach (cfg : Config) (limiter : ConnectionLimiter) : ServerPool → Prop :=
  Reach (serverStep cfg) anyStep (newServer limiter)

/-! ## What a section can do -/

/-- `Moves i σ t σ' t' new`: thread `i` at `t` can run one section, which leaves
    the shared state `σ'`, the thread at `t'` and the threads `new` started. -/
inductive Moves (cfg : Config) (i : Nat) (σ : Server) :
    Pc → Server → Pc → List Pc → Prop where
  | typed (c : Conn) : Moves cfg i σ (.typeCheck c) σ (.handshake c) []
  | wrongType (c : Conn) : Moves cfg i σ (.typeCheck c) σ (.closing c .wrongType) []
  | shook (c : Conn) : Moves cfg i σ (.handshake c) σ (.auth c) []
  | notShook (c : Conn) :
      Moves cfg i σ (.handshake c) σ (.closing c .handshakeFailed) []
  | bonded (c : Conn) : Moves cfg i σ (.auth c) σ (.readHello c) []
  | unbonded (c : Conn) : Moves cfg i σ (.auth c) σ (.session c) []
  | notAuthed (c : Conn) : Moves cfg i σ (.auth c) σ (.closing c .authFailed) []
  | sessionEnded (c : Conn) : Moves cfg i σ (.session c) σ (.closing c .ended) []
  | sessionClosed (c : Conn) :
      Moves cfg i σ (.session c) (σ.closeConn c) (.session c) []
  | helloFailed (c : Conn) (e : HelloError) :
      Moves cfg i σ (.readHello c) σ (.closing c (.rejected (.readHello e))) []
  | helloMistuned (c : Conn) (hello : BondHello) (e : HelloError) :
      validateBondHelloTuning cfg.tuning hello = some e →
      Moves cfg i σ (.readHello c) (σ.greeted c hello)
        (.reject c hello (ascii "PROFILE_MISMATCH") (.tuning e)) []
  | helloRead (c : Conn) (hello : BondHello) :
      validateBondHelloTuning cfg.tuning hello = none →
      Moves cfg i σ (.readHello c) (σ.greeted c hello) (.check c hello) []
  | rejectedV1 (c : Conn) (hello : BondHello) (code : Bytes) (cause : AddError) :
      hello.version ≠ bondProtocolV2 →
      Moves cfg i σ (.reject c hello code cause) σ (.closing c (.rejected cause)) []
  | rejectUnsent (c : Conn) (hello : BondHello) (code : Bytes) (cause : AddError)
      (w : WriteEnd) (rs : List Bytes) (e : HelloError) :
      hello.version = bondProtocolV2 → writeBondHelloReject w code = (rs, some e) →
      Moves cfg i σ (.reject c hello code cause) (σ.wrote c rs)
        (.closing c (.rejected (.unsentReject cause code e))) []
  | rejectSent (c : Conn) (hello : BondHello) (code : Bytes) (cause : AddError)
      (w : WriteEnd) (rs : List Bytes) :
      hello.version = bondProtocolV2 → writeBondHelloReject w code = (rs, none) →
      Moves cfg i σ (.reject c hello code cause) (σ.wrote c rs)
        (.closing c (.rejected cause)) []
  | checked (c : Conn) (hello : BondHello) :
      Moves cfg i σ (.check c hello) σ (afterCheck c hello) []
  | checkMismatch (c : Conn) (hello : BondHello) (grp : Group) :
      σ.registered hello.bondID = some grp → grp.hello ≠ hello →
      Moves cfg i σ (.check c hello) σ (.reject c hello (ascii "GROUP_MISMATCH")
        (.groupMismatch (shortID grp.id))) []
  | ackUnsent (c : Conn) (hello : BondHello) (w : WriteEnd) (rs : List Bytes)
      (e : HelloError) : writeBondHelloAck w = (rs, some e) →
      Moves cfg i σ (.ack c hello) (σ.wrote c rs)
        (.closing c (.rejected (.ackWrite e))) []
  | ackSent (c : Conn) (hello : BondHello) (w : WriteEnd) (rs : List Bytes) :
      writeBondHelloAck w = (rs, none) →
      Moves cfg i σ (.ack c hello) (σ.wrote c rs) (.join c hello) []
  | created (c : Conn) (hello : BondHello) : get σ.groups hello.bondID = none →
      Moves cfg i σ (.join c hello) (σ.create hello) (.limit c hello σ.objs.length) []
  | joined (c : Conn) (hello : BondHello) (g : GroupRef) (grp : Group) :
      get σ.groups hello.bondID = some g → σ.objs[g]? = some grp → grp.hello = hello →
      Moves cfg i σ (.join c hello) σ (.limit c hello g) []
  | joinMismatch (c : Conn) (hello : BondHello) (g : GroupRef) (grp : Group) :
      get σ.groups hello.bondID = some g → σ.objs[g]? = some grp → grp.hello ≠ hello →
      Moves cfg i σ (.join c hello) σ
        (.closing c (.rejected (.groupMismatch (shortID grp.id)))) []
  | limitFull (c : Conn) (hello : BondHello) (g : GroupRef) (grp : Group) :
      σ.objs[g]? = some grp → grp.full = true →
      Moves cfg i σ (.limit c hello g) σ (.closing c
        (.rejected (.pathLimit (shortID grp.id) grp.hello.expectedPaths))) []
  | limitPassed (c : Conn) (hello : BondHello) (g : GroupRef) (grp : Group) :
      σ.objs[g]? = some grp → grp.mu = none → grp.full = false →
      Moves cfg i σ (.limit c hello g) (σ.setGroup g { grp with mu := some i })
        (.call c hello g) []
  | called (c : Conn) (hello : BondHello) (g : GroupRef) (grp : Group) (bond : Bond) :
      σ.objs[g]? = some grp →
      bondStep cfg.arch grp.bond (.env (.addConn (some c) true)) = some bond →
      Moves cfg i σ (.call c hello g) (σ.bondMoved g grp bond)
        (.adding c hello g grp.bond.threads.length) []
  | added (c : Conn) (hello : BondHello) (g : GroupRef) (tid : Nat) (grp : Group)
      (r : Ret) : σ.objs[g]? = some grp →
      grp.bond.threads[tid]? = some (.returned r) →
      Moves cfg i σ (.adding c hello g tid) (σ.setGroup g (grp.sized cfg)) (.start c g) []
  | startedAlready (c : Conn) (g : GroupRef) (grp : Group) :
      σ.objs[g]? = some grp → grp.started = true →
      Moves cfg i σ (.start c g) σ (.accepted c) []
  | startedNow (c : Conn) (g : GroupRef) (grp : Group) :
      σ.objs[g]? = some grp → grp.started = false →
      Moves cfg i σ (.start c g) (σ.setGroup g { grp with started := true })
        (.accepted c) [.runBody g]
  | closed (c : Conn) (o : Outcome) :
      Moves cfg i σ (.closing c o) (σ.closeConn c) (.releasing c o) []
  | released (c : Conn) (o : Outcome) :
      Moves cfg i σ (.releasing c o) (σ.releaseConnection c) (.done c o) []
  | runFailed (g : GroupRef) : Moves cfg i σ (.runBody g) σ (.runClose g) []
  | installed (g : GroupRef) (grp : Group) : σ.objs[g]? = some grp → grp.mu = none →
      Moves cfg i σ (.runBody g) (σ.setGroup g (grp.install cfg i)) (.serving g) []
  | cleared (g : GroupRef) (grp : Group) : σ.objs[g]? = some grp → grp.mu = none →
      Moves cfg i σ (.serving g) (σ.setGroup g (grp.clear i)) (.runClose g) []
  | runCloses (g : GroupRef) (grp : Group) (bond : Bond) : σ.objs[g]? = some grp →
      bondStep cfg.arch grp.bond (.env .close) = some bond →
      Moves cfg i σ (.runClose g) (σ.bondMoved g grp bond)
        (.runClosing g grp.bond.threads.length) []
  | runClosed (g : GroupRef) (tid : Nat) (grp : Group) : σ.objs[g]? = some grp →
      grp.bond.threads[tid]? = some (.returned .closed) →
      Moves cfg i σ (.runClosing g tid) σ (.runDone g) []
  | unregistered (g : GroupRef) (grp : Group) : σ.objs[g]? = some grp →
      Moves cfg i σ (.runDone g) (σ.unregister g grp.id) (.runEnded g) []

/-- A section does one of the listed moves. -/
theorem exec_moves {cfg : Config} {i : Nat} {σ σ' : Server} {t t' : Pc} {a : Choice}
    {new : List Pc} (h : exec cfg i σ t a = some (σ', t', new)) :
    Moves cfg i σ t σ' t' new := by
  unfold exec at h
  split at h
  all_goals (try split at h) <;> (try split at h) <;> (try split at h) <;>
    simp only [Option.some.injEq, Prod.mk.injEq, reduceCtorEq] at h
  all_goals obtain ⟨rfl, rfl, rfl⟩ := h
  all_goals first
    | exact Moves.helloMistuned _ _ _ ‹_›
    | exact Moves.helloRead _ _ ‹_›
    | exact Moves.rejectedV1 _ _ _ _ ‹_›
    | exact Moves.rejectUnsent _ _ _ _ _ _ _ ‹_› ‹_›
    | exact Moves.rejectSent _ _ _ _ _ _ ‹_› ‹_›
    | exact Moves.checkMismatch _ _ _ ‹_› ‹_›
    | exact Moves.ackUnsent _ _ _ _ _ ‹_›
    | exact Moves.ackSent _ _ _ _ ‹_›
    | exact Moves.created _ _ ‹_›
    | exact Moves.joined _ _ _ _ ‹_› ‹_› ‹_›
    | exact Moves.joinMismatch _ _ _ _ ‹_› ‹_› ‹_›
    | exact Moves.limitFull _ _ _ _ ‹_› ‹_›
    | exact Moves.limitPassed _ _ _ _ ‹_› (And.left ‹_›) (Bool.eq_false_iff.mpr ‹_›)
    | exact Moves.called _ _ _ _ _ ‹_› ‹_›
    | exact Moves.added _ _ _ _ _ _ ‹_› ‹_›
    | exact Moves.startedAlready _ _ _ ‹_› ‹_›
    | exact Moves.startedNow _ _ _ ‹_› (Bool.eq_false_iff.mpr ‹_›)
    | exact Moves.installed _ _ ‹_› ‹_›
    | exact Moves.cleared _ _ ‹_› ‹_›
    | exact Moves.runCloses _ _ _ ‹_› ‹_›
    | exact Moves.runClosed _ _ _ ‹_› ‹_›
    | exact Moves.unregistered _ _ ‹_›
    | constructor

/-! ## Frames -/

/-- What the events inside a bond leave alone. -/
structure EventFrame (σ σ' : Server) : Prop where
  objs : σ'.objs = σ.objs
  groups : σ'.groups = σ.groups
  hellos : σ'.hellos = σ.hellos
  records : σ'.records = σ.records
  closes : σ'.closes = σ.closes
  length : σ'.leases.length = σ.leases.length
  admissions : σ.admissions ⊆ σ'.admissions

theorem EventFrame.refl (σ : Server) : EventFrame σ σ :=
  ⟨rfl, rfl, rfl, rfl, rfl, rfl, List.Subset.refl _⟩

theorem EventFrame.trans {σ σ' σ'' : Server} (h : EventFrame σ σ')
    (h' : EventFrame σ' σ'') : EventFrame σ σ'' :=
  ⟨h'.objs.trans h.objs, h'.groups.trans h.groups, h'.hellos.trans h.hellos,
    h'.records.trans h.records, h'.closes.trans h.closes, h'.length.trans h.length,
    List.Subset.trans h.admissions h'.admissions⟩

theorem releaseConnection_frame (σ : Server) (c : Conn) :
    EventFrame σ (σ.releaseConnection c) := by
  rw [Server.releaseConnection]
  split
  · exact EventFrame.refl σ
  · split
    · exact EventFrame.refl σ
    · exact ⟨rfl, rfl, rfl, rfl, rfl, List.length_set, List.Subset.refl _⟩

theorem bondEvent_frame (g : GroupRef) (grp : Group) (σ : Server) (e : Event) :
    EventFrame σ (σ.bondEvent g grp e) := by
  cases e with
  | appended p =>
      simp only [Server.bondEvent]
      split
      · exact EventFrame.refl σ
      · exact ⟨rfl, rfl, rfl, rfl, rfl, rfl, List.subset_append_left ..⟩
  | cleanedUp p =>
      simp only [Server.bondEvent]
      split
      · exact EventFrame.refl σ
      · exact releaseConnection_frame σ _
  | connClosed p => exact EventFrame.refl σ
  | doneClosed p => exact EventFrame.refl σ

theorem bondEvents_frame (g : GroupRef) (grp : Group) (es : List Event) :
    ∀ σ : Server, EventFrame σ (es.foldl (Server.bondEvent g grp) σ) := by
  induction es with
  | nil => intro σ; exact EventFrame.refl σ
  | cons e es ih =>
      intro σ
      exact (bondEvent_frame g grp σ e).trans (ih _)

/-- A bond's move replaces it in its group. -/
theorem bondMoved_frame (σ : Server) (g : GroupRef) (grp : Group) (bond : Bond) :
    EventFrame (σ.setGroup g { grp with bond := bond }) (σ.bondMoved g grp bond) :=
  bondEvents_frame g _ _ _

/-- The group whose bond moved. -/
theorem bondMoved_self {σ : Server} {g : GroupRef} {grp : Group} (bond : Bond)
    (hg : σ.objs[g]? = some grp) :
    (σ.bondMoved g grp bond).objs[g]? = some { grp with bond := bond } := by
  rw [(bondMoved_frame σ g grp bond).objs]
  show (σ.objs.set g _)[g]? = _
  rw [List.getElem?_set, if_pos rfl, if_pos (List.getElem?_eq_some_iff.mp hg).1]

/-- The groups whose bonds did not. -/
theorem bondMoved_other {σ : Server} {g g' : GroupRef} (grp : Group) (bond : Bond)
    (hne : g ≠ g') : (σ.bondMoved g grp bond).objs[g']? = σ.objs[g']? := by
  rw [(bondMoved_frame σ g grp bond).objs]
  show (σ.objs.set g _)[g']? = _
  rw [List.getElem?_set, if_neg hne]

/-- A path keeps its connection. -/
theorem connOf_step {arch : Arch} {b b' : Bond}
    {a : Act VkTurnBond.Choice VkTurnBond.Op} (h : bondStep arch b a = some b')
    {p : PathRef} {c : Conn} (hc : connOf b p = some c) : connOf b' p = some c := by
  obtain ⟨more, hmore⟩ := bondStep_heap_grows h
  have hp : p < b.shared.heap.length := by
    by_contra hge
    rw [connOf, List.getElem?_eq_none_iff.mpr (Nat.le_of_not_lt hge)] at hc
    cases hc
  rw [connOf, ← hmore, List.getElem?_append_left hp]
  exact hc

/-- What a section of thread `i` at `t` can do to group `g`. -/
inductive GroupMoves (cfg : Config) (i : Nat) (t : Pc) (g : GroupRef) (grp : Group) :
    Group → Prop where
  | same (grp' : Group) : grp'.id = grp.id → grp'.hello = grp.hello →
      grp'.bond = grp.bond → grp'.mu = grp.mu → GroupMoves cfg i t g grp grp'
  | took (c : Conn) (hello : BondHello) : t = .limit c hello g → grp.mu = none →
      grp.full = false → GroupMoves cfg i t g grp { grp with mu := some i }
  | called (c : Conn) (hello : BondHello) (bond : Bond) : t = .call c hello g →
      bondStep cfg.arch grp.bond (.env (.addConn (some c) true)) = some bond →
      GroupMoves cfg i t g grp { grp with bond := bond }
  | finished (c : Conn) (hello : BondHello) (tid : Nat) (r : Ret) (grp' : Group) :
      t = .adding c hello g tid → grp.bond.threads[tid]? = some (.returned r) →
      grp'.id = grp.id → grp'.hello = grp.hello → grp'.bond = grp.bond →
      grp'.mu = none → GroupMoves cfg i t g grp grp'
  | closes (bond : Bond) : t = .runClose g →
      bondStep cfg.arch grp.bond (.env .close) = some bond →
      GroupMoves cfg i t g grp { grp with bond := bond }

/-- No section changes the hello of a group. -/
theorem GroupMoves.hello {cfg : Config} {i : Nat} {t : Pc} {g : GroupRef}
    {grp grp' : Group} (h : GroupMoves cfg i t g grp grp') : grp'.hello = grp.hello := by
  cases h with
  | same _ _ hh _ _ => exact hh
  | finished _ _ _ _ _ _ _ _ hh _ _ => exact hh
  | _ => rfl

theorem GroupMoves.id {cfg : Config} {i : Nat} {t : Pc} {g : GroupRef}
    {grp grp' : Group} (h : GroupMoves cfg i t g grp grp') : grp'.id = grp.id := by
  cases h with
  | same _ hid _ _ _ => exact hid
  | finished _ _ _ _ _ _ _ hid _ _ _ => exact hid
  | _ => rfl

/-- The bond of a group stays as it is, is called, or is closed. -/
theorem GroupMoves.bond {cfg : Config} {i : Nat} {t : Pc} {g : GroupRef}
    {grp grp' : Group} (h : GroupMoves cfg i t g grp grp') :
    grp'.bond = grp.bond ∨
      (∃ c hello, t = .call c hello g ∧
        bondStep cfg.arch grp.bond (.env (.addConn (some c) true)) = some grp'.bond) ∨
      t = .runClose g ∧ bondStep cfg.arch grp.bond (.env .close) = some grp'.bond := by
  cases h with
  | same _ _ _ hb _ => exact Or.inl hb
  | took _ _ _ _ _ => exact Or.inl rfl
  | called c hello bond ht hb => exact Or.inr (Or.inl ⟨c, hello, ht, hb⟩)
  | finished _ _ _ _ _ _ _ _ _ hb _ => exact Or.inl hb
  | closes bond ht hb => exact Or.inr (Or.inr ⟨ht, hb⟩)

section Frames

variable {cfg : Config} {i : Nat} {σ σ' : Server} {t t' : Pc} {new : List Pc}

theorem applyWindow_frame (cfg : Config) (grp : Group) :
    (grp.applyWindow cfg).id = grp.id ∧ (grp.applyWindow cfg).hello = grp.hello ∧
      (grp.applyWindow cfg).bond = grp.bond := by
  rw [Group.applyWindow]
  split
  · exact ⟨rfl, rfl, rfl⟩
  · dsimp only
    split <;> exact ⟨rfl, rfl, rfl⟩

theorem clear_frame (grp : Group) (w : Nat) :
    (grp.clear w).id = grp.id ∧ (grp.clear w).hello = grp.hello ∧
      (grp.clear w).bond = grp.bond ∧ (grp.clear w).mu = grp.mu := by
  rw [Group.clear]
  split <;> exact ⟨rfl, rfl, rfl, rfl⟩

/-- Replacing group `g₀` by `x` is, for every group, nothing or that. -/
theorem setGroup_group {g₀ g : GroupRef} {grp₀ x grp : Group}
    (h₀ : σ.objs[g₀]? = some grp₀) (hobjs : σ'.objs = σ.objs.set g₀ x)
    (hg : σ.objs[g]? = some grp)
    (hx : GroupMoves cfg i t g₀ grp₀ x) :
    ∃ grp', σ'.objs[g]? = some grp' ∧ GroupMoves cfg i t g grp grp' := by
  have hlt : g₀ < σ.objs.length := (List.getElem?_eq_some_iff.mp h₀).1
  rw [hobjs, List.getElem?_set]
  by_cases he : g₀ = g
  · subst he
    obtain rfl : grp₀ = grp := Option.some.inj (h₀.symm.trans hg)
    exact ⟨x, by rw [if_pos rfl, if_pos hlt], hx⟩
  · exact ⟨grp, by rw [if_neg he]; exact hg, .same grp rfl rfl rfl rfl⟩

/-- **GROUPS**: every group stays, and what happens to it is a group move. -/
theorem Moves.group (h : Moves cfg i σ t σ' t' new) {g : GroupRef} {grp : Group}
    (hg : σ.objs[g]? = some grp) :
    ∃ grp', σ'.objs[g]? = some grp' ∧ GroupMoves cfg i t g grp grp' := by
  cases h with
  | created c hello _ =>
      refine ⟨grp, ?_, .same grp rfl rfl rfl rfl⟩
      have hlt : g < σ.objs.length := (List.getElem?_eq_some_iff.mp hg).1
      show (σ.objs ++ _)[g]? = some grp
      rw [List.getElem?_append_left hlt]
      exact hg
  | limitPassed c hello g₀ grp₀ h₀ hmu hfull =>
      exact setGroup_group h₀ rfl hg (.took c hello rfl hmu hfull)
  | called c hello g₀ grp₀ bond h₀ hb =>
      exact setGroup_group h₀ (bondMoved_frame ..).objs hg (.called c hello bond rfl hb)
  | added c hello g₀ tid grp₀ r h₀ hr =>
      obtain ⟨h1, h2, h3⟩ := applyWindow_frame cfg
        { grp₀ with maxPaths := if (grp₀.bond.shared.bond.count : Int) > grp₀.maxPaths
            then (grp₀.bond.shared.bond.count : Int) else grp₀.maxPaths }
      exact setGroup_group h₀ rfl hg (.finished c hello tid r _ rfl hr h1 h2 h3 rfl)
  | startedNow c g₀ grp₀ h₀ _ =>
      exact setGroup_group h₀ rfl hg (.same _ rfl rfl rfl rfl)
  | installed g₀ grp₀ h₀ _ =>
      exact setGroup_group h₀ rfl hg (.same _ rfl rfl rfl rfl)
  | cleared g₀ grp₀ h₀ _ =>
      obtain ⟨h1, h2, h3, h4⟩ := clear_frame grp₀ i
      exact setGroup_group h₀ rfl hg (.same _ h1 h2 h3 h4)
  | runCloses g₀ grp₀ bond h₀ hb =>
      exact setGroup_group h₀ (bondMoved_frame ..).objs hg (.closes bond rfl hb)
  | released c o =>
      rw [(releaseConnection_frame σ c).objs]
      exact ⟨grp, hg, .same grp rfl rfl rfl rfl⟩
  | unregistered g₀ grp₀ h₀ =>
      refine ⟨grp, ?_, .same grp rfl rfl rfl rfl⟩
      rw [Server.unregister]
      split <;> exact hg
  | _ => exact ⟨grp, hg, .same grp rfl rfl rfl rfl⟩

/-- A group that was not there is the one that `add` has just created. -/
theorem Moves.group_new (h : Moves cfg i σ t σ' t' new) {g : GroupRef} {grp' : Group}
    (hg : σ.objs[g]? = none) (hg' : σ'.objs[g]? = some grp') :
    ∃ c hello, t = .join c hello ∧ t' = .limit c hello g ∧ g = σ.objs.length ∧
      get σ.groups hello.bondID = none ∧ σ' = σ.create hello ∧
      grp' = { id := hello.bondID, hello := hello } := by
  have hge : σ.objs.length ≤ g := List.getElem?_eq_none_iff.mp hg
  have absurd_set : ∀ {g₀ x} {σ' : Server}, σ'.objs = σ.objs.set g₀ x →
      σ'.objs[g]? = some grp' → False := by
    intro g₀ x σ' hobjs hsome
    have hlt := (List.getElem?_eq_some_iff.mp hsome).1
    rw [hobjs, List.length_set] at hlt
    omega
  have absurd_same : ∀ {σ' : Server}, σ'.objs = σ.objs → σ'.objs[g]? = some grp' →
      False := by
    intro σ' hobjs hsome
    rw [hobjs, hg] at hsome
    cases hsome
  cases h with
  | created c hello hnone =>
      have hlt : g < (σ.objs ++ [({ id := hello.bondID, hello := hello } : Group)]).length :=
        (List.getElem?_eq_some_iff.mp hg').1
      rw [List.length_append, List.length_singleton] at hlt
      obtain rfl : g = σ.objs.length := Nat.le_antisymm (Nat.lt_succ_iff.mp hlt) hge
      refine ⟨c, hello, rfl, rfl, rfl, hnone, rfl, ?_⟩
      have hnew : (σ.objs ++ [({ id := hello.bondID, hello := hello } : Group)])[σ.objs.length]?
          = some grp' := hg'
      rw [List.getElem?_concat_length] at hnew
      exact (Option.some.inj hnew).symm
  | limitPassed c hello g₀ grp₀ h₀ _ _ => exact (absurd_set rfl hg').elim
  | called c hello g₀ grp₀ bond h₀ _ =>
      exact (absurd_set (bondMoved_frame ..).objs hg').elim
  | added c hello g₀ tid grp₀ r h₀ _ | startedNow c g₀ grp₀ h₀ _ | installed g₀ grp₀ h₀ _
  | cleared g₀ grp₀ h₀ _ => exact (absurd_set rfl hg').elim
  | runCloses g₀ grp₀ bond h₀ _ =>
      exact (absurd_set (bondMoved_frame ..).objs hg').elim
  | released c o => exact (absurd_same (releaseConnection_frame σ c).objs hg').elim
  | unregistered g₀ grp₀ h₀ =>
      refine (absurd_same ?_ hg').elim
      rw [Server.unregister]
      split <;> rfl
  | _ => exact (absurd_same rfl hg').elim

/-- So a group is an old one that moved, or that one. -/
theorem Moves.group_cases (h : Moves cfg i σ t σ' t' new) {g : GroupRef} {grp' : Group}
    (hg' : σ'.objs[g]? = some grp') :
    (∃ grp, σ.objs[g]? = some grp ∧ GroupMoves cfg i t g grp grp') ∨
      ∃ c hello, t = .join c hello ∧ t' = .limit c hello g ∧ g = σ.objs.length ∧
        get σ.groups hello.bondID = none ∧ σ' = σ.create hello ∧
        grp' = { id := hello.bondID, hello := hello } := by
  cases hg : σ.objs[g]? with
  | none => exact Or.inr (h.group_new hg hg')
  | some grp =>
      obtain ⟨grp'', hg'', hm⟩ := h.group hg
      obtain rfl : grp'' = grp' := Option.some.inj (hg''.symm.trans hg')
      exact Or.inl ⟨grp, rfl, hm⟩

/-- A handler keeps its connection, and what it starts has none. -/
theorem Moves.conn_eq (h : Moves cfg i σ t σ' t' new) :
    t'.conn = t.conn ∧ (∀ u ∈ new, u.conn = none) ∧
      σ'.leases.length = σ.leases.length := by
  cases h with
  | checked c hello =>
      refine ⟨?_, by simp, rfl⟩
      rw [afterCheck]
      split <;> rfl
  | called c hello g grp bond _ _ =>
      exact ⟨rfl, by simp, (bondMoved_frame ..).length⟩
  | runCloses g grp bond _ _ => exact ⟨rfl, by simp, (bondMoved_frame ..).length⟩
  | released c o => exact ⟨rfl, by simp, (releaseConnection_frame σ c).length⟩
  | startedNow c g grp _ _ =>
      refine ⟨rfl, ?_, rfl⟩
      intro u hu
      rw [List.mem_singleton.mp hu]
      rfl
  | unregistered g grp _ =>
      refine ⟨rfl, by simp, ?_⟩
      rw [Server.unregister]
      split <;> rfl
  | _ => exact ⟨rfl, by simp, rfl⟩

/-- Nobody touches another handler's connection. -/
theorem Moves.conn_frame (h : Moves cfg i σ t σ' t' new) {c : Conn}
    (hc : t.conn ≠ some c) :
    σ'.hellos c = σ.hellos c ∧ σ'.records c = σ.records c ∧
      σ'.closes c = σ.closes c := by
  have hne : ∀ {d : Conn}, some d ≠ some c → c ≠ d := by
    intro d hd he
    exact hd (congrArg some he.symm)
  cases h with
  | helloMistuned d hello e _ =>
      exact ⟨Function.update_of_ne (hne hc) .., rfl, rfl⟩
  | helloRead d hello _ => exact ⟨Function.update_of_ne (hne hc) .., rfl, rfl⟩
  | rejectUnsent d _ _ _ _ _ _ _ _ | rejectSent d _ _ _ _ _ _ _ | ackUnsent d _ _ _ _ _
  | ackSent d _ _ _ _ => exact ⟨rfl, Function.update_of_ne (hne hc) .., rfl⟩
  | sessionClosed d => exact ⟨rfl, rfl, Function.update_of_ne (hne hc) ..⟩
  | closed d o => exact ⟨rfl, rfl, Function.update_of_ne (hne hc) ..⟩
  | called d hello g grp bond _ _ =>
      have hf := bondMoved_frame σ g grp bond
      exact ⟨congrFun hf.hellos c, congrFun hf.records c, congrFun hf.closes c⟩
  | runCloses g grp bond _ _ =>
      have hf := bondMoved_frame σ g grp bond
      exact ⟨congrFun hf.hellos c, congrFun hf.records c, congrFun hf.closes c⟩
  | released d o =>
      have hf := releaseConnection_frame σ d
      exact ⟨congrFun hf.hellos c, congrFun hf.records c, congrFun hf.closes c⟩
  | unregistered g grp _ =>
      rw [Server.unregister]
      split <;> exact ⟨rfl, rfl, rfl⟩
  | _ => exact ⟨rfl, rfl, rfl⟩

/-- The group table changes where a group is created and where one is
    unregistered. -/
theorem Moves.groups_eq (h : Moves cfg i σ t σ' t' new) :
    σ'.groups = σ.groups ∨
      (∃ c hello, t = .join c hello ∧ get σ.groups hello.bondID = none ∧
        σ' = σ.create hello) ∨
      ∃ g grp, t = .runDone g ∧ σ.objs[g]? = some grp ∧ σ' = σ.unregister g grp.id := by
  cases h with
  | created c hello hnone => exact Or.inr (Or.inl ⟨c, hello, rfl, hnone, rfl⟩)
  | unregistered g grp hg => exact Or.inr (Or.inr ⟨g, grp, rfl, hg, rfl⟩)
  | called _ _ g grp bond _ _ => exact Or.inl (bondMoved_frame σ g grp bond).groups
  | runCloses g grp bond _ _ => exact Or.inl (bondMoved_frame σ g grp bond).groups
  | released c _ => exact Or.inl (releaseConnection_frame σ c).groups
  | _ => exact Or.inl rfl

/-- An admission stays on record. -/
theorem Moves.admissions_mono (h : Moves cfg i σ t σ' t' new) :
    σ.admissions ⊆ σ'.admissions := by
  cases h with
  | called _ _ g grp bond _ _ => exact (bondMoved_frame σ g grp bond).admissions
  | runCloses g grp bond _ _ => exact (bondMoved_frame σ g grp bond).admissions
  | released c _ => exact (releaseConnection_frame σ c).admissions
  | unregistered g grp _ =>
      rw [Server.unregister]
      split <;> exact List.Subset.refl _
  | _ => exact List.Subset.refl _

/-- What the outside world can do. -/
inductive Happens (cfg : Config) (σ : Server) : Server → List Pc → Prop where
  | refused : Happens cfg σ { σ with limitRejected := σ.limitRejected + 1 } []
  | accepted {ip : Option Bytes} (limiter : ConnectionLimiter) (lease : ConnectionLease) :
      σ.limiter.acquire ip = .ok (limiter, lease) →
      Happens cfg σ
        { σ with limiter := limiter
                 leases := σ.leases ++ [lease]
                 transportOpened := σ.transportOpened + 1 }
        [.typeCheck σ.leases.length]
  | bond (g : GroupRef) (a : Act VkTurnBond.Choice VkTurnBond.Op) (grp : Group)
      (bond : Bond) : σ.objs[g]? = some grp → bondAllowed grp a = true →
      bondStep cfg.arch grp.bond a = some bond →
      Happens cfg σ (σ.bondMoved g grp bond) []

/-- What a bond's step did. -/
theorem outside_bond {g : GroupRef} {a : Act VkTurnBond.Choice VkTurnBond.Op}
    (h : outside cfg σ (.bond g a) = some (σ', new)) :
    ∃ grp bond, σ.objs[g]? = some grp ∧ bondAllowed grp a = true ∧
      bondStep cfg.arch grp.bond a = some bond ∧ σ' = σ.bondMoved g grp bond ∧
      new = [] := by
  simp only [outside] at h
  cases hg : σ.objs[g]? with
  | none => rw [hg] at h; cases h
  | some grp =>
      simp only [hg] at h
      split at h
      · rename_i hallow
        cases hb : bondStep cfg.arch grp.bond a with
        | none => rw [hb] at h; cases h
        | some bond =>
            rw [hb] at h
            cases h
            exact ⟨grp, bond, rfl, hallow, hb, rfl, rfl⟩
      · cases h

theorem outside_happens {e : Op} (h : outside cfg σ e = some (σ', new)) :
    Happens cfg σ σ' new := by
  cases e with
  | accept ip =>
      simp only [outside] at h
      cases ha : σ.limiter.acquire ip with
      | error r =>
          rw [ha] at h
          cases h
          exact .refused
      | ok r =>
          obtain ⟨limiter, lease⟩ := r
          rw [ha] at h
          cases h
          exact .accepted limiter lease ha
  | bond g a =>
      obtain ⟨grp, bond, hg, hallow, hb, rfl, rfl⟩ := outside_bond h
      exact .bond g a grp bond hg hallow hb

/-- Accepting or refusing a connection touches no group. -/
theorem outside_accept (cfg : Config) {ip : Option Bytes}
    (h : outside cfg σ (.accept ip) = some (σ', new)) : σ'.objs = σ.objs := by
  simp only [outside] at h
  split at h <;> cases h <;> rfl

/-- Outside a section, a group changes only where its bond moves. -/
theorem Happens.group (h : Happens cfg σ σ' new) {g : GroupRef} {grp : Group}
    (hg : σ.objs[g]? = some grp) :
    ∃ grp', σ'.objs[g]? = some grp' ∧
      (grp' = grp ∨ ∃ a bond, bondAllowed grp a = true ∧
        bondStep cfg.arch grp.bond a = some bond ∧ grp' = { grp with bond := bond }) := by
  cases h with
  | bond g₀ a grp₀ bond h₀ hallow hb =>
      have hlt : g₀ < σ.objs.length := (List.getElem?_eq_some_iff.mp h₀).1
      rw [(bondMoved_frame σ g₀ grp₀ bond).objs]
      show ∃ grp', (σ.objs.set g₀ _)[g]? = some grp' ∧ _
      rw [List.getElem?_set]
      by_cases he : g₀ = g
      · subst he
        obtain rfl : grp₀ = grp := Option.some.inj (h₀.symm.trans hg)
        exact ⟨_, by rw [if_pos rfl, if_pos hlt], Or.inr ⟨a, bond, hallow, hb, rfl⟩⟩
      · exact ⟨grp, by rw [if_neg he]; exact hg, Or.inl rfl⟩
  | _ => exact ⟨grp, hg, Or.inl rfl⟩

/-- It creates none. -/
theorem Happens.group_new (h : Happens cfg σ σ' new) {g : GroupRef}
    (hg : σ.objs[g]? = none) : σ'.objs[g]? = none := by
  cases h with
  | bond g₀ a grp₀ bond h₀ _ _ =>
      rw [(bondMoved_frame σ g₀ grp₀ bond).objs]
      show (σ.objs.set g₀ _)[g]? = none
      rw [List.getElem?_eq_none_iff, List.length_set]
      exact List.getElem?_eq_none_iff.mp hg
  | _ => exact hg

/-- So a group is an old one, whose bond may have moved. -/
theorem Happens.group_old (h : Happens cfg σ σ' new) {g : GroupRef} {grp' : Group}
    (hg' : σ'.objs[g]? = some grp') :
    ∃ grp, σ.objs[g]? = some grp ∧
      (grp' = grp ∨ ∃ a bond, bondAllowed grp a = true ∧
        bondStep cfg.arch grp.bond a = some bond ∧ grp' = { grp with bond := bond }) := by
  cases hg : σ.objs[g]? with
  | none => cases hg'.symm.trans (h.group_new hg)
  | some grp =>
      obtain ⟨grp'', hg'', hmove⟩ := h.group hg
      obtain rfl : grp'' = grp' := Option.some.inj (hg''.symm.trans hg')
      exact ⟨grp, rfl, hmove⟩

theorem Happens.frame (h : Happens cfg σ σ' new) :
    σ'.hellos = σ.hellos ∧ σ'.records = σ.records ∧ σ'.closes = σ.closes ∧
      σ'.groups = σ.groups ∧ σ.admissions ⊆ σ'.admissions := by
  cases h with
  | bond g₀ a grp₀ bond h₀ _ _ =>
      have hf := bondMoved_frame σ g₀ grp₀ bond
      exact ⟨hf.hellos, hf.records, hf.closes, hf.groups, hf.admissions⟩
  | _ => exact ⟨rfl, rfl, rfl, rfl, List.Subset.refl _⟩

/-- Accepted connections stay accepted. -/
theorem Happens.leases_le (h : Happens cfg σ σ' new) :
    σ.leases.length ≤ σ'.leases.length := by
  cases h with
  | refused => exact le_refl _
  | accepted l lease _ =>
      show σ.leases.length ≤ (σ.leases ++ [lease]).length
      rw [List.length_append]
      exact Nat.le_add_right ..
  | bond g a grp bond _ _ _ => exact (bondMoved_frame σ g grp bond).length.ge

end Frames

end VkTurnServer
