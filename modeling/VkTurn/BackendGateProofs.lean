import VkTurn.BondProofs
import VkTurn.GoTextProofs

/-! # The backend gate

    A stream needs two slots, one of its session and one of the whole process.
    Both are taken by a compare-and-swap loop on a counter; when the second one
    is full the first is given back.  A lease gives both back and takes itself
    off a gauge, under a `sync.Once`, and each of the two inner leases has a
    `sync.Once` of its own.

    Every load, compare-and-swap and add is a section of its own.  Each counter
    is at all times the number of inner leases that nobody has begun to release
    plus the slots that threads have in hand (`counted`).  The `sync.Once` of a
    lease lets one call of `Release` inside (`one_inside`), which finds the inner
    leases as it left them (`inner`), so that in a state without a call in
    progress what is counted are the unreleased leases (`quiet_books`). -/

namespace VkTurnBackendGate

open ThreadPool VkTurnBond GoText

/-! ## State -/

def maximumConfiguredBackendLimit : Int := 65535

/-- Why a stream is not let in: "global backend connection limit reached",
    "per-session stream limit reached". -/
inductive BackendRejection where
  | global
  | perSession
  deriving DecidableEq, Repr

/-- A pointer to a `concurrencyLimiter`: 0 is the gate's own, the others are
    those of the sessions by order of creation. -/
abbrev LimRef := Nat

/-- A pointer to a `backendLease`, by order of creation. -/
abbrev LeaseRef := Nat

/-- `concurrencyLimiter`. -/
structure ConcurrencyLimiter where
  maximum : Int
  active : Int := 0
  deriving DecidableEq, Repr

/-- `concurrencyLease`.  Nobody but the `Acquire` that took it and the
    `backendLease` it then belongs to has a pointer to it. -/
structure ConcurrencyLease where
  limiter : LimRef
  once : Once := .fresh
  deriving DecidableEq, Repr

/-- `backendLease`. -/
structure BackendLease where
  session : ConcurrencyLease
  global : ConcurrencyLease
  once : Once := .fresh
  deriving DecidableEq, Repr

/-- `backendGate` with the limiters of its sessions, the leases it has given out,
    and the two values of its registry. -/
structure Gate where
  limiters : List ConcurrencyLimiter
  maxStreamsPerSession : Int
  rejections : UInt64 := 0
  leases : List BackendLease := []
  activeBackendStreams : Int := 0
  backendLimitRejections : Int64 := 0
  deriving DecidableEq, Repr

/-- `newConcurrencyLimiter`. -/
def newConcurrencyLimiter (maximum : Int) : Except Bytes ConcurrencyLimiter :=
  if maximum < 1 ∨ maximum > maximumConfiguredBackendLimit then
    .error (ascii "concurrency limit must be in 1.." ++ itoa maximumConfiguredBackendLimit)
  else .ok { maximum := maximum }

/-- `newBackendGate`. -/
def newBackendGate (maximumGlobal maximumPerSession : Int) (registry : Bool) :
    Except Bytes Gate :=
  match newConcurrencyLimiter maximumGlobal with
  | .error e => .error (ascii "maximum backend connections: " ++ e)
  | .ok global =>
      if maximumPerSession < 1 ∨ maximumPerSession > maximumGlobal then
        .error (ascii "maximum streams per session must be in 1.." ++ itoa maximumGlobal)
      else if registry = false then
        .error (ascii "backend metrics registry must not be nil")
      else .ok { limiters := [global], maxStreamsPerSession := maximumPerSession }

/-- One of the two inner leases. -/
inductive Part where
  | session
  | global
  deriving DecidableEq, Repr

/-- The inner lease. -/
def BackendLease.part (l : BackendLease) : Part → ConcurrencyLease
  | .session => l.session
  | .global => l.global

/-- Replace an inner lease. -/
def BackendLease.setPart (l : BackendLease) (p : Part) (c : ConcurrencyLease) :
    BackendLease :=
  match p with
  | .session => { l with session := c }
  | .global => { l with global := c }

/-- The atomic `active.Add(-1)` of a limiter. -/
def Gate.giveBack (σ : Gate) (r : LimRef) : Gate :=
  match σ.limiters[r]? with
  | none => σ
  | some lim =>
      { σ with limiters := σ.limiters.set r { lim with active := lim.active - 1 } }

/-- Replace a lease. -/
def Gate.setLease (σ : Gate) (b : LeaseRef) (l : BackendLease) : Gate :=
  { σ with leases := σ.leases.set b l }

/-! ## Control points -/

/-- The frame below a call of `concurrencyLimiter.Acquire`: for the session, or
    for the gate's own limiter with the lease of the session in hand. -/
inductive Caller where
  | session
  | global (lease : ConcurrencyLease)
  deriving DecidableEq, Repr

/-- A place between two sections. -/
inductive Pc where
  -- concurrencyLimiter.Acquire
  | load (r : LimRef) (k : Caller)
  | swap (r : LimRef) (current : Int) (k : Caller)
  -- backendGate.Acquire
  | opened (session global : ConcurrencyLease)
  | rollBack (session : ConcurrencyLease)
  -- recordRejection
  | rejectMetric (why : BackendRejection)
  | rejectCount (why : BackendRejection)
  -- backendLease.Release
  | leaseOnce (b : LeaseRef)
  | leaseGauge (b : LeaseRef)
  | leaseEnd (b : LeaseRef)
  -- concurrencyLease.Release, called by it
  | partOnce (b : LeaseRef) (p : Part)
  | partAdd (b : LeaseRef) (p : Part) (r : LimRef)
  | partEnd (b : LeaseRef) (p : Part)
  -- the end of a call
  | acquired (b : LeaseRef)
  | refused (why : BackendRejection) (count : UInt64)
  | released (b : Option LeaseRef) (first : Bool)
  deriving DecidableEq, Repr

/-- The call is over. -/
def Pc.returned : Pc → Bool
  | .acquired _ => true
  | .refused _ _ => true
  | .released _ _ => true
  | _ => false

/-- `concurrencyLimiter.Acquire` returned nil. -/
def Caller.failed : Caller → Pc
  | .session => .rejectMetric .perSession
  | .global lease => .rollBack lease

/-- `concurrencyLimiter.Acquire` returned a lease of limiter `r`. -/
def Caller.took (r : LimRef) : Caller → Pc
  | .session => .load 0 (.global { limiter := r })
  | .global lease => .opened lease { limiter := r }

/-- Where `concurrencyLease.Release` returns to. -/
def Part.resume (b : LeaseRef) : Part → Pc
  | .session => .partOnce b .global
  | .global => .leaseGauge b

/-- A call. -/
inductive Op where
  | newSession
  | acquire (session : Option LimRef)
  | release (b : Option LeaseRef)
  deriving DecidableEq, Repr

/-! ## Sections -/

/-- One section. -/
def exec (σ : Gate) : Pc → Unit → Option (Gate × Pc × List Pc)
  | .load r k, _ =>
      match σ.limiters[r]? with
      | none => none
      | some lim =>
          if lim.active ≥ lim.maximum then some (σ, k.failed, [])
          else some (σ, .swap r lim.active k, [])
  | .swap r current k, _ =>
      match σ.limiters[r]? with
      | none => none
      | some lim =>
          if lim.active = current then
            some ({ σ with limiters := σ.limiters.set r { lim with active := current + 1 } },
              k.took r, [])
          else some (σ, .load r k, [])
  | .opened session global, _ =>
      some ({ σ with activeBackendStreams := σ.activeBackendStreams + 1
                     leases := σ.leases ++ [{ session := session, global := global }] },
        .acquired σ.leases.length, [])
  | .rollBack session, _ =>
      if session.once = .fresh then
        some (σ.giveBack session.limiter, .rejectMetric .global, [])
      else some (σ, .rejectMetric .global, [])
  | .rejectMetric why, _ =>
      some ({ σ with backendLimitRejections := σ.backendLimitRejections + 1 },
        .rejectCount why, [])
  | .rejectCount why, _ =>
      some ({ σ with rejections := σ.rejections + 1 }, .refused why (σ.rejections + 1), [])
  | .leaseOnce b, _ =>
      match σ.leases[b]? with
      | none => none
      | some l =>
          match l.once with
          | .fresh => some (σ.setLease b { l with once := .running }, .partOnce b .session, [])
          | .running => none
          | .finished => some (σ, .released (some b) false, [])
  | .partOnce b p, _ =>
      match σ.leases[b]? with
      | none => none
      | some l =>
          match (l.part p).once with
          | .fresh =>
              some (σ.setLease b (l.setPart p { l.part p with once := .running }),
                .partAdd b p (l.part p).limiter, [])
          | .running => none
          | .finished => some (σ, p.resume b, [])
  | .partAdd b p r, _ => some (σ.giveBack r, .partEnd b p, [])
  | .partEnd b p, _ =>
      match σ.leases[b]? with
      | none => none
      | some l =>
          some (σ.setLease b (l.setPart p { l.part p with once := .finished }),
            p.resume b, [])
  | .leaseGauge b, _ =>
      some ({ σ with activeBackendStreams := σ.activeBackendStreams - 1 }, .leaseEnd b, [])
  | .leaseEnd b, _ =>
      match σ.leases[b]? with
      | none => none
      | some l =>
          some (σ.setLease b { l with once := .finished }, .released (some b) true, [])
  | _, _ => none

/-- A new session, or a new call.  `Acquire` for a nil session is refused, and
    `Release` of a nil lease returns at once. -/
def outside (σ : Gate) : Op → Option (Gate × List Pc)
  | .newSession =>
      match newConcurrencyLimiter σ.maxStreamsPerSession with
      | .error _ => none
      | .ok lim => some ({ σ with limiters := σ.limiters ++ [lim] }, [])
  | .acquire none => some (σ, [.rejectMetric .global])
  | .acquire (some r) =>
      if 1 ≤ r ∧ r < σ.limiters.length then some (σ, [.load r .session]) else none
  | .release none => some (σ, [.released none false])
  | .release (some b) =>
      if b < σ.leases.length then some (σ, [.leaseOnce b]) else none

/-- The gate as a machine. -/
def gateMachine : Machine Gate Pc Unit Op where
  exec := fun _ => exec
  env := outside

/-- A gate and the calls of its methods. -/
abbrev GatePool := Pool Gate Pc

/-- One step of the gate. -/
def gateStep : GatePool → Act Unit Op → Option GatePool := gateMachine.step

/-- Every state of a gate, under every interleaving. -/
abbrev GateReach (g : Gate) : GatePool → Prop := Reach gateStep anyStep ⟨g, []⟩

/-! ## What a section can do -/

/-- What one section can do. -/
inductive Moves (σ : Gate) : Pc → Gate → Pc → Prop where
  | full (r : LimRef) (k : Caller) : Moves σ (.load r k) σ k.failed
  | loaded (r : LimRef) (k : Caller) (lim : ConcurrencyLimiter) :
      σ.limiters[r]? = some lim → lim.active < lim.maximum →
      Moves σ (.load r k) σ (.swap r lim.active k)
  | swapped (r : LimRef) (k : Caller) (lim : ConcurrencyLimiter) :
      σ.limiters[r]? = some lim →
      Moves σ (.swap r lim.active k)
        { σ with limiters := σ.limiters.set r { lim with active := lim.active + 1 } }
        (k.took r)
  | missed (r : LimRef) (current : Int) (k : Caller) :
      Moves σ (.swap r current k) σ (.load r k)
  | opened (session global : ConcurrencyLease) :
      Moves σ (.opened session global)
        { σ with activeBackendStreams := σ.activeBackendStreams + 1
                 leases := σ.leases ++ [{ session := session, global := global }] }
        (.acquired σ.leases.length)
  | rolledBack (session : ConcurrencyLease) : session.once = .fresh →
      Moves σ (.rollBack session) (σ.giveBack session.limiter) (.rejectMetric .global)
  | rolledBefore (session : ConcurrencyLease) : session.once ≠ .fresh →
      Moves σ (.rollBack session) σ (.rejectMetric .global)
  | metric (why : BackendRejection) :
      Moves σ (.rejectMetric why)
        { σ with backendLimitRejections := σ.backendLimitRejections + 1 } (.rejectCount why)
  | count (why : BackendRejection) :
      Moves σ (.rejectCount why) { σ with rejections := σ.rejections + 1 }
        (.refused why (σ.rejections + 1))
  | onceTaken (b : LeaseRef) (l : BackendLease) : σ.leases[b]? = some l →
      l.once = .fresh →
      Moves σ (.leaseOnce b) (σ.setLease b { l with once := .running })
        (.partOnce b .session)
  | onceOver (b : LeaseRef) : Moves σ (.leaseOnce b) σ (.released (some b) false)
  | partTaken (b : LeaseRef) (p : Part) (l : BackendLease) : σ.leases[b]? = some l →
      (l.part p).once = .fresh →
      Moves σ (.partOnce b p)
        (σ.setLease b (l.setPart p { l.part p with once := .running }))
        (.partAdd b p (l.part p).limiter)
  | partOver (b : LeaseRef) (p : Part) (l : BackendLease) : σ.leases[b]? = some l →
      (l.part p).once = .finished → Moves σ (.partOnce b p) σ (p.resume b)
  | added (b : LeaseRef) (p : Part) (r : LimRef) :
      Moves σ (.partAdd b p r) (σ.giveBack r) (.partEnd b p)
  | partEnded (b : LeaseRef) (p : Part) (l : BackendLease) : σ.leases[b]? = some l →
      Moves σ (.partEnd b p)
        (σ.setLease b (l.setPart p { l.part p with once := .finished })) (p.resume b)
  | gauged (b : LeaseRef) :
      Moves σ (.leaseGauge b)
        { σ with activeBackendStreams := σ.activeBackendStreams - 1 } (.leaseEnd b)
  | ended (b : LeaseRef) (l : BackendLease) : σ.leases[b]? = some l →
      Moves σ (.leaseEnd b) (σ.setLease b { l with once := .finished })
        (.released (some b) true)

/-- A section does one of the listed moves, and starts no thread. -/
theorem exec_moves {σ σ' : Gate} {t t' : Pc} {a : Unit} {new : List Pc}
    (h : exec σ t a = some (σ', t', new)) : Moves σ t σ' t' ∧ new = [] := by
  cases t with
  | load r k =>
      simp only [exec] at h
      split at h
      · cases h
      · split at h <;> cases h
        · exact ⟨.full r k, rfl⟩
        · exact ⟨.loaded r k _ ‹_› (not_le.mp ‹_›), rfl⟩
  | swap r current k =>
      simp only [exec] at h
      split at h
      · cases h
      · split at h <;> cases h
        · subst_vars
          exact ⟨.swapped r k _ ‹_›, rfl⟩
        · exact ⟨.missed r current k, rfl⟩
  | opened session global => cases h; exact ⟨.opened session global, rfl⟩
  | rollBack session =>
      simp only [exec] at h
      split at h <;> cases h
      · exact ⟨.rolledBack session ‹_›, rfl⟩
      · exact ⟨.rolledBefore session ‹_›, rfl⟩
  | rejectMetric why => cases h; exact ⟨.metric why, rfl⟩
  | rejectCount why => cases h; exact ⟨.count why, rfl⟩
  | leaseOnce b =>
      simp only [exec] at h
      split at h
      · cases h
      · split at h <;> cases h
        · exact ⟨.onceTaken b _ ‹_› ‹_›, rfl⟩
        · exact ⟨.onceOver b, rfl⟩
  | leaseGauge b => cases h; exact ⟨.gauged b, rfl⟩
  | leaseEnd b =>
      simp only [exec] at h
      split at h <;> cases h
      exact ⟨.ended b _ ‹_›, rfl⟩
  | partOnce b p =>
      simp only [exec] at h
      split at h
      · cases h
      · split at h <;> cases h
        · exact ⟨.partTaken b p _ ‹_› ‹_›, rfl⟩
        · exact ⟨.partOver b p _ ‹_› ‹_›, rfl⟩
  | partAdd b p r => cases h; exact ⟨.added b p r, rfl⟩
  | partEnd b p =>
      simp only [exec] at h
      split at h <;> cases h
      exact ⟨.partEnded b p _ ‹_›, rfl⟩
  | acquired b => cases h
  | refused why count => cases h
  | released b first => cases h

/-- What the outside world can do. -/
inductive Happens (σ : Gate) : Gate → List Pc → Prop where
  | session (lim : ConcurrencyLimiter) :
      newConcurrencyLimiter σ.maxStreamsPerSession = .ok lim →
      Happens σ { σ with limiters := σ.limiters ++ [lim] } []
  | nilSession : Happens σ σ [.rejectMetric .global]
  | acquire (r : LimRef) : 1 ≤ r → r < σ.limiters.length →
      Happens σ σ [.load r .session]
  | nilLease : Happens σ σ [.released none false]
  | release (b : LeaseRef) : Happens σ σ [.leaseOnce b]

theorem outside_happens {σ σ' : Gate} {e : Op} {new : List Pc}
    (h : outside σ e = some (σ', new)) : Happens σ σ' new := by
  unfold outside at h
  split at h <;> (try split at h) <;>
    simp only [Option.some.injEq, Prod.mk.injEq, reduceCtorEq] at h
  all_goals obtain ⟨rfl, rfl⟩ := h
  all_goals first
    | exact Happens.session _ ‹_›
    | exact Happens.nilSession
    | exact Happens.acquire _ (And.left ‹_›) (And.right ‹_›)
    | exact Happens.nilLease
    | exact Happens.release _

/-! ## Small facts about the updates -/

section Updates

variable {σ : Gate} {r : LimRef} {b : LeaseRef} {l : BackendLease}

theorem part_setPart (l : BackendLease) (p q : Part) (c : ConcurrencyLease) :
    (l.setPart p c).part q = if p = q then c else l.part q := by
  cases p <;> cases q <;> rfl

theorem once_setPart (l : BackendLease) (p : Part) (c : ConcurrencyLease) :
    (l.setPart p c).once = l.once := by
  cases p <;> rfl

/-- The counter of a limiter. -/
def Gate.activeOf (σ : Gate) (r : LimRef) : Int :=
  match σ.limiters[r]? with
  | none => 0
  | some lim => lim.active

/-- The `sync.Once` of a lease. -/
def Gate.onceOf (σ : Gate) (b : LeaseRef) : Option Once :=
  (σ.leases[b]?).map BackendLease.once

theorem giveBack_leases (σ : Gate) (r : LimRef) : (σ.giveBack r).leases = σ.leases := by
  unfold Gate.giveBack
  split <;> rfl

theorem giveBack_length (σ : Gate) (r : LimRef) :
    (σ.giveBack r).limiters.length = σ.limiters.length := by
  unfold Gate.giveBack
  split
  · rfl
  · exact List.length_set

theorem giveBack_gauge (σ : Gate) (r : LimRef) :
    (σ.giveBack r).activeBackendStreams = σ.activeBackendStreams := by
  unfold Gate.giveBack
  split <;> rfl

/-- The counter of a limiter after one limiter was replaced. -/
theorem activeOf_set {lim : ConcurrencyLimiter} (h : σ.limiters[r]? = some lim)
    (lim' : ConcurrencyLimiter) (q : LimRef) :
    Gate.activeOf { σ with limiters := σ.limiters.set r lim' } q
      = if r = q then lim'.active else σ.activeOf q := by
  have hlt := (List.getElem?_eq_some_iff.mp h).1
  simp only [Gate.activeOf, List.getElem?_set]
  by_cases hrq : r = q
  · subst hrq
    simp only [if_true, if_pos hlt]
  · simp only [if_neg hrq]

theorem activeOf_giveBack (h : r < σ.limiters.length) (q : LimRef) :
    (σ.giveBack r).activeOf q = σ.activeOf q - if r = q then 1 else 0 := by
  have hlim : σ.limiters[r]? = some σ.limiters[r] := List.getElem?_eq_getElem h
  unfold Gate.giveBack
  rw [hlim]
  refine (activeOf_set hlim _ q).trans ?_
  by_cases hrq : r = q
  · subst hrq
    rw [if_pos rfl, if_pos rfl, Gate.activeOf, hlim]
  · rw [if_neg hrq, if_neg hrq, sub_zero]

theorem onceOf_setLease (h : σ.leases[b]? = some l) (l' : BackendLease) (d : LeaseRef) :
    (σ.setLease b l').onceOf d = if b = d then some l'.once else σ.onceOf d := by
  have hlt := (List.getElem?_eq_some_iff.mp h).1
  simp only [Gate.onceOf, Gate.setLease, List.getElem?_set]
  by_cases hbd : b = d
  · subst hbd
    simp only [if_true, if_pos hlt, Option.map_some]
  · simp only [if_neg hbd]

end Updates

/-! ## Limits and pointers -/

/-- The bound of a limiter. -/
def bound (maxGlobal maxSession : Int) (r : LimRef) : Int :=
  if r = 0 then maxGlobal else maxSession

/-- A lease of a session that nobody has begun to release. -/
def Held (σ : Gate) (c : ConcurrencyLease) : Prop :=
  c.once = .fresh ∧ 1 ≤ c.limiter ∧ c.limiter < σ.limiters.length

/-- No counter is above its bound, and leases point to limiters of their kind. -/
structure Sound (maxGlobal maxSession : Int) (σ : Gate) : Prop where
  gate : 1 ≤ σ.limiters.length
  perSession : σ.maxStreamsPerSession = maxSession
  bounded : ∀ r lim, σ.limiters[r]? = some lim →
    lim.maximum = bound maxGlobal maxSession r ∧ lim.active ≤ lim.maximum
  pointers : ∀ l ∈ σ.leases, l.global.limiter = 0 ∧ 1 ≤ l.session.limiter ∧
    l.session.limiter < σ.limiters.length

/-- What a thread knows of the limiter it is at and the lease it has in hand. -/
def Knows (maxGlobal maxSession : Int) (_ : Nat) (σ : Gate) : Pc → Prop
  | .load r .session => 1 ≤ r ∧ r < σ.limiters.length
  | .load r (.global lease) => r = 0 ∧ Held σ lease
  | .swap r current .session => 1 ≤ r ∧ r < σ.limiters.length ∧ current < maxSession
  | .swap r current (.global lease) => r = 0 ∧ current < maxGlobal ∧ Held σ lease
  | .opened session global => Held σ session ∧ global = { limiter := 0 }
  | .rollBack session => Held σ session
  | .partAdd _ _ r => r < σ.limiters.length
  | _ => True

section Limits

variable {maxGlobal maxSession : Int} {i : Nat} {σ σ' : Gate} {t t' : Pc}

/-- What a thread knows stays true, because limiters only become more. -/
theorem knows_mono (hlen : σ.limiters.length ≤ σ'.limiters.length)
    (h : Knows maxGlobal maxSession i σ t) : Knows maxGlobal maxSession i σ' t := by
  have held : ∀ {c}, Held σ c → Held σ' c :=
    fun h => ⟨h.1, h.2.1, Nat.lt_of_lt_of_le h.2.2 hlen⟩
  cases t with
  | load r k =>
      cases k with
      | session => exact ⟨h.1, Nat.lt_of_lt_of_le h.2 hlen⟩
      | global lease => exact ⟨h.1, held h.2⟩
  | swap r current k =>
      cases k with
      | session => exact ⟨h.1, Nat.lt_of_lt_of_le h.2.1 hlen, h.2.2⟩
      | global lease => exact ⟨h.1, h.2.1, held h.2.2⟩
  | opened session global => exact ⟨held h.1, h.2⟩
  | rollBack session => exact held h
  | partAdd b p r => exact Nat.lt_of_lt_of_le h hlen
  | _ => trivial

theorem moves_length (h : Moves σ t σ' t') : σ'.limiters.length = σ.limiters.length := by
  cases h with
  | swapped r k lim _ => exact List.length_set
  | rolledBack session _ => exact giveBack_length σ _
  | added b p r => exact giveBack_length σ r
  | _ => rfl

/-- A replaced limiter that keeps its bound keeps the limits. -/
theorem bounded_set {r : LimRef} {lim lim' : ConcurrencyLimiter}
    (h : Sound maxGlobal maxSession σ) (hlim : σ.limiters[r]? = some lim)
    (hmax : lim'.maximum = lim.maximum) (hact : lim'.active ≤ lim.maximum) :
    ∀ q x, (σ.limiters.set r lim')[q]? = some x →
      x.maximum = bound maxGlobal maxSession q ∧ x.active ≤ x.maximum := by
  intro q x hx
  rw [List.getElem?_set] at hx
  by_cases hrq : r = q
  · subst hrq
    rw [if_pos rfl, if_pos (List.getElem?_eq_some_iff.mp hlim).1] at hx
    obtain rfl := Option.some.inj hx
    exact ⟨hmax.trans (h.bounded r lim hlim).1, hmax ▸ hact⟩
  · rw [if_neg hrq] at hx
    exact h.bounded q x hx

theorem sound_giveBack (h : Sound maxGlobal maxSession σ) (r : LimRef) :
    Sound maxGlobal maxSession (σ.giveBack r) := by
  unfold Gate.giveBack
  cases hlim : σ.limiters[r]? with
  | none => exact h
  | some lim =>
      have hle := (h.bounded r lim hlim).2
      refine ⟨?_, h.perSession, bounded_set h hlim rfl (by simp only; omega), ?_⟩
      · exact le_of_le_of_eq h.gate List.length_set.symm
      · simp only [List.length_set]
        exact h.pointers

/-- A lease replaced by one with the same pointers. -/
theorem sound_setLease (h : Sound maxGlobal maxSession σ) {b : LeaseRef}
    {l l' : BackendLease} (hl : σ.leases[b]? = some l)
    (hsame : ∀ p, (l'.part p).limiter = (l.part p).limiter) :
    Sound maxGlobal maxSession (σ.setLease b l') := by
  refine ⟨h.gate, h.perSession, h.bounded, ?_⟩
  intro x hx
  rcases List.mem_or_eq_of_mem_set hx with hold | rfl
  · exact h.pointers x hold
  · obtain ⟨h1, h2, h3⟩ := h.pointers l (List.mem_of_getElem? hl)
    have hg : x.global.limiter = l.global.limiter := hsame .global
    have hs : x.session.limiter = l.session.limiter := hsame .session
    rw [hg, hs]
    exact ⟨h1, h2, h3⟩

theorem limiter_setPart (l : BackendLease) (p : Part) (o : Once) (q : Part) :
    ((l.setPart p { l.part p with once := o }).part q).limiter = (l.part q).limiter := by
  rw [part_setPart]
  split
  · rename_i hpq
    rw [hpq]
  · rfl

theorem sound_step (h : Moves σ t σ' t') (hI : Sound maxGlobal maxSession σ)
    (hL : Knows maxGlobal maxSession i σ t) : Sound maxGlobal maxSession σ' := by
  cases h with
  | swapped r k lim hlim =>
      have hmax := (hI.bounded r lim hlim).1
      have hroom : lim.active + 1 ≤ lim.maximum := by
        rw [hmax, bound]
        cases k with
        | session =>
            rw [if_neg (Nat.one_le_iff_ne_zero.mp hL.1)]
            exact hL.2.2
        | global lease =>
            rw [if_pos hL.1]
            exact hL.2.1
      refine ⟨?_, hI.perSession, bounded_set hI hlim rfl hroom, ?_⟩
      · exact le_of_le_of_eq hI.gate List.length_set.symm
      · simp only [List.length_set]
        exact hI.pointers
  | opened session global =>
      refine ⟨hI.gate, hI.perSession, hI.bounded, ?_⟩
      intro l hl
      rcases List.mem_append.mp hl with hold | hlast
      · exact hI.pointers l hold
      · obtain ⟨⟨-, h1, h2⟩, hg⟩ := hL
        rw [List.mem_singleton.mp hlast, hg]
        exact ⟨rfl, h1, h2⟩
  | rolledBack session _ => exact sound_giveBack hI _
  | added b p r => exact sound_giveBack hI r
  | onceTaken b l hl _ => exact sound_setLease hI hl fun p => (by cases p <;> rfl)
  | ended b l hl => exact sound_setLease hI hl fun p => (by cases p <;> rfl)
  | partTaken b p l hl _ => exact sound_setLease hI hl (limiter_setPart l p .running)
  | partEnded b p l hl => exact sound_setLease hI hl (limiter_setPart l p .finished)
  | metric why | count why | gauged b => exact ⟨hI.gate, hI.perSession, hI.bounded, hI.pointers⟩
  | _ => exact hI

theorem knows_step (h : Moves σ t σ' t') (hI : Sound maxGlobal maxSession σ)
    (hL : Knows maxGlobal maxSession i σ t) : Knows maxGlobal maxSession i σ' t' := by
  cases h with
  | full r k =>
      cases k with
      | session => trivial
      | global lease => exact hL.2
  | loaded r k lim hlim hlt =>
      rw [(hI.bounded r lim hlim).1, bound] at hlt
      cases k with
      | session =>
          rw [if_neg (Nat.one_le_iff_ne_zero.mp hL.1)] at hlt
          exact ⟨hL.1, hL.2, hlt⟩
      | global lease =>
          rw [if_pos hL.1] at hlt
          exact ⟨hL.1, hlt, hL.2⟩
  | swapped r k lim _ =>
      refine knows_mono (σ := σ) (le_of_eq List.length_set.symm) ?_
      cases k with
      | session => exact ⟨rfl, rfl, hL.1, hL.2.1⟩
      | global lease =>
          obtain ⟨rfl, -, hheld⟩ := hL
          exact ⟨hheld, rfl⟩
  | missed r current k =>
      cases k with
      | session => exact ⟨hL.1, hL.2.1⟩
      | global lease => exact ⟨hL.1, hL.2.2⟩
  | partTaken b p l hl _ =>
      obtain ⟨h1, -, h3⟩ := hI.pointers l (List.mem_of_getElem? hl)
      cases p with
      | session => exact h3
      | global =>
          show l.global.limiter < _
          rw [h1]
          exact hI.gate
  | partOver b p l _ _ => cases p <;> trivial
  | partEnded b p l _ => cases p <;> trivial
  | _ => trivial

end Limits

theorem newConcurrencyLimiter_ok {maximum : Int} {lim : ConcurrencyLimiter}
    (h : newConcurrencyLimiter maximum = .ok lim) :
    1 ≤ maximum ∧ lim = { maximum := maximum } := by
  unfold newConcurrencyLimiter at h
  split at h
  · cases h
  · cases h
    exact ⟨by omega, rfl⟩

/-- The two bounds of a gate. -/
theorem newBackendGate_ok {maxGlobal maxSession : Int} {registry : Bool} {g : Gate}
    (h : newBackendGate maxGlobal maxSession registry = .ok g) :
    1 ≤ maxSession ∧ maxSession ≤ maxGlobal ∧
      g = { limiters := [{ maximum := maxGlobal }], maxStreamsPerSession := maxSession } := by
  unfold newBackendGate at h
  split at h
  · cases h
  · rename_i global hglobal
    obtain ⟨-, rfl⟩ := newConcurrencyLimiter_ok hglobal
    split at h
    · cases h
    · rename_i hrange
      split at h
      · cases h
      · cases h
        exact ⟨by omega, by omega, rfl⟩

section Reached

variable {maxGlobal maxSession : Int} {registry : Bool} {g : Gate} {s : GatePool}

/-- **LIMITS**: under every interleaving no counter is above its bound. -/
theorem sound (hg : newBackendGate maxGlobal maxSession registry = .ok g)
    (h : GateReach g s) :
    Annotated (Sound maxGlobal maxSession) (Knows maxGlobal maxSession) s := by
  obtain ⟨h1, h2, rfl⟩ := newBackendGate_ok hg
  refine Machine.owickiGries (M := gateMachine) (J := fun _ => True) (fun _ _ => trivial)
    (Sound maxGlobal maxSession) (Knows maxGlobal maxSession) ?_ ?_ ?_ ?_ h
  · refine ⟨⟨le_refl _, rfl, ?_, fun l hl => (by cases hl)⟩, fun i t ht => (by cases ht)⟩
    intro r lim hlim
    cases r with
    | zero =>
        obtain rfl := Option.some.inj hlim
        exact ⟨rfl, by show (0 : Int) ≤ maxGlobal; omega⟩
    | succ r => cases hlim
  · intro s i t a σ' t' new _ _ _ he hI hL
    obtain ⟨hm, rfl⟩ := exec_moves he
    exact ⟨sound_step hm hI hL, knows_step hm hI hL, fun n u hu => (by cases hu)⟩
  · intro s i j t u a σ' t' new _ _ _ _ he _ _ hu
    exact knows_mono (moves_length (exec_moves he).1).ge hu
  · intro s e σ' new _ _ he hI
    cases outside_happens he with
    | session lim hlim =>
        have hlen : s.shared.limiters.length ≤ (s.shared.limiters ++ [lim]).length := by
          rw [List.length_append]
          exact Nat.le_add_right ..
        refine ⟨⟨le_trans hI.gate hlen, hI.perSession, ?_, ?_⟩, fun n u hu => (by cases hu),
          fun j u _ hu => knows_mono hlen hu⟩
        · intro r x hx
          by_cases hlt : r < s.shared.limiters.length
          · rw [List.getElem?_append_left hlt] at hx
            exact hI.bounded r x hx
          · -- the new limiter is not the gate's own
            rw [List.getElem?_append_right (not_lt.mp hlt)] at hx
            obtain ⟨hpos, rfl⟩ := newConcurrencyLimiter_ok hlim
            rw [List.mem_singleton.mp (List.mem_of_getElem? hx), bound,
              if_neg (Nat.one_le_iff_ne_zero.mp (le_trans hI.gate (not_lt.mp hlt)))]
            exact ⟨hI.perSession, le_trans zero_le_one hpos⟩
        · intro l hl
          obtain ⟨p1, p2, p3⟩ := hI.pointers l hl
          exact ⟨p1, p2, Nat.lt_of_lt_of_le p3 hlen⟩
    | nilSession =>
        exact ⟨hI, fun n u hu => (by rw [List.mem_singleton.mp hu]; trivial), fun j u _ hu => hu⟩
    | acquire r hr1 hr2 =>
        exact ⟨hI, fun n u hu => (by rw [List.mem_singleton.mp hu]; exact ⟨hr1, hr2⟩),
          fun j u _ hu => hu⟩
    | nilLease =>
        exact ⟨hI, fun n u hu => (by rw [List.mem_singleton.mp hu]; trivial), fun j u _ hu => hu⟩
    | release b =>
        exact ⟨hI, fun n u hu => (by rw [List.mem_singleton.mp hu]; trivial), fun j u _ hu => hu⟩

end Reached

/-! ## The calls of `Release` on a lease -/

/-- The thread is inside the function of the `sync.Once` of lease `b`. -/
def inside (b : LeaseRef) : Pc → Nat
  | .partOnce d _ => if d = b then 1 else 0
  | .partAdd d _ _ => if d = b then 1 else 0
  | .partEnd d _ => if d = b then 1 else 0
  | .leaseGauge d => if d = b then 1 else 0
  | .leaseEnd d => if d = b then 1 else 0
  | _ => 0

theorem inside_resume (b d : LeaseRef) (p : Part) :
    inside b (p.resume d) = if d = b then 1 else 0 := by
  cases p <;> rfl

theorem inside_failed (b : LeaseRef) (k : Caller) : inside b k.failed = 0 := by
  cases k <;> rfl

theorem inside_took (b : LeaseRef) (r : LimRef) (k : Caller) : inside b (k.took r) = 0 := by
  cases k <;> rfl

/-- A lease is being released. -/
def Gate.running (b : LeaseRef) (σ : Gate) : Nat :=
  if σ.onceOf b = some .running then 1 else 0

/-- The leases after one more was given out. -/
theorem onceOf_append (σ : Gate) (l : BackendLease) (n : Int) (b : LeaseRef) :
    Gate.onceOf { σ with activeBackendStreams := n, leases := σ.leases ++ [l] } b
      = if b = σ.leases.length then some l.once else σ.onceOf b := by
  simp only [Gate.onceOf, getElem?_snoc]
  split <;> rfl

/-- What a section does to the `sync.Once` of lease `b`, and with what thread. -/
theorem moves_once {σ σ' : Gate} {t t' : Pc} (h : Moves σ t σ' t') (b : LeaseRef) :
    (inside b t' = inside b t ∧ (σ'.onceOf b = σ.onceOf b ∨
        σ.onceOf b = none ∧ σ'.onceOf b = some .fresh)) ∨
      (inside b t = 0 ∧ inside b t' = 1 ∧ t = .leaseOnce b ∧ t' = .partOnce b .session ∧
        σ.onceOf b = some .fresh ∧ σ'.onceOf b = some .running) ∨
      (inside b t = 1 ∧ inside b t' = 0 ∧ t = .leaseEnd b ∧
        t' = .released (some b) true ∧ σ'.onceOf b = some .finished) := by
  cases h with
  | full r k => exact Or.inl ⟨inside_failed b k, Or.inl rfl⟩
  | swapped r k lim _ => exact Or.inl ⟨inside_took b r k, Or.inl rfl⟩
  | opened session global =>
      refine Or.inl ⟨rfl, ?_⟩
      rw [onceOf_append]
      by_cases hb : b = σ.leases.length
      · rw [if_pos hb, Gate.onceOf, List.getElem?_eq_none (le_of_eq hb.symm)]
        exact Or.inr ⟨rfl, rfl⟩
      · rw [if_neg hb]
        exact Or.inl rfl
  | rolledBack session _ =>
      exact Or.inl ⟨rfl, Or.inl (by rw [Gate.onceOf, giveBack_leases]; rfl)⟩
  | added d p r => exact Or.inl ⟨rfl, Or.inl (by rw [Gate.onceOf, giveBack_leases]; rfl)⟩
  | onceTaken d l hl hfresh =>
      rw [onceOf_setLease hl]
      by_cases hdb : d = b
      · subst hdb
        refine Or.inr (Or.inl ⟨rfl, if_pos rfl, rfl, rfl, ?_, if_pos rfl⟩)
        rw [Gate.onceOf, hl, Option.map_some, hfresh]
      · rw [if_neg hdb]
        exact Or.inl ⟨if_neg hdb, Or.inl rfl⟩
  | partTaken d p l hl _ =>
      refine Or.inl ⟨rfl, Or.inl ?_⟩
      rw [onceOf_setLease hl, once_setPart]
      split
      · rename_i hdb
        rw [← hdb, Gate.onceOf, hl]
        rfl
      · rfl
  | partOver d p l _ _ => exact Or.inl ⟨inside_resume b d p, Or.inl rfl⟩
  | partEnded d p l hl =>
      refine Or.inl ⟨inside_resume b d p, Or.inl ?_⟩
      rw [onceOf_setLease hl, once_setPart]
      split
      · rename_i hdb
        rw [← hdb, Gate.onceOf, hl]
        rfl
      · rfl
  | ended d l hl =>
      rw [onceOf_setLease hl]
      by_cases hdb : d = b
      · subst hdb
        exact Or.inr (Or.inr ⟨if_pos rfl, rfl, rfl, rfl, if_pos rfl⟩)
      · rw [if_neg hdb]
        exact Or.inl ⟨(if_neg hdb).symm, Or.inl rfl⟩
  | _ => exact Or.inl ⟨rfl, Or.inl rfl⟩

theorem happens_leases {σ σ' : Gate} {new : List Pc} (h : Happens σ σ' new) :
    σ'.leases = σ.leases ∧ σ'.activeBackendStreams = σ.activeBackendStreams := by
  cases h <;> exact ⟨rfl, rfl⟩

theorem happens_outside {σ σ' : Gate} {new : List Pc} (h : Happens σ σ' new) (b : LeaseRef) :
    load (inside b) new = 0 := by
  cases h <;> rfl

/-- **ONE CALL INSIDE**: under every interleaving one thread is inside a lease
    that is being released, and none inside any other. -/
theorem one_inside {g : Gate} (hg : g.leases = []) {s : GatePool} (h : GateReach g s)
    (b : LeaseRef) : load (inside b) s.threads = s.shared.running b := by
  have hbal := Machine.reach_balances (M := gateMachine) (J := fun _ => True)
    (fun _ _ => trivial) (fun _ => 0) (inside b) (Gate.running b) ?_ ?_ ?_ h
  · simpa using hbal
  · simp [Gate.running, Gate.onceOf, hg]
  · intro s i t a σ' t' new _ ht hI he
    obtain ⟨hm, rfl⟩ := exec_moves he
    have hle := le_load (inside b) ht
    rw [load_nil]
    rcases moves_once hm b with ⟨hin, hsame | ⟨hnone, hfresh⟩⟩ |
      ⟨h0, h1, -, -, hfresh, hrun⟩ | ⟨h1, h0, -, -, hfin⟩
    · rw [hin, Gate.running, Gate.running, hsame]
      omega
    · rw [hin, Gate.running, Gate.running, hnone, hfresh, if_neg (by decide),
        if_neg (by decide)]
    · rw [h0, h1, Gate.running, Gate.running, hfresh, hrun, if_neg (by decide), if_pos rfl]
    · -- the thread at the end is the one that is inside
      have hle1 : s.shared.running b ≤ 1 := by
        unfold Gate.running
        split <;> omega
      rw [h0, h1, show σ'.running b = 0 by rw [Gate.running, hfin, if_neg (by decide)]]
      omega
  · intro s e σ' new _ he
    have hh := outside_happens he
    rw [happens_outside hh, Gate.running, Gate.running, Gate.onceOf, Gate.onceOf,
      (happens_leases hh).1]

/-- A thread inside a lease finds it being released, and is the only one there. -/
theorem running_of_inside {g : Gate} (hg : g.leases = []) {s : GatePool}
    (h : GateReach g s) {i : Nat} {t : Pc} (ht : s.threads[i]? = some t) {b : LeaseRef}
    (hin : inside b t = 1) :
    s.shared.onceOf b = some .running ∧ load (inside b) s.threads ≤ inside b t := by
  have hone := one_inside hg h b
  have hle := le_load (inside b) ht
  rw [Gate.running] at hone
  by_cases hrun : s.shared.onceOf b = some .running
  · rw [if_pos hrun] at hone
    exact ⟨hrun, by omega⟩
  · rw [if_neg hrun] at hone
    omega

/-! ## The inner leases -/

/-- Which of the two inner leases nobody has begun to release. -/
def BackendLease.freshness (l : BackendLease) : Bool × Bool :=
  (l.session.once = .fresh, l.global.once = .fresh)

/-- How far a thread inside a lease has come with the two inner leases. -/
def Pc.progress : Pc → Option (LeaseRef × Bool × Bool)
  | .partOnce b .session => some (b, true, true)
  | .partAdd b .session _ => some (b, false, true)
  | .partEnd b .session => some (b, false, true)
  | .partOnce b .global => some (b, false, true)
  | .partAdd b .global _ => some (b, false, false)
  | .partEnd b .global => some (b, false, false)
  | .leaseGauge b => some (b, false, false)
  | .leaseEnd b => some (b, false, false)
  | _ => none

/-- A lease that nobody has begun to release is whole, and one that was released
    has released both inner leases. -/
def Whole (σ : Gate) : Prop :=
  ∀ l ∈ σ.leases, (l.once = .fresh → l.freshness = (true, true)) ∧
    (l.once = .finished → l.freshness = (false, false))

/-- A thread inside a lease finds the inner leases as it left them. -/
def Inner (_ : Nat) (σ : Gate) (t : Pc) : Prop :=
  ∀ b x, t.progress = some (b, x) → (σ.leases[b]?).map BackendLease.freshness = some x

theorem inside_of_progress {b : LeaseRef} {x : Bool × Bool} {t : Pc}
    (h : t.progress = some (b, x)) : inside b t = 1 := by
  unfold Pc.progress at h
  split at h <;> cases h <;> exact if_pos rfl

theorem freshness_session (l : BackendLease) {c : ConcurrencyLease} (h : c.once ≠ .fresh) :
    (l.setPart .session c).freshness = (false, l.freshness.2) :=
  Prod.ext (decide_eq_false h) rfl

theorem freshness_global (l : BackendLease) {c : ConcurrencyLease} (h : c.once ≠ .fresh) :
    (l.setPart .global c).freshness = (l.freshness.1, false) :=
  Prod.ext rfl (decide_eq_false h)

section Inner

variable {maxGlobal maxSession : Int} {i : Nat} {σ σ' : Gate} {t t' : Pc}

/-- Nobody touches the inner leases of a lease from outside. -/
theorem moves_freshness (h : Moves σ t σ' t') {b : LeaseRef} (hb : inside b t = 0)
    {x : Bool × Bool} (hx : (σ.leases[b]?).map BackendLease.freshness = some x) :
    (σ'.leases[b]?).map BackendLease.freshness = some x := by
  -- a lease whose inner leases stay, and a lease other than `b`
  have hset : ∀ (d : LeaseRef) (l l' : BackendLease), σ.leases[d]? = some l →
      (d = b → l'.freshness = l.freshness) →
      ((σ.setLease d l').leases[b]?).map BackendLease.freshness = some x := by
    intro d l l' hl hsame
    rw [Gate.setLease, List.getElem?_set]
    by_cases hdb : d = b
    · rw [if_pos hdb, if_pos (List.getElem?_eq_some_iff.mp hl).1, Option.map_some, hsame hdb]
      rw [← hdb, hl] at hx
      exact hx
    · rw [if_neg hdb]
      exact hx
  have hother : ∀ {d : LeaseRef}, (if d = b then 1 else 0) = 0 → d ≠ b := by
    intro d hd hdb
    rw [if_pos hdb] at hd
    cases hd
  cases h with
  | opened session global =>
      rw [getElem?_snoc, if_neg]
      · exact hx
      · rintro rfl
        rw [List.getElem?_eq_none (Nat.le_refl _)] at hx
        cases hx
  | rolledBack session _ => rw [giveBack_leases]; exact hx
  | added d p r => rw [giveBack_leases]; exact hx
  | onceTaken d l hl _ => exact hset d l _ hl fun _ => rfl
  | partTaken d p l hl _ => exact hset d l _ hl fun hdb => absurd hdb (hother hb)
  | partEnded d p l hl => exact hset d l _ hl fun hdb => absurd hdb (hother hb)
  | ended d l hl => exact hset d l _ hl fun _ => rfl
  | _ => exact hx

/-- A lease replaced by one for which the rule holds. -/
theorem whole_setLease (h : Whole σ) {b : LeaseRef} {l' : BackendLease}
    (h1 : l'.once = .fresh → l'.freshness = (true, true))
    (h2 : l'.once = .finished → l'.freshness = (false, false)) :
    Whole (σ.setLease b l') := by
  intro x hx
  rcases List.mem_or_eq_of_mem_set hx with hold | rfl
  · exact h x hold
  · exact ⟨h1, h2⟩

theorem whole_step (h : Moves σ t σ' t') (hI : Whole σ) (hL : Inner i σ t)
    (hK : Knows maxGlobal maxSession i σ t)
    (hrun : ∀ b, inside b t = 1 → σ.onceOf b = some .running) : Whole σ' := by
  have running : ∀ {b : LeaseRef} {l : BackendLease}, σ.leases[b]? = some l →
      inside b t = 1 → l.once = .running := by
    intro b l hl hin
    have := hrun b hin
    rw [Gate.onceOf, hl] at this
    exact Option.some.inj this
  cases h with
  | opened session global =>
      intro l hl
      rcases List.mem_append.mp hl with hold | hlast
      · exact hI l hold
      · obtain ⟨⟨hs, -, -⟩, hg⟩ := hK
        rw [List.mem_singleton.mp hlast]
        refine ⟨fun _ => ?_, fun hf => (by cases hf)⟩
        simp [BackendLease.freshness, hs, hg]
  | rolledBack session _ =>
      unfold Whole
      rw [giveBack_leases]
      exact hI
  | added b p r =>
      unfold Whole
      rw [giveBack_leases]
      exact hI
  | onceTaken b l hl _ =>
      exact whole_setLease hI (fun hf => (by cases hf)) (fun hf => (by cases hf))
  | partTaken b p l hl _ =>
      have hr := running hl (if_pos rfl)
      refine whole_setLease hI ?_ ?_ <;> rw [once_setPart, hr] <;> exact fun hf => (by cases hf)
  | partEnded b p l hl =>
      have hr := running hl (if_pos rfl)
      refine whole_setLease hI ?_ ?_ <;> rw [once_setPart, hr] <;> exact fun hf => (by cases hf)
  | ended b l hl =>
      refine whole_setLease hI (fun hf => (by cases hf)) fun _ => ?_
      have hfresh := hL b (false, false) rfl
      rw [hl] at hfresh
      exact Option.some.inj hfresh
  | _ => exact hI

theorem inner_step (h : Moves σ t σ' t') (hI : Whole σ) (hL : Inner i σ t) :
    Inner i σ' t' := by
  have look : ∀ {b : LeaseRef} {l : BackendLease} {x : Bool × Bool},
      σ.leases[b]? = some l → t.progress = some (b, x) → l.freshness = x := by
    intro b l x hl ht
    have := hL b x ht
    rw [hl] at this
    exact Option.some.inj this
  have hset : ∀ {b : LeaseRef} {l : BackendLease} (l' : BackendLease),
      σ.leases[b]? = some l →
      ((σ.setLease b l').leases[b]?).map BackendLease.freshness = some l'.freshness := by
    intro b l l' hl
    rw [Gate.setLease, List.getElem?_set, if_pos rfl,
      if_pos (List.getElem?_eq_some_iff.mp hl).1, Option.map_some]
  intro d x hx
  cases h with
  | full r k => cases k <;> cases hx
  | swapped r k lim _ => cases k <;> cases hx
  | onceTaken b l hl hfresh =>
      cases hx
      rw [hset _ hl]
      exact congrArg some ((hI l (List.mem_of_getElem? hl)).1 hfresh)
  | partTaken b p l hl hfresh =>
      cases p with
      | session =>
          cases hx
          rw [hset _ hl, freshness_session l (fun hf => (by cases hf)), look hl rfl]
      | global =>
          cases hx
          rw [hset _ hl, freshness_global l (fun hf => (by cases hf)), look hl rfl]
  | partOver b p l hl hfin =>
      -- the inner lease is fresh, so this branch is not taken
      cases p with
      | session =>
          have hf := look hl rfl
          simp only [BackendLease.freshness, Prod.mk.injEq, decide_eq_true_eq] at hf
          rw [show (l.part .session).once = l.session.once from rfl, hf.1] at hfin
          cases hfin
      | global =>
          have hf := look hl rfl
          simp only [BackendLease.freshness, Prod.mk.injEq, decide_eq_true_eq] at hf
          rw [show (l.part .global).once = l.global.once from rfl, hf.2] at hfin
          cases hfin
  | added b p r =>
      rw [giveBack_leases]
      cases p <;> cases hx <;> exact hL _ _ rfl
  | partEnded b p l hl =>
      cases p with
      | session =>
          cases hx
          rw [hset _ hl, freshness_session l (fun hf => (by cases hf)), look hl rfl]
      | global =>
          cases hx
          rw [hset _ hl, freshness_global l (fun hf => (by cases hf)), look hl rfl]
  | gauged b =>
      cases hx
      exact hL _ _ rfl
  | _ => cases hx

end Inner

/-- **INNER LEASES**: under every interleaving a thread finds the inner leases as
    it left them. -/
theorem inner {maxGlobal maxSession : Int} {registry : Bool} {g : Gate}
    (hg : newBackendGate maxGlobal maxSession registry = .ok g) {s : GatePool}
    (h : GateReach g s) : Annotated Whole Inner s := by
  have hnil : g.leases = [] := by
    obtain ⟨-, -, rfl⟩ := newBackendGate_ok hg
    rfl
  refine Machine.owickiGries (M := gateMachine) (J := GateReach g) (fun s hs => hs)
    Whole Inner ?_ ?_ ?_ ?_ h
  · refine ⟨fun l hl => ?_, fun i t ht => (by cases ht)⟩
    rw [show (⟨g, []⟩ : GatePool).shared.leases = [] from hnil] at hl
    cases hl
  · intro s i t a σ' t' new hr ht _ he hI hL
    obtain ⟨hm, rfl⟩ := exec_moves he
    have hrun := fun b hin => (running_of_inside hnil hr ht (b := b) hin).1
    exact ⟨whole_step hm hI hL ((sound hg hr).2 i t ht) hrun, inner_step hm hI hL,
      fun n u hu => (by cases hu)⟩
  · intro s i j t u a σ' t' new hr hij ht hu he _ _ hLu b x hx
    have hone := one_inside hnil hr b
    have htwo := add_le_load (inside b) hij ht hu
    have hin := inside_of_progress hx
    refine moves_freshness (exec_moves he).1 ?_ (hLu b x hx)
    have hle : s.shared.running b ≤ 1 := by
      unfold Gate.running
      split <;> omega
    omega
  · intro s e σ' new _ _ he hI
    have hh := outside_happens he
    have hleases := (happens_leases hh).1
    refine ⟨?_, ?_, ?_⟩
    · unfold Whole
      rw [hleases]
      exact hI
    · intro n u hu b x hx
      cases hh with
      | session lim _ => cases hu
      | _ => rw [List.mem_singleton.mp hu] at hx; cases hx
    · intro j u _ hLu b x hx
      rw [hleases]
      exact hLu b x hx

/-! ## The counters of the limiters -/

/-- The slot of limiter `r` that a lease holds. -/
def ConcurrencyLease.slot (r : LimRef) (c : ConcurrencyLease) : Nat :=
  if c.once = .fresh ∧ c.limiter = r then 1 else 0

/-- The slots of limiter `r` that a lease holds. -/
def BackendLease.slots (r : LimRef) (l : BackendLease) : Nat :=
  l.session.slot r + l.global.slot r

/-- The slots of limiter `r` that a thread has in hand: it took them and they are
    in no lease, or it is about to give them back. -/
def Pc.slots (r : LimRef) : Pc → Nat
  | .load _ (.global lease) => lease.slot r
  | .swap _ _ (.global lease) => lease.slot r
  | .opened session global => session.slot r + global.slot r
  | .rollBack session => session.slot r
  | .partAdd _ _ q => if q = r then 1 else 0
  | _ => 0

theorem slot_fresh {c : ConcurrencyLease} (h : c.once = .fresh) (r : LimRef) :
    c.slot r = if c.limiter = r then 1 else 0 := by
  simp only [ConcurrencyLease.slot, h, true_and]

theorem slot_begun {c : ConcurrencyLease} (h : c.once ≠ .fresh) (r : LimRef) :
    c.slot r = 0 :=
  if_neg fun hc => h hc.1

theorem slots_failed (r q : LimRef) (k : Caller) :
    (k.failed).slots r = (Pc.load q k).slots r := by
  cases k <;> rfl

theorem slots_took (r q : LimRef) (n : Int) (k : Caller) :
    (k.took q).slots r = (Pc.swap q n k).slots r + if q = r then 1 else 0 := by
  cases k with
  | session => exact (slot_fresh rfl r).trans (Nat.zero_add _).symm
  | global lease => exact congrArg (lease.slot r + ·) (slot_fresh rfl r)

theorem slots_resume (r : LimRef) (b : LeaseRef) (p : Part) : (p.resume b).slots r = 0 := by
  cases p <;> rfl

theorem slots_setPart (r : LimRef) (l : BackendLease) (p : Part) (c : ConcurrencyLease) :
    (l.setPart p c).slots r + (l.part p).slot r = l.slots r + c.slot r := by
  cases p <;> simp only [BackendLease.slots, BackendLease.setPart, BackendLease.part] <;> omega

/-- An inner lease that begins to be released loses its slot. -/
theorem slots_taken (r : LimRef) {l : BackendLease} {p : Part} {c : ConcurrencyLease}
    (hfresh : (l.part p).once = .fresh) (hc : c.once ≠ .fresh) :
    (l.setPart p c).slots r + (if (l.part p).limiter = r then 1 else 0) = l.slots r := by
  rw [← slot_fresh hfresh, slots_setPart, slot_begun hc, Nat.add_zero]

/-- An inner lease that is being released has no slot to lose. -/
theorem slots_ended (r : LimRef) {l : BackendLease} {p : Part} {c : ConcurrencyLease}
    (hbegun : (l.part p).once ≠ .fresh) (hc : c.once ≠ .fresh) :
    (l.setPart p c).slots r = l.slots r := by
  have := slots_setPart r l p c
  rwa [slot_begun hbegun, slot_begun hc] at this

/-- At the end of its release an inner lease is not fresh. -/
theorem begun_of_inner {i : Nat} {σ : Gate} {b : LeaseRef} {p : Part}
    (h : Inner i σ (.partEnd b p)) {l : BackendLease} (hl : σ.leases[b]? = some l) :
    (l.part p).once ≠ .fresh := by
  cases p with
  | session =>
      have hf := h b (false, true) rfl
      rw [hl] at hf
      exact of_decide_eq_false (congrArg Prod.fst (Option.some.inj hf))
  | global =>
      have hf := h b (false, false) rfl
      rw [hl] at hf
      exact of_decide_eq_false (congrArg Prod.snd (Option.some.inj hf))

/-- The counter of limiter `r` says what the leases hold and `n` threads have in
    hand. -/
def Gate.Counts (r : LimRef) (σ : Gate) (n : Nat) : Prop :=
  σ.activeOf r = ((load (BackendLease.slots r) σ.leases + n : Nat) : Int)

/-- A lease replaced by one that holds less by what the threads have more. -/
theorem counts_setLease {σ : Gate} {b : LeaseRef} {l l' : BackendLease}
    (hl : σ.leases[b]? = some l) {r : LimRef} {n n' : Nat}
    (hn : l'.slots r + n' = l.slots r + n) (hc : σ.Counts r n) :
    (σ.setLease b l').Counts r n' := by
  have hset := load_set (BackendLease.slots r) l' hl
  refine Eq.trans hc ?_
  simp only [Gate.setLease]
  omega

theorem counts_step {maxGlobal maxSession : Int} {i : Nat} {σ σ' : Gate} {t t' : Pc}
    (h : Moves σ t σ' t') (hK : Knows maxGlobal maxSession i σ t) (hL : Inner i σ t)
    {r : LimRef} {rest : Nat} (hc : σ.Counts r (t.slots r + rest)) :
    σ'.Counts r (t'.slots r + rest) := by
  unfold Gate.Counts at hc ⊢
  cases h with
  | full q k => rw [slots_failed r q k]; exact hc
  | loaded q k lim _ _ => cases k <;> exact hc
  | swapped q k lim hlim =>
      rw [activeOf_set hlim, slots_took r q lim.active k]
      by_cases hqr : q = r
      · rw [← hqr] at hc ⊢
        rw [Gate.activeOf, hlim] at hc
        simp only [if_true] at hc ⊢
        omega
      · rw [if_neg hqr, if_neg hqr]
        exact hc
  | missed q current k => cases k <;> exact hc
  | opened session global =>
      rw [load_append, load_cons, load_nil]
      refine hc.trans ?_
      simp only [Pc.slots, BackendLease.slots]
      omega
  | rolledBack session hfresh =>
      rw [activeOf_giveBack hK.2.2, giveBack_leases, hc]
      simp only [Pc.slots, slot_fresh hfresh]
      split <;> omega
  | rolledBefore session hbegun =>
      simp only [Pc.slots, slot_begun hbegun] at hc ⊢
      exact hc
  | onceTaken b l hl _ => exact counts_setLease hl rfl hc
  | partTaken b p l hl hfresh =>
      refine counts_setLease hl ?_ hc
      simp only [Pc.slots, Nat.zero_add]
      rw [← Nat.add_assoc, slots_taken r hfresh fun hf => (by cases hf)]
  | partOver b p l _ _ => rw [slots_resume]; exact hc
  | added b p q =>
      rw [activeOf_giveBack hK, giveBack_leases, hc]
      simp only [Pc.slots]
      split <;> omega
  | partEnded b p l hl =>
      refine counts_setLease hl ?_ hc
      rw [slots_resume, slots_ended r (begun_of_inner hL hl) fun hf => (by cases hf)]
      rfl
  | ended b l hl => exact counts_setLease hl rfl hc
  | _ => exact hc

/-- What the outside world does holds no slot. -/
theorem counts_happens {σ σ' : Gate} {new : List Pc} (h : Happens σ σ' new) {r : LimRef}
    {n : Nat} (hc : σ.Counts r n) : σ'.Counts r (n + load (Pc.slots r) new) := by
  cases h with
  | session lim hlim =>
      obtain ⟨-, rfl⟩ := newConcurrencyLimiter_ok hlim
      refine Eq.trans ?_ hc
      simp only [Gate.activeOf, getElem?_snoc]
      by_cases hr : r = σ.limiters.length
      · rw [if_pos hr, List.getElem?_eq_none (le_of_eq hr.symm)]
      · rw [if_neg hr]
  | _ => exact hc

section Tallies

variable {maxGlobal maxSession : Int} {registry : Bool} {g : Gate} {s : GatePool}

/-- **COUNTERS**: under every interleaving a counter is the number of slots that
    the leases hold and the threads have in hand. -/
theorem counted (hg : newBackendGate maxGlobal maxSession registry = .ok g)
    (h : GateReach g s) (r : LimRef) :
    s.shared.Counts r (load (Pc.slots r) s.threads) := by
  refine Machine.reach_tallies (M := gateMachine) (J := GateReach g) (fun s hs => hs)
    (Pc.slots r) (Gate.Counts r) ?_ ?_ ?_ h
  · obtain ⟨-, -, rfl⟩ := newBackendGate_ok hg
    cases r with
    | zero => rfl
    | succ r => rfl
  · intro s i t a σ' t' new rest hr ht _ hc he
    obtain ⟨hm, rfl⟩ := exec_moves he
    exact counts_step hm ((sound hg hr).2 i t ht) ((inner hg hr).2 i t ht) hc
  · intro s e σ' new total _ hc he
    exact counts_happens (outside_happens he) hc

/-! ## The gauge -/

/-- Nobody has begun to release the lease. -/
def BackendLease.unreleased (l : BackendLease) : Bool := l.once = .fresh

/-- The thread is inside a lease and has not taken it off the gauge. -/
def Pc.onGauge : Pc → Nat
  | .partOnce _ _ => 1
  | .partAdd _ _ _ => 1
  | .partEnd _ _ => 1
  | .leaseGauge _ => 1
  | _ => 0

/-- The gauge says how many leases nobody has begun to release, and `n` threads
    still have to take theirs off. -/
def Gate.Gauges (σ : Gate) (n : Nat) : Prop :=
  σ.activeBackendStreams = ((σ.leases.countP BackendLease.unreleased + n : Nat) : Int)

theorem onGauge_failed (k : Caller) : (k.failed).onGauge = 0 := by
  cases k <;> rfl

theorem onGauge_took (r : LimRef) (k : Caller) : (k.took r).onGauge = 0 := by
  cases k <;> rfl

theorem onGauge_resume (b : LeaseRef) (p : Part) : (p.resume b).onGauge = 1 := by
  cases p <;> rfl

/-- A lease replaced by one that is less on the gauge by what the threads are
    more. -/
theorem gauges_setLease {σ : Gate} {b : LeaseRef} {l l' : BackendLease}
    (hl : σ.leases[b]? = some l) {n n' : Nat}
    (hn : one BackendLease.unreleased l' + n' = one BackendLease.unreleased l + n)
    (h : σ.Gauges n) : (σ.setLease b l').Gauges n' := by
  have hset := countP_set_add BackendLease.unreleased l' hl
  refine Eq.trans h ?_
  simp only [Gate.setLease]
  omega

theorem unreleased_fresh {l : BackendLease} (h : l.once = .fresh) :
    one BackendLease.unreleased l = 1 :=
  if_pos (decide_eq_true h)

theorem unreleased_begun {l : BackendLease} (h : l.once ≠ .fresh) :
    one BackendLease.unreleased l = 0 :=
  if_neg fun hc => h (of_decide_eq_true hc)

theorem gauges_step {σ σ' : Gate} {t t' : Pc} (h : Moves σ t σ' t')
    (hrun : ∀ b, inside b t = 1 → σ.onceOf b = some .running) {rest : Nat}
    (hg : σ.Gauges (t.onGauge + rest)) : σ'.Gauges (t'.onGauge + rest) := by
  cases h with
  | full r k => rw [onGauge_failed]; exact hg
  | swapped r k lim _ => rw [onGauge_took]; exact hg
  | opened session global =>
      unfold Gate.Gauges at hg ⊢
      rw [← load_one, load_append, load_one, load_cons, load_nil, unreleased_fresh rfl, hg]
      simp only [Pc.onGauge]
      omega
  | rolledBack session _ =>
      unfold Gate.Gauges
      rw [giveBack_gauge, giveBack_leases]
      exact hg
  | onceTaken b l hl hfresh =>
      refine gauges_setLease hl ?_ hg
      rw [unreleased_fresh hfresh, unreleased_begun fun hf => (by cases hf)]
      simp only [Pc.onGauge]
      omega
  | partTaken b p l hl _ =>
      exact gauges_setLease hl (by rw [one, BackendLease.unreleased, once_setPart]; rfl) hg
  | partOver b p l _ _ => rw [onGauge_resume]; exact hg
  | added b p r =>
      unfold Gate.Gauges
      rw [giveBack_gauge, giveBack_leases]
      exact hg
  | partEnded b p l hl =>
      rw [onGauge_resume]
      exact gauges_setLease hl (by rw [one, BackendLease.unreleased, once_setPart]; rfl) hg
  | gauged b =>
      unfold Gate.Gauges at hg ⊢
      rw [hg]
      simp only [Pc.onGauge]
      omega
  | ended b l hl =>
      have hb := hrun b (if_pos rfl)
      rw [Gate.onceOf, hl] at hb
      refine gauges_setLease hl ?_ hg
      rw [unreleased_begun fun hf => (by cases hf),
        unreleased_begun fun hf => (by rw [Option.some.inj hb] at hf; cases hf)]
      rfl
  | _ => exact hg

/-- **GAUGE**: under every interleaving the gauge is the number of leases that
    nobody has begun to release or that are still to be taken off. -/
theorem gauged (hg : newBackendGate maxGlobal maxSession registry = .ok g)
    (h : GateReach g s) : s.shared.Gauges (load Pc.onGauge s.threads) := by
  obtain ⟨-, -, rfl⟩ := newBackendGate_ok hg
  refine Machine.reach_tallies (M := gateMachine) (J := GateReach _) (fun s hs => hs)
    Pc.onGauge Gate.Gauges ?_ ?_ ?_ h
  · rfl
  · intro s i t a σ' t' new rest hr ht _ hc he
    obtain ⟨hm, rfl⟩ := exec_moves he
    exact gauges_step hm (fun b hin => (running_of_inside rfl hr ht hin).1) hc
  · intro s e σ' new total _ hc he
    have hh := outside_happens he
    unfold Gate.Gauges at hc ⊢
    rw [(happens_leases hh).1, (happens_leases hh).2, hc]
    cases hh <;> rfl

/-! ## The rejection counters -/

/-- The call was refused. -/
def Pc.isRefused : Pc → Bool
  | .refused _ _ => true
  | _ => false

/-- The call is refused and the registry knows it. -/
def Pc.isRecorded : Pc → Bool
  | .rejectCount _ => true
  | .refused _ _ => true
  | _ => false

theorem giveBack_rejections (σ : Gate) (r : Nat) :
    (σ.giveBack r).rejections = σ.rejections ∧
      (σ.giveBack r).backendLimitRejections = σ.backendLimitRejections := by
  unfold Gate.giveBack
  split <;> exact ⟨rfl, rfl⟩

/-- What a section does to the two rejection counters. -/
theorem moves_rejections {σ σ' : Gate} {t t' : Pc} (h : Moves σ t σ' t') :
    (σ'.rejections = σ.rejections ∧ one Pc.isRefused t' = one Pc.isRefused t ∨
      σ'.rejections = σ.rejections + 1 ∧ one Pc.isRefused t = 0 ∧
        one Pc.isRefused t' = 1) ∧
    (σ'.backendLimitRejections = σ.backendLimitRejections ∧
        one Pc.isRecorded t' = one Pc.isRecorded t ∨
      σ'.backendLimitRejections = σ.backendLimitRejections + 1 ∧
        one Pc.isRecorded t = 0 ∧ one Pc.isRecorded t' = 1) := by
  cases h with
  | full r k => cases k <;> exact ⟨Or.inl ⟨rfl, rfl⟩, Or.inl ⟨rfl, rfl⟩⟩
  | swapped r k lim _ => cases k <;> exact ⟨Or.inl ⟨rfl, rfl⟩, Or.inl ⟨rfl, rfl⟩⟩
  | rolledBack session _ =>
      have hg := giveBack_rejections σ session.limiter
      exact ⟨Or.inl ⟨hg.1, rfl⟩, Or.inl ⟨hg.2, rfl⟩⟩
  | added b p r =>
      have hg := giveBack_rejections σ r
      exact ⟨Or.inl ⟨hg.1, rfl⟩, Or.inl ⟨hg.2, rfl⟩⟩
  | partOver b p l _ _ => cases p <;> exact ⟨Or.inl ⟨rfl, rfl⟩, Or.inl ⟨rfl, rfl⟩⟩
  | partEnded b p l _ => cases p <;> exact ⟨Or.inl ⟨rfl, rfl⟩, Or.inl ⟨rfl, rfl⟩⟩
  | metric why => exact ⟨Or.inl ⟨rfl, rfl⟩, Or.inr ⟨rfl, rfl, rfl⟩⟩
  | count why => exact ⟨Or.inr ⟨rfl, rfl, rfl⟩, Or.inl ⟨rfl, rfl⟩⟩
  | _ => exact ⟨Or.inl ⟨rfl, rfl⟩, Or.inl ⟨rfl, rfl⟩⟩

theorem happens_rejections {σ σ' : Gate} {new : List Pc} (h : Happens σ σ' new) :
    σ'.rejections = σ.rejections ∧ σ'.backendLimitRejections = σ.backendLimitRejections ∧
      load (one Pc.isRefused) new = 0 ∧ load (one Pc.isRecorded) new = 0 := by
  cases h <;> exact ⟨rfl, rfl, rfl, rfl⟩

/-- **REJECTIONS**: under every interleaving the gate counts the refused calls,
    and the registry those that it knows of. -/
theorem rejections_counted (hg : newBackendGate maxGlobal maxSession registry = .ok g)
    (h : GateReach g s) :
    s.shared.rejections = UInt64.ofNat (s.threads.countP Pc.isRefused) ∧
      s.shared.backendLimitRejections = Int64.ofNat (s.threads.countP Pc.isRecorded) := by
  obtain ⟨-, -, rfl⟩ := newBackendGate_ok hg
  rw [← load_one, ← load_one]
  constructor
  · refine Machine.reach_tallies (M := gateMachine) (J := fun _ => True) (fun _ _ => trivial)
      (one Pc.isRefused) (fun σ n => σ.rejections = UInt64.ofNat n) rfl ?_ ?_ h
    · intro s i t a σ' t' new rest _ _ _ hc he
      obtain ⟨hm, rfl⟩ := exec_moves he
      rw [load_nil, Nat.add_zero]
      rcases (moves_rejections hm).1 with ⟨h1, h2⟩ | ⟨h1, h2, h3⟩
      · rw [h1, h2, hc]
      · rw [h1, h3, hc, h2, Nat.zero_add, Nat.add_comm, UInt64.ofNat_add]
        rfl
    · intro s e σ' new total _ hc he
      obtain ⟨h1, -, h3, -⟩ := happens_rejections (outside_happens he)
      rw [h1, h3, hc, Nat.add_zero]
  · refine Machine.reach_tallies (M := gateMachine) (J := fun _ => True) (fun _ _ => trivial)
      (one Pc.isRecorded) (fun σ n => σ.backendLimitRejections = Int64.ofNat n) rfl ?_ ?_ h
    · intro s i t a σ' t' new rest _ _ _ hc he
      obtain ⟨hm, rfl⟩ := exec_moves he
      rw [load_nil, Nat.add_zero]
      rcases (moves_rejections hm).2 with ⟨h1, h2⟩ | ⟨h1, h2, h3⟩
      · rw [h1, h2, hc]
      · rw [h1, h3, hc, h2, Nat.zero_add, Nat.add_comm, Int64.ofNat_add]
        rfl
    · intro s e σ' new total _ hc he
      obtain ⟨-, h2, -, h4⟩ := happens_rejections (outside_happens he)
      rw [h2, h4, hc, Nat.add_zero]

/-! ## States without a call in progress -/

/-- No call is in progress. -/
def Quiet (s : GatePool) : Prop := ∀ t ∈ s.threads, t.returned = true

theorem load_quiet (hq : Quiet s) {m : Pc → Nat}
    (hm : ∀ t : Pc, t.returned = true → m t = 0) : load m s.threads = 0 :=
  load_eq_zero fun t ht => hm t (hq t ht)

/-- Without a call in progress a lease was released whole or not at all. -/
theorem whole_of_quiet (hg : newBackendGate maxGlobal maxSession registry = .ok g)
    (h : GateReach g s) (hq : Quiet s) {l : BackendLease} (hl : l ∈ s.shared.leases) :
    l.freshness = (l.unreleased, l.unreleased) := by
  have hwhole := (inner hg h).1 l hl
  unfold BackendLease.unreleased
  cases honce : l.once with
  | fresh => exact hwhole.1 honce
  | finished => exact hwhole.2 honce
  | running =>
      -- the call that is releasing it would be in progress
      obtain ⟨b, hb⟩ := List.getElem?_of_mem hl
      have hone := one_inside (by obtain ⟨-, -, rfl⟩ := newBackendGate_ok hg; rfl) h b
      rw [load_quiet hq (fun t ht => (by cases t <;> first | rfl | cases ht)), Gate.running,
        Gate.onceOf, hb, Option.map_some, honce, if_pos rfl] at hone
      cases hone

/-- A lease counts once at the gate, if it is unreleased. -/
theorem slots_gate {l : BackendLease} (hptr : l.global.limiter = 0 ∧ 1 ≤ l.session.limiter)
    (hf : l.freshness = (l.unreleased, l.unreleased)) :
    l.slots 0 = one BackendLease.unreleased l := by
  have hglobal : (decide (l.global.once = .fresh)) = l.unreleased := congrArg Prod.snd hf
  have hsession : l.session.slot 0 = 0 :=
    if_neg fun hc => Nat.one_le_iff_ne_zero.mp hptr.2 hc.2
  rw [BackendLease.slots, hsession, Nat.zero_add, one, ← hglobal]
  simp only [ConcurrencyLease.slot, hptr.1, and_true, decide_eq_true_eq]

/-- A lease counts once among the sessions, if it is unreleased. -/
theorem slots_sessions {l : BackendLease} {n : Nat}
    (hptr : l.global.limiter = 0 ∧ 1 ≤ l.session.limiter ∧ l.session.limiter < n + 1)
    (hf : l.freshness = (l.unreleased, l.unreleased)) :
    ∑ r ∈ Finset.range n, l.slots (r + 1) = one BackendLease.unreleased l := by
  have hsession : (decide (l.session.once = .fresh)) = l.unreleased := congrArg Prod.fst hf
  obtain ⟨hg, h1, hlt⟩ := hptr
  obtain ⟨q, hq⟩ := Nat.exists_eq_add_of_le' h1
  have hslot : ∀ r, l.slots (r + 1) = if q = r then one BackendLease.unreleased l
      else 0 := by
    intro r
    have hglobal : l.global.slot (r + 1) = 0 :=
      if_neg fun hc => (by rw [hg] at hc; exact absurd hc.2.symm (Nat.succ_ne_zero r))
    rw [BackendLease.slots, hglobal, Nat.add_zero, one, ← hsession]
    simp only [ConcurrencyLease.slot, hq, decide_eq_true_eq, Nat.add_right_cancel_iff]
    by_cases hqr : q = r
    · rw [if_pos hqr]
      simp only [hqr, and_true]
    · rw [if_neg hqr, if_neg fun hc => hqr hc.2]
  rw [Finset.sum_congr rfl fun r _ => hslot r, Finset.sum_ite_eq, if_pos]
  rw [Finset.mem_range]
  rw [hq] at hlt
  exact Nat.lt_of_succ_lt_succ hlt

/-- The sum of counters, limiter by limiter. -/
theorem sum_active (lims : List ConcurrencyLimiter) (lim : ConcurrencyLimiter)
    (σ : Gate) (hσ : σ.limiters = lim :: lims) :
    (lims.map ConcurrencyLimiter.active).sum
      = ∑ r ∈ Finset.range lims.length, σ.activeOf (r + 1) := by
  have hact : ∀ r, σ.activeOf (r + 1) = ((lims[r]?).map ConcurrencyLimiter.active).getD 0 := by
    intro r
    rw [Gate.activeOf, hσ, List.getElem?_cons_succ]
    cases lims[r]? <;> rfl
  rw [Finset.sum_congr rfl fun r _ => hact r]
  clear hσ hact
  induction lims with
  | nil => rfl
  | cons x lims ih =>
      rw [List.map_cons, List.sum_cons, List.length_cons, Finset.sum_range_succ', ih, add_comm]
      rfl

/-- **QUIET STATES**: without a call in progress all books agree. -/
theorem quiet_books (hg : newBackendGate maxGlobal maxSession registry = .ok g)
    (h : GateReach g s) (hq : Quiet s) :
    s.shared.activeOf 0 = (s.shared.leases.countP BackendLease.unreleased : Nat) ∧
      s.shared.activeOf 0 = (s.shared.limiters.tail.map ConcurrencyLimiter.active).sum ∧
      s.shared.activeOf 0 = s.shared.activeBackendStreams := by
  have hslots : ∀ r, s.shared.activeOf r
      = ((load (BackendLease.slots r) s.shared.leases : Nat) : Int) := by
    intro r
    have hc := counted hg h r
    rw [Gate.Counts, load_quiet hq (fun t ht => (by cases t <;> first | rfl | cases ht)),
      Nat.add_zero] at hc
    exact hc
  have hptr := (sound hg h).1.pointers
  have hgate : s.shared.activeOf 0 = (s.shared.leases.countP BackendLease.unreleased : Nat) := by
    rw [hslots 0, ← load_one]
    exact congrArg Nat.cast (load_congr fun l hl =>
      slots_gate ⟨(hptr l hl).1, (hptr l hl).2.1⟩ (whole_of_quiet hg h hq hl))
  refine ⟨hgate, ?_, ?_⟩
  · cases hlims : s.shared.limiters with
    | nil =>
        have := (sound hg h).1.gate
        rw [hlims] at this
        cases this
    | cons lim lims =>
        rw [List.tail_cons, sum_active lims lim s.shared hlims,
          Finset.sum_congr rfl fun r _ => hslots (r + 1), ← Nat.cast_sum, ← load_sum, hgate,
          ← load_one]
        refine congrArg Nat.cast (load_congr fun l hl => ?_)
        have hp := hptr l hl
        rw [hlims, List.length_cons] at hp
        exact (slots_sessions hp (whole_of_quiet hg h hq hl)).symm
  · have hgauge := gauged hg h
    rw [Gate.Gauges, load_quiet hq (fun t ht => (by cases t <;> first | rfl | cases ht)),
      Nat.add_zero] at hgauge
    rw [hgauge, hgate]

end Tallies

/-! ## What one call did -/

/-- By how much the sections of one call moved each counter, the number of
    unreleased leases, the gauge and the two rejection counters. -/
structure Effect where
  active : LimRef → Int := fun _ => 0
  unreleased : Int := 0
  gauge : Int := 0
  rejections : UInt64 := 0
  metric : Int64 := 0

/-- The unreleased leases of a gate. -/
def Gate.unreleased (σ : Gate) : Nat := σ.leases.countP BackendLease.unreleased

/-- One more section. -/
def Effect.add (e : Effect) (σ σ' : Gate) : Effect where
  active := fun r => e.active r + (σ'.activeOf r - σ.activeOf r)
  unreleased := e.unreleased + ((σ'.unreleased : Int) - σ.unreleased)
  gauge := e.gauge + (σ'.activeBackendStreams - σ.activeBackendStreams)
  rejections := e.rejections + (σ'.rejections - σ.rejections)
  metric := e.metric + (σ'.backendLimitRejections - σ.backendLimitRejections)

/-- Add up what call `i` does. -/
def account (i : Nat) (e : Effect) (s : GatePool) : Act Unit Op → GatePool → Effect
  | .run j _, s' => if j = i then e.add s.shared s'.shared else e
  | .env _, _ => e

/-- The states of a gate, with what call `i` did so far. -/
abbrev AccountedReach (g : Gate) (i : Nat) : GatePool × Effect → Prop :=
  Reach (watch gateStep (account i)) (fun _ _ => True) (⟨g, []⟩, {})

/-- A call of `Acquire` that has not been let in. -/
def Pc.acquiring : Pc → Bool
  | .load _ _ => true
  | .swap _ _ _ => true
  | .opened _ _ => true
  | .rollBack _ => true
  | .rejectMetric _ => true
  | .rejectCount _ => true
  | .refused _ _ => true
  | _ => false

/-- A call of `Acquire` that has not been let in has moved the counters by the
    slots it has in hand, and nothing else but the rejection counters. -/
structure Settled (t : Pc) (e : Effect) : Prop where
  active : ∀ r, e.active r = t.slots r
  unreleased : e.unreleased = 0
  gauge : e.gauge = 0
  rejections : e.rejections = UInt64.ofNat (one Pc.isRefused t)
  metric : e.metric = Int64.ofNat (one Pc.isRecorded t)

/-- Call `i` was not made yet, or what it did is settled. -/
def Ledger (i : Nat) (s : GatePool) (e : Effect) : Prop :=
  (s.threads[i]? = none → e = {}) ∧
    ∀ t, s.threads[i]? = some t → t.acquiring = true → Settled t e

theorem moves_acquiring {σ σ' : Gate} {t t' : Pc} (h : Moves σ t σ' t')
    (ht' : t'.acquiring = true) :
    t.acquiring = true ∧ σ'.leases = σ.leases ∧
      σ'.activeBackendStreams = σ.activeBackendStreams := by
  cases h with
  | rolledBack session _ => exact ⟨rfl, giveBack_leases σ _, giveBack_gauge σ _⟩
  | partOver b p l _ _ => cases p <;> cases ht'
  | partEnded b p l _ => cases p <;> cases ht'
  | _ => first | exact ⟨rfl, rfl, rfl⟩ | cases ht'

/-- A new call has done nothing. -/
theorem settled_new {σ σ' : Gate} {new : List Pc} (h : Happens σ σ' new) {t : Pc}
    (ht : t ∈ new) (hacq : t.acquiring = true) : Settled t {} := by
  cases h with
  | session lim _ => cases ht
  | nilSession => rw [List.mem_singleton.mp ht]; exact ⟨fun _ => rfl, rfl, rfl, rfl, rfl⟩
  | acquire r _ _ => rw [List.mem_singleton.mp ht]; exact ⟨fun _ => rfl, rfl, rfl, rfl, rfl⟩
  | nilLease => rw [List.mem_singleton.mp ht] at hacq; cases hacq
  | release b => rw [List.mem_singleton.mp ht] at hacq; cases hacq

section Calls

variable {maxGlobal maxSession : Int} {registry : Bool} {g : Gate}

/-- The sections of a call are settled one by one. -/
theorem settled_step (hg : newBackendGate maxGlobal maxSession registry = .ok g)
    {s : GatePool} (hr : GateReach g s) {i : Nat} {t t' : Pc} {σ' : Gate}
    (ht : s.threads[i]? = some t) (hm : Moves s.shared t σ' t')
    (hr' : GateReach g ⟨σ', s.threads.set i t'⟩) (ht' : t'.acquiring = true) {e : Effect}
    (he : Settled t e) : Settled t' (e.add s.shared σ') := by
  obtain ⟨-, hleases, hgauge⟩ := moves_acquiring hm ht'
  obtain ⟨hrej, hmet⟩ := moves_rejections hm
  constructor
  · intro r
    have hbefore := counted hg hr r
    have hafter := counted hg hr' r
    have hset := load_set (Pc.slots r) t' ht
    have hslots := he.active r
    simp only [Gate.Counts, hleases] at hbefore hafter
    simp only [Effect.add, hslots]
    omega
  · show e.unreleased + ((σ'.unreleased : Int) - s.shared.unreleased) = 0
    rw [he.unreleased, Gate.unreleased, Gate.unreleased, hleases, sub_self, add_zero]
  · show e.gauge + (σ'.activeBackendStreams - s.shared.activeBackendStreams) = 0
    rw [he.gauge, hgauge, sub_self, add_zero]
  · show e.rejections + (σ'.rejections - s.shared.rejections) = _
    rw [he.rejections]
    rcases hrej with ⟨h1, h2⟩ | ⟨h1, h2, h3⟩
    · rw [h1, h2, UInt64.sub_self, UInt64.add_zero]
    · rw [h1, h2, h3, UInt64.add_comm s.shared.rejections, UInt64.add_sub_cancel]
      rfl
  · show e.metric + (σ'.backendLimitRejections - s.shared.backendLimitRejections) = _
    rw [he.metric]
    rcases hmet with ⟨h1, h2⟩ | ⟨h1, h2, h3⟩
    · rw [h1, h2, Int64.sub_self, Int64.add_zero]
    · rw [h1, h2, h3, Int64.add_comm s.shared.backendLimitRejections, Int64.add_sub_cancel]
      rfl

/-- **CALLS**: under every interleaving a call of `Acquire` that has not been let
    in has moved nothing but by the slots it has in hand. -/
theorem settled (hg : newBackendGate maxGlobal maxSession registry = .ok g) {i : Nat}
    {p : GatePool × Effect} (h : AccountedReach g i p) : Ledger i p.1 p.2 := by
  refine @Reach.watched_invariant _ _ _ _ anyStep _ _ _ (Ledger i) ?_ ?_ _ h
  · exact ⟨fun _ => rfl, fun t ht => (by cases ht)⟩
  intro s e a s' hr hI _ hs
  cases a with
  | run j a =>
      obtain ⟨t, σ', t', new, ht, he, rfl⟩ := Machine.step_run hs
      obtain ⟨hm, rfl⟩ := exec_moves he
      have hr' : GateReach g ⟨σ', s.threads.set j t' ++ []⟩ := Reach.tail _ hr trivial hs
      rw [List.append_nil] at hr'
      by_cases hji : j = i
      · subst hji
        have hnow : (s.threads.set j t' ++ [])[j]? = some t' := getElem?_mover t' [] ht
        refine ⟨fun hnone => (by rw [hnow] at hnone; cases hnone), ?_⟩
        intro u hu hacq
        obtain rfl : t' = u := Option.some.inj (hnow.symm.trans hu)
        rw [account, if_pos rfl]
        exact settled_step hg hr ht hm hr' hacq
          (hI.2 t ht (moves_acquiring hm hacq).1)
      · have hsame : (s.threads.set j t' ++ [])[i]? = s.threads[i]? := by
          rw [List.append_nil, List.getElem?_set_ne hji]
        rw [account, if_neg hji]
        unfold Ledger
        rw [hsame]
        exact hI
  | env op =>
      obtain ⟨σ', new, he, rfl⟩ := Machine.step_env hs
      refine ⟨fun hnone => hI.1 ?_, ?_⟩
      · rw [List.getElem?_eq_none_iff] at hnone ⊢
        exact le_trans (by rw [List.length_append]; exact Nat.le_add_right ..) hnone
      · intro t ht hacq
        cases hold : s.threads[i]? with
        | some u =>
            obtain rfl : u = t := Option.some.inj
              ((List.getElem?_append_left (List.getElem?_eq_some_iff.mp hold).1
                |>.trans hold).symm.trans ht)
            exact hI.2 u hold hacq
        | none =>
            have hnew : t ∈ new := by
              rcases getElem?_spawned ht with h1 | h1
              · rw [hold] at h1
                cases h1
              · exact h1
            show Settled t e
            rw [hI.1 hold]
            exact settled_new (outside_happens he) hnew hacq

end Calls

/-- **BACKEND GATE**: for all limits that are accepted, all sessions and every
    interleaving of the loads, compare-and-swaps and adds of `Acquire` and
    `Release`, the counter of the gate and those of the sessions stay within
    their limits; without a call in progress the counter of the gate is the sum
    of those of the sessions, the number of unreleased leases and the gauge, and
    both rejection counters are the number of refused calls; and a refused call
    has changed none of the former and has added one to each of the latter. -/
theorem backend_gate_books (maxGlobal maxSession : Int) (registry : Bool) (g : Gate)
    (hg : newBackendGate maxGlobal maxSession registry = .ok g) (i : Nat)
    (p : GatePool × Effect) (h : AccountedReach g i p) :
    (∀ r lim, p.1.shared.limiters[r]? = some lim →
      0 ≤ lim.active ∧ lim.active ≤ bound maxGlobal maxSession r) ∧
    ((∀ t ∈ p.1.threads, t.returned = true) →
      p.1.shared.activeOf 0 = (p.1.shared.limiters.tail.map ConcurrencyLimiter.active).sum ∧
      p.1.shared.activeOf 0 = p.1.shared.unreleased ∧
      p.1.shared.activeOf 0 = p.1.shared.activeBackendStreams ∧
      p.1.shared.rejections = UInt64.ofNat (p.1.threads.countP Pc.isRefused) ∧
      p.1.shared.backendLimitRejections = Int64.ofNat (p.1.threads.countP Pc.isRefused)) ∧
    (∀ why n, p.1.threads[i]? = some (.refused why n) →
      (∀ r, p.2.active r = 0) ∧ p.2.unreleased = 0 ∧ p.2.gauge = 0 ∧
      p.2.rejections = 1 ∧ p.2.metric = 1) := by
  have hr : GateReach g p.1 := Reach.unwatched h
  refine ⟨?_, ?_, ?_⟩
  · intro r lim hlim
    have hcount := counted hg hr r
    obtain ⟨hmax, hle⟩ := (sound hg hr).1.bounded r lim hlim
    rw [Gate.Counts, Gate.activeOf, hlim] at hcount
    refine ⟨?_, hmax ▸ hle⟩
    simp only at hcount
    rw [hcount]
    exact Int.natCast_nonneg _
  · intro hq
    obtain ⟨h1, h2, h3⟩ := quiet_books hg hr hq
    obtain ⟨h4, h5⟩ := rejections_counted hg hr
    refine ⟨h2, h1, h3, h4, ?_⟩
    -- no call is between the two counters
    rw [h5, List.countP_congr]
    intro t ht
    have := hq t ht
    cases t <;> first | rfl | cases this
  · intro why n hi
    have hset := (settled hg h).2 _ hi rfl
    exact ⟨fun r => hset.active r, hset.unreleased, hset.gauge, hset.rejections, hset.metric⟩

/-- Two sessions compete for the only slot of the gate; the second one takes its
    own slot, gives it back and is refused. -/
theorem second_session_refused :
    ∃ (g : Gate) (p : GatePool × Effect),
      newBackendGate 1 1 true = .ok g ∧ AccountedReach g 1 p ∧
      p.1.threads = [.acquired 0, .refused .global 1] ∧ p.1.shared.activeOf 0 = 1 ∧
      p.1.shared.activeBackendStreams = 1 ∧ p.1.shared.unreleased = 1 ∧ p.2.active 2 = 0 ∧
      p.2.rejections = 1 := by
  obtain ⟨p, hr, hp⟩ := Reach.of_follow (watch gateStep (account 1)) (fun _ _ => True)
    (⟨{ limiters := [{ maximum := 1 }], maxStreamsPerSession := 1 }, []⟩, {})
    [.env .newSession, .env .newSession, .env (.acquire (some 1)), .env (.acquire (some 2)),
      .run 1 (), .run 0 (), .run 1 (), .run 0 (), .run 0 (), .run 0 (), .run 1 (), .run 1 (),
      .run 0 (), .run 1 (), .run 1 ()]
    (fun p : GatePool × Effect => p.1.threads = [.acquired 0, .refused .global 1] &&
      p.1.shared.activeOf 0 = 1) (by decide)
  simp only [Bool.and_eq_true, decide_eq_true_eq] at hp
  obtain ⟨hthreads, hactive⟩ := hp
  obtain ⟨-, hquiet, hrefused⟩ := backend_gate_books 1 1 true _ rfl 1 p hr
  obtain ⟨-, hlease, hgauge, -, -⟩ := hquiet (by
    rw [hthreads]
    decide)
  obtain ⟨hslots, -, -, hrej, -⟩ := hrefused .global 1 (by rw [hthreads]; rfl)
  exact ⟨_, p, rfl, hr, hthreads, hactive, hgauge ▸ hactive,
    by rw [hactive] at hlease; exact_mod_cast hlease.symm, hslots 2, hrej⟩

end VkTurnBackendGate
