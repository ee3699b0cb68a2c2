import VkTurn.ThreadPoolProofs
import VkTurn.ConnectionLimiterProofs
import VkTurn.GoNetProofs

/-! # Runs of the connection limiter

    Any number of goroutines call `Acquire` for any remote addresses and
    `Release` for any leases, as often as they like.  Every section of the
    limiter is under its mutex; the call of `release` is under the `sync.Once` of
    the lease.

    `staged` ties the calls of `Release` on a lease to the stage the lease is
    in: one call at most is inside, and one has returned true when it is over.
    From that `books` keeps the two counters equal to what they count, so that
    the clamps of `release` (`count <= 1`, `total > 0`) never hide anything. -/

namespace VkTurnLimiterRun

open ThreadPool VkTurnLimiter GoText GoMap GoNet

/-! ## The key of a remote address -/

/-- A `net.Addr`: none, one of the two types the limiter knows, or any other with
    its text. -/
inductive Addr where
  | nil
  | udp (ip : Bytes) (port : Int) (zone : Bytes)
  | tcp (ip : Bytes) (port : Int) (zone : Bytes)
  | other (text : Bytes)
  deriving DecidableEq, Repr

/-- The errors of `remoteIPKey`. -/
inductive KeyError where
  | nilAddress
  | split (e : SplitError)
  | noValidIP
  deriving DecidableEq, Repr

/-- The end of `remoteIPKey`: one text for both forms of an IPv4 address. -/
def canonicalKey (ip : Bytes) : Except KeyError Bytes :=
  match to4 ip with
  | some ipv4 => .ok (ipString ipv4)
  | none =>
      match to16 ip with
      | some ipv6 => .ok (ipString ipv6)
      | none => .error .noValidIP

/-- `remoteIPKey`. -/
def remoteIPKey : Addr → Except KeyError Bytes
  | .nil => .error .nilAddress
  | .udp ip _ _ => canonicalKey ip
  | .tcp ip _ _ => canonicalKey ip
  | .other text =>
      match splitHostPort text with
      | .error e => .error (.split e)
      | .ok (host, _) => canonicalKey ((parseIP host).getD [])

/-- The IP of a remote address. -/
def Addr.ip : Addr → Option Bytes
  | .nil => none
  | .udp ip _ _ => some ip
  | .tcp ip _ _ => some ip
  | .other text =>
      match splitHostPort text with
      | .error _ => none
      | .ok (host, _) => parseIP host

/-- The same IP, be it in its 4-byte or in its mapped form. -/
def SameIP (a b : Addr) : Prop :=
  ∃ ip ip', a.ip = some ip ∧ b.ip = some ip' ∧ to16 ip = to16 ip'

theorem canonicalKey_congr {ip ip' : Bytes} (h : to16 ip = to16 ip') :
    canonicalKey ip = canonicalKey ip' := by
  rw [canonicalKey, canonicalKey, to4_eq_to16 ip, to4_eq_to16 ip', h]

theorem remoteIPKey_of_ip {a : Addr} {ip : Bytes} (h : a.ip = some ip) :
    remoteIPKey a = canonicalKey ip := by
  cases a with
  | nil => cases h
  | udp ip' port zone =>
      obtain rfl : ip' = ip := Option.some.inj h
      rfl
  | tcp ip' port zone =>
      obtain rfl : ip' = ip := Option.some.inj h
      rfl
  | other text =>
      simp only [Addr.ip] at h
      simp only [remoteIPKey]
      cases hsplit : splitHostPort text with
      | error e => rw [hsplit] at h; cases h
      | ok parts =>
          simp only [hsplit] at h
          simp only [h, Option.getD_some]

/-- One key for one IP: neither the form nor the port nor the type counts. -/
theorem remoteIPKey_sameIP {a b : Addr} (h : SameIP a b) :
    remoteIPKey a = remoteIPKey b := by
  obtain ⟨ip, ip', ha, hb, hip⟩ := h
  rw [remoteIPKey_of_ip ha, remoteIPKey_of_ip hb, canonicalKey_congr hip]

/-! ## The machine -/

/-- A pointer to a `connectionLease`, by order of creation. -/
abbrev LeaseRef := Nat

/-- The `sync.Once` of a lease, with how far the function it runs has come:
    before and after its slot was returned. -/
inductive Stage where
  | fresh
  | slot
  | ended
  | over
  deriving DecidableEq, Repr

/-- A `connectionLease`, with the address it was acquired for as a history. -/
structure Lease where
  remote : Addr
  ip : Bytes
  stage : Stage := .fresh
  deriving DecidableEq, Repr

/-- The slot has not been returned. -/
def Lease.unreleased (l : Lease) : Bool := l.stage = .fresh || l.stage = .slot

/-- A limiter and the leases it has given out. -/
structure Shared where
  limiter : ConnectionLimiter
  leases : List Lease := []
  deriving DecidableEq, Repr

/-- A place between two sections. -/
inductive Pc where
  -- Acquire
  | acquire (remote : Addr)
  -- connectionLease.Release
  | relOnce (c : LeaseRef)
  | relSlot (c : LeaseRef)
  | relEnd (c : LeaseRef)
  -- the end of a call
  | acquired (c : LeaseRef)
  | refused (r : ConnectionRejection)
  | released (c : Option LeaseRef) (first : Bool)
  deriving DecidableEq, Repr

/-- A call. -/
inductive Op where
  | acquire (remote : Addr)
  | release (c : Option LeaseRef)
  deriving DecidableEq, Repr

/-- Replace a lease. -/
def Shared.setLease (σ : Shared) (c : LeaseRef) (l : Lease) : Shared :=
  { σ with leases := σ.leases.set c l }

/-- One section. -/
def exec (σ : Shared) : Pc → Unit → Option (Shared × Pc × List Pc)
  | .acquire remote, _ =>
      match σ.limiter.acquire (remoteIPKey remote).toOption with
      | .error r => some (σ, .refused r, [])
      | .ok (limiter, lease) =>
          some ({ limiter := limiter
                  leases := σ.leases ++ [{ remote := remote, ip := lease.ip }] },
            .acquired σ.leases.length, [])
  | .relOnce c, _ =>
      match σ.leases[c]? with
      | none => none
      | some l =>
          match l.stage with
          | .fresh => some (σ.setLease c { l with stage := .slot }, .relSlot c, [])
          | .over => some (σ, .released (some c) false, [])
          | _ => none
  | .relSlot c, _ =>
      match σ.leases[c]? with
      | none => none
      | some l =>
          some ({ limiter := σ.limiter.release l.ip
                  leases := σ.leases.set c { l with stage := .ended } },
            .relEnd c, [])
  | .relEnd c, _ =>
      match σ.leases[c]? with
      | none => none
      | some l =>
          some (σ.setLease c { l with stage := .over }, .released (some c) true, [])
  | _, _ => none

/-- A new call.  `Release` of a nil lease returns at once. -/
def outside (σ : Shared) : Op → Option (Shared × List Pc)
  | .acquire remote => some (σ, [.acquire remote])
  | .release none => some (σ, [.released none false])
  | .release (some c) =>
      if c < σ.leases.length then some (σ, [.relOnce c]) else none

/-- The limiter as a machine. -/
def limiterMachine : Machine Shared Pc Unit Op where
  exec := fun _ => exec
  env := outside

/-- A limiter and the calls of its methods. -/
abbrev LimiterPool := Pool Shared Pc

/-- One step of the limiter. -/
def limiterStep : LimiterPool → Act Unit Op → Option LimiterPool := limiterMachine.step

/-- Every state of a limiter, under every interleaving. -/
abbrev LimiterReach (l : ConnectionLimiter) : LimiterPool → Prop :=
  Reach limiterStep anyStep ⟨{ limiter := l }, []⟩

/-- What one section can do. -/
inductive Moves (σ : Shared) : Pc → Shared → Pc → Prop where
  | refused (remote : Addr) (r : ConnectionRejection) :
      σ.limiter.acquire (remoteIPKey remote).toOption = .error r →
      Moves σ (.acquire remote) σ (.refused r)
  | acquired (remote : Addr) (limiter : ConnectionLimiter) (lease : ConnectionLease) :
      σ.limiter.acquire (remoteIPKey remote).toOption = .ok (limiter, lease) →
      Moves σ (.acquire remote)
        { limiter := limiter
          leases := σ.leases ++ [{ remote := remote, ip := lease.ip }] }
        (.acquired σ.leases.length)
  | onceTaken (c : LeaseRef) (l : Lease) : σ.leases[c]? = some l → l.stage = .fresh →
      Moves σ (.relOnce c) (σ.setLease c { l with stage := .slot }) (.relSlot c)
  | onceOver (c : LeaseRef) (l : Lease) : σ.leases[c]? = some l → l.stage = .over →
      Moves σ (.relOnce c) σ (.released (some c) false)
  | returned (c : LeaseRef) (l : Lease) : σ.leases[c]? = some l →
      Moves σ (.relSlot c)
        { limiter := σ.limiter.release l.ip
          leases := σ.leases.set c { l with stage := .ended } } (.relEnd c)
  | ended (c : LeaseRef) (l : Lease) : σ.leases[c]? = some l →
      Moves σ (.relEnd c) (σ.setLease c { l with stage := .over })
        (.released (some c) true)

theorem exec_moves {σ σ' : Shared} {t t' : Pc} {a : Unit} {new : List Pc}
    (h : exec σ t a = some (σ', t', new)) : Moves σ t σ' t' ∧ new = [] := by
  unfold exec at h
  split at h <;> (try split at h) <;> (try split at h) <;>
    simp only [Option.some.injEq, Prod.mk.injEq, reduceCtorEq] at h
  all_goals obtain ⟨rfl, rfl, rfl⟩ := h
  all_goals refine ⟨?_, rfl⟩
  all_goals first
    | exact Moves.refused _ _ ‹_›
    | exact Moves.acquired _ _ _ ‹_›
    | exact Moves.onceTaken _ _ ‹_› ‹_›
    | exact Moves.onceOver _ _ ‹_› ‹_›
    | exact Moves.returned _ _ ‹_›
    | exact Moves.ended _ _ ‹_›

/-- A new call changes nothing yet, and is inside no lease. -/
theorem outside_new {σ σ' : Shared} {e : Op} {new : List Pc}
    (h : outside σ e = some (σ', new)) :
    σ' = σ ∧ ∃ t, new = [t] ∧
      ((∃ remote, t = .acquire remote) ∨ t = .released none false ∨ ∃ c, t = .relOnce c) := by
  unfold outside at h
  split at h <;> (try split at h) <;>
    simp only [Option.some.injEq, Prod.mk.injEq, reduceCtorEq] at h
  all_goals obtain ⟨rfl, rfl⟩ := h
  · exact ⟨rfl, _, rfl, Or.inl ⟨_, rfl⟩⟩
  · exact ⟨rfl, _, rfl, Or.inr (Or.inl rfl)⟩
  · exact ⟨rfl, _, rfl, Or.inr (Or.inr ⟨_, rfl⟩)⟩

/-! ## The stages of a lease -/

/-- The stage of lease `c` that a call stands for. -/
def Pc.stage (c : LeaseRef) : Pc → Option Stage
  | .relSlot d => if d = c then some .slot else none
  | .relEnd d => if d = c then some .ended else none
  | .released (some d) true => if d = c then some .over else none
  | _ => none

/-- The stage a lease is in, when there is one. -/
def Shared.stage (σ : Shared) (c : LeaseRef) : Option Stage := (σ.leases[c]?).map Lease.stage

/-- The calls that stand for stage `x` of lease `c`. -/
def standing (c : LeaseRef) (x : Stage) (t : Pc) : Nat :=
  if t.stage c = some x then 1 else 0

/-- One call stands for the stage of each lease on which a `Release` has begun,
    and none for any other stage. -/
def Staged (s : LimiterPool) : Prop :=
  ∀ c x, x ≠ .fresh →
    load (standing c x) s.threads = if s.shared.stage c = some x then 1 else 0

theorem Staged.stage_eq {s : LimiterPool} (h : Staged s) {i : Nat} {t : Pc}
    (ht : s.threads[i]? = some t) {c : LeaseRef} {x : Stage} (hx : x ≠ .fresh)
    (hst : t.stage c = some x) : s.shared.stage c = some x := by
  have hle := le_load (standing c x) ht
  rw [h c x hx, standing, if_pos hst] at hle
  by_contra hne
  rw [if_neg hne] at hle
  omega

/-- A section leaves lease `c` and its thread's part in it alone, gives the lease
    out, or takes lease and thread from one stage to the next. -/
inductive StageMove (before after : Option Stage) (t t' : Option Stage) : Prop where
  | same : after = before → t' = t → StageMove before after t t'
  | created : before = none → after = some .fresh → t' = t → StageMove before after t t'
  | moved (x y : Stage) : x ≠ .over → y ≠ .fresh → x ≠ y → before = some x →
      after = some y → t = (if x = .fresh then none else some x) → t' = some y →
      StageMove before after t t'

/-- A lease replaced by its next stage. -/
theorem stageMove_set {σ : Shared} {d : LeaseRef} {l : Lease} {t t' : Pc} {x y : Stage}
    (hl : σ.leases[d]? = some l) (hx : l.stage = x) (hxo : x ≠ .over) (hyf : y ≠ .fresh)
    (hxy : x ≠ y)
    (ht : ∀ c, t.stage c = if d = c then (if x = .fresh then none else some x) else none)
    (ht' : ∀ c, t'.stage c = if d = c then some y else none)
    (limiter : ConnectionLimiter) (c : LeaseRef) :
    StageMove (σ.stage c) (Shared.stage ⟨limiter, σ.leases.set d { l with stage := y }⟩ c)
      (t.stage c) (t'.stage c) := by
  have hlt := (List.getElem?_eq_some_iff.mp hl).1
  rw [ht, ht', Shared.stage, Shared.stage, List.getElem?_set]
  by_cases hdc : d = c
  · subst hdc
    rw [if_pos rfl, if_pos rfl, if_pos rfl, if_pos hlt, hl]
    exact StageMove.moved x y hxo hyf hxy (congrArg some hx) rfl rfl rfl
  · rw [if_neg hdc, if_neg hdc, if_neg hdc]
    exact StageMove.same rfl rfl

theorem moves_stage {σ σ' : Shared} {t t' : Pc} (h : Moves σ t σ' t')
    (hst : ∀ c x, x ≠ .fresh → t.stage c = some x → σ.stage c = some x) (c : LeaseRef) :
    StageMove (σ.stage c) (σ'.stage c) (t.stage c) (t'.stage c) := by
  -- a thread inside a lease knows the stage of that lease
  have known : ∀ {d : LeaseRef} {l : Lease} {x : Stage}, σ.leases[d]? = some l →
      x ≠ .fresh → t.stage d = some x → l.stage = x := by
    intro d l x hl hx ht
    have := hst d x hx ht
    rw [Shared.stage, hl] at this
    exact Option.some.inj this
  cases h with
  | refused remote r _ => exact StageMove.same rfl rfl
  | onceOver d l _ _ => exact StageMove.same rfl rfl
  | acquired remote limiter lease _ =>
      rw [Shared.stage, Shared.stage, getElem?_snoc]
      by_cases hc : c = σ.leases.length
      · subst hc
        rw [if_pos rfl, List.getElem?_eq_none (Nat.le_refl _)]
        exact StageMove.created rfl rfl rfl
      · rw [if_neg hc]
        exact StageMove.same rfl rfl
  | onceTaken d l hl hfresh =>
      exact stageMove_set hl hfresh (by decide) (by decide) (by decide)
        (fun c => by simp [Pc.stage]) (fun c => rfl) σ.limiter c
  | returned d l hl =>
      have hx : l.stage = .slot := known hl (by decide) (if_pos rfl)
      exact stageMove_set hl hx (by decide) (by decide) (by decide) (fun c => rfl)
        (fun c => rfl) _ c
  | ended d l hl =>
      have hx : l.stage = .ended := known hl (by decide) (if_pos rfl)
      exact stageMove_set hl hx (by decide) (by decide) (by decide) (fun c => rfl)
        (fun c => rfl) σ.limiter c

/-- **STAGES**: under every interleaving each lease on which a `Release` has
    begun has one call that stands for its stage. -/
theorem staged {l : ConnectionLimiter} {s : LimiterPool} (h : LimiterReach l s) :
    Staged s := by
  refine Reach.invariant (I := Staged) ?_ ?_ h
  · intro c x _
    rfl
  · intro s a s' _ hI _ hs c x hx
    cases a with
    | run i a =>
        obtain ⟨t, σ', t', new, ht, he, rfl⟩ := Machine.step_run hs
        obtain ⟨hm, rfl⟩ := exec_moves he
        have hload := load_set (standing c x) t' ht
        have hbal := hI c x hx
        simp only [standing, List.append_nil] at hload hbal ⊢
        cases moves_stage hm (fun d y hy hst => hI.stage_eq ht hy hst) c with
        | same hσ ht' =>
            rw [ht'] at hload
            rw [hσ]
            omega
        | created hnone hfresh ht' =>
            rw [ht'] at hload
            rw [hnone, if_neg (by simp)] at hbal
            rw [hfresh, if_neg (fun e => hx (Option.some.inj e).symm)]
            omega
        | moved y z _ hz hyz hbefore hafter htx htz =>
            rw [htx, htz] at hload
            rw [hbefore] at hbal
            rw [hafter]
            by_cases hyf : y = .fresh
            · subst hyf
              simp only [if_true, reduceCtorEq, if_false, Option.some.injEq] at hload hbal ⊢
              rw [if_neg (fun e => hx e.symm)] at hbal
              omega
            · simp only [if_neg hyf, Option.some.injEq] at hload hbal ⊢
              omega
    | env e =>
        obtain ⟨σ', new, he, rfl⟩ := Machine.step_env hs
        obtain ⟨rfl, t, rfl, hstart⟩ := outside_new he
        have hzero : standing c x t = 0 := by
          rcases hstart with ⟨remote, rfl⟩ | rfl | ⟨d, rfl⟩ <;> rfl
        rw [load_append, load_cons, load_nil, hzero]
        exact hI c x hx

/-- A call that returned false found the lease released. -/
def Refuted (_ : Nat) (σ : Shared) (t : Pc) : Prop :=
  ∀ c, t = .released (some c) false → σ.stage c = some .over

theorem refuted {l : ConnectionLimiter} {s : LimiterPool} (h : LimiterReach l s) :
    Annotated (fun _ => True) Refuted s := by
  refine Machine.owickiGries (M := limiterMachine) (J := Staged) (fun s hs => staged hs)
    (fun _ => True) Refuted ?_ ?_ ?_ ?_ h
  · exact ⟨trivial, fun i t ht => (by cases ht)⟩
  · intro s i t a σ' t' new _ _ _ he _ _
    obtain ⟨hm, rfl⟩ := exec_moves he
    refine ⟨trivial, ?_, fun n u hu => (by cases hu)⟩
    rintro c rfl
    cases hm with
    | onceOver d l hl hover => rw [Shared.stage, hl, Option.map_some, hover]
  · intro s i j t u a σ' t' new hJ _ ht _ he _ _ hu c hc
    obtain ⟨hm, rfl⟩ := exec_moves he
    have hover := hu c hc
    cases moves_stage hm (fun d x hx hst => hJ.stage_eq ht hx hst) c with
    | same hσ _ => exact hσ.trans hover
    | created hnone _ _ => rw [hnone] at hover; cases hover
    | moved x y hxo _ _ hbefore _ _ _ =>
        exact absurd (Option.some.inj (hbefore.symm.trans hover)) hxo
  · intro s e σ' new _ _ he _
    obtain ⟨rfl, t, rfl, hstart⟩ := outside_new he
    refine ⟨trivial, ?_, fun j u _ hu => hu⟩
    intro n u hu c hc
    rw [List.mem_singleton.mp hu] at hc
    rcases hstart with ⟨remote, rfl⟩ | rfl | ⟨d, rfl⟩ <;> cases hc

/-! ## The books -/

/-- The leases whose slot has not been returned. -/
def Shared.unreleased (σ : Shared) : Nat := σ.leases.countP Lease.unreleased

/-- The counters count the unreleased leases, within the limits, and each lease has the key of the
    address it was acquired for. -/
structure Books (maxTotal maxPerIP : Int) (σ : Shared) : Prop where
  limits : σ.limiter.maxTotal = maxTotal ∧ σ.limiter.maxPerIP = maxPerIP
  counted : Counted Lease.unreleased Lease.ip σ.limiter σ.leases
  keyed : ∀ l ∈ σ.leases, remoteIPKey l.remote = .ok l.ip

section Books

variable {maxTotal maxPerIP : Int} {σ : Shared} {c : LeaseRef} {l : Lease}

/-- A lease in another stage has its key and its address. -/
theorem keyed_set (h : ∀ l ∈ σ.leases, remoteIPKey l.remote = .ok l.ip)
    (hl : σ.leases[c]? = some l) (y : Stage) :
    ∀ k ∈ σ.leases.set c { l with stage := y }, remoteIPKey k.remote = .ok k.ip := by
  intro k hk
  rcases List.mem_or_eq_of_mem_set hk with hold | rfl
  · exact h k hold
  · exact h l (List.mem_of_getElem? hl)

/-- A lease that moves on without returning its slot leaves the books alone. -/
theorem books_restage (h : Books maxTotal maxPerIP σ) (hl : σ.leases[c]? = some l)
    {y : Stage} (hy : Lease.unreleased { l with stage := y } = l.unreleased) :
    Books maxTotal maxPerIP (σ.setLease c { l with stage := y }) :=
  ⟨h.limits, h.counted.keep hl hy rfl, keyed_set h.keyed hl y⟩

/-- A slot goes back. -/
theorem books_return (h : Books maxTotal maxPerIP σ) (hl : σ.leases[c]? = some l)
    (hslot : l.stage = .slot) :
    Books maxTotal maxPerIP
      ⟨σ.limiter.release l.ip, σ.leases.set c { l with stage := .ended }⟩ := by
  have hheld : l.unreleased = true := by simp [Lease.unreleased, hslot]
  exact ⟨h.limits, h.counted.release hl hheld rfl, keyed_set h.keyed hl .ended⟩

/-- A slot is taken. -/
theorem books_acquire (h : Books maxTotal maxPerIP σ) {remote : Addr}
    {limiter : ConnectionLimiter} {lease : ConnectionLease}
    (hok : σ.limiter.acquire (remoteIPKey remote).toOption = .ok (limiter, lease)) :
    Books maxTotal maxPerIP
      ⟨limiter, σ.leases ++ [{ remote := remote, ip := lease.ip }]⟩ := by
  obtain ⟨ip, hkey, rfl, -, -, hlim⟩ := acquire_ok hok
  refine ⟨by rw [hlim]; exact h.limits, h.counted.acquire hok rfl rfl, ?_⟩
  intro k hk
  rcases List.mem_append.mp hk with hold | hlast
  · exact h.keyed k hold
  · rw [List.mem_singleton.mp hlast]
    cases hr : remoteIPKey remote with
    | error e => rw [hr] at hkey; cases hkey
    | ok key =>
        rw [hr] at hkey
        rw [Option.some.inj hkey]

end Books

/-- **BOOKS**: under every interleaving the counters count the unreleased
    leases. -/
theorem books {maxTotal maxPerIP : Int} {l : ConnectionLimiter}
    (hl : newConnectionLimiter maxTotal maxPerIP = .ok l) {s : LimiterPool}
    (h : LimiterReach l s) : Books maxTotal maxPerIP s.shared := by
  refine Reach.invariant (I := fun s : LimiterPool => Books maxTotal maxPerIP s.shared)
    ?_ ?_ h
  · obtain ⟨-, -, rfl⟩ := newConnectionLimiter_ok hl
    exact ⟨⟨rfl, rfl⟩, Counted.new hl, fun l hl => (by cases hl)⟩
  · intro s a s' hr hI _ hs
    cases a with
    | run i a =>
        obtain ⟨t, σ', t', new, ht, he, rfl⟩ := Machine.step_run hs
        obtain ⟨hm, rfl⟩ := exec_moves he
        have hstage : ∀ {c l x}, s.shared.leases[c]? = some l → x ≠ .fresh →
            t.stage c = some x → l.stage = x := by
          intro c l x hl hx hst
          have := (staged hr).stage_eq ht hx hst
          rw [Shared.stage, hl] at this
          exact Option.some.inj this
        cases hm with
        | refused remote r _ => exact hI
        | onceOver c l _ _ => exact hI
        | acquired remote limiter lease hok => exact books_acquire hI hok
        | onceTaken c l hl hfresh =>
            exact books_restage hI hl (by simp [Lease.unreleased, hfresh])
        | returned c l hl =>
            exact books_return hI hl (hstage hl (by decide) (if_pos rfl))
        | ended c l hl =>
            have hend : l.stage = .ended := hstage hl (by decide) (if_pos rfl)
            exact books_restage hI hl (by simp [Lease.unreleased, hend])
    | env e =>
        obtain ⟨σ', new, he, rfl⟩ := Machine.step_env hs
        obtain ⟨rfl, -⟩ := outside_new he
        exact hI

/-! ## The results -/

theorem canonicalKey_v4 {ip : Bytes} (h : ip.length = 4) :
    canonicalKey ip = .ok (text4 ip) := by
  have hne : ip ≠ [] := by
    rintro rfl
    cases h
  have hto : to4 ip = some ip := if_pos h
  simp only [canonicalKey, hto]
  rw [ipString, if_neg hne, if_neg (by omega), hto]

theorem stage_over_iff {c : LeaseRef} {t : Pc} :
    t.stage c = some .over ↔ t = .released (some c) true := by
  constructor
  · intro h
    unfold Pc.stage at h
    split at h
    · split at h <;> cases h
    · split at h <;> cases h
    · split at h
      · rename_i hdc
        rw [hdc]
      · cases h
    · cases h
  · rintro rfl
    exact if_pos rfl

/-- The calls that returned true on a lease. -/
theorem count_released {l : ConnectionLimiter} {s : LimiterPool} (h : LimiterReach l s)
    (c : LeaseRef) :
    s.threads.count (.released (some c) true)
      = if s.shared.stage c = some .over then 1 else 0 := by
  rw [← staged h c .over (by decide), List.count, ← load_one]
  exact load_congr fun t _ => if_congr (beq_iff_eq.trans stage_over_iff.symm) rfl rfl

/-- **LIMITER INVARIANT**: for all limits that are accepted and under every
    interleaving of `Acquire` and `Release`, the total is the sum of the map and
    the number of unreleased leases and within its limit; every entry of the map
    is at least one and within its limit; leases for one IP have one key, an IPv4
    address its dotted text in both forms and with any port; a refused `Acquire`
    changes nothing; and of the calls of `Release` on one lease one returns
    true. -/
theorem limiter_invariant (maxTotal maxPerIP : Int) (l : ConnectionLimiter)
    (hl : newConnectionLimiter maxTotal maxPerIP = .ok l) (s : LimiterPool)
    (h : LimiterReach l s) :
    s.shared.limiter.total = s.shared.limiter.entrySum ∧
    s.shared.limiter.total = s.shared.unreleased ∧
    s.shared.limiter.total ≤ maxTotal ∧
    (∀ ip n, (ip, n) ∈ s.shared.limiter.perIP → 1 ≤ n ∧ n ≤ maxPerIP) ∧
    (∀ x ∈ s.shared.leases, ∀ y ∈ s.shared.leases, SameIP x.remote y.remote → x.ip = y.ip) ∧
    (∀ (ip : Bytes) (port : Int) (zone : Bytes), ip.length = 4 →
      remoteIPKey (.udp ip port zone) = .ok (text4 ip) ∧
      remoteIPKey (.udp (v4InV6 ++ ip) port zone) = .ok (text4 ip) ∧
      remoteIPKey (.tcp ip port zone) = .ok (text4 ip) ∧
      remoteIPKey (.tcp (v4InV6 ++ ip) port zone) = .ok (text4 ip)) ∧
    (∀ i s' remote r, limiterStep s (.run i ()) = some s' →
      s.threads[i]? = some (.acquire remote) → s'.threads[i]? = some (.refused r) →
      s'.shared = s.shared) ∧
    (∀ c, s.threads.count (.released (some c) true) ≤ 1 ∧
      ∀ b, .released (some c) b ∈ s.threads →
        s.threads.count (.released (some c) true) = 1) := by
  have hB := books hl h
  have hC := hB.counted
  obtain ⟨htotal, hper⟩ := hB.limits
  refine ⟨hC.total.trans hC.sum.symm, hC.total, htotal ▸ hC.total_le, ?_, ?_, ?_, ?_, ?_⟩
  · intro ip n hm
    refine ⟨hC.tidy.positive ip n hm, ?_⟩
    rw [← hC.tidy.count_eq hm, ← hper]
    exact hC.count_le ip
  · intro x hx y hy hsame
    have hkey := remoteIPKey_sameIP hsame
    rw [hB.keyed x hx, hB.keyed y hy] at hkey
    exact Except.ok.inj hkey
  · intro ip port zone hlen
    have hv4 := canonicalKey_v4 hlen
    have hmapped := (canonicalKey_congr (to16_mapped hlen)).trans hv4
    exact ⟨hv4, hmapped, hv4, hmapped⟩
  · intro i s' remote r hs ht ht'
    obtain ⟨t, σ', t', new, hi, he, rfl⟩ := Machine.step_run hs
    obtain rfl : t = .acquire remote := Option.some.inj (hi.symm.trans ht)
    have he' : exec s.shared (.acquire remote) () = some (σ', t', new) := he
    obtain ⟨hm, rfl⟩ := exec_moves he'
    cases hm with
    | refused _ _ _ => rfl
    | acquired _ limiter lease _ =>
        -- the call did not end in a refusal
        rcases getElem?_moved ht' with ⟨-, heq⟩ | ⟨hne, -⟩ | hnew
        · cases heq
        · exact absurd rfl hne
        · cases hnew
  · intro c
    rw [count_released h c]
    refine ⟨by split <;> omega, ?_⟩
    intro b hmem
    rw [if_pos]
    obtain ⟨i, hi⟩ := List.getElem?_of_mem hmem
    cases b with
    | true => exact (staged h).stage_eq hi (by decide) (if_pos rfl)
    | false => exact (refuted h).2 i _ hi c rfl

/-- A connection from an IPv4 address fills its limit of one: one from the mapped
    form of the address is refused.  Two calls of `Release` then race for the
    lease. -/
theorem mapped_address_refused :
    ∃ (l : ConnectionLimiter) (s : LimiterPool),
      newConnectionLimiter 2 1 = .ok l ∧ LimiterReach l s ∧
      s.threads = [.acquired 0, .refused .perIP, .released (some 0) true,
        .released (some 0) false] ∧
      s.shared.limiter.total = 0 ∧ s.shared.limiter.total = s.shared.unreleased ∧
      s.threads.count (.released (some 0) true) = 1 := by
  obtain ⟨s, hr, hp⟩ := Reach.of_follow limiterStep anyStep
    ⟨{ limiter := { maxTotal := 2, maxPerIP := 1 } }, []⟩
    [.env (.acquire (.udp [192, 0, 2, 10] 1 [])), .run 0 (),
      .env (.acquire (.tcp (v4InV6 ++ [192, 0, 2, 10]) 2 [])), .run 1 (),
      .env (.release (some 0)), .env (.release (some 0)),
      .run 2 (), .run 2 (), .run 2 (), .run 3 ()]
    (fun s : LimiterPool => decide (s.threads = [.acquired 0, .refused .perIP,
      .released (some 0) true, .released (some 0) false] ∧ s.shared.limiter.total = 0))
    (by decide)
  obtain ⟨hthreads, htotal⟩ := of_decide_eq_true hp
  have hinv := limiter_invariant 2 1 { maxTotal := 2, maxPerIP := 1 } rfl s hr
  refine ⟨_, s, rfl, hr, hthreads, htotal, hinv.2.1, ?_⟩
  refine (hinv.2.2.2.2.2.2.2 0).2 true ?_
  rw [hthreads]
  decide

end VkTurnLimiterRun
