import Mathlib.Data.UInt
import VkTurn.GoTimeProofs
import VkTurn.MetricsProofs

/-! # Traffic accounting

    Every observation adds to a counter of its path and to the same counter of the process,
    one atomic operation at a time and without a lock.  An observation is the LIST of the
    atomic operations it still has to make; the two maxima are raised by a
    load / compare-and-swap loop.

    * For a sum, a thread between its two additions owes the process what its path has
      got.  Debts are elements of a group (`uint64`, modulo 2^64), and
      `Machine.reach_sums` says that paths minus process is what is owed.
    * For a maximum, nothing is owed but something is PENDING: an observed value is
      reached by the counter or some thread still has to raise it (`Covered`), and the
      counter never shows a value that was not observed (`Witnessed`). -/

namespace VkTurnAccounting

open ThreadPool GoText GoTime VkTurnMetrics

/-! ## Counters -/

/-- The counters that are sums. -/
inductive Field where
  | bytesRead
  | bytesWritten
  | readOperations
  | writeOperations
  | readErrors
  | writeErrors
  | writeLatencySamples
  | writeLatencyTotalNS
  deriving DecidableEq, Repr

/-- The value of a counter. -/
def Field.of (c : Counters) : Field → UInt64
  | .bytesRead => c.bytesRead
  | .bytesWritten => c.bytesWritten
  | .readOperations => c.readOperations
  | .writeOperations => c.writeOperations
  | .readErrors => c.readErrors
  | .writeErrors => c.writeErrors
  | .writeLatencySamples => c.writeLatencySamples
  | .writeLatencyTotalNS => c.writeLatencyTotalNS

/-- `counter.Add(v)`. -/
def Field.add (v : UInt64) (c : Counters) : Field → Counters
  | .bytesRead => { c with bytesRead := c.bytesRead + v }
  | .bytesWritten => { c with bytesWritten := c.bytesWritten + v }
  | .readOperations => { c with readOperations := c.readOperations + v }
  | .writeOperations => { c with writeOperations := c.writeOperations + v }
  | .readErrors => { c with readErrors := c.readErrors + v }
  | .writeErrors => { c with writeErrors := c.writeErrors + v }
  | .writeLatencySamples => { c with writeLatencySamples := c.writeLatencySamples + v }
  | .writeLatencyTotalNS => { c with writeLatencyTotalNS := c.writeLatencyTotalNS + v }

/-- An addition is to its own counter. -/
theorem of_add (f g : Field) (v : UInt64) (c : Counters) :
    f.of (g.add v c) = f.of c + if g = f then v else 0 := by
  cases g <;> cases f <;> first
    | rfl
    | exact (add_zero _).symm

theorem max_add (g : Field) (v : UInt64) (c : Counters) :
    (g.add v c).writeLatencyMaxNS = c.writeLatencyMaxNS := by
  cases g <;> rfl

theorem of_max (f : Field) (v : UInt64) (c : Counters) :
    f.of { c with writeLatencyMaxNS := v } = f.of c := by
  cases f <;> rfl

/-- Whose counters. -/
inductive Loc where
  | path (p : PathRef)
  | process
  deriving DecidableEq, Repr

/-- The counters at a place. -/
def countersAt (σ : Store) : Loc → Option Counters
  | .path p => (σ.heap[p]?).map Path.counters
  | .process => some σ.reg.counters

/-- Replace the counters at a place. -/
def setCounters (σ : Store) (c : Counters) : Loc → Store
  | .path p =>
      match σ.heap[p]? with
      | none => σ
      | some path => { σ with heap := σ.heap.set p { path with counters := c } }
  | .process => { σ with reg := { σ.reg with counters := c } }

/-- Closing changes no counter. -/
theorem close_counters (σ : Store) (p : Option PathRef) :
    (σ.close p).heap.map Path.counters = σ.heap.map Path.counters ∧
      (σ.close p).reg.counters = σ.reg.counters := by
  unfold Store.close
  split
  · exact ⟨rfl, rfl⟩
  · rename_i p
    split
    · exact ⟨rfl, rfl⟩
    · rename_i path hpath
      split
      · exact ⟨rfl, rfl⟩
      · have hmark : (σ.markClosed p path).heap.map Path.counters = σ.heap.map Path.counters := by
          obtain ⟨hlt, rfl⟩ := List.getElem?_eq_some_iff.mp hpath
          rw [Store.markClosed, List.map_set]
          refine List.ext_getElem? fun q => ?_
          by_cases hq : p = q
          · subst hq
            rw [List.getElem?_set_self (by rw [List.length_map]; exact hlt), List.getElem?_map,
              hpath]
            rfl
          · rw [List.getElem?_set_ne hq]
        simp only
        split
        · exact ⟨hmark, rfl⟩
        · exact ⟨hmark, rfl⟩

/-! ## Observations -/

/-- One atomic operation of an observation; `maximum` is a call of `updateMaximum`. -/
inductive AtomicOp where
  | add (loc : Loc) (f : Field) (v : UInt64)
  | maximum (loc : Loc) (v : UInt64)
  deriving DecidableEq, Repr

/-- A counter of the path, then the same one of the registry. -/
def both (p : PathRef) (f : Field) (v : UInt64) : List AtomicOp :=
  [.add (.path p) f v, .add .process f v]

/-- `uint64(n)`, of an `int` that is positive. -/
def uint64 (n : Int) : UInt64 := UInt64.ofNat n.toNat

/-- `ObserveRead`. -/
def observeRead (p : PathRef) (n : Int) (err : Bool) : List AtomicOp :=
  both p .readOperations 1 ++
    (if n > 0 then both p .bytesRead (uint64 n) else []) ++
    (if err then both p .readErrors 1 else [])

/-- The nanoseconds that `observeWriteLatency` records: a negative time counts as none. -/
def latencyNS (elapsed : Duration) : UInt64 :=
  let elapsed := if elapsed < 0 then 0 else elapsed
  uint64 elapsed.toInt

/-- `observeWriteLatency`. -/
def observeWriteLatency (p : PathRef) (elapsed : Duration) : List AtomicOp :=
  [.add (.path p) .writeLatencySamples 1,
    .add (.path p) .writeLatencyTotalNS (latencyNS elapsed),
    .add .process .writeLatencySamples 1,
    .add .process .writeLatencyTotalNS (latencyNS elapsed),
    .maximum (.path p) (latencyNS elapsed), .maximum .process (latencyNS elapsed)]

/-- `ObserveWrite`.  `sampled` is `time.Since(started)`, if `started` is not zero. -/
def observeWrite (p : PathRef) (sampled : Option Duration) (n : Int) (err : Bool) :
    List AtomicOp :=
  both p .writeOperations 1 ++
    (if n > 0 then both p .bytesWritten (uint64 n) else []) ++
    (if err then both p .writeErrors 1 else []) ++
    (match sampled with
      | some elapsed => observeWriteLatency p elapsed
      | none => [])

/-! ## The machine -/

/-- The store, and the latencies observed so far with their paths. -/
structure Shared where
  store : Store := {}
  observed : List (PathRef × UInt64) := []

/-- Where a call is: `OpenPath` before and after it has drawn its number, `Close`, an
    observation with the operations left to it, and `updateMaximum` between its load and
    its compare-and-swap. -/
inductive Pc where
  | drawing (label : Bytes)
  | entering (id : UInt64) (label : Bytes)
  | closing (p : Option PathRef)
  | observing (rest : List AtomicOp)
  | swapping (loc : Loc) (current value : UInt64) (rest : List AtomicOp)
  | returned
  deriving DecidableEq, Repr

/-- A call from outside, on a path that exists; a nil path is left out of the books. -/
inductive Op where
  | openPath (label : Bytes)
  | close (p : Option PathRef)
  | observeRead (p : Option PathRef) (n : Int) (err : Bool)
  | observeWrite (p : Option PathRef) (sampled : Option Duration) (n : Int) (err : Bool)
  | observeWriteLatency (p : PathRef) (elapsed : Duration)
  deriving DecidableEq

/-- One atomic section. -/
def exec (σ : Shared) : Pc → Option (Shared × Pc)
  | .drawing label =>
      some ({ σ with store := σ.store.drawID.1 }, .entering σ.store.drawID.2 label)
  | .entering id label => some ({ σ with store := σ.store.enter id label }, .returned)
  | .closing p => some ({ σ with store := σ.store.close p }, .returned)
  | .observing [] => some (σ, .returned)
  | .observing (.add loc f v :: rest) =>
      match countersAt σ.store loc with
      | none => none
      | some c => some ({ σ with store := setCounters σ.store (f.add v c) loc }, .observing rest)
  | .observing (.maximum loc v :: rest) =>
      match countersAt σ.store loc with
      | none => none
      | some c =>
          if v > c.writeLatencyMaxNS then some (σ, .swapping loc c.writeLatencyMaxNS v rest)
          else some (σ, .observing rest)
  | .swapping loc current v rest =>
      match countersAt σ.store loc with
      | none => none
      | some c =>
          if c.writeLatencyMaxNS = current then
            some ({ σ with store := setCounters σ.store { c with writeLatencyMaxNS := v } loc },
              .observing rest)
          else some (σ, .observing (.maximum loc v :: rest))
  | .returned => none

/-- The path of a call is one that was opened. -/
def Shared.has (σ : Shared) (p : PathRef) : Bool := decide (p < σ.store.heap.length)

/-- One more latency, if the write was sampled. -/
def Shared.sample (σ : Shared) (p : PathRef) : Option Duration → Shared
  | some elapsed => { σ with observed := σ.observed ++ [(p, latencyNS elapsed)] }
  | none => σ

/-- A new call. -/
def outside (σ : Shared) : Op → Option (Shared × List Pc)
  | .openPath label => some (σ, [.drawing label])
  | .close p => some (σ, [.closing p])
  | .observeRead none _ _ => some (σ, [.returned])
  | .observeRead (some p) n err =>
      if σ.has p then some (σ, [.observing (observeRead p n err)]) else none
  | .observeWrite none _ _ _ => some (σ, [.returned])
  | .observeWrite (some p) sampled n err =>
      if σ.has p then some (σ.sample p sampled, [.observing (observeWrite p sampled n err)])
      else none
  | .observeWriteLatency p elapsed =>
      if σ.has p then
        some (σ.sample p (some elapsed), [.observing (observeWriteLatency p elapsed)])
      else none

def accountMachine : Machine Shared Pc Unit Op where
  exec _ σ t _ := (exec σ t).map fun r => (r.1, r.2, [])
  env := outside

/-- A registry and the calls inside it. -/
abbrev Accounts := Pool Shared Pc

def accountStep : Accounts → Act Unit Op → Option Accounts := accountMachine.step

/-- Every state of a registry, under every interleaving of atomic operations. -/
abbrev AccountReach : Accounts → Prop := Reach accountStep anyStep ⟨{}, []⟩

/-! ## What a section can do -/

/-- Sections, one constructor per branch. -/
inductive Moves (σ : Shared) : Pc → Shared → Pc → Prop where
  | drew (label : Bytes) :
      Moves σ (.drawing label) { σ with store := σ.store.drawID.1 }
        (.entering σ.store.drawID.2 label)
  | entered (id : UInt64) (label : Bytes) :
      Moves σ (.entering id label) { σ with store := σ.store.enter id label } .returned
  | closed (p : Option PathRef) :
      Moves σ (.closing p) { σ with store := σ.store.close p } .returned
  | ended : Moves σ (.observing []) σ .returned
  | added {loc : Loc} {c : Counters} (f : Field) (v : UInt64) (rest : List AtomicOp) :
      countersAt σ.store loc = some c →
      Moves σ (.observing (.add loc f v :: rest))
        { σ with store := setCounters σ.store (f.add v c) loc } (.observing rest)
  | reached {loc : Loc} {c : Counters} {v : UInt64} (rest : List AtomicOp) :
      countersAt σ.store loc = some c → v ≤ c.writeLatencyMaxNS →
      Moves σ (.observing (.maximum loc v :: rest)) σ (.observing rest)
  | loaded {loc : Loc} {c : Counters} {v : UInt64} (rest : List AtomicOp) :
      countersAt σ.store loc = some c → c.writeLatencyMaxNS < v →
      Moves σ (.observing (.maximum loc v :: rest)) σ (.swapping loc c.writeLatencyMaxNS v rest)
  | swapped {loc : Loc} {c : Counters} (v : UInt64) (rest : List AtomicOp) :
      countersAt σ.store loc = some c →
      Moves σ (.swapping loc c.writeLatencyMaxNS v rest)
        { σ with store := setCounters σ.store { c with writeLatencyMaxNS := v } loc }
        (.observing rest)
  | retried {loc : Loc} (current v : UInt64) (rest : List AtomicOp) :
      Moves σ (.swapping loc current v rest) σ (.observing (.maximum loc v :: rest))

/-- A section does one of the listed moves. -/
theorem exec_moves {σ σ' : Shared} {t t' : Pc} (h : exec σ t = some (σ', t')) :
    Moves σ t σ' t' := by
  unfold exec at h
  split at h
  · cases h
    exact Moves.drew _
  · cases h
    exact Moves.entered _ _
  · cases h
    exact Moves.closed _
  · cases h
    exact Moves.ended
  · split at h
    · cases h
    · cases h
      exact Moves.added _ _ _ ‹_›
  · split at h
    · cases h
    · split at h
      · cases h
        exact Moves.loaded _ ‹_› ‹_›
      · cases h
        exact Moves.reached _ ‹_› (UInt64.not_lt.mp ‹_›)
  · split at h
    · cases h
    · split at h
      · subst_vars
        cases h
        exact Moves.swapped _ _ ‹_›
      · cases h
        exact Moves.retried _ _ _
  · cases h

theorem machine_moves {i : Nat} {σ σ' : Shared} {t t' : Pc} {a : Unit} {new : List Pc}
    (h : accountMachine.exec i σ t a = some (σ', t', new)) : Moves σ t σ' t' ∧ new = [] := by
  obtain ⟨⟨σ₁, t₁⟩, hr, he⟩ := Option.map_eq_some_iff.mp h
  cases he
  exact ⟨exec_moves hr, rfl⟩

/-- A new call, with the latency it observes. -/
inductive Happens (σ : Shared) : Shared → List Pc → Prop where
  | quiet (t : Pc) : (∀ rest, t ≠ .observing rest) → (∀ l c v rest, t ≠ .swapping l c v rest) →
      Happens σ σ [t]
  | read (p : PathRef) (n : Int) (err : Bool) : p < σ.store.heap.length →
      Happens σ σ [.observing (observeRead p n err)]
  | write (p : PathRef) (sampled : Option Duration) (n : Int) (err : Bool) :
      p < σ.store.heap.length →
      Happens σ (σ.sample p sampled) [.observing (observeWrite p sampled n err)]
  | latency (p : PathRef) (elapsed : Duration) : p < σ.store.heap.length →
      Happens σ (σ.sample p (some elapsed)) [.observing (observeWriteLatency p elapsed)]

/-- A new call is one of the listed ones. -/
theorem outside_happens {σ σ' : Shared} {e : Op} {new : List Pc}
    (h : outside σ e = some (σ', new)) : Happens σ σ' new := by
  unfold outside at h
  split at h
  · cases h
    exact Happens.quiet _ (by simp) (by simp)
  · cases h
    exact Happens.quiet _ (by simp) (by simp)
  · cases h
    exact Happens.quiet _ (by simp) (by simp)
  · split at h
    · cases h
      exact Happens.read _ _ _ (of_decide_eq_true ‹_›)
    · cases h
  · cases h
    exact Happens.quiet _ (by simp) (by simp)
  · split at h
    · cases h
      exact Happens.write _ _ _ _ (of_decide_eq_true ‹_›)
    · cases h
  · split at h
    · cases h
      exact Happens.latency _ _ (of_decide_eq_true ‹_›)
    · cases h

/-! ## Sums -/

/-- What the paths have of a counter that the process has not. -/
def surplus (f : Field) (σ : Store) : UInt64 :=
  total (fun path : Path => f.of path.counters) σ.heap - f.of σ.reg.counters

/-- What the process still has to get of a counter, and the paths not any more. -/
def AtomicOp.owed (f : Field) : AtomicOp → UInt64
  | .add (.path _) g v => if g = f then -v else 0
  | .add .process g v => if g = f then v else 0
  | .maximum _ _ => 0

theorem AtomicOp.owed_path (f g : Field) (p : PathRef) (v : UInt64) :
    AtomicOp.owed f (.add (.path p) g v) = -(if g = f then v else 0) := by
  rw [AtomicOp.owed]
  split
  · rfl
  · exact neg_zero.symm

theorem AtomicOp.owed_process (f g : Field) (v : UInt64) :
    AtomicOp.owed f (.add .process g v) = if g = f then v else 0 := rfl

theorem AtomicOp.owed_maximum (f : Field) (loc : Loc) (v : UInt64) :
    AtomicOp.owed f (.maximum loc v) = 0 := rfl

def Pc.owed (f : Field) : Pc → UInt64
  | .observing rest => total (AtomicOp.owed f) rest
  | .swapping _ _ _ rest => total (AtomicOp.owed f) rest
  | _ => 0

/-- What a pair of additions owes cancels out. -/
theorem both_balanced (f : Field) (p : PathRef) (g : Field) (v : UInt64) :
    total (AtomicOp.owed f) (both p g v) = 0 := by
  rw [both, total_cons, total_cons, total_nil, add_zero, AtomicOp.owed_path, AtomicOp.owed_process,
    neg_add_cancel]

/-- Two pairs, taken apart, and two maxima. -/
theorem observeWriteLatency_balanced (f : Field) (p : PathRef) (elapsed : Duration) :
    total (AtomicOp.owed f) (observeWriteLatency p elapsed) = 0 := by
  have hsamples := both_balanced f p .writeLatencySamples 1
  have htotal := both_balanced f p .writeLatencyTotalNS (latencyNS elapsed)
  rw [both, total_cons, total_cons, total_nil, add_zero] at hsamples htotal
  calc total (AtomicOp.owed f) (observeWriteLatency p elapsed)
      = (AtomicOp.owed f (.add (.path p) .writeLatencySamples 1)
          + AtomicOp.owed f (.add .process .writeLatencySamples 1))
        + (AtomicOp.owed f (.add (.path p) .writeLatencyTotalNS (latencyNS elapsed))
          + AtomicOp.owed f (.add .process .writeLatencyTotalNS (latencyNS elapsed))) := by
        rw [observeWriteLatency, total_cons, total_cons, total_cons, total_cons, total_cons,
          total_cons, total_nil, AtomicOp.owed_maximum, AtomicOp.owed_maximum]
        abel
    _ = 0 := by rw [hsamples, htotal, add_zero]

/-- Every observation adds the same to its path and to the process. -/
theorem observeRead_balanced (f : Field) (p : PathRef) (n : Int) (err : Bool) :
    total (AtomicOp.owed f) (observeRead p n err) = 0 := by
  rw [observeRead, total_append, total_append, both_balanced]
  split <;> split <;> simp only [both_balanced, total_nil, add_zero]

theorem observeWrite_balanced (f : Field) (p : PathRef) (sampled : Option Duration) (n : Int)
    (err : Bool) : total (AtomicOp.owed f) (observeWrite p sampled n err) = 0 := by
  unfold observeWrite
  rw [total_append, total_append, total_append, both_balanced]
  split <;> split <;> split <;>
    simp only [both_balanced, observeWriteLatency_balanced, total_nil, add_zero]

section Surplus

variable {f : Field} {σ : Store}

/-- Another path in the place of one. -/
theorem surplus_set {p : PathRef} {path : Path} (hp : σ.heap[p]? = some path) (path' : Path) :
    surplus f { σ with heap := σ.heap.set p path' } + f.of path.counters
      = surplus f σ + f.of path'.counters := by
  have hset := total_set (fun path : Path => f.of path.counters) path' hp
  rw [surplus, surplus, sub_add_eq_add_sub, sub_add_eq_add_sub, hset]

/-- A new path has counted nothing. -/
theorem surplus_enter (id : UInt64) (label : Bytes) :
    surplus f (σ.enter id label) = surplus f σ := by
  have hzero : f.of ({ id := id, label := label } : Path).counters = 0 := by cases f <;> rfl
  rw [surplus, Store.enter, total_append, total_cons, total_nil, add_zero, hzero, add_zero]
  rfl

/-- A closed path keeps its counters. -/
theorem surplus_close (p : Option PathRef) : surplus f (σ.close p) = surplus f σ := by
  obtain ⟨hheap, hreg⟩ := close_counters σ p
  have hsum : ∀ heap : List Path, total (fun path : Path => f.of path.counters) heap
      = ((heap.map Path.counters).map f.of).sum := fun heap => by rw [total, List.map_map]; rfl
  rw [surplus, surplus, hsum, hsum, hheap, hreg]

end Surplus

/-- **ONE SECTION AND THE DEBTS**: what the paths have more than the process changes
    by what the acting thread owes more or less. -/
theorem moves_surplus (f : Field) {σ σ' : Shared} {t t' : Pc} (h : Moves σ t σ' t') :
    surplus f σ'.store + t.owed f = surplus f σ.store + t'.owed f := by
  cases h with
  | drew label => rfl
  | entered id label => rw [surplus_enter]; rfl
  | closed p => rw [surplus_close]; rfl
  | ended => rfl
  | @added loc c g v rest hc =>
      show surplus f (setCounters σ.store (g.add v c) loc)
          + total (AtomicOp.owed f) (.add loc g v :: rest)
        = surplus f σ.store + total (AtomicOp.owed f) rest
      rw [total_cons]
      cases loc with
      | path p =>
          obtain ⟨path, hpath, rfl⟩ := Option.map_eq_some_iff.mp hc
          have hset := surplus_set (f := f) hpath { path with counters := g.add v path.counters }
          rw [of_add, add_left_comm, add_comm, add_left_cancel_iff] at hset
          simp only [setCounters, hpath]
          rw [hset, AtomicOp.owed_path]
          abel
      | process =>
          obtain rfl := Option.some.inj hc
          rw [surplus, surplus, AtomicOp.owed_process]
          show total _ σ.store.heap - f.of (g.add v σ.store.reg.counters) + _ = _
          rw [of_add]
          abel
  | reached rest _ _ =>
      show _ + total (AtomicOp.owed f) (_ :: rest) = _ + total (AtomicOp.owed f) rest
      rw [total_cons, AtomicOp.owed_maximum, zero_add]
  | loaded rest _ _ =>
      show _ + total (AtomicOp.owed f) (_ :: rest) = _ + total (AtomicOp.owed f) rest
      rw [total_cons, AtomicOp.owed_maximum, zero_add]
  | @swapped loc c v rest hc =>
      show surplus f (setCounters σ.store { c with writeLatencyMaxNS := v } loc) + _
        = surplus f σ.store + _
      refine congrArg (· + total (AtomicOp.owed f) rest) ?_
      cases loc with
      | path p =>
          obtain ⟨path, hpath, rfl⟩ := Option.map_eq_some_iff.mp hc
          have hset := surplus_set (f := f) hpath
            { path with counters := { path.counters with writeLatencyMaxNS := v } }
          rw [of_max] at hset
          simp only [setCounters, hpath]
          exact add_right_cancel hset
      | process =>
          obtain rfl := Option.some.inj hc
          rw [surplus, surplus]
          exact congrArg (total _ σ.store.heap - ·) (of_max f v _)
  | retried current v rest =>
      show _ + total (AtomicOp.owed f) rest = _ + total (AtomicOp.owed f) (_ :: rest)
      rw [total_cons, AtomicOp.owed_maximum, zero_add]

/-- An observation starts balanced, and starting it changes no counter. -/
theorem happens_surplus (f : Field) {σ σ' : Shared} {new : List Pc} (h : Happens σ σ' new) :
    surplus f σ'.store = surplus f σ.store + total (Pc.owed f) new := by
  cases h with
  | quiet t hobs hswap =>
      have hnone : t.owed f = 0 := by
        unfold Pc.owed
        split
        · exact absurd rfl (hobs _)
        · exact absurd rfl (hswap _ _ _ _)
        · rfl
      rw [total_cons, total_nil, hnone, add_zero, add_zero]
  | read p n err _ =>
      rw [total_cons, total_nil, add_zero, Pc.owed, observeRead_balanced, add_zero]
  | write p sampled n err _ =>
      rw [total_cons, total_nil, add_zero, Pc.owed, observeWrite_balanced, add_zero]
      cases sampled <;> rfl
  | latency p elapsed _ =>
      rw [total_cons, total_nil, add_zero, Pc.owed, observeWriteLatency_balanced, add_zero]
      rfl

/-- **DEBTS ON EVERY RUN**: what the paths have of a counter and the process has not is
    what the observations in progress still owe. -/
theorem reach_surplus {s : Accounts} (h : AccountReach s) (f : Field) :
    surplus f s.shared.store = total (Pc.owed f) s.threads := by
  refine @Machine.reach_sums _ _ _ _ accountMachine anyStep ⟨{}, []⟩ _ _ (fun _ => True)
    (fun _ _ => trivial) (fun σ => surplus f σ.store) (Pc.owed f) ?_ ?_ ?_ s h
  · cases f <;> rfl
  · intro s i t a σ' t' new _ _ he
    obtain ⟨hmoves, rfl⟩ := machine_moves he
    rw [total_nil, add_zero]
    exact moves_surplus f hmoves
  · intro s e σ' new _ he
    exact happens_surplus f (outside_happens he)

/-! ## Maxima -/

/-- The latencies observed at a place. -/
def valuesAt (σ : Shared) : Loc → List UInt64
  | .path p => (σ.observed.filter fun e => decide (e.1 = p)).map Prod.snd
  | .process => σ.observed.map Prod.snd

theorem mem_valuesAt_path {σ : Shared} {p : PathRef} {v : UInt64} :
    v ∈ valuesAt σ (.path p) ↔ (p, v) ∈ σ.observed := by
  simp [valuesAt]

theorem mem_valuesAt_process {σ : Shared} {v : UInt64} :
    v ∈ valuesAt σ .process ↔ ∃ p, (p, v) ∈ σ.observed := by
  simp [valuesAt]

/-- More observations, more values. -/
theorem valuesAt_mono {σ σ' : Shared} (h : ∀ e ∈ σ.observed, e ∈ σ'.observed) {loc : Loc}
    {v : UInt64} (hv : v ∈ valuesAt σ loc) : v ∈ valuesAt σ' loc := by
  cases loc with
  | path p => exact mem_valuesAt_path.mpr (h _ (mem_valuesAt_path.mp hv))
  | process =>
      obtain ⟨p, hp⟩ := mem_valuesAt_process.mp hv
      exact mem_valuesAt_process.mpr ⟨p, h _ hp⟩

theorem valuesAt_congr {σ σ' : Shared} (h : σ'.observed = σ.observed) (loc : Loc) :
    valuesAt σ' loc = valuesAt σ loc := by
  cases loc <;> rw [valuesAt, valuesAt, h]

/-- The maximum that an operation is there to raise. -/
def AtomicOp.raises : AtomicOp → Option (Loc × UInt64)
  | .maximum loc v => some (loc, v)
  | .add _ _ _ => none

/-- The maxima that a call has still to raise. -/
def Pc.pending : Pc → List (Loc × UInt64)
  | .observing rest => rest.filterMap AtomicOp.raises
  | .swapping loc _ v rest => (loc, v) :: rest.filterMap AtomicOp.raises
  | _ => []

/-- `updateMaximum` swaps in a larger value only. -/
def Pc.Ascends : Pc → Prop
  | .swapping _ current v _ => current < v
  | _ => True

section Places

variable {σ : Store}

/-- Counters are set at one place. -/
theorem countersAt_set {loc : Loc} {c : Counters} (hc : countersAt σ loc = some c)
    (c' : Counters) (loc' : Loc) :
    countersAt (setCounters σ c' loc) loc' = if loc' = loc then some c' else countersAt σ loc' := by
  cases loc with
  | process => cases loc' <;> rfl
  | path p =>
      obtain ⟨path, hpath, rfl⟩ := Option.map_eq_some_iff.mp hc
      simp only [setCounters, hpath]
      cases loc' with
      | process => rfl
      | path q =>
          rw [countersAt, countersAt, List.getElem?_set]
          by_cases hq : p = q
          · have hlt : p < σ.heap.length := (List.getElem?_eq_some_iff.mp hpath).1
            rw [if_pos hq, if_pos hlt, if_pos (congrArg Loc.path hq.symm)]
            rfl
          · have hne : Loc.path q ≠ .path p := fun e => hq (Loc.path.inj e).symm
            rw [if_neg hq, if_neg hne]

/-- A new path is the only new place. -/
theorem countersAt_enter (id : UInt64) (label : Bytes) (loc : Loc) :
    countersAt (σ.enter id label) loc
      = if loc = .path σ.heap.length then some {} else countersAt σ loc := by
  cases loc with
  | process => rfl
  | path q =>
      show ((σ.heap ++ [_])[q]?).map Path.counters = _
      rw [getElem?_snoc]
      by_cases hq : q = σ.heap.length
      · rw [if_pos hq, if_pos (congrArg Loc.path hq)]
        rfl
      · have hne : Loc.path q ≠ .path σ.heap.length := fun e => hq (Loc.path.inj e)
        rw [if_neg hq, if_neg hne, countersAt]

theorem countersAt_close (p : Option PathRef) (loc : Loc) :
    countersAt (σ.close p) loc = countersAt σ loc := by
  obtain ⟨hheap, hreg⟩ := close_counters σ p
  cases loc with
  | path q => rw [countersAt, countersAt, ← List.getElem?_map, ← List.getElem?_map, hheap]
  | process => rw [countersAt, countersAt, hreg]

end Places

/-- A counter that kept its maximum, or that was set. -/
theorem countersAt_set_cases {σ : Store} {loc loc' : Loc} {c c₁ c' : Counters}
    (hc : countersAt σ loc = some c) (hc' : countersAt (setCounters σ c₁ loc) loc' = some c') :
    (loc' = loc ∧ c' = c₁) ∨ countersAt σ loc' = some c' := by
  rw [countersAt_set hc] at hc'
  split at hc'
  · exact Or.inl ⟨‹_›, (Option.some.inj hc').symm⟩
  · exact Or.inr hc'

/-- **ONE SECTION AND THE MAXIMA**: a maximum that changes rises to a value that the
    acting thread had pending, and a place that appears has no maximum yet. -/
theorem moves_maximum {σ σ' : Shared} {t t' : Pc} (h : Moves σ t σ' t') (ht : t.Ascends)
    {loc : Loc} {c' : Counters} (hc' : countersAt σ'.store loc = some c') :
    (loc = .path σ.store.heap.length ∧ c'.writeLatencyMaxNS = 0) ∨
      ∃ c, countersAt σ.store loc = some c ∧ c.writeLatencyMaxNS ≤ c'.writeLatencyMaxNS ∧
        (c'.writeLatencyMaxNS = c.writeLatencyMaxNS ∨ (loc, c'.writeLatencyMaxNS) ∈ t.pending) := by
  have hsame : ∀ {c}, countersAt σ.store loc = some c →
      c'.writeLatencyMaxNS = c.writeLatencyMaxNS →
      ∃ c, countersAt σ.store loc = some c ∧ c.writeLatencyMaxNS ≤ c'.writeLatencyMaxNS ∧
        (c'.writeLatencyMaxNS = c.writeLatencyMaxNS ∨ (loc, c'.writeLatencyMaxNS) ∈ t.pending) :=
    fun hc e => ⟨_, hc, e ▸ UInt64.le_refl _, Or.inl e⟩
  cases h with
  | entered id label =>
      replace hc' : countersAt (σ.store.enter id label) loc = some c' := hc'
      rw [countersAt_enter] at hc'
      split at hc'
      · cases hc'
        exact Or.inl ⟨‹_›, rfl⟩
      · exact Or.inr (hsame hc' rfl)
  | closed p =>
      replace hc' : countersAt (σ.store.close p) loc = some c' := hc'
      rw [countersAt_close] at hc'
      exact Or.inr (hsame hc' rfl)
  | added g v rest hc =>
      rcases countersAt_set_cases hc hc' with ⟨rfl, rfl⟩ | hc'
      · exact Or.inr (hsame hc (max_add g v _))
      · exact Or.inr (hsame hc' rfl)
  | swapped v rest hc =>
      rcases countersAt_set_cases hc hc' with ⟨rfl, rfl⟩ | hc'
      · exact Or.inr ⟨_, hc, UInt64.le_of_lt ht, Or.inr List.mem_cons_self⟩
      · exact Or.inr (hsame hc' rfl)
  | _ => exact Or.inr (hsame hc' rfl)

/-- **ONE SECTION AND WHAT IS PENDING**: a value is no longer pending once its maximum
    has reached it. -/
theorem moves_pending {σ σ' : Shared} {t t' : Pc} (h : Moves σ t σ' t') {loc : Loc} {v : UInt64}
    (hv : (loc, v) ∈ t.pending) :
    (loc, v) ∈ t'.pending ∨
      ∀ c', countersAt σ'.store loc = some c' → v ≤ c'.writeLatencyMaxNS := by
  cases h with
  | drew label => cases hv
  | entered id label => cases hv
  | closed p => cases hv
  | ended => cases hv
  | added g v rest hc => exact Or.inl hv
  | @reached loc₁ c v₁ rest hc hle =>
      rcases List.mem_cons.mp hv with e | hv
      · cases e
        exact Or.inr fun c' hc' => Option.some.inj (hc.symm.trans hc') ▸ hle
      · exact Or.inl hv
  | loaded rest _ _ => exact Or.inl hv
  | @swapped loc₁ c v₁ rest hc =>
      rcases List.mem_cons.mp hv with e | hv
      · cases e
        refine Or.inr fun c' hc' => ?_
        replace hc' := (countersAt_set hc { c with writeLatencyMaxNS := v } loc).symm.trans hc'
        rw [if_pos rfl] at hc'
        cases hc'
        exact UInt64.le_refl v
      · exact Or.inl hv
  | retried current v rest => exact Or.inl hv

theorem setCounters_length (σ : Store) (c : Counters) (loc : Loc) :
    (setCounters σ c loc).heap.length = σ.heap.length := by
  cases loc with
  | path p =>
      rw [setCounters]
      split
      · rfl
      · exact List.length_set
  | process => rfl

theorem close_length (σ : Store) (p : Option PathRef) :
    (σ.close p).heap.length = σ.heap.length := by
  have hlen := congrArg List.length (close_counters σ p).1
  rwa [List.length_map, List.length_map] at hlen

/-- Sections observe nothing new, and no path goes away. -/
theorem moves_observed {σ σ' : Shared} {t t' : Pc} (h : Moves σ t σ' t') :
    σ'.observed = σ.observed ∧ σ.store.heap.length ≤ σ'.store.heap.length := by
  cases h with
  | entered id label =>
      refine ⟨rfl, ?_⟩
      show σ.store.heap.length ≤ (σ.store.heap ++ [_]).length
      rw [List.length_append]
      exact Nat.le_add_right _ _
  | closed p => exact ⟨rfl, (close_length σ.store p).ge⟩
  | added g v rest hc => exact ⟨rfl, (setCounters_length _ _ _).ge⟩
  | swapped v rest hc => exact ⟨rfl, (setCounters_length _ _ _).ge⟩
  | _ => exact ⟨rfl, Nat.le_refl _⟩

/-- A maximum is reached from below, so a section ascends again. -/
theorem moves_ascends {σ σ' : Shared} {t t' : Pc} (h : Moves σ t σ' t') : t'.Ascends := by
  cases h with
  | loaded rest _ hlt => exact hlt
  | _ => trivial

/-- Nothing becomes pending on the way. -/
theorem moves_pending_old {σ σ' : Shared} {t t' : Pc} (h : Moves σ t σ' t') {e : Loc × UInt64}
    (he : e ∈ t'.pending) : e ∈ t.pending := by
  cases h with
  | reached rest _ _ => exact List.mem_cons_of_mem _ he
  | swapped v rest _ => exact List.mem_cons_of_mem _ he
  | drew label => cases he
  | entered id label => cases he
  | closed p => cases he
  | _ => exact he

/-- A read, and a write that is not sampled, raise no maximum. -/
theorem observeRead_pending (p : PathRef) (n : Int) (err : Bool) :
    (Pc.observing (observeRead p n err)).pending = [] := by
  unfold observeRead
  split <;> split <;> rfl

theorem observeWrite_pending (p : PathRef) (n : Int) (err : Bool) :
    (Pc.observing (observeWrite p none n err)).pending = [] := by
  unfold observeWrite
  split <;> split <;> rfl

/-- A sampled write raises that of its path, then that of the process. -/
theorem observeWrite_pending_sampled (p : PathRef) (elapsed : Duration) (n : Int) (err : Bool) :
    (Pc.observing (observeWrite p (some elapsed) n err)).pending
      = [(.path p, latencyNS elapsed), (.process, latencyNS elapsed)] := by
  unfold observeWrite
  split <;> split <;> rfl

/-! ## Maxima on every run -/

/-- Only paths that exist are observed, and a maximum is a value observed there. -/
structure Witnessed (σ : Shared) : Prop where
  known : ∀ e ∈ σ.observed, e.1 < σ.store.heap.length
  seen : ∀ loc c, countersAt σ.store loc = some c →
    c.writeLatencyMaxNS = 0 ∨ c.writeLatencyMaxNS ∈ valuesAt σ loc

/-- What is pending was observed. -/
structure Pc.Honest (σ : Shared) (t : Pc) : Prop where
  ascends : t.Ascends
  observed : ∀ e ∈ t.pending, e.2 ∈ valuesAt σ e.1

/-- One more latency on the books. -/
def Shared.observe (σ : Shared) (p : PathRef) (v : UInt64) : Shared :=
  { σ with observed := σ.observed ++ [(p, v)] }

/-- A new latency is one of its path and one of the process. -/
theorem mem_valuesAt_observe {σ : Shared} {p : PathRef} {v w : UInt64} {loc : Loc} :
    w ∈ valuesAt (σ.observe p v) loc ↔
      w ∈ valuesAt σ loc ∨ (w = v ∧ (loc = .path p ∨ loc = .process)) := by
  cases loc with
  | path q =>
      rw [mem_valuesAt_path, mem_valuesAt_path, Shared.observe, List.mem_append,
        List.mem_singleton, Prod.mk.injEq]
      constructor
      · rintro (h | ⟨rfl, rfl⟩)
        · exact Or.inl h
        · exact Or.inr ⟨rfl, Or.inl rfl⟩
      · rintro (h | ⟨rfl, e | e⟩)
        · exact Or.inl h
        · exact Or.inr ⟨Loc.path.inj e, rfl⟩
        · cases e
  | process =>
      rw [mem_valuesAt_process, mem_valuesAt_process]
      constructor
      · rintro ⟨q, h⟩
        rcases List.mem_append.mp h with h | h
        · exact Or.inl ⟨q, h⟩
        · cases List.mem_singleton.mp h
          exact Or.inr ⟨rfl, Or.inr rfl⟩
      · rintro (⟨q, h⟩ | ⟨rfl, _⟩)
        · exact ⟨q, List.mem_append_left _ h⟩
        · exact ⟨p, List.mem_append_right _ List.mem_cons_self⟩

/-- What a new call has to do with latencies: nothing, or one more that is pending at
    its path and at the process. -/
inductive Observes (σ : Shared) : Shared → Pc → Prop where
  | nothing {t : Pc} : t.Ascends → t.pending = [] → Observes σ σ t
  | latency {p : PathRef} {v : UInt64} {t : Pc} : p < σ.store.heap.length → t.Ascends →
      t.pending = [(.path p, v), (.process, v)] → Observes σ (σ.observe p v) t

/-- A new call observes at most one latency. -/
theorem happens_observes {σ σ' : Shared} {new : List Pc} (h : Happens σ σ' new) :
    ∃ t, new = [t] ∧ Observes σ σ' t := by
  cases h with
  | quiet t hobs hswap =>
      refine ⟨t, rfl, ?_⟩
      cases t with
      | observing rest => exact absurd rfl (hobs rest)
      | swapping loc c v rest => exact absurd rfl (hswap loc c v rest)
      | _ => exact Observes.nothing trivial rfl
  | read p n err _ => exact ⟨_, rfl, Observes.nothing trivial (observeRead_pending p n err)⟩
  | write p sampled n err hp =>
      cases sampled with
      | none => exact ⟨_, rfl, Observes.nothing trivial (observeWrite_pending p n err)⟩
      | some elapsed =>
          exact ⟨_, rfl,
            Observes.latency hp trivial (observeWrite_pending_sampled p elapsed n err)⟩
  | latency p elapsed hp => exact ⟨_, rfl, Observes.latency hp trivial rfl⟩

section MaximumSteps

variable {σ σ' : Shared} {t t' u : Pc}

theorem Pc.Honest.mono (hu : u.Honest σ) (h : ∀ e ∈ σ.observed, e ∈ σ'.observed) :
    u.Honest σ' :=
  ⟨hu.ascends, fun e he => valuesAt_mono h (hu.observed e he)⟩

/-- The acting thread adds nothing to what it has pending. -/
theorem Pc.Honest.moves (h : Moves σ t σ' t') (ht : t.Honest σ) : t'.Honest σ' where
  ascends := moves_ascends h
  observed := fun e he =>
    valuesAt_mono (fun _ hx => (moves_observed h).1 ▸ hx) (ht.observed e (moves_pending_old h he))

/-- A maximum rises to a pending value, which was observed. -/
theorem Witnessed.moves (h : Moves σ t σ' t') (ht : t.Honest σ) (hw : Witnessed σ) :
    Witnessed σ' where
  known := fun e he => (hw.known e ((moves_observed h).1 ▸ he)).trans_le (moves_observed h).2
  seen := by
    intro loc c' hc'
    have hmono : ∀ {v}, v ∈ valuesAt σ loc → v ∈ valuesAt σ' loc :=
      fun hv => valuesAt_mono (fun _ hx => (moves_observed h).1 ▸ hx) hv
    rcases moves_maximum h ht.ascends hc' with ⟨_, hzero⟩ | ⟨c, hc, _, hsame | hpending⟩
    · exact Or.inl hzero
    · rw [hsame]
      exact (hw.seen loc c hc).imp id hmono
    · exact Or.inr (hmono (ht.observed _ hpending))

/-- A new latency is of a path that exists. -/
theorem Witnessed.observes (h : Observes σ σ' u) (hw : Witnessed σ) : Witnessed σ' := by
  cases h with
  | nothing _ _ => exact hw
  | latency hp _ _ =>
      constructor
      · intro e he
        rcases List.mem_append.mp he with he | he
        · exact hw.known e he
        · cases List.mem_singleton.mp he
          exact hp
      · intro loc c hc
        exact (hw.seen loc c hc).imp id fun hv => mem_valuesAt_observe.mpr (Or.inl hv)

theorem Observes.honest (h : Observes σ σ' u) : u.Honest σ' := by
  cases h with
  | nothing ha hnone => exact ⟨ha, fun e he => by rw [hnone] at he; cases he⟩
  | latency _ ha hpending =>
      refine ⟨ha, fun e he => mem_valuesAt_observe.mpr (Or.inr ?_)⟩
      rw [hpending] at he
      rcases List.mem_pair.mp he with rfl | rfl
      · exact ⟨rfl, Or.inl rfl⟩
      · exact ⟨rfl, Or.inr rfl⟩

theorem Observes.mono (h : Observes σ σ' u) : ∀ e ∈ σ.observed, e ∈ σ'.observed := by
  cases h with
  | nothing _ _ => exact fun _ he => he
  | latency _ _ _ => exact fun _ he => List.mem_append_left _ he

end MaximumSteps

/-- **NO VALUE IS INVENTED**, under every interleaving. -/
theorem reach_witnessed {s : Accounts} (h : AccountReach s) :
    Annotated Witnessed (fun _ => fun σ t => t.Honest σ) s := by
  refine @Machine.owickiGries _ _ _ _ accountMachine anyStep ⟨{}, []⟩ (fun _ => True)
    (fun _ _ => trivial) Witnessed (fun _ => fun σ t => t.Honest σ) ?_ ?_ ?_ ?_ s h
  · refine ⟨⟨fun e he => (by cases he), ?_⟩, fun i t ht => (by cases ht)⟩
    intro loc c hc
    cases loc with
    | path p => cases hc
    | process =>
        cases hc
        exact Or.inl rfl
  · intro s i t a σ' t' new _ _ _ he hI hL
    obtain ⟨hmoves, rfl⟩ := machine_moves he
    exact ⟨hI.moves hmoves hL, hL.moves hmoves, fun _ u hu => by cases hu⟩
  · intro s i j t u a σ' t' new _ _ _ _ he _ _ hu
    have hsame := (moves_observed (machine_moves he).1).1
    exact hu.mono fun _ hx => hsame ▸ hx
  · intro s e σ' new _ _ he hI
    obtain ⟨t, rfl, hobs⟩ := happens_observes (outside_happens he)
    refine ⟨hI.observes hobs, fun _ u hu => ?_, fun _ _ _ hu => hu.mono hobs.mono⟩
    cases List.mem_singleton.mp hu
    exact hobs.honest

/-- Every observed value is reached, or somebody has still to raise the maximum to it. -/
def Covered (s : Accounts) : Prop :=
  ∀ loc c, countersAt s.shared.store loc = some c → ∀ v ∈ valuesAt s.shared loc,
    v ≤ c.writeLatencyMaxNS ∨ ∃ t ∈ s.threads, (loc, v) ∈ t.pending

/-- **NO LARGER VALUE IS LOST**, under every interleaving of loads and swaps. -/
theorem reach_covered {s : Accounts} (h : AccountReach s) : Covered s := by
  refine Reach.invariant (I := Covered) ?_ ?_ h
  · intro loc c _ v hv
    cases loc <;> cases hv
  intro s a s' hr hI _ hs
  obtain ⟨hwit, hhonest⟩ := reach_witnessed hr
  cases a with
  | run i a =>
      obtain ⟨t, σ', t', new, ht, he, rfl⟩ := Machine.step_run hs
      obtain ⟨hmoves, rfl⟩ := machine_moves he
      intro loc c' hc' v hv
      have hself : t' ∈ s.threads.set i t' ++ [] := by
        rw [List.append_nil]
        exact List.mem_set (List.getElem?_eq_some_iff.mp ht).1 t'
      rw [valuesAt_congr (moves_observed hmoves).1] at hv
      rcases moves_maximum hmoves (hhonest i t ht).ascends hc' with ⟨rfl, _⟩ | ⟨c, hc, hle, _⟩
      · exact absurd (hwit.known _ (mem_valuesAt_path.mp hv)) (Nat.lt_irrefl _)
      rcases hI loc c hc v hv with hreached | ⟨u, hu, hpending⟩
      · exact Or.inl (UInt64.le_trans hreached hle)
      rcases mem_moved t' [] ht hu with rfl | hu
      · -- the acting thread keeps the value pending, or it is reached now
        rcases moves_pending hmoves hpending with hstill | hdone
        · exact Or.inr ⟨t', hself, hstill⟩
        · exact Or.inl (hdone c' hc')
      · exact Or.inr ⟨u, hu, hpending⟩
  | env e =>
      obtain ⟨σ', new, he, rfl⟩ := Machine.step_env hs
      obtain ⟨t, rfl, hobs⟩ := happens_observes (outside_happens he)
      intro loc c hc v hv
      have hold : ∀ {w}, countersAt s.shared.store loc = some c → w ∈ valuesAt s.shared loc →
          w ≤ c.writeLatencyMaxNS ∨ ∃ u ∈ s.threads ++ [t], (loc, w) ∈ u.pending := fun hc hw =>
        (hI loc c hc _ hw).imp id fun ⟨u, hu, hp⟩ => ⟨u, List.mem_append_left _ hu, hp⟩
      cases hobs with
      | nothing _ _ => exact hold hc hv
      | latency _ _ hpending =>
          rcases mem_valuesAt_observe.mp hv with hv | ⟨rfl, hloc⟩
          · exact hold hc hv
          · refine Or.inr ⟨t, List.mem_append_right _ List.mem_cons_self, ?_⟩
            rw [hpending]
            rcases hloc with rfl | rfl
            · exact List.mem_cons_self
            · exact List.mem_cons_of_mem _ List.mem_cons_self

/-! ## The books -/

/-- Is an observation in progress? -/
def Pc.busy : Pc → Bool
  | .observing _ => true
  | .swapping _ _ _ _ => true
  | _ => false

/-- The largest of the values, 0 if there are none. -/
def largest : List UInt64 → UInt64
  | [] => 0
  | v :: vs => if v ≤ largest vs then largest vs else v

theorem largest_mem (vs : List UInt64) : largest vs = 0 ∨ largest vs ∈ vs := by
  induction vs with
  | nil => exact Or.inl rfl
  | cons v vs ih =>
      rw [largest]
      split
      · exact ih.imp id (List.mem_cons_of_mem v)
      · exact Or.inr List.mem_cons_self

theorem le_largest {vs : List UInt64} {v : UInt64} (h : v ∈ vs) : v ≤ largest vs := by
  induction vs with
  | nil => cases h
  | cons w vs ih =>
      rw [largest]
      rcases List.mem_cons.mp h with rfl | h <;> split
      · assumption
      · exact UInt64.le_refl v
      · exact ih h
      · exact UInt64.le_trans (ih h) (UInt64.le_of_lt (UInt64.not_le.mp ‹_›))

/-- An upper bound that is one of the values is the largest. -/
theorem eq_largest {vs : List UInt64} {m : UInt64} (hmem : m = 0 ∨ m ∈ vs)
    (hle : ∀ v ∈ vs, v ≤ m) : m = largest vs := by
  have hlow : m ≤ largest vs := by
    rcases hmem with rfl | hm
    · exact UInt64.zero_le
    · exact le_largest hm
  rcases largest_mem vs with hzero | hm
  · rw [hzero] at hlow ⊢
    exact UInt64.le_antisymm hlow UInt64.zero_le
  · exact UInt64.le_antisymm hlow (hle _ hm)

/-- A thread outside an observation owes nothing. -/
theorem Pc.owed_idle {t : Pc} (h : t.busy = false) (f : Field) : t.owed f = 0 := by
  cases t with
  | observing rest => cases h
  | swapping loc current v rest => cases h
  | _ => rfl

theorem Pc.pending_idle {t : Pc} (h : t.busy = false) : t.pending = [] := by
  cases t with
  | observing rest => cases h
  | swapping loc current v rest => cases h
  | _ => rfl

/-- With nothing in progress, a maximum is the largest value observed at its place. -/
theorem maximum_idle {s : Accounts} (h : AccountReach s)
    (hidle : ∀ t ∈ s.threads, t.busy = false) {loc : Loc} {c : Counters}
    (hc : countersAt s.shared.store loc = some c) :
    c.writeLatencyMaxNS = largest (valuesAt s.shared loc) := by
  refine eq_largest ((reach_witnessed h).1.seen loc c hc) fun v hv => ?_
  rcases reach_covered h loc c hc v hv with hle | ⟨t, ht, hpending⟩
  · exact hle
  · rw [Pc.pending_idle (hidle t ht)] at hpending
    cases hpending

/-- **THE BOOKS BALANCE.**  In every state of a registry with no observation in
    progress, each total of the process is the sum of the same counter over all paths
    ever opened, modulo 2^64; and the latency maximum of the process and that of each path is
    the largest of the latencies observed there. -/
theorem traffic_accounted {s : Accounts} (h : AccountReach s)
    (hidle : ∀ t ∈ s.threads, t.busy = false) :
    (∀ f : Field, f.of s.shared.store.reg.counters
      = (s.shared.store.heap.map fun path => f.of path.counters).sum) ∧
    s.shared.store.reg.counters.writeLatencyMaxNS
      = largest (s.shared.observed.map Prod.snd) ∧
    ∀ p path, s.shared.store.heap[p]? = some path → path.counters.writeLatencyMaxNS
      = largest ((s.shared.observed.filter fun e => decide (e.1 = p)).map Prod.snd) := by
  refine ⟨?_, @maximum_idle s h hidle .process _ rfl, ?_⟩
  · intro f
    have hnone : surplus f s.shared.store = 0 :=
      (reach_surplus h f).trans (total_eq_zero fun t ht => Pc.owed_idle (hidle t ht) f)
    exact (sub_eq_zero.mp hnone).symm
  · intro p path hpath
    refine @maximum_idle s h hidle (.path p) _ ?_
    rw [countersAt, hpath]
    rfl

/-- Two paths, a write of 5 ns on the first and one of 9 ns on the second.  The first has
    read the process maximum, 0, when the second raises it, so its swap fails.  Both
    paths are closed in between. -/
def failedSwap : List (Act Unit Op) :=
  List.flatten
    [[.env (.openPath []), .run 0 (), .run 0 (), .env (.openPath []), .run 1 (), .run 1 ()],
      [.env (.observeWrite (some 0) (some 5) 3 false)], List.replicate 11 (.run 2 ()),
      [.env (.close (some 0)), .run 3 ()],
      [.env (.observeWrite (some 1) (some 9) 0 true)], List.replicate 13 (.run 4 ()),
      [.env (.close (some 1)), .run 5 ()], List.replicate 3 (.run 2 ())]

/-- The smaller value has not replaced the larger one, and the totals are sums. -/
theorem failed_swap_harmless :
    ∃ s, AccountReach s ∧ s.shared.observed = [(0, 5), (1, 9)] ∧
      s.shared.store.reg.counters.writeLatencyMaxNS = largest [5, 9] ∧
      s.shared.store.reg.counters.writeOperations
        = (s.shared.store.heap.map fun path => path.counters.writeOperations).sum := by
  obtain ⟨s, hr, hs⟩ := Reach.of_follow accountStep anyStep ⟨{}, []⟩ failedSwap
    (fun s => s.shared.observed == [(0, 5), (1, 9)] && s.threads.all fun t => !t.busy)
    (by decide)
  simp only [Bool.and_eq_true, beq_iff_eq, List.all_eq_true, Bool.not_eq_true'] at hs
  obtain ⟨hsums, hmax, -⟩ := traffic_accounted hr hs.2
  rw [hs.1] at hmax
  exact ⟨s, hr, hs.1, hmax, hsums .writeOperations⟩

end VkTurnAccounting
