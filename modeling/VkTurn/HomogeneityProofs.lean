import VkTurn.HandoverProofs

/-! # A bond group is homogeneous and bounded

    `add` compares the hello of a path with its group twice, with `m.mu`
    dropped in between, and `addWithCleanup` compares the number of paths under
    `g.mu`, which is not the mutex of the path list.  What carries the argument:
    a handler is the only one to write down the hello of its connection, and
    `AddConn` is only called under `g.mu`, so at most one call is on its way to
    list a path, and none while `g.mu` is free (`Homogeneous.free`). -/

namespace VkTurnHomogeneity

open ThreadPool VkTurnStripe VkTurnBond VkTurnBondHello VkTurnServer VkTurnHandover
open GoText GoMap

/-! ## Calls of `AddConn` on their way -/

/-- One when the thread may still list a path. -/
def adder : VkTurnBond.Pc → Nat
  | .addLock _ => 1
  | .addTest _ => 1
  | _ => 0

/-- How many paths may still be listed. -/
def adders (b : Bond) : Nat := load adder b.threads

/-- The listed paths. -/
def listed (b : Bond) : List PathRef := b.shared.bond.paths

/-- A section lists a path only in the place of a call on its way. -/
theorem moves_adder {arch : Arch} {i : Nat} {σ σ' : Shared} {t t' : VkTurnBond.Pc}
    {new : List VkTurnBond.Pc} (h : VkTurnBond.Moves arch i σ t σ' t' new) :
    load adder new = 0 ∧ adder t' ≤ adder t ∧
      σ'.bond.paths.length + adder t' ≤ σ.bond.paths.length + adder t := by
  cases h with
  | addAppended p _ =>
      refine ⟨rfl, Nat.zero_le _, ?_⟩
      show (σ.bond.paths ++ [p]).length + 0 ≤ σ.bond.paths.length + 1
      rw [List.length_append, List.length_singleton]
  | unlinked p k _ _ =>
      refine ⟨rfl, le_refl _, ?_⟩
      show (σ.bond.paths.erase p).length + 0 ≤ σ.bond.paths.length + 0
      exact List.length_erase_le ..
  | notListed p k _ _ => cases k <;> exact ⟨rfl, le_refl _, le_refl _⟩
  | rmFinished p k => cases k <;> exact ⟨rfl, le_refl _, le_refl _⟩
  | graceSkipped g _ _ => cases g <;> exact ⟨rfl, le_refl _, le_refl _⟩
  | graceArmed g => cases g <;> exact ⟨rfl, le_refl _, le_refl _⟩
  | addRefused p _ _ => exact ⟨rfl, Nat.zero_le _, Nat.le_succ _⟩
  | addExpired p _ => exact ⟨rfl, Nat.zero_le _, Nat.le_succ _⟩
  | _ => exact ⟨rfl, le_refl _, le_refl _⟩

theorem adder_entry {t : VkTurnBond.Pc} (h : t.entry = true) : adder t = 0 := by
  cases t with
  | addLock p => cases h
  | addTest p => cases h
  | _ => rfl

/-- **NO NEW CALL**: whatever a bond does other than being called, the calls on
    their way do not become more, nor do they together with the listed paths; and
    where one thread is the only call on its way, it stays the only one. -/
theorem adders_step {arch : Arch} {b b' : Bond}
    {a : Act VkTurnBond.Choice VkTurnBond.Op} (h : bondStep arch b a = some b')
    (ha : ∀ c k, a ≠ .env (.addConn c k)) :
    adders b' ≤ adders b ∧
      (listed b').length + adders b' ≤ (listed b).length + adders b ∧
      ∀ (tid : Nat) (bt : VkTurnBond.Pc), b.threads[tid]? = some bt →
        adders b = adder bt →
        ∃ bt', b'.threads[tid]? = some bt' ∧ adders b' = adder bt' := by
  cases a with
  | run k a =>
      obtain ⟨t, σ', t', new, ht, he, rfl⟩ := Machine.step_run h
      obtain ⟨hnew, hle, hpaths⟩ := moves_adder (VkTurnBond.exec_moves he)
      have hset := load_set adder t' ht
      have hsum : adders ⟨σ', b.threads.set k t' ++ new⟩ + adder t
          = adders b + adder t' := by
        rw [adders, adders, load_append, hnew]
        exact hset
      refine ⟨by omega, ?_, ?_⟩
      · show σ'.bond.paths.length + _ ≤ b.shared.bond.paths.length + _
        omega
      · intro tid bt hbt hone
        have hlt : tid < b.threads.length := (List.getElem?_eq_some_iff.mp hbt).1
        have hat : (b.threads.set k t' ++ new)[tid]? = (b.threads.set k t')[tid]? :=
          List.getElem?_append_left (by simpa using hlt)
        by_cases hk : k = tid
        · -- the call itself moved
          subst hk
          obtain rfl : t = bt := Option.some.inj (ht.symm.trans hbt)
          refine ⟨t', ?_, by omega⟩
          show (b.threads.set k t' ++ new)[k]? = _
          rw [hat, List.getElem?_set, if_pos rfl, if_pos hlt]
        · -- another thread moved, and it was no call
          have htwo := add_le_load adder hk ht hbt
          have hzero : adder t = 0 := by
            have : load adder b.threads = adder bt := hone
            omega
          refine ⟨bt, ?_, by omega⟩
          show (b.threads.set k t' ++ new)[tid]? = _
          rw [hat, List.getElem?_set, if_neg hk]
          exact hbt
  | env e =>
      obtain ⟨σ', new, he, rfl⟩ := Machine.step_env h
      have hf := VkTurnBond.outside_frame he
      have hent := (outside_quiet he fun c k hk => ha c k (congrArg Act.env hk)).2
      have hzero : load adder new = 0 :=
        load_eq_zero fun u hu => adder_entry (hent u hu)
      have hsum : adders ⟨σ', b.threads ++ new⟩ = adders b := by
        rw [adders, adders, load_append, hzero, Nat.add_zero]
      refine ⟨hsum.le, ?_, ?_⟩
      · show σ'.bond.paths.length + _ ≤ b.shared.bond.paths.length + _
        rw [hf.paths, hsum]
      · intro tid bt hbt hone
        have hlt : tid < b.threads.length := (List.getElem?_eq_some_iff.mp hbt).1
        refine ⟨bt, ?_, hsum.trans hone⟩
        show (b.threads ++ new)[tid]? = _
        rw [List.getElem?_append_left hlt]
        exact hbt

/-! ## The invariant -/

/-- The group is a V2 group. -/
def isV2 (grp : Group) : Prop := grp.hello.version = bondProtocolV2

/-- What holds of every group: its hello is tuned to the server, every path ever
    handed to it came with that hello, no `AddConn` is on its way while `g.mu` is
    free, and listed paths and calls on their way stay within the negotiated
    number. -/
structure Homogeneous (cfg : Config) (σ : Server) : Prop where
  tuned : ∀ (g : GroupRef) (grp : Group), σ.objs[g]? = some grp →
    validateBondHelloTuning cfg.tuning grp.hello = none
  greeted : ∀ (g : GroupRef) (grp : Group), σ.objs[g]? = some grp →
    ∀ path ∈ grp.bond.shared.heap, σ.hellos path.conn = some grp.hello
  free : ∀ (g : GroupRef) (grp : Group), σ.objs[g]? = some grp →
    grp.mu = none → adders grp.bond = 0
  bound : ∀ (g : GroupRef) (grp : Group), σ.objs[g]? = some grp → isV2 grp →
    ((listed grp.bond).length + adders grp.bond : Nat) ≤ grp.hello.expectedPaths

/-- The hello a handler goes on with, after its profile was checked. -/
def profile : VkTurnServer.Pc → Option (Conn × BondHello)
  | .check c hello => some (c, hello)
  | .ack c hello => some (c, hello)
  | .join c hello => some (c, hello)
  | .limit c hello _ => some (c, hello)
  | .call c hello _ => some (c, hello)
  | .adding c hello _ _ => some (c, hello)
  | _ => none

/-- The group a handler has found for its hello. -/
def target : VkTurnServer.Pc → Option (BondHello × GroupRef)
  | .limit _ hello g => some (hello, g)
  | .call _ hello g => some (hello, g)
  | .adding _ hello g _ => some (hello, g)
  | _ => none

/-- The group whose `g.mu` a handler holds. -/
def holding : VkTurnServer.Pc → Option GroupRef
  | .call _ _ g => some g
  | .adding _ _ g _ => some g
  | _ => none

/-- What a handler relies on. -/
structure Entering (cfg : Config) (i : Nat) (σ : Server) (t : VkTurnServer.Pc) :
    Prop where
  profiled : ∀ c hello, profile t = some (c, hello) → σ.hellos c = some hello ∧
    validateBondHelloTuning cfg.tuning hello = none
  found : ∀ hello g, target t = some (hello, g) →
    ∃ grp, σ.objs[g]? = some grp ∧ grp.hello = hello
  holds : ∀ g, holding t = some g → ∀ grp, σ.objs[g]? = some grp → grp.mu = some i
  calling : ∀ c hello g, t = .call c hello g → ∀ grp, σ.objs[g]? = some grp →
    adders grp.bond = 0 ∧
      (isV2 grp → ((listed grp.bond).length : Int) < grp.hello.expectedPaths)
  adding : ∀ c hello g tid, t = .adding c hello g tid → ∀ grp, σ.objs[g]? = some grp →
    ∃ bt, grp.bond.threads[tid]? = some bt ∧ adders grp.bond = adder bt

/-- A thread that has found no group yet relies on its hello alone. -/
theorem entering_profiled {cfg : Config} {i : Nat} {σ : Server} {t : VkTurnServer.Pc}
    (h1 : ∀ c hello, profile t = some (c, hello) → σ.hellos c = some hello ∧
      validateBondHelloTuning cfg.tuning hello = none)
    (h2 : target t = none) (h3 : holding t = none) : Entering cfg i σ t where
  profiled := h1
  found := fun hello g h => (by cases h2.symm.trans h)
  holds := fun g h => (by cases h3.symm.trans h)
  calling := by rintro c hello g rfl; cases h3
  adding := by rintro c hello g tid rfl; cases h3

/-- A thread outside `add` relies on nothing. -/
theorem entering_idle {cfg : Config} {i : Nat} {σ : Server} {t : VkTurnServer.Pc}
    (h1 : profile t = none) (h2 : target t = none) (h3 : holding t = none) :
    Entering cfg i σ t :=
  entering_profiled (fun _ _ h => (by cases h1.symm.trans h)) h2 h3

theorem full_false {grp : Group} (h : grp.full = false) (hv : isV2 grp) :
    ((listed grp.bond).length : Int) < grp.hello.expectedPaths := by
  have := of_decide_eq_false h
  by_contra hge
  exact this ⟨hv, not_lt.mp hge⟩

/-- What a call of `AddConn` does to a bond. -/
theorem adders_addConn {arch : Arch} {b b' : Bond} {c : Conn}
    (h : bondStep arch b (.env (.addConn (some c) true)) = some b') :
    adders b' = adders b + 1 ∧ listed b' = listed b ∧
      b'.threads[b.threads.length]? = some (.addLock b.shared.heap.length) ∧
      b'.shared.heap = b.shared.heap ++ [⟨c, true⟩] := by
  obtain ⟨σ', new, he, rfl⟩ := Machine.step_env h
  cases he
  refine ⟨?_, rfl, List.getElem?_concat_length .., rfl⟩
  rw [adders, adders, load_append]
  rfl

theorem not_addConn_close : ∀ c k,
    (.env .close : Act VkTurnBond.Choice VkTurnBond.Op) ≠ .env (.addConn c k) :=
  fun _ _ h => (by cases h)

/-- The bond is as it was, or has moved by itself. -/
def Drifted (arch : Arch) (b b' : Bond) : Prop :=
  b' = b ∨ ∃ a, (∀ c k, a ≠ .env (.addConn c k)) ∧ bondStep arch b a = some b'

/-- `adders_step` for a bond that may also have stood still. -/
theorem Drifted.adders {arch : Arch} {b b' : Bond} (h : Drifted arch b b') :
    VkTurnHomogeneity.adders b' ≤ VkTurnHomogeneity.adders b ∧
      (listed b').length + VkTurnHomogeneity.adders b'
        ≤ (listed b).length + VkTurnHomogeneity.adders b ∧
      ∀ (tid : Nat) (bt : VkTurnBond.Pc), b.threads[tid]? = some bt →
        VkTurnHomogeneity.adders b = adder bt →
        ∃ bt', b'.threads[tid]? = some bt' ∧ VkTurnHomogeneity.adders b' = adder bt' := by
  rcases h with rfl | ⟨a, ha, hb⟩
  · exact ⟨le_refl _, le_refl _, fun tid bt hbt hone => ⟨bt, hbt, hone⟩⟩
  · exact adders_step hb ha

theorem Drifted.heap {arch : Arch} {b b' : Bond} (h : Drifted arch b b') :
    b'.shared.heap = b.shared.heap := by
  rcases h with rfl | ⟨a, ha, hb⟩
  · rfl
  · exact bondStep_heap hb ha

theorem drifted_close {arch : Arch} {b b' : Bond}
    (h : bondStep arch b (.env .close) = some b') : Drifted arch b b' :=
  Or.inr ⟨_, not_addConn_close, h⟩

section Step

variable {cfg : Config} {i : Nat} {σ σ' : Server} {t t' : VkTurnServer.Pc}
variable {new : List VkTurnServer.Pc}

/-- Only reading a hello writes one down. -/
theorem moves_hellos (h : VkTurnServer.Moves cfg i σ t σ' t' new) (c : Conn) :
    σ'.hellos c = σ.hellos c ∨ t = .readHello c := by
  by_cases hc : t.conn = some c
  · cases h with
    | helloMistuned d hello e _ =>
        obtain rfl : d = c := Option.some.inj hc
        exact Or.inr rfl
    | helloRead d hello _ =>
        obtain rfl : d = c := Option.some.inj hc
        exact Or.inr rfl
    | called d hello g grp bond _ _ =>
        exact Or.inl (congrFun (bondMoved_frame σ g grp bond).hellos c)
    | runCloses g grp bond _ _ => cases hc
    | released d o => exact Or.inl (congrFun (releaseConnection_frame σ d).hellos c)
    | unregistered g grp _ => cases hc
    | _ => exact Or.inl rfl
  · exact Or.inl (h.conn_frame hc).1

/-- A group keeps the invariant through a group move. -/
theorem group_step {g : GroupRef} {grp grp' : Group} (hg : σ.objs[g]? = some grp)
    (h : GroupMoves cfg i t g grp grp') (hI : Homogeneous cfg σ)
    (hL : Entering cfg i σ t) :
    grp'.hello = grp.hello ∧ (grp'.mu = none → adders grp'.bond = 0) ∧
      (isV2 grp' →
        ((listed grp'.bond).length + adders grp'.bond : Nat) ≤ grp'.hello.expectedPaths) ∧
      ∀ path ∈ grp'.bond.shared.heap, path ∈ grp.bond.shared.heap ∨
        ∃ c hello, t = .call c hello g ∧ path.conn = c := by
  have hbound := hI.bound g grp hg
  have hfree := hI.free g grp hg
  cases h with
  | same _ _ hh hb hmu =>
      rw [isV2, hh, hb, hmu]
      exact ⟨rfl, hfree, hbound, fun path hp => Or.inl hp⟩
  | took c hello _ _ _ => exact ⟨rfl, fun hmu => (by cases hmu), hbound, fun path hp => Or.inl hp⟩
  | called c hello bond ht hb =>
      subst ht
      obtain ⟨hadd, hlist, -, hheap⟩ := adders_addConn hb
      obtain ⟨hzero, hroom⟩ := hL.calling c hello g rfl grp hg
      have hmine : grp.mu = some i := hL.holds g rfl grp hg
      refine ⟨rfl, ?_, ?_, ?_⟩
      · intro hmu
        cases hmine.symm.trans hmu
      · intro hv
        have := hroom hv
        show ((listed bond).length + adders bond : Nat) ≤ grp.hello.expectedPaths
        rw [hadd, hlist, hzero]
        omega
      · intro path hp
        have hp' : path ∈ bond.shared.heap := hp
        rw [hheap] at hp'
        rcases List.mem_append.mp hp' with hold | hnew
        · exact Or.inl hold
        · rw [List.mem_singleton.mp hnew]
          exact Or.inr ⟨c, hello, rfl, rfl⟩
  | finished c hello tid r _ ht hr _ hh hb _ =>
      subst ht
      obtain ⟨bt, hbt, hone⟩ := hL.adding c hello g tid rfl grp hg
      obtain rfl : bt = .returned r := Option.some.inj (hbt.symm.trans hr)
      rw [isV2, hh, hb]
      exact ⟨rfl, fun _ => hone, hbound, fun path hp => Or.inl hp⟩
  | closes bond _ hb =>
      have hdrift := drifted_close hb
      obtain ⟨hle, hsum, -⟩ := hdrift.adders
      refine ⟨rfl, ?_, ?_, ?_⟩
      · intro hmu
        have := hfree hmu
        show adders bond = 0
        omega
      · intro hv
        have := hbound hv
        show ((listed bond).length + adders bond : Nat) ≤ grp.hello.expectedPaths
        omega
      · intro path hp
        rw [show ({ grp with bond := bond } : Group).bond.shared.heap
          = grp.bond.shared.heap from hdrift.heap] at hp
        exact Or.inl hp

/-- A section keeps the invariant, when it writes down no hello of a connection
    that was already handed over. -/
theorem homogeneous_step (h : VkTurnServer.Moves cfg i σ t σ' t' new)
    (hI : Homogeneous cfg σ) (hL : Entering cfg i σ t)
    (hpast : ∀ (g : GroupRef) (grp : Group), σ.objs[g]? = some grp →
      ∀ path ∈ grp.bond.shared.heap, σ'.hellos path.conn = σ.hellos path.conn) :
    Homogeneous cfg σ' := by
  -- every group is an old one that moved, or is new and empty
  have hcase : ∀ (g : GroupRef) (grp' : Group), σ'.objs[g]? = some grp' →
      (∃ grp, σ.objs[g]? = some grp ∧ GroupMoves cfg i t g grp grp') ∨
        ∃ hello, validateBondHelloTuning cfg.tuning hello = none ∧
          grp' = { id := hello.bondID, hello := hello } := by
    intro g grp' hg'
    rcases h.group_cases hg' with hold | ⟨c, hello, rfl, -, -, -, -, rfl⟩
    · exact Or.inl hold
    · exact Or.inr ⟨hello, (hL.profiled c hello rfl).2, rfl⟩
  refine ⟨?_, ?_, ?_, ?_⟩
  · intro g grp' hg'
    rcases hcase g grp' hg' with ⟨grp, hg, hm⟩ | ⟨hello, ht, rfl⟩
    · rw [(group_step hg hm hI hL).1]
      exact hI.tuned g grp hg
    · exact ht
  · intro g grp' hg' path hp
    rcases hcase g grp' hg' with ⟨grp, hg, hm⟩ | ⟨hello, ht, rfl⟩
    · obtain ⟨hh, -, -, hold⟩ := group_step hg hm hI hL
      rw [hh]
      rcases hold path hp with hold | ⟨c, hello, rfl, rfl⟩
      · rw [hpast g grp hg path hold]
        exact hI.greeted g grp hg path hold
      · -- the path that is being handed over now
        obtain ⟨grp₀, hg₀, hsame⟩ := hL.found hello g rfl
        obtain rfl : grp₀ = grp := Option.some.inj (hg₀.symm.trans hg)
        rw [hsame]
        rcases moves_hellos h path.conn with heq | hread
        · rw [heq]
          exact (hL.profiled path.conn hello rfl).1
        · cases hread
    · cases hp
  · intro g grp' hg' hmu
    rcases hcase g grp' hg' with ⟨grp, hg, hm⟩ | ⟨hello, ht, rfl⟩
    · exact (group_step hg hm hI hL).2.1 hmu
    · rfl
  · intro g grp' hg' hv
    rcases hcase g grp' hg' with ⟨grp, hg, hm⟩ | ⟨hello, ht, rfl⟩
    · exact (group_step hg hm hI hL).2.2.1 hv
    · have := ((validateBondHelloTuning_valid ht).2 hv).1
      show ((0 + 0 : Nat) : Int) ≤ hello.expectedPaths
      omega

/-- Groups whose bonds drift keep the invariant. -/
theorem homogeneous_drift (hI : Homogeneous cfg σ) (hhel : σ'.hellos = σ.hellos)
    (hdrift : ∀ (g : GroupRef) (grp' : Group), σ'.objs[g]? = some grp' →
      ∃ grp, σ.objs[g]? = some grp ∧ grp'.mu = grp.mu ∧ grp'.hello = grp.hello ∧
        Drifted cfg.arch grp.bond grp'.bond) : Homogeneous cfg σ' := by
  refine ⟨?_, ?_, ?_, ?_⟩
  · intro g grp' hg'
    obtain ⟨grp, hg, -, hsame, -⟩ := hdrift g grp' hg'
    rw [hsame]
    exact hI.tuned g grp hg
  · intro g grp' hg' path hp
    obtain ⟨grp, hg, -, hsame, hd⟩ := hdrift g grp' hg'
    rw [hsame, hhel]
    rw [hd.heap] at hp
    exact hI.greeted g grp hg path hp
  · intro g grp' hg' hmu
    obtain ⟨grp, hg, hmu', -, hd⟩ := hdrift g grp' hg'
    have hzero := hI.free g grp hg (hmu'.symm.trans hmu)
    have := hd.adders.1
    omega
  · intro g grp' hg' hv
    obtain ⟨grp, hg, -, hsame, hd⟩ := hdrift g grp' hg'
    rw [isV2, hsame] at hv
    have hle := hI.bound g grp hg hv
    have := hd.adders.2.1
    rw [hsame]
    omega

/-- The outside world lets bonds drift, and no more. -/
theorem happens_drifted (hh : Happens cfg σ σ' new) {g : GroupRef} {grp' : Group}
    (hg' : σ'.objs[g]? = some grp') :
    ∃ grp, σ.objs[g]? = some grp ∧ grp'.mu = grp.mu ∧ grp'.hello = grp.hello ∧
      Drifted cfg.arch grp.bond grp'.bond := by
  obtain ⟨grp, hg, hmove⟩ := hh.group_old hg'
  refine ⟨grp, hg, ?_⟩
  rcases hmove with rfl | ⟨a, bond, hallow, hb, rfl⟩
  · exact ⟨rfl, rfl, Or.inl rfl⟩
  · exact ⟨rfl, rfl, Or.inr ⟨a, not_addConn hallow, hb⟩⟩

theorem profile_conn {c : Conn} {hello : BondHello} (h : profile t = some (c, hello)) :
    t.conn = some c := by
  cases t <;> cases h <;> rfl

theorem target_of_holding {g : GroupRef} (h : holding t = some g) :
    ∃ hello, target t = some (hello, g) := by
  cases t <;> cases h <;> exact ⟨_, rfl⟩

/-- Past the limit, with the mutex of the group. -/
theorem entering_limitPassed {c : Conn} {hello : BondHello} {g : GroupRef} {grp : Group}
    (hg : σ.objs[g]? = some grp) (hmu : grp.mu = none) (hfull : grp.full = false)
    (hI : Homogeneous cfg σ) (hL : Entering cfg i σ (.limit c hello g)) :
    Entering cfg i (σ.setGroup g { grp with mu := some i }) (.call c hello g) := by
  have hlt : g < σ.objs.length := (List.getElem?_eq_some_iff.mp hg).1
  have hat : (σ.setGroup g { grp with mu := some i }).objs[g]?
      = some { grp with mu := some i } := by
    show (σ.objs.set g _)[g]? = _
    rw [List.getElem?_set, if_pos rfl, if_pos hlt]
  obtain ⟨grp₀, hg₀, hsame⟩ := hL.found hello g rfl
  obtain rfl : grp₀ = grp := Option.some.inj (hg₀.symm.trans hg)
  refine ⟨?_, ?_, ?_, ?_, fun _ _ _ _ h => (by cases h)⟩
  · rintro d k hk
    cases hk
    exact hL.profiled c hello rfl
  · rintro k g' hk
    cases hk
    exact ⟨_, hat, hsame⟩
  · rintro g' hk grp' hg'
    cases hk
    obtain rfl := Option.some.inj (hat.symm.trans hg')
    rfl
  · rintro d k g' hk grp' hg'
    cases hk
    obtain rfl := Option.some.inj (hat.symm.trans hg')
    exact ⟨hI.free g grp₀ hg hmu, fun hv => full_false hfull hv⟩

/-- In the call of `AddConn`. -/
theorem entering_called {c : Conn} {hello : BondHello} {g : GroupRef} {grp : Group} {bond : Bond}
    (hg : σ.objs[g]? = some grp)
    (hb : bondStep cfg.arch grp.bond (.env (.addConn (some c) true)) = some bond)
    (hL : Entering cfg i σ (.call c hello g)) :
    Entering cfg i (σ.bondMoved g grp bond) (.adding c hello g grp.bond.threads.length) := by
  have hat := bondMoved_self bond hg
  obtain ⟨grp₀, hg₀, hsame⟩ := hL.found hello g rfl
  obtain rfl : grp₀ = grp := Option.some.inj (hg₀.symm.trans hg)
  obtain ⟨hadd, -, hthread, -⟩ := adders_addConn hb
  refine ⟨?_, ?_, ?_, fun _ _ _ h => (by cases h), ?_⟩
  · rintro d k hk
    cases hk
    rw [(bondMoved_frame σ g _ bond).hellos]
    exact hL.profiled c hello rfl
  · rintro k g' hk
    cases hk
    exact ⟨_, hat, hsame⟩
  · rintro g' hk grp' hg'
    cases hk
    obtain rfl := Option.some.inj (hat.symm.trans hg')
    exact hL.holds g rfl grp₀ hg
  · rintro d k g' tid hk grp' hg'
    cases hk
    obtain rfl := Option.some.inj (hat.symm.trans hg')
    refine ⟨_, hthread, ?_⟩
    show adders bond = 1
    rw [hadd, (hL.calling c hello g rfl grp₀ hg).1]

/-- A section leaves its thread with what it then relies on. -/
theorem entering_step (h : VkTurnServer.Moves cfg i σ t σ' t' new)
    (hI : Homogeneous cfg σ) (hL : Entering cfg i σ t) : Entering cfg i σ' t' := by
  cases h with
  | helloRead c hello ht =>
      refine entering_profiled ?_ rfl rfl
      rintro d k hk
      cases hk
      exact ⟨Function.update_self .., ht⟩
  | checked c hello =>
      have hp := hL.profiled c hello rfl
      rw [afterCheck]
      split
      · refine entering_profiled ?_ rfl rfl
        rintro d k hk
        cases hk
        exact hp
      · refine entering_profiled ?_ rfl rfl
        rintro d k hk
        cases hk
        exact hp
  | ackSent c hello w rs _ =>
      refine entering_profiled ?_ rfl rfl
      rintro d k hk
      cases hk
      exact hL.profiled c hello rfl
  | created c hello hnone =>
      refine ⟨?_, ?_, fun _ h => (by cases h), fun _ _ _ h => (by cases h),
        fun _ _ _ _ h => (by cases h)⟩
      · rintro d k hk
        cases hk
        exact hL.profiled c hello rfl
      · rintro k g hk
        cases hk
        exact ⟨_, List.getElem?_concat_length .., rfl⟩
  | joined c hello g grp _ hg hsame =>
      refine ⟨?_, ?_, fun _ h => (by cases h), fun _ _ _ h => (by cases h),
        fun _ _ _ _ h => (by cases h)⟩
      · rintro d k hk
        cases hk
        exact hL.profiled c hello rfl
      · rintro k g' hk
        cases hk
        exact ⟨grp, hg, hsame⟩
  | limitPassed c hello g grp hg hmu hfull => exact entering_limitPassed hg hmu hfull hI hL
  | called c hello g grp bond hg hb => exact entering_called hg hb hL
  | _ => exact entering_idle rfl rfl rfl

/-- What a thread relies on survives where its connection is left alone, groups
    keep their hello, and the group whose mutex it holds only drifts. -/
theorem entering_keep {j : Nat} {u : VkTurnServer.Pc} (hu : Entering cfg j σ u)
    (hhel : ∀ c, u.conn = some c → σ'.hellos c = σ.hellos c)
    (hfound : ∀ (g : GroupRef) (grp : Group), σ.objs[g]? = some grp →
      ∃ grp', σ'.objs[g]? = some grp' ∧ grp'.hello = grp.hello)
    (hheld : ∀ (g : GroupRef) (grp' : Group), holding u = some g →
      σ'.objs[g]? = some grp' → ∃ grp, σ.objs[g]? = some grp ∧ grp'.mu = grp.mu ∧
        grp'.hello = grp.hello ∧ Drifted cfg.arch grp.bond grp'.bond) :
    Entering cfg j σ' u := by
  refine ⟨?_, ?_, ?_, ?_, ?_⟩
  · intro c hello hp
    rw [hhel c (profile_conn hp)]
    exact hu.profiled c hello hp
  · intro hello g htar
    obtain ⟨grp, hg, hsame⟩ := hu.found hello g htar
    obtain ⟨grp', hg', hsame'⟩ := hfound g grp hg
    exact ⟨grp', hg', hsame'.trans hsame⟩
  · intro g hh grp' hg'
    obtain ⟨grp, hg, hmu, -⟩ := hheld g grp' hh hg'
    rw [hmu]
    exact hu.holds g hh grp hg
  · rintro c hello g rfl grp' hg'
    obtain ⟨grp, hg, -, hsame, hdrift⟩ := hheld g grp' rfl hg'
    obtain ⟨hzero, hroom⟩ := hu.calling c hello g rfl grp hg
    obtain ⟨hle, hsum, -⟩ := hdrift.adders
    rw [isV2, hsame]
    refine ⟨by omega, ?_⟩
    intro hv
    have := hroom hv
    omega
  · rintro c hello g tid rfl grp' hg'
    obtain ⟨grp, hg, -, -, hdrift⟩ := hheld g grp' rfl hg'
    obtain ⟨bt, hbt, hone⟩ := hu.adding c hello g tid rfl grp hg
    exact hdrift.adders.2.2 tid bt hbt hone

/-- Another thread's section keeps what a thread relies on. -/
theorem entering_stable (h : VkTurnServer.Moves cfg i σ t σ' t' new)
    (hL : Entering cfg i σ t) {j : Nat} {u : VkTurnServer.Pc} (hij : i ≠ j)
    (hother : ∀ c, u.conn = some c → t.conn ≠ some c) (hu : Entering cfg j σ u) :
    Entering cfg j σ' u := by
  refine entering_keep hu (fun c hc => (h.conn_frame (hother c hc)).1) ?_ ?_
  · intro g grp hg
    obtain ⟨grp', hg', hm⟩ := h.group hg
    exact ⟨grp', hg', hm.hello⟩
  · intro g grp' hh hg'
    obtain ⟨hello, htar⟩ := target_of_holding hh
    obtain ⟨grp, hg, -⟩ := hu.found hello g htar
    have hmine := hu.holds g hh grp hg
    obtain ⟨grp'', hg'', hm⟩ := h.group hg
    obtain rfl : grp'' = grp' := Option.some.inj (hg''.symm.trans hg')
    have hnot : grp.mu ≠ some i := by
      rw [hmine]
      exact fun e => hij (Option.some.inj e).symm
    refine ⟨grp, hg, ?_⟩
    cases hm with
    | same _ _ hh' hb hmu => exact ⟨hmu, hh', Or.inl hb⟩
    | took _ _ _ hnone _ => cases hnone.symm.trans hmine
    | called c k bond ht _ => subst ht; exact absurd (hL.holds g rfl grp hg) hnot
    | finished c k tid r _ ht _ _ _ _ _ =>
        subst ht
        exact absurd (hL.holds g rfl grp hg) hnot
    | closes bond _ hb => exact ⟨rfl, rfl, drifted_close hb⟩

end Step

section Reached

variable {cfg : Config} {limiter : VkTurnLimiter.ConnectionLimiter} {s : ServerPool}
variable {ok : ServerPool → Act VkTurnServer.Choice VkTurnServer.Op → Prop}

/-- **HOMOGENEITY**: the invariant holds throughout every run. -/
theorem homogeneous (h : Reach (serverStep cfg) ok (newServer limiter) s) :
    Annotated (Homogeneous cfg) (Entering cfg) s := by
  refine Machine.owickiGries (M := serverMachine cfg)
    (J := Reach (serverStep cfg) ok (newServer limiter)) (fun s hs => hs)
    (Homogeneous cfg) (Entering cfg) ?_ ?_ ?_ ?_ h
  · refine ⟨⟨?_, ?_, ?_, ?_⟩, fun i t ht => absurd ht (Option.some_ne_none t).symm⟩ <;>
    · intro g grp hg
      exact absurd hg (Option.some_ne_none grp).symm
  · intro s i t a σ' t' new hreach ht _ he hI hL
    have hm := exec_moves he
    refine ⟨homogeneous_step hm hI hL ?_, entering_step hm hI hL, ?_⟩
    · intro g grp hg path hp
      rcases moves_hellos hm path.conn with heq | hread
      · exact heq
      · subst hread
        obtain ⟨p, hp⟩ := List.getElem?_of_mem hp
        refine absurd ?_ (not_on_path hreach ht rfl rfl hg p)
        rw [connOf, hp]
        rfl
    · intro n u hu
      cases hm with
      | startedNow c g grp _ _ =>
          rw [List.mem_singleton.mp hu]
          exact entering_idle rfl rfl rfl
      | _ => cases hu
  · intro s i j t u a σ' t' new hreach hij ht hu he hI hL hLu
    exact entering_stable (exec_moves he) hL hij
      (fun c hc => handler_unique hreach hij ht hu hc) hLu
  · intro s e σ' new hreach _ he hI
    have hh := outside_happens he
    obtain ⟨hhel, -⟩ := hh.frame
    refine ⟨homogeneous_drift hI hhel fun g grp' hg' => happens_drifted hh hg', ?_, ?_⟩
    · intro n u hu
      cases hh with
      | accepted l lease _ =>
          rw [List.mem_singleton.mp hu]
          exact entering_idle rfl rfl rfl
      | _ => cases hu
    · intro j u hu hLu
      refine entering_keep hLu (fun c _ => congrFun hhel c) ?_ ?_
      · intro g grp hg
        obtain ⟨grp', hg', hmove⟩ := hh.group hg
        refine ⟨grp', hg', ?_⟩
        rcases hmove with rfl | ⟨_, _, _, _, rfl⟩ <;> rfl
      · intro g grp' _ hg'
        exact happens_drifted hh hg'

end Reached

/-- **ONE PROFILE PER GROUP, WITHIN ITS LIMIT**: in every state of the server,
    under every interleaving of `add` calls, path removals and run terminations,
    every path listed in a group came with a hello equal to the group's; that
    hello fits the server's MTU and FEC settings; and a V2 group lists at most
    the negotiated number of paths, which is at most 64. -/
theorem group_one_profile_within_limit (cfg : Config)
    (limiter : VkTurnLimiter.ConnectionLimiter) (s : ServerPool)
    (h : ServerReach cfg limiter s) (g : GroupRef) (grp : Group)
    (hg : s.shared.objs[g]? = some grp) :
    (∀ p ∈ grp.bond.shared.bond.paths, ∃ path, grp.bond.shared.heap[p]? = some path ∧
        s.shared.hellos path.conn = some grp.hello) ∧
      validateBondHelloTuning cfg.tuning grp.hello = none ∧
      (grp.hello.version = bondProtocolV2 →
        (grp.bond.shared.bond.paths.length : Int) ≤ grp.hello.expectedPaths ∧
          grp.hello.expectedPaths ≤ maxBondPaths) := by
  obtain ⟨hI, -⟩ := homogeneous h
  have htuned := hI.tuned g grp hg
  refine ⟨?_, htuned, ?_⟩
  · intro p hp
    have hlt := VkTurnDisposal.listed_allocated (bonds_reached h g grp hg) hp
    refine ⟨grp.bond.shared.heap[p], List.getElem?_eq_getElem hlt, ?_⟩
    exact hI.greeted g grp hg _ (List.getElem_mem hlt)
  · intro hv
    have hbound := hI.bound g grp hg hv
    have hmax := ((validateBondHelloTuning_valid htuned).2 hv).2
    refine ⟨?_, hmax⟩
    show ((listed grp.bond).length : Int) ≤ _
    omega

/-- A bond server with the default profile. -/
def bondConfig : Config where
  arch := .bits64
  tuning := { kcpMtu := 1200, kcpDataShards := 0, kcpParityShards := 0 }
  kcpWindow := 1024
  vlessMode := true
  vlessBond := true
  clientAuth := false

/-- A limiter with room for four connections. -/
def fourConnections : VkTurnLimiter.ConnectionLimiter where
  maxTotal := 4
  maxPerIP := 4

/-- The V2 hello of a bond of so many paths. -/
def helloRecord (paths : String) : Bytes :=
  ascii "VKTURNBOND/2 0123456789abcdef " ++ ascii paths ++ ascii " 1200 0 0\n"

/-- Accept a connection and run its handler `i` to the entry of `AddConn`. -/
def enterBond (i : Nat) (record : Bytes) :
    List (Act VkTurnServer.Choice VkTurnServer.Op) :=
  [.env (.accept (some (ascii "192.0.2.1"))), .run i .go, .run i .go, .run i .go,
    .run i (.read (wholeRead record)), .run i .go, .run i (.write wholeWrite),
    .run i .go, .run i .go, .run i .go]

/-- Run the `AddConn` in thread `tid` of the first bond to its end, then the rest
    of handler `i`. -/
def joinBond (i tid : Nat) : List (Act VkTurnServer.Choice VkTurnServer.Op) :=
  List.replicate 4 (.env (.bond 0 (.run tid .go))) ++ [.run i .go, .run i .go]

/-- Two paths join one group of two. -/
theorem two_paths_one_profile :
    ∃ (s : ServerPool) (grp : Group), ServerReach bondConfig fourConnections s ∧
      s.shared.objs[0]? = some grp ∧ grp.bond.shared.bond.paths = [0, 1] ∧
      grp.hello.expectedPaths = 2 ∧
      (grp.bond.shared.bond.paths.length : Int) ≤ grp.hello.expectedPaths ∧
      validateBondHelloTuning bondConfig.tuning grp.hello = none := by
  obtain ⟨s, hr, hp⟩ := Reach.of_follow (serverStep bondConfig) anyStep
    (newServer fourConnections)
    (enterBond 0 (helloRecord "2") ++ joinBond 0 0
      ++ enterBond 2 (helloRecord "2") ++ joinBond 2 2)
    (fun s : ServerPool => (s.shared.objs[0]?).any fun grp : Group =>
      decide (grp.bond.shared.bond.paths = [0, 1] ∧ grp.hello.version = bondProtocolV2 ∧
        grp.hello.expectedPaths = 2)) (by decide)
  cases hg : s.shared.objs[0]? with
  | none => rw [hg] at hp; cases hp
  | some grp =>
      rw [hg] at hp
      obtain ⟨hpaths, hv, hexp⟩ := of_decide_eq_true hp
      obtain ⟨-, htuned, hbound⟩ :=
        group_one_profile_within_limit bondConfig fourConnections s hr 0 grp hg
      exact ⟨s, grp, hr, hg, hpaths, hexp, (hbound hv).1, htuned⟩

end VkTurnHomogeneity
