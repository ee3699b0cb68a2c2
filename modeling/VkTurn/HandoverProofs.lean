import VkTurn.ServerProofs

/-! # Who has a connection

    A connection of the server is first its handler's.  `addWithCleanup` hands
    it to the bond of a group, for good.  Three facts say so, each a law of the
    whole pool and each for every condition on the steps of a run:

    * `one_handler` — an accepted connection has exactly one handler;
    * `bonds_reached` — the bond of every group is one that a bond by itself
      reaches, so everything proved of a bond holds of it;
    * `handover` — a connection is on as many paths, over all groups, as
      handlers have handed it over. -/

namespace VkTurnHandover

open ThreadPool VkTurnStripe VkTurnBond VkTurnBondHello VkTurnServer GoText GoMap

/-! ## One handler per connection -/

/-- One when the thread handles the connection. -/
def handles (c : Conn) (t : VkTurnServer.Pc) : Nat := if t.conn = some c then 1 else 0

theorem handles_eq_zero {c : Conn} {t : VkTurnServer.Pc} (h : t.conn = none) :
    handles c t = 0 := by
  rw [handles, h, if_neg (by simp)]

section Reached

variable {cfg : Config} {limiter : VkTurnLimiter.ConnectionLimiter} {s : ServerPool}
variable {ok : ServerPool → Act VkTurnServer.Choice VkTurnServer.Op → Prop}

/-- Every accepted connection has one handler, and no other connection has. -/
theorem one_handler (h : Reach (serverStep cfg) ok (newServer limiter) s) (c : Conn) :
    load (handles c) s.threads = if c < s.shared.leases.length then 1 else 0 := by
  have hcons := Machine.reach_conserves (M := serverMachine cfg) (fun _ => 0) (handles c)
    (fun σ => if c < σ.leases.length then 1 else 0) rfl ?_ ?_ h
  · simpa using hcons
  · intro i σ t a σ' t' new he
    obtain ⟨hc, hnew, hlen⟩ := (exec_moves he).conn_eq
    have hz : load (handles c) new = 0 :=
      load_eq_zero fun u hu => handles_eq_zero (hnew u hu)
    have hsame : handles c t' = handles c t := by rw [handles, handles, hc]
    simp only [hz, hsame, hlen]
    omega
  · intro σ e σ' new he
    cases outside_happens he with
    | refused => simp
    | accepted l lease _ =>
        have hnew : handles c (.typeCheck σ.leases.length) = [σ.leases.length].count c := by
          simp only [handles, VkTurnServer.Pc.conn, Option.some.injEq, List.count_singleton,
            beq_iff_eq]
        simp only [load_cons, load_nil, List.length_append, List.length_singleton, hnew]
        rw [issued_succ]
        omega
    | bond g a grp bond _ _ _ =>
        simp only [load_nil, (bondMoved_frame σ g grp bond).length]
        rfl

/-- Two threads do not handle one connection. -/
theorem handler_unique (h : Reach (serverStep cfg) ok (newServer limiter) s)
    {i j : Nat} {t u : VkTurnServer.Pc} (hij : i ≠ j) (ht : s.threads[i]? = some t)
    (hu : s.threads[j]? = some u) {c : Conn} (hc : u.conn = some c) :
    t.conn ≠ some c := by
  intro htc
  have hsum := add_le_load (handles c) hij ht hu
  have hone := one_handler h c
  rw [handles, if_pos htc, handles, if_pos hc, hone] at hsum
  split_ifs at hsum <;> omega

/-- A thread handles an accepted connection only. -/
theorem conn_accepted (h : Reach (serverStep cfg) ok (newServer limiter) s) {i : Nat}
    {t : VkTurnServer.Pc} (ht : s.threads[i]? = some t) {c : Conn} (hc : t.conn = some c) :
    c < s.shared.leases.length := by
  by_contra hge
  have hone := one_handler h c
  rw [if_neg hge] at hone
  have hle := le_load (handles c) ht
  rw [handles, if_pos hc] at hle
  omega

/-- An accepted connection has a handler. -/
theorem handler_exists (h : Reach (serverStep cfg) ok (newServer limiter) s) {c : Conn}
    (hlt : c < s.shared.leases.length) :
    ∃ (i : Nat) (t : VkTurnServer.Pc), s.threads[i]? = some t ∧ t.conn = some c := by
  have hone := one_handler h c
  rw [if_pos hlt] at hone
  obtain ⟨i, t, ht, hpos⟩ := exists_of_load_pos (show 0 < load (handles c) s.threads by omega)
  refine ⟨i, t, ht, ?_⟩
  by_contra hne
  rw [handles, if_neg hne] at hpos
  omega

/-! ## Every bond is a bond -/

/-- **NESTING**: the bond of every group is one that a bond by itself can reach;
    and where the steps of the server's run keep a condition on the bonds' own
    steps, by such steps alone. -/
theorem bonds_reached_by {q : Bond → Act VkTurnBond.Choice VkTurnBond.Op → Prop}
    (hcall : ∀ b e, q b (.env e))
    (hq : ∀ (s : ServerPool) (g : GroupRef) (grp : Group) a, ok s (.env (.bond g a)) →
      s.shared.objs[g]? = some grp → q grp.bond a)
    (h : Reach (serverStep cfg) ok (newServer limiter) s) :
    ∀ (g : GroupRef) (grp : Group), s.shared.objs[g]? = some grp →
      Reach (bondStep cfg.arch) q newBond grp.bond := by
  refine Reach.invariant (I := fun s => ∀ (g : GroupRef) (grp : Group),
    s.shared.objs[g]? = some grp → Reach (bondStep cfg.arch) q newBond grp.bond)
    ?_ ?_ h
  · intro g grp hg
    exact absurd hg (Option.some_ne_none grp).symm
  intro s a s' _ hI hok hs g grp' hg'
  cases a with
  | run i a =>
      obtain ⟨t, σ', t', new, _, he, rfl⟩ := Machine.step_run hs
      rcases (exec_moves he).group_cases hg' with
        ⟨grp, hg, hmove⟩ | ⟨_, _, _, _, _, _, _, rfl⟩
      · have hreach := hI g grp hg
        rcases hmove.bond with hb | ⟨_, _, _, hb⟩ | ⟨_, hb⟩
        · rw [hb]
          exact hreach
        · exact Reach.tail _ hreach (hcall _ _) hb
        · exact Reach.tail _ hreach (hcall _ _) hb
      · exact Reach.start
  | env e =>
      obtain ⟨σ', new, he, rfl⟩ := Machine.step_env hs
      cases e with
      | accept ip =>
          rw [show σ'.objs = s.shared.objs from outside_accept cfg he] at hg'
          exact hI g grp' hg'
      | bond g₀ a =>
          obtain ⟨grp₀, bond, h₀, -, hb, rfl, -⟩ := outside_bond he
          by_cases hne : g = g₀
          · subst hne
            rw [bondMoved_self bond h₀] at hg'
            obtain rfl := Option.some.inj hg'
            exact Reach.tail a (hI g grp₀ h₀) (hq s g grp₀ a hok h₀) hb
          · rw [bondMoved_other grp₀ bond (Ne.symm hne)] at hg'
            exact hI g grp' hg'

/-- So everything proved of a bond holds of it. -/
theorem bonds_reached (h : Reach (serverStep cfg) ok (newServer limiter) s) :
    ∀ (g : GroupRef) (grp : Group), s.shared.objs[g]? = some grp →
      BondReach cfg.arch grp.bond :=
  bonds_reached_by (fun _ _ => trivial) (fun _ _ _ _ _ _ => trivial) h

end Reached

/-! ## Connections handed over -/

/-- One when the handler has handed its connection to a bond. -/
def handed (c : Conn) : VkTurnServer.Pc → Nat
  | .adding d _ _ _ => if d = c then 1 else 0
  | .start d _ => if d = c then 1 else 0
  | .accepted d => if d = c then 1 else 0
  | _ => 0

/-- How many paths of a group have the connection. -/
def pathsIn (c : Conn) (grp : Group) : Nat :=
  grp.bond.shared.heap.countP fun path => path.conn = c

/-- How many paths of all groups have the connection. -/
def pathsOf (c : Conn) (σ : Server) : Nat := load (pathsIn c) σ.objs

theorem pathsIn_congr {c : Conn} {grp grp' : Group}
    (h : grp'.bond.shared.heap = grp.bond.shared.heap) : pathsIn c grp' = pathsIn c grp := by
  rw [pathsIn, pathsIn, h]

/-- Replacing a group moves the count by that group's difference. -/
theorem pathsOf_set (c : Conn) {σ σ' : Server} {g : GroupRef} {grp : Group} (x : Group)
    (hg : σ.objs[g]? = some grp) (hobjs : σ'.objs = σ.objs.set g x) :
    pathsOf c σ' + pathsIn c grp = pathsOf c σ + pathsIn c x := by
  rw [pathsOf, pathsOf, hobjs]
  exact load_set (pathsIn c) x hg

/-- So a group with the same paths leaves it. -/
theorem pathsOf_same (c : Conn) {σ : Server} (σ' : Server) {g : GroupRef} {grp x : Group}
    (hg : σ.objs[g]? = some grp) (hobjs : σ'.objs = σ.objs.set g x)
    (hx : x.bond.shared.heap = grp.bond.shared.heap) : pathsOf c σ' = pathsOf c σ := by
  have hset := pathsOf_set c x hg hobjs
  rw [pathsIn_congr hx] at hset
  omega

theorem pathsIn_addConn {arch : Arch} {grp : Group} {d : Conn} {bond : Bond}
    (h : bondStep arch grp.bond (.env (.addConn (some d) true)) = some bond) (c : Conn) :
    pathsIn c { grp with bond := bond } = pathsIn c grp + if d = c then 1 else 0 := by
  obtain ⟨σ', new, he, rfl⟩ := Machine.step_env h
  cases he
  show (grp.bond.shared.heap ++ [_]).countP _ = _
  rw [List.countP_append, List.countP_singleton]
  simp only [decide_eq_true_eq]
  rfl

theorem bondStep_close_heap {arch : Arch} {b b' : Bond}
    (h : bondStep arch b (.env .close) = some b') :
    b'.shared.heap = b.shared.heap :=
  bondStep_heap h fun _ _ hk => (by cases hk)

/-- A section hands over at most its own connection. -/
theorem moves_handed {cfg : Config} {i : Nat} {σ σ' : Server} {t t' : VkTurnServer.Pc}
    {new : List VkTurnServer.Pc} (h : VkTurnServer.Moves cfg i σ t σ' t' new) (c : Conn) :
    handed c t' + load (handed c) new + pathsOf c σ = handed c t + pathsOf c σ' := by
  cases h with
  | checked d hello =>
      have hz : handed c (afterCheck d hello) = 0 := by
        rw [afterCheck]
        split <;> rfl
      rw [hz]
      rfl
  | created d hello _ =>
      have hz : pathsOf c (σ.create hello) = pathsOf c σ := by
        show load (pathsIn c) (σ.objs ++ [_]) = _
        rw [load_append]
        rfl
      rw [hz]
      rfl
  | limitPassed d hello g grp hg _ _ =>
      rw [pathsOf_same c (σ.setGroup g { grp with mu := some i }) hg rfl rfl]
      rfl
  | called d hello g grp bond hg hb =>
      have hset := pathsOf_set c { grp with bond := bond } hg
        (bondMoved_frame σ g grp bond).objs
      have hadd := pathsIn_addConn hb c
      simp only [handed, load_nil]
      omega
  | added d hello g tid grp r hg _ =>
      have hb := (applyWindow_frame cfg
        { grp with maxPaths := if (grp.bond.shared.bond.count : Int) > grp.maxPaths
            then (grp.bond.shared.bond.count : Int) else grp.maxPaths }).2.2
      rw [pathsOf_same c (σ.setGroup g (grp.sized cfg)) hg rfl
        (congrArg (fun b : Bond => b.shared.heap) hb)]
      rfl
  | startedNow d g grp hg _ =>
      rw [pathsOf_same c (σ.setGroup g { grp with started := true }) hg rfl rfl]
      rfl
  | installed g grp hg _ =>
      rw [pathsOf_same c (σ.setGroup g (grp.install cfg i)) hg rfl rfl]
      rfl
  | cleared g grp hg _ =>
      rw [pathsOf_same c (σ.setGroup g (grp.clear i)) hg rfl
        (congrArg (fun b : Bond => b.shared.heap) (clear_frame grp i).2.2.1)]
      rfl
  | runCloses g grp bond hg hb =>
      rw [pathsOf_same c _ hg (bondMoved_frame σ g grp bond).objs (bondStep_close_heap hb)]
      rfl
  | released d o =>
      have hz : pathsOf c (σ.releaseConnection d) = pathsOf c σ := by
        rw [pathsOf, (releaseConnection_frame σ d).objs]
        rfl
      rw [hz]
      rfl
  | unregistered g grp _ =>
      have hz : pathsOf c (σ.unregister g grp.id) = pathsOf c σ := by
        rw [Server.unregister]
        split <;> rfl
      rw [hz]
      rfl
  | _ => rfl

theorem handed_le_handles (c : Conn) (t : VkTurnServer.Pc) : handed c t ≤ handles c t := by
  cases t <;> simp [handed, handles, VkTurnServer.Pc.conn]

/-- What a bond may do by itself is not a call of `AddConn`. -/
theorem not_addConn {grp : Group} {a : Act VkTurnBond.Choice VkTurnBond.Op}
    (h : bondAllowed grp a = true) : ∀ c k, a ≠ .env (.addConn c k) := by
  rintro c k rfl
  cases h

section Reached

variable {cfg : Config} {limiter : VkTurnLimiter.ConnectionLimiter} {s : ServerPool}
variable {ok : ServerPool → Act VkTurnServer.Choice VkTurnServer.Op → Prop}

/-- **HANDOVER**: a connection is on as many paths as handlers have handed it
    over. -/
theorem handover (h : Reach (serverStep cfg) ok (newServer limiter) s) (c : Conn) :
    load (handed c) s.threads = pathsOf c s.shared := by
  have hcons := Machine.reach_conserves (M := serverMachine cfg) (fun _ => 0) (handed c)
    (pathsOf c) rfl ?_ ?_ h
  · simpa using hcons
  · intro i σ t a σ' t' new he
    have := moves_handed (exec_moves he) c
    omega
  · intro σ e σ' new he
    cases outside_happens he with
    | refused => rfl
    | accepted l lease _ => rfl
    | bond g a grp bond hg hallow hb =>
        rw [pathsOf_same c _ hg (bondMoved_frame σ g grp bond).objs
          (bondStep_heap hb (not_addConn hallow))]
        rfl

theorem pathsIn_pos {grp : Group} {p : PathRef} {c : Conn}
    (hc : connOf grp.bond p = some c) : 0 < pathsIn c grp := by
  obtain ⟨path, hpath, hpc⟩ := Option.map_eq_some_iff.mp hc
  exact List.countP_pos_iff.mpr ⟨path, List.mem_of_getElem? hpath, decide_eq_true hpc⟩

/-- A connection on a path is one that its handler has handed over. -/
theorem handed_of_path (h : Reach (serverStep cfg) ok (newServer limiter) s)
    {g : GroupRef} {grp : Group} (hg : s.shared.objs[g]? = some grp) {p : PathRef}
    {c : Conn} (hc : connOf grp.bond p = some c) :
    ∃ (i : Nat) (t : VkTurnServer.Pc), s.threads[i]? = some t ∧ t.conn = some c ∧
      0 < handed c t := by
  have hsum := handover h c
  have hle : pathsIn c grp ≤ pathsOf c s.shared := le_load (pathsIn c) hg
  have hpos := pathsIn_pos hc
  obtain ⟨i, t, ht, hh⟩ := exists_of_load_pos (show 0 < load (handed c) s.threads by omega)
  refine ⟨i, t, ht, ?_, hh⟩
  by_contra hne
  have := handed_le_handles c t
  rw [handles, if_neg hne] at this
  omega

/-- A handler that has handed over its connection has put it on a path. -/
theorem path_of_handed (h : Reach (serverStep cfg) ok (newServer limiter) s) {i : Nat}
    {t : VkTurnServer.Pc} (ht : s.threads[i]? = some t) {c : Conn} (hh : 0 < handed c t) :
    ∃ (g : GroupRef) (grp : Group) (p : PathRef), s.shared.objs[g]? = some grp ∧
      connOf grp.bond p = some c := by
  have hle := le_load (handed c) ht
  have hsum := handover h c
  obtain ⟨g, grp, hg, hpos⟩ :=
    exists_of_load_pos (show 0 < load (pathsIn c) s.shared.objs from by
      show 0 < pathsOf c s.shared
      omega)
  obtain ⟨path, hpath, hpc⟩ := List.countP_pos_iff.mp hpos
  obtain ⟨p, hp⟩ := List.getElem?_of_mem hpath
  refine ⟨g, grp, p, hg, ?_⟩
  rw [connOf, hp]
  exact congrArg some (of_decide_eq_true hpc)

/-- A connection whose handler has not handed it over is on no path. -/
theorem not_on_path (h : Reach (serverStep cfg) ok (newServer limiter) s) {i : Nat}
    {t : VkTurnServer.Pc} (ht : s.threads[i]? = some t) {c : Conn} (hc : t.conn = some c)
    (hz : handed c t = 0) {g : GroupRef} {grp : Group} (hg : s.shared.objs[g]? = some grp)
    (p : PathRef) : connOf grp.bond p ≠ some c := by
  intro hp
  obtain ⟨j, u, hu, huc, hpos⟩ := handed_of_path h hg hp
  by_cases hij : i = j
  · subst hij
    obtain rfl : t = u := Option.some.inj (ht.symm.trans hu)
    omega
  · exact handler_unique h hij ht hu huc hc

end Reached

end VkTurnHandover
