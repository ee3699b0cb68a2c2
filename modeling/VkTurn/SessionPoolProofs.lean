import Mathlib.Data.List.Count
import Mathlib.Data.List.Rotate
import Mathlib.Data.List.Sort
import Mathlib.Tactic

/-! # The session pool

    The client spreads its TCP connections over a pool of smux sessions.
    `candidates` gives the sessions in the order in which they are tried: the closed
    ones left out, the least loaded first, and among equals the pool's cyclic order
    from a shared counter on.

    The three parts of the code (rotate, filter, stable sort) are one equation,
    `candidates_eq`; the order among equals is stability (`filter_load_candidates`);
    and fairness over consecutive calls is a rotation again (`firsts_of_live`). -/

namespace VkTurnSessionPool

variable {S : Type}

/-- `sessionPool`. -/
structure SessionPool (S : Type) where
  sessions : List S := []
  counter : UInt64 := 0

/-- What the sessions answer during one call: `IsClosed` and `NumStreams`. -/
structure View (S : Type) where
  isClosed : S → Bool
  numStreams : S → Int

/-- One session is not more loaded than another. -/
def View.le (v : View S) (a b : S) : Prop := v.numStreams a ≤ v.numStreams b

instance (v : View S) : DecidableRel v.le := fun a b =>
  inferInstanceAs (Decidable (v.numStreams a ≤ v.numStreams b))

instance (v : View S) : Std.Total v.le := ⟨fun a b => Int.le_total (v.numStreams a) (v.numStreams b)⟩

instance (v : View S) : IsTrans S v.le := ⟨fun _ _ _ hab hbc => Int.le_trans hab hbc⟩

/-- `sessionPool.add`. -/
def SessionPool.add (p : SessionPool S) (s : S) : SessionPool S :=
  { p with sessions := p.sessions ++ [s] }

/-- `sessionPool.remove`. -/
def SessionPool.remove [DecidableEq S] (p : SessionPool S) (s : S) : SessionPool S :=
  { p with sessions := p.sessions.erase s }

/-- The loop of `candidates` over the pool, from `start` on. -/
def scan (v : View S) (sessions : List S) (start : Nat) : List S :=
  (List.range sessions.length).filterMap fun i =>
    (sessions[(start + i) % sessions.length]?).filter fun s => !v.isClosed s

/-- `sessionPool.candidates`.  A stable sort by `<` is one that leaves `≤` alone. -/
def SessionPool.candidates (v : View S) (p : SessionPool S) : SessionPool S × List S :=
  if p.sessions.length = 0 then (p, [])
  else
    let counter := p.counter + 1
    let start := counter.toNat % p.sessions.length
    ({ p with counter },
      (scan v p.sessions start).insertionSort v.le)

/-! ## One call -/

section Call

variable (v : View S) (p : SessionPool S)

/-- The live sessions in cyclic order from the counter's position on. -/
def SessionPool.live : List S :=
  (p.sessions.rotate (p.counter + 1).toNat).filter fun s => !v.isClosed s

theorem scan_eq (sessions : List S) (start : Nat) :
    scan v sessions start = (sessions.rotate start).filter fun s => !v.isClosed s := by
  have hget : (List.range sessions.length).map (fun i => sessions[(start + i) % sessions.length]?)
      = (sessions.rotate start).map some := by
    refine List.ext_getElem? ?_
    intro i
    rw [List.getElem?_map, List.getElem?_map]
    by_cases hi : i < sessions.length
    · rw [List.getElem?_range hi, List.getElem?_rotate hi, Nat.add_comm i start]
      have hmod : (start + i) % sessions.length < sessions.length :=
        Nat.mod_lt _ (Nat.zero_lt_of_lt hi)
      simp only [List.getElem?_eq_getElem hmod, Option.map_some]
    · rw [List.getElem?_eq_none (by simpa using hi), List.getElem?_eq_none (by simpa using hi)]
      rfl
  calc scan v sessions start
      = ((List.range sessions.length).map
          fun i => sessions[(start + i) % sessions.length]?).filterMap
            (Option.filter fun s => !v.isClosed s) := by
        rw [List.filterMap_map]
        rfl
    _ = (sessions.rotate start).filter fun s => !v.isClosed s := by
        rw [hget, List.filterMap_map, ← List.filterMap_eq_filter]
        rfl

/-- **THE THREE PARTS OF THE CALL** -/
theorem candidates_eq :
    (p.candidates v).2 = (p.live v).insertionSort v.le := by
  rw [SessionPool.candidates]
  split
  · rename_i hempty
    rw [SessionPool.live, List.length_eq_zero_iff.mp hempty]
    rfl
  · rw [SessionPool.live, ← List.rotate_mod]
    exact congrArg _ (scan_eq v _ _)

theorem candidates_sessions : (p.candidates v).1.sessions = p.sessions := by
  rw [SessionPool.candidates]
  split <;> rfl

theorem candidates_counter (hne : p.sessions ≠ []) :
    (p.candidates v).1.counter = p.counter + 1 := by
  rw [SessionPool.candidates, if_neg (fun h => hne (List.length_eq_zero_iff.mp h))]

theorem mem_live {s : S} : s ∈ p.live v ↔ s ∈ p.sessions ∧ v.isClosed s = false := by
  rw [SessionPool.live, List.mem_filter, List.mem_rotate, Bool.not_eq_true']

theorem candidates_perm : (p.candidates v).2.Perm (p.live v) := by
  rw [candidates_eq]
  exact List.perm_insertionSort _ _

theorem candidates_sorted : (p.candidates v).2.Pairwise v.le := by
  rw [candidates_eq]
  exact List.pairwise_insertionSort v.le _

/-- **EQUALS KEEP THEIR ORDER**: the sessions of one load stand as they do in the
    pool. -/
theorem filter_load_candidates (k : Int) :
    (p.candidates v).2.filter (fun s => v.numStreams s = k)
      = (p.live v).filter fun s => v.numStreams s = k := by
  -- the sessions of load `k` are in order, so the sort keeps them as a sublist
  have hequal : ((p.live v).filter fun s => v.numStreams s = k).Pairwise v.le := by
    refine List.pairwise_of_forall_mem_list ?_
    intro a ha b hb
    have hka := of_decide_eq_true (List.mem_filter.mp ha).2
    have hkb := of_decide_eq_true (List.mem_filter.mp hb).2
    exact (hka.trans hkb.symm).le
  have hsub : ((p.live v).filter fun s => v.numStreams s = k).Sublist (p.candidates v).2 := by
    rw [candidates_eq]
    exact List.sublist_insertionSort hequal List.filter_sublist
  have hsub' := hsub.filter fun s => decide (v.numStreams s = k)
  simp only [List.filter_filter, Bool.and_self] at hsub'
  refine (hsub'.eq_of_length ?_).symm
  exact ((candidates_perm v p).filter _).length_eq.symm

/-- Sessions of one load are tried in the pool's order. -/
theorem candidates_of_equal
    (hequal : ∀ a ∈ p.live v, ∀ b ∈ p.live v, v.numStreams a = v.numStreams b) :
    (p.candidates v).2 = p.live v := by
  rw [candidates_eq]
  refine List.Pairwise.insertionSort_eq (List.pairwise_of_forall_mem_list ?_)
  intro a ha b hb
  exact (hequal a ha b hb).le

end Call

/-! ## Consecutive calls -/

/-- What consecutive calls return, the pool unchanged in between. -/
def SessionPool.calls : List (View S) → SessionPool S → List (List S)
  | [], _ => []
  | v :: vs, p => (p.candidates v).2 :: SessionPool.calls vs (p.candidates v).1

/-- The session that each call puts first. -/
def SessionPool.firsts (vs : List (View S)) (p : SessionPool S) : List (Option S) :=
  (p.calls vs).map List.head?

/-- The live sessions of the pool are equally loaded. -/
def Level (v : View S) (sessions : List S) : Prop :=
  ∀ a ∈ sessions, ∀ b ∈ sessions, v.isClosed a = false → v.isClosed b = false →
    v.numStreams a = v.numStreams b

theorem candidates_of_level {v : View S} {p : SessionPool S} (h : Level v p.sessions) :
    (p.candidates v).2 = p.live v := by
  refine candidates_of_equal v p ?_
  intro a ha b hb
  obtain ⟨ha, hla⟩ := (mem_live v p).mp ha
  obtain ⟨hb, hlb⟩ := (mem_live v p).mp hb
  exact h a ha b hb hla hlb

/-- **THE FIRST OF EACH CALL**: as long as the counter does not wrap, call `j` starts
    `j` places further. -/
theorem firsts_getElem? {vs : List (View S)} {p : SessionPool S} {j : Nat} {v : View S}
    (hne : p.sessions ≠ []) (hlevel : ∀ v ∈ vs, Level v p.sessions)
    (hwrap : p.counter.toNat + vs.length < 2 ^ 64) (hj : vs[j]? = some v) :
    (p.firsts vs)[j]? = some (((p.sessions.rotate (p.counter.toNat + 1 + j)).filter
      fun s => !v.isClosed s).head?) := by
  induction vs generalizing p j with
  | nil => cases hj
  | cons w vs ih =>
      have hstep : (p.counter + 1).toNat = p.counter.toNat + 1 := by
        rw [List.length_cons] at hwrap
        rw [UInt64.toNat_add, UInt64.toNat_one, Nat.mod_eq_of_lt (by omega)]
      cases j with
      | zero =>
          obtain rfl : w = v := Option.some.inj hj
          show some ((p.candidates w).2.head?) = _
          rw [candidates_of_level (hlevel w (List.mem_cons_self ..)), SessionPool.live, hstep]
      | succ j =>
          have hcounter := candidates_counter w p hne
          have hrest := ih (p := (p.candidates w).1) (by rwa [candidates_sessions])
            (fun u hu => by rw [candidates_sessions]; exact hlevel u (List.mem_cons_of_mem _ hu))
            (by rw [hcounter, hstep]; rw [List.length_cons] at hwrap; omega) hj
          rw [candidates_sessions, hcounter, hstep] at hrest
          show ((p.candidates w).1.firsts vs)[j]? = _
          rw [hrest, show p.counter.toNat + 1 + 1 + j = p.counter.toNat + 1 + (j + 1) by omega]

theorem calls_length (vs : List (View S)) (p : SessionPool S) :
    (p.calls vs).length = vs.length := by
  induction vs generalizing p with
  | nil => rfl
  | cons v vs ih => exact congrArg (· + 1) (ih _)

/-- The live session that a rotation starts with is the first live one. -/
theorem head?_live {v : View S} {sessions : List S} {m : Nat} {s : S}
    (hs : sessions[m % sessions.length]? = some s) (hlive : v.isClosed s = false) :
    ((sessions.rotate m).filter fun s => !v.isClosed s).head? = some s := by
  have hlt := (List.getElem?_eq_some_iff.mp hs).1
  have hhead : (sessions.rotate m).head? = some s := by
    rw [← List.rotate_mod, List.head?_rotate hlt, hs]
  obtain ⟨rest, hrest⟩ := List.head?_eq_some_iff.mp hhead
  rw [hrest, List.filter_cons, hlive]
  rfl

/-- In as many calls as there are sessions, each live session comes first. -/
theorem live_mem_firsts {vs : List (View S)} {p : SessionPool S} {s : S}
    (hlevel : ∀ v ∈ vs, Level v p.sessions) (hlen : vs.length = p.sessions.length)
    (hwrap : p.counter.toNat + vs.length < 2 ^ 64) (hs : s ∈ p.sessions)
    (hlive : ∀ v ∈ vs, v.isClosed s = false) : some s ∈ p.firsts vs := by
  -- the call whose start is the session's place
  obtain ⟨j, hj⟩ := List.getElem?_of_mem (List.mem_rotate.mpr hs :
    s ∈ p.sessions.rotate (p.counter.toNat + 1))
  have hlt : j < p.sessions.length := by
    simpa using (List.getElem?_eq_some_iff.mp hj).1
  rw [List.getElem?_rotate hlt, Nat.add_comm j] at hj
  have hv := List.getElem?_eq_getElem (hlen ▸ hlt : j < vs.length)
  have hmem := List.mem_of_getElem? hv
  have hfirst := firsts_getElem? (List.ne_nil_of_mem hs) hlevel hwrap hv
  rw [head?_live hj (hlive _ hmem)] at hfirst
  exact List.mem_of_getElem? hfirst

/-- With every session live the firsts are the pool, rotated. -/
theorem firsts_of_live {vs : List (View S)} {p : SessionPool S} (hne : p.sessions ≠ [])
    (hlevel : ∀ v ∈ vs, Level v p.sessions)
    (hlive : ∀ v ∈ vs, ∀ s ∈ p.sessions, v.isClosed s = false)
    (hlen : vs.length = p.sessions.length) (hwrap : p.counter.toNat + vs.length < 2 ^ 64) :
    p.firsts vs = (p.sessions.rotate (p.counter.toNat + 1)).map some := by
  refine List.ext_getElem? ?_
  intro j
  rw [List.getElem?_map]
  by_cases hj : j < p.sessions.length
  · have hv := List.getElem?_eq_getElem (hlen ▸ hj : j < vs.length)
    have hmod : (p.counter.toNat + 1 + j) % p.sessions.length < p.sessions.length :=
      Nat.mod_lt _ (Nat.zero_lt_of_lt hj)
    have hs := List.getElem?_eq_getElem hmod
    rw [firsts_getElem? hne hlevel hwrap hv, List.getElem?_rotate hj, Nat.add_comm j,
      head?_live hs (hlive _ (List.mem_of_getElem? hv) _ (List.mem_of_getElem? hs)), hs]
    rfl
  · have hlen' : (p.firsts vs).length = p.sessions.length := by
      rw [SessionPool.firsts, List.length_map, calls_length, hlen]
    rw [List.getElem?_eq_none (by omega), List.getElem?_eq_none (by simpa using hj)]
    rfl

/-- **LOAD-ORDERED CANDIDATES**: for every pool of distinct sessions, with any closed
    flags, loads and counter, a call returns each live session once and no closed one,
    by non-decreasing load, and sessions of one load in the pool's cyclic order from
    the counter's position on; it leaves the sessions alone and, if there is one, moves
    the counter on by one.

    Over as many consecutive calls as the pool has sessions, the live ones equally
    loaded in each call and the counter not wrapping: a session that is live
    throughout comes first at least once; if no session is closed, exactly once. -/
theorem candidates_load_ordered [DecidableEq S] (p : SessionPool S) (hnodup : p.sessions.Nodup) :
    (∀ v : View S,
      (p.candidates v).2.Nodup ∧
      (∀ s, s ∈ (p.candidates v).2 ↔ s ∈ p.sessions ∧ v.isClosed s = false) ∧
      (p.candidates v).2.Pairwise (fun a b => v.numStreams a ≤ v.numStreams b) ∧
      (∀ k, (p.candidates v).2.filter (fun s => v.numStreams s = k)
        = (p.sessions.rotate (p.counter + 1).toNat).filter
            fun s => v.numStreams s = k && !v.isClosed s) ∧
      (p.candidates v).1.sessions = p.sessions ∧
      (p.sessions ≠ [] → (p.candidates v).1.counter = p.counter + 1)) ∧
    ∀ vs : List (View S), vs.length = p.sessions.length →
      p.counter.toNat + vs.length < 2 ^ 64 → (∀ v ∈ vs, Level v p.sessions) →
      (∀ s ∈ p.sessions, (∀ v ∈ vs, v.isClosed s = false) → some s ∈ p.firsts vs) ∧
      ((∀ v ∈ vs, ∀ s ∈ p.sessions, v.isClosed s = false) →
        ∀ s ∈ p.sessions, (p.firsts vs).count (some s) = 1) := by
  refine ⟨fun v => ⟨?_, ?_, candidates_sorted v p, ?_, candidates_sessions v p,
    candidates_counter v p⟩, fun vs hlen hwrap hlevel => ⟨?_, ?_⟩⟩
  · rw [(candidates_perm v p).nodup_iff]
    exact (List.nodup_rotate.mpr hnodup).filter _
  · intro s
    rw [(candidates_perm v p).mem_iff, mem_live]
  · intro k
    rw [filter_load_candidates, SessionPool.live, List.filter_filter]
  · intro s hs hlive
    exact live_mem_firsts hlevel hlen hwrap hs hlive
  · intro hlive s hs
    rw [firsts_of_live (List.ne_nil_of_mem hs) hlevel hlive hlen hwrap,
      List.count_map_of_injective _ _ (Option.some_injective S),
      (List.rotate_perm _ _).count_eq]
    exact List.count_eq_one_of_mem hnodup hs

/-- Three idle sessions and the sessions' answers. -/
def threeIdle : View Nat where
  isClosed _ := false
  numStreams _ := 0

/-- The first call starts behind the session that the counter is at. -/
theorem three_idle_rotate :
    (SessionPool.firsts [threeIdle, threeIdle, threeIdle] ⟨[10, 20, 30], 0⟩).count (some 10) = 1 :=
  (((candidates_load_ordered ⟨[10, 20, 30], 0⟩ (by decide)).2 [threeIdle, threeIdle, threeIdle]
    rfl (by decide) (fun v hv => by
      intro a _ b _ _ _
      simp only [List.mem_cons, List.not_mem_nil, or_false, or_self] at hv
      rw [hv]
      rfl)).2 (fun v hv => by
        simp only [List.mem_cons, List.not_mem_nil, or_false, or_self] at hv
        rw [hv]
        exact fun _ _ => rfl)) 10 (by decide)

/-- The session in the middle is closed and has not been removed yet. -/
def middleClosed : View Nat where
  isClosed s := s == 20
  numStreams _ := 0

/-- Two live sessions of equal load, and two consecutive calls that both put the same
    one first: the closed session's turn goes to the next one. -/
theorem closed_session_skews_turns :
    (SessionPool.mk [10, 20, 30] 0).sessions.Nodup ∧
      ([10, 20, 30].filter fun s => !middleClosed.isClosed s) = [10, 30] ∧
      Level middleClosed [10, 20, 30] ∧
      SessionPool.firsts [middleClosed, middleClosed] ⟨[10, 20, 30], 0⟩ = [some 30, some 30] :=
  ⟨by decide, by decide, fun _ _ _ _ _ _ => rfl, by decide⟩

end VkTurnSessionPool
