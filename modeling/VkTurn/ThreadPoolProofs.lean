import Mathlib.Data.List.Basic
import Mathlib.Algebra.Order.BigOperators.Group.List
import Mathlib.Tactic

/-! # Thread pools over a shared state

    A program of cooperating threads is a transition function on a shared
    state and a list of control points.  One step runs ONE thread through one
    atomic section, or lets the outside world act (a new call, a timer).  An
    interleaving is a list of such steps, so a statement about every run is a
    statement about every interleaving.

    Eight rules carry the developments built on this file:

    * `Reach.invariant` — what one step keeps, every run keeps;
    * `Reach.watched_invariant` — the same for a program with a history variable;
    * `Reach.simulates` — a program whose steps are steps of another one, or none of
      its steps, has no other runs;
    * `follow_length_le` — a rank that every step lowers bounds every run;
    * `Machine.reach_tallies` and its cases `Machine.reach_balances` and
      `Machine.reach_conserves` — a quantity that each section conserves (shared
      part + the acting thread's part) is conserved by the pool;
    * `Machine.reach_sums` — the same in a group, where parts may be owed;
    * `load_le_of_held` — threads that hold different items are no more than these;
    * `Machine.owickiGries` — a shared invariant and one assertion per control
      point, each established by its own thread and stable under the others. -/

namespace ThreadPool

section Runs

variable {S A : Type} {step : S → A → Option S} {ok : S → A → Prop} {s₀ : S}

/-- The states reached from `s₀` by runs all of whose steps meet `ok`. -/
inductive Reach (step : S → A → Option S) (ok : S → A → Prop) (s₀ : S) :
    S → Prop where
  | start : Reach step ok s₀ s₀
  | tail {s s' : S} (a : A) :
      Reach step ok s₀ s → ok s a → step s a = some s' → Reach step ok s₀ s'

/-- No condition on the steps: every interleaving. -/
def anyStep : S → A → Prop := fun _ _ => True

instance (s : S) (a : A) : Decidable (anyStep s a) := instDecidableTrue

/-- Follow a list of steps, each of which must meet `ok`. -/
def follow (step : S → A → Option S) (ok : S → A → Prop)
    [∀ s a, Decidable (ok s a)] : S → List A → Option S
  | s, [] => some s
  | s, a :: as =>
      if ok s a then
        match step s a with
        | some s' => follow step ok s' as
        | none => none
      else none

/-- **INVARIANT RULE**: what every step keeps, every run keeps. -/
theorem Reach.invariant {I : S → Prop} (h0 : I s₀)
    (hstep : ∀ s a s', Reach step ok s₀ s → I s → ok s a →
      step s a = some s' → I s')
    {s : S} (h : Reach step ok s₀ s) : I s := by
  induction h with
  | start => exact h0
  | tail a hr hok hs ih => exact hstep _ a _ hr ih hok hs

/-- A run under a condition is a run. -/
theorem Reach.any {s : S} (h : Reach step ok s₀ s) : Reach step anyStep s₀ s := by
  induction h with
  | start => exact Reach.start
  | tail a _ _ hs ih => exact Reach.tail a ih trivial hs

/-- A run can be continued. -/
theorem Reach.trans {s s' : S} (h : Reach step ok s₀ s) (h' : Reach step ok s s') :
    Reach step ok s₀ s' := by
  induction h' with
  | start => exact h
  | tail a _ hok hs ih => exact Reach.tail a ih hok hs

/-- **SIMULATION RULE**: if every step is one step of another program, or none, as
    `view` shows it, then every run is a run of that program. -/
theorem Reach.simulates {T B : Type} {stepT : T → B → Option T} {okT : T → B → Prop}
    {view : S → T}
    (hstep : ∀ s a s', Reach step ok s₀ s → ok s a → step s a = some s' →
      view s' = view s ∨ ∃ b, okT (view s) b ∧ stepT (view s) b = some (view s'))
    {s : S} (h : Reach step ok s₀ s) : Reach stepT okT (view s₀) (view s) := by
  induction h with
  | start => exact Reach.start
  | tail a hr hok hs ih =>
      rcases hstep _ a _ hr hok hs with hsame | ⟨b, hb, hsb⟩
      · rw [hsame]
        exact ih
      · exact Reach.tail b ih hb hsb

/-- The first step of a followed list. -/
theorem follow_cons [∀ s a, Decidable (ok s a)] {a : A} {as : List A} {s s' : S}
    (h : follow step ok s (a :: as) = some s') :
    ∃ s'', ok s a ∧ step s a = some s'' ∧ follow step ok s'' as = some s' := by
  rw [ThreadPool.follow] at h
  by_cases hok : ok s a
  · rw [if_pos hok] at h
    cases hs : step s a with
    | none => rw [hs] at h; cases h
    | some s'' =>
        rw [hs] at h
        exact ⟨s'', hok, rfl, h⟩
  · rw [if_neg hok] at h
    cases h

/-- A followed list of steps extends a run. -/
theorem Reach.follow [∀ s a, Decidable (ok s a)] :
    ∀ (as : List A) {s s' : S}, Reach step ok s₀ s →
      follow step ok s as = some s' → Reach step ok s₀ s' := by
  intro as
  induction as with
  | nil =>
      intro s s' hr h
      obtain rfl : s = s' := Option.some.inj h
      exact hr
  | cons a as ih =>
      intro s s' hr h
      obtain ⟨s'', hok, hs, hrest⟩ := follow_cons h
      exact ih (Reach.tail a hr hok hs) hrest

/-- **RANKING RULE**: a run each of whose steps lowers a rank is no longer than the
    rank it starts with. -/
theorem follow_length_le [∀ s a, Decidable (ok s a)] (rank : S → Nat)
    (hstep : ∀ s a s', Reach step ok s₀ s → ok s a → step s a = some s' →
      rank s' < rank s) :
    ∀ (as : List A) {s s' : S}, Reach step ok s₀ s →
      follow step ok s as = some s' → as.length + rank s' ≤ rank s := by
  intro as
  induction as with
  | nil =>
      intro s s' _ h
      obtain rfl : s = s' := Option.some.inj h
      rw [List.length_nil, Nat.zero_add]
  | cons a as ih =>
      intro s s' hr h
      obtain ⟨s'', hok, hs, hrest⟩ := follow_cons h
      have hlow := hstep s a s'' hr hok hs
      have hle := ih (Reach.tail a hr hok hs) hrest
      rw [List.length_cons]
      omega

/-- A run that can be followed to a state with `p` reaches one. -/
theorem Reach.of_follow (step : S → A → Option S) (ok : S → A → Prop)
    [∀ s a, Decidable (ok s a)] (s₀ : S) (as : List A) (p : S → Bool)
    (h : (ThreadPool.follow step ok s₀ as).any p = true) :
    ∃ s, Reach step ok s₀ s ∧ p s = true := by
  cases hf : ThreadPool.follow step ok s₀ as with
  | none => rw [hf] at h; cases h
  | some s =>
      rw [hf] at h
      exact ⟨s, Reach.follow as Reach.start hf, h⟩

end Runs

/-! ## History variables -/

section History

variable {S A H : Type} {step : S → A → Option S} {ok : S → A → Prop}
  {note : H → S → A → S → H} {s₀ : S} {h₀ : H}

/-- A program and a history beside it, which no step reads: `note` brings it up
    to date from the state before a step, the step and the state after. -/
def watch (step : S → A → Option S) (note : H → S → A → S → H) (p : S × H) (a : A) :
    Option (S × H) :=
  (step p.1 a).map fun s' => (s', note p.2 p.1 a s')

theorem watch_eq_some {p q : S × H} {a : A} :
    watch step note p a = some q ↔ step p.1 a = some q.1 ∧ q.2 = note p.2 p.1 a q.1 := by
  unfold watch
  rw [Option.map_eq_some_iff]
  constructor
  · rintro ⟨s', hs, rfl⟩
    exact ⟨hs, rfl⟩
  · rintro ⟨hs, hq⟩
    exact ⟨q.1, hs, Prod.ext rfl hq.symm⟩

/-- Without its history a watched run is a run of the program. -/
theorem Reach.unwatched {p : S × H}
    (h : Reach (watch step note) (fun p a => ok p.1 a) (s₀, h₀) p) :
    Reach step ok s₀ p.1 := by
  induction h with
  | start => exact Reach.start
  | tail a _ hok hs ih => exact Reach.tail a ih hok (watch_eq_some.mp hs).1

/-- **HISTORY RULE**: what relates state and history after every step relates
    them throughout every watched run. -/
theorem Reach.watched_invariant {I : S → H → Prop} (hstart : I s₀ h₀)
    (hstep : ∀ s h a s', Reach step ok s₀ s → I s h → ok s a → step s a = some s' →
      I s' (note h s a s'))
    {p : S × H} (h : Reach (watch step note) (fun p a => ok p.1 a) (s₀, h₀) p) :
    I p.1 p.2 := by
  refine Reach.invariant (I := fun p : S × H => I p.1 p.2) hstart ?_ h
  intro p a q hr hI hok hs
  obtain ⟨hs, hq⟩ := watch_eq_some.mp hs
  rw [hq]
  exact hstep p.1 p.2 a q.1 hr.unwatched hI hok hs

end History

/-! ## Sums over the threads of a pool -/

section Load

variable {π : Type}

/-- The total of a per-thread quantity. -/
def load (m : π → Nat) (ts : List π) : Nat := (ts.map m).sum

@[simp] theorem load_nil (m : π → Nat) : load m [] = 0 := rfl

@[simp] theorem load_cons (m : π → Nat) (t : π) (ts : List π) :
    load m (t :: ts) = m t + load m ts := by
  simp [load]

@[simp] theorem load_append (m : π → Nat) (ts us : List π) :
    load m (ts ++ us) = load m ts + load m us := by
  simp [load]

/-- Replacing one thread moves the total by that thread's difference. -/
theorem load_set (m : π → Nat) {t : π} (t' : π) :
    ∀ {ts : List π} {i : Nat}, ts[i]? = some t →
      load m (ts.set i t') + m t = load m ts + m t' := by
  intro ts
  induction ts with
  | nil => intro i h; simp at h
  | cons u us ih =>
      intro i h
      cases i with
      | zero =>
          obtain rfl : u = t := by simpa using h
          simp only [List.set_cons_zero, load_cons]
          omega
      | succ i =>
          have h' : us[i]? = some t := by simpa using h
          have := ih h'
          simp only [List.set_cons_succ, load_cons]
          omega

/-- One thread's part is at most the total. -/
theorem le_load (m : π → Nat) {ts : List π} {i : Nat} {t : π}
    (h : ts[i]? = some t) : m t ≤ load m ts := by
  have hmem : t ∈ ts := List.mem_of_getElem? h
  exact List.single_le_sum (by simp) _ (List.mem_map_of_mem hmem)

/-- Two different threads' parts together are at most the total. -/
theorem add_le_load (m : π → Nat) {t u : π} :
    ∀ {ts : List π} {i j : Nat}, i ≠ j → ts[i]? = some t → ts[j]? = some u →
      m t + m u ≤ load m ts := by
  intro ts
  induction ts with
  | nil => intro i j _ h _; simp at h
  | cons v vs ih =>
      intro i j hij hi hj
      rw [load_cons]
      cases i with
      | zero =>
          cases j with
          | zero => exact absurd rfl hij
          | succ j =>
              obtain rfl : v = t := by simpa using hi
              have := le_load m (show vs[j]? = some u by simpa using hj)
              omega
      | succ i =>
          cases j with
          | zero =>
              obtain rfl : v = u := by simpa using hj
              have := le_load m (show vs[i]? = some t by simpa using hi)
              omega
          | succ j =>
              have := ih (i := i) (j := j) (fun e => hij (congrArg Nat.succ e))
                (by simpa using hi) (by simpa using hj)
              omega

/-- A quantity no thread has totals zero. -/
theorem load_eq_zero {m : π → Nat} {ts : List π}
    (h : ∀ t ∈ ts, m t = 0) : load m ts = 0 := by
  induction ts with
  | nil => rfl
  | cons t ts ih =>
      rw [load_cons, h t (List.mem_cons_self ..),
        ih (fun u hu => h u (List.mem_cons_of_mem _ hu))]

/-- A positive total is some thread's. -/
theorem exists_of_load_pos {m : π → Nat} {ts : List π} (h : 0 < load m ts) :
    ∃ (i : Nat) (t : π), ts[i]? = some t ∧ 0 < m t := by
  by_contra hno
  have hz : load m ts = 0 := by
    refine load_eq_zero ?_
    intro t ht
    obtain ⟨i, hi⟩ := List.getElem?_of_mem ht
    by_contra hm
    exact hno ⟨i, t, hi, Nat.pos_of_ne_zero hm⟩
  omega

/-- Quantities that agree on every thread have the same total. -/
theorem load_congr {m m' : π → Nat} {ts : List π} (h : ∀ t ∈ ts, m t = m' t) :
    load m ts = load m' ts :=
  congrArg List.sum (List.map_congr_left h)

/-- The total of a sum is the sum of the totals. -/
theorem load_sum (m : Nat → π → Nat) (n : Nat) (ts : List π) :
    load (fun t => ∑ r ∈ Finset.range n, m r t) ts = ∑ r ∈ Finset.range n, load (m r) ts := by
  induction ts with
  | nil => simp only [load_nil, Finset.sum_const_zero]
  | cons t ts ih => simp only [load_cons, ih, Finset.sum_add_distrib]

/-- One for some threads and zero for the others. -/
def one (p : π → Bool) (t : π) : Nat := if p t = true then 1 else 0

theorem one_true {p : π → Bool} {t : π} (h : p t = true) : one p t = 1 := if_pos h

theorem one_false {p : π → Bool} {t : π} (h : p t = false) : one p t = 0 :=
  if_neg fun ht => (by rw [h] at ht; cases ht)

/-- Where at most one thread has a property, the others do not. -/
theorem only_one {p : π → Bool} {ts : List π} (hle : load (one p) ts ≤ 1) {i j : Nat} {t u : π}
    (hij : i ≠ j) (ht : ts[i]? = some t) (hu : ts[j]? = some u) (hpu : p u = true) :
    p t = false := by
  by_contra hpt
  have hsum := add_le_load (one p) hij ht hu
  rw [one_true hpu, one_true (Bool.eq_true_of_not_eq_false hpt)] at hsum
  omega

theorem one_congr {p : π → Bool} {t u : π} (h : p t = p u) : one p t = one p u := by
  rw [one, one, h]

theorem one_pos_iff {p : π → Bool} {t : π} : 0 < one p t ↔ p t = true := by
  unfold one
  split <;> simp_all

theorem load_one (p : π → Bool) (ts : List π) : load (one p) ts = ts.countP p := by
  induction ts with
  | nil => rfl
  | cons t ts ih => rw [load_cons, ih, List.countP_cons, one, Nat.add_comm]

/-- A total, position by position. -/
theorem load_eq_sum_range (m : π → Nat) (ts : List π) :
    load m ts = ∑ i ∈ Finset.range ts.length, ((ts[i]?).map m).getD 0 := by
  induction ts with
  | nil => rfl
  | cons t ts ih =>
      rw [load_cons, List.length_cons, Finset.sum_range_succ', ih, Nat.add_comm]
      rfl

theorem load_mono {m m' : π → Nat} {ts : List π} (h : ∀ t ∈ ts, m t ≤ m' t) :
    load m ts ≤ load m' ts :=
  List.sum_le_sum h

/-- **PIGEONHOLE**: when each thread that counts holds an item of a list, which is worth something,
    and each item is held by at most one thread, the threads that count are no more than the list
    is worth. -/
theorem load_le_of_held {β : Type} {ts : List π} {ys : List β} {p : π → Bool} {item : π → Nat}
    {holds : Nat → π → Bool} {w : β → Nat} (hone : ∀ b, load (one (holds b)) ts ≤ 1)
    (hheld : ∀ t ∈ ts, p t = true →
      holds (item t) t = true ∧ ∃ y, ys[item t]? = some y ∧ 1 ≤ w y) :
    load (one p) ts ≤ load w ys := by
  let has : Nat → π → Bool := fun b t => p t && decide (item t = b)
  -- each thread is counted with what it holds
  have hsplit : load (one p) ts
      ≤ load (fun t => ∑ b ∈ Finset.range ys.length, one (has b) t) ts := by
    refine load_mono fun t ht => ?_
    by_cases hpt : p t = true
    · obtain ⟨-, y, hy, -⟩ := hheld t ht hpt
      have hbt : one (has (item t)) t = 1 := one_true (by simp [has, hpt])
      rw [one_true hpt, ← hbt]
      exact Finset.single_le_sum (f := fun b => one (has b) t) (fun _ _ => Nat.zero_le _)
        (Finset.mem_range.mpr (List.getElem?_eq_some_iff.mp hy).1)
    · rw [one_false (Bool.eq_false_of_not_eq_true hpt)]
      exact Nat.zero_le _
  rw [load_sum] at hsplit
  refine hsplit.trans ?_
  rw [load_eq_sum_range w ys]
  refine Finset.sum_le_sum fun b _ => ?_
  have hitem : ∀ t ∈ ts, has b t = true → holds b t = true ∧ ∃ y, ys[b]? = some y ∧ 1 ≤ w y := by
    intro t ht hb
    obtain ⟨hpt, rfl⟩ : p t = true ∧ item t = b := by simpa [has] using hb
    exact hheld t ht hpt
  rcases Nat.eq_zero_or_pos (load (one (has b)) ts) with hzero | hpos
  · exact hzero.trans_le (Nat.zero_le _)
  · obtain ⟨i, t, hi, ht⟩ := exists_of_load_pos hpos
    obtain ⟨-, y, hy, hw⟩ := hitem t (List.mem_of_getElem? hi) (one_pos_iff.mp ht)
    have hle : load (one (has b)) ts ≤ load (one (holds b)) ts := by
      refine load_mono fun u hu => ?_
      by_cases hb : has b u = true
      · rw [one_true hb, one_true (hitem u hu hb).1]
      · rw [one_false (Bool.eq_false_of_not_eq_true hb)]
        exact Nat.zero_le _
    rw [hy]
    exact (hle.trans (hone b)).trans hw

/-- Replacing one thread moves a count by that thread's difference. -/
theorem countP_set_add (p : π → Bool) {t : π} (t' : π) {ts : List π} {i : Nat}
    (h : ts[i]? = some t) :
    (ts.set i t').countP p + one p t = ts.countP p + one p t' := by
  have hset := load_set (one p) t' h
  rwa [load_one, load_one] at hset

/-- What the threads hold, after one moved that holds the same as before. -/
theorem filterMap_set_same {β : Type} (f : π → Option β) {t t' : π} (hf : f t' = f t) :
    ∀ {ts : List π} {i : Nat}, ts[i]? = some t →
      (ts.set i t').filterMap f = ts.filterMap f := by
  intro ts
  induction ts with
  | nil => intro i h; cases h
  | cons u us ih =>
      intro i h
      cases i with
      | zero =>
          obtain rfl : u = t := Option.some.inj h
          rw [List.set_cons_zero, List.filterMap_cons, List.filterMap_cons, hf]
      | succ i => rw [List.set_cons_succ, List.filterMap_cons, List.filterMap_cons, ih h]

/-- What the threads hold, if no thread but one holds anything. -/
theorem filterMap_only {β : Type} (f : π → Option β) {t : π} :
    ∀ {ts : List π} {i : Nat}, ts[i]? = some t →
      (∀ (j : Nat) u, j ≠ i → ts[j]? = some u → f u = none) → ts.filterMap f = (f t).toList := by
  intro ts
  induction ts with
  | nil => intro i h; cases h
  | cons v vs ih =>
      intro i h hother
      cases i with
      | zero =>
          obtain rfl : v = t := Option.some.inj h
          have hrest : vs.filterMap f = [] := by
            refine List.filterMap_eq_nil_iff.mpr ?_
            intro u hu
            obtain ⟨j, hj⟩ := List.getElem?_of_mem hu
            exact hother (j + 1) u (Nat.succ_ne_zero j) hj
          cases hv : f v with
          | none => rw [List.filterMap_cons_none hv, hrest]; rfl
          | some x => rw [List.filterMap_cons_some hv, hrest]; rfl
      | succ i =>
          rw [List.filterMap_cons_none (hother 0 v (Nat.succ_ne_zero i).symm rfl)]
          refine ih h ?_
          intro j u hj hu
          exact hother (j + 1) u (fun he => hj (Nat.succ.inj he)) hu

/-- Numbers that are given out in order: the next one is the only new one. -/
theorem issued_succ (n len : Nat) :
    (if n < len + 1 then 1 else 0) = (if n < len then 1 else 0) + [len].count n := by
  rcases Nat.lt_trichotomy n len with hlt | rfl | hgt
  · rw [if_pos hlt, if_pos (Nat.lt_succ_of_lt hlt),
      List.count_eq_zero_of_not_mem (by simpa using hlt.ne)]
  · rw [if_neg (Nat.lt_irrefl _), if_pos (Nat.lt_succ_self _), List.count_singleton_self]
  · rw [if_neg (Nat.not_lt.mpr hgt.le), if_neg (Nat.not_lt.mpr hgt),
      List.count_eq_zero_of_not_mem (by simpa using hgt.ne')]

end Load

section Total

variable {π G : Type} [AddCommGroup G]

/-- The total of a per-thread quantity that may be owed. -/
def total (m : π → G) (ts : List π) : G := (ts.map m).sum

@[simp] theorem total_nil (m : π → G) : total m [] = 0 := rfl

@[simp] theorem total_cons (m : π → G) (t : π) (ts : List π) :
    total m (t :: ts) = m t + total m ts := List.sum_cons

@[simp] theorem total_append (m : π → G) (ts us : List π) :
    total m (ts ++ us) = total m ts + total m us := by
  rw [total, List.map_append, List.sum_append]
  rfl

theorem total_set (m : π → G) {t : π} (t' : π) :
    ∀ {ts : List π} {i : Nat}, ts[i]? = some t →
      total m (ts.set i t') + m t = total m ts + m t' := by
  intro ts
  induction ts with
  | nil => intro i h; cases h
  | cons u us ih =>
      intro i h
      cases i with
      | zero =>
          obtain rfl : u = t := Option.some.inj h
          rw [List.set_cons_zero, total_cons, total_cons]
          abel
      | succ i =>
          rw [List.set_cons_succ, total_cons, total_cons, add_assoc, ih h, add_assoc]

theorem total_eq_zero {m : π → G} {ts : List π} (h : ∀ t ∈ ts, m t = 0) : total m ts = 0 := by
  induction ts with
  | nil => rfl
  | cons t ts ih =>
      rw [total_cons, h t (List.mem_cons_self ..), zero_add,
        ih fun u hu => h u (List.mem_cons_of_mem _ hu)]

end Total

/-! ## The machine -/

variable {σ π α ε : Type}

/-- A shared state and the control points of its threads, by thread index. -/
structure Pool (σ π : Type) where
  shared : σ
  threads : List π

/-- One scheduling choice: run a thread, or let the outside world act. -/
inductive Act (α ε : Type) where
  | run (i : Nat) (a : α)
  | env (e : ε)
  deriving DecidableEq

/-- A program: what one thread does in one atomic section (with the threads it
    starts), and what the outside world can do.  `none` is "not enabled". -/
structure Machine (σ π α ε : Type) where
  exec : Nat → σ → π → α → Option (σ × π × List π)
  env : σ → ε → Option (σ × List π)

/-- One step of the pool. -/
def Machine.step (M : Machine σ π α ε) (s : Pool σ π) :
    Act α ε → Option (Pool σ π)
  | .run i a =>
      match s.threads[i]? with
      | none => none
      | some t =>
          match M.exec i s.shared t a with
          | none => none
          | some (σ', t', new) => some ⟨σ', s.threads.set i t' ++ new⟩
  | .env e =>
      match M.env s.shared e with
      | none => none
      | some (σ', new) => some ⟨σ', s.threads ++ new⟩

/-- What a thread's step did. -/
theorem Machine.step_run {M : Machine σ π α ε} {s s' : Pool σ π} {i : Nat} {a : α}
    (h : M.step s (.run i a) = some s') :
    ∃ t σ' t' new, s.threads[i]? = some t ∧
      M.exec i s.shared t a = some (σ', t', new) ∧
      s' = ⟨σ', s.threads.set i t' ++ new⟩ := by
  simp only [Machine.step] at h
  cases ht : s.threads[i]? with
  | none => rw [ht] at h; cases h
  | some t =>
      rw [ht] at h
      cases he : M.exec i s.shared t a with
      | none => simp only [he] at h; cases h
      | some r =>
          obtain ⟨σ', t', new⟩ := r
          simp only [he] at h
          exact ⟨t, σ', t', new, rfl, he, (Option.some.inj h).symm⟩

/-- What a step of the outside world did. -/
theorem Machine.step_env {M : Machine σ π α ε} {s s' : Pool σ π} {e : ε}
    (h : M.step s (.env e) = some s') :
    ∃ σ' new, M.env s.shared e = some (σ', new) ∧
      s' = ⟨σ', s.threads ++ new⟩ := by
  simp only [Machine.step] at h
  cases he : M.env s.shared e with
  | none => rw [he] at h; cases h
  | some r =>
      obtain ⟨σ', new⟩ := r
      rw [he] at h
      exact ⟨σ', new, rfl, (Option.some.inj h).symm⟩

/-- What every section and every act of the outside world does to the shared state,
    every step does. -/
theorem Machine.step_shared {M : Machine σ π α ε} {R : σ → σ → Prop}
    (hexec : ∀ i σ₁ t a σ₂ t' new, M.exec i σ₁ t a = some (σ₂, t', new) → R σ₁ σ₂)
    (henv : ∀ σ₁ e σ₂ new, M.env σ₁ e = some (σ₂, new) → R σ₁ σ₂)
    {s s' : Pool σ π} {a : Act α ε} (h : M.step s a = some s') : R s.shared s'.shared := by
  cases a with
  | run i a =>
      obtain ⟨t, σ', t', new, -, he, rfl⟩ := Machine.step_run h
      exact hexec i _ t a _ t' new he
  | env e =>
      obtain ⟨σ', new, he, rfl⟩ := Machine.step_env h
      exact henv _ e _ new he

/-- The step of a thread whose section is enabled. -/
theorem Machine.step_of_exec {M : Machine σ π α ε} {s : Pool σ π} {i : Nat} {a : α} {t t' : π}
    {σ' : σ} {new : List π} (ht : s.threads[i]? = some t)
    (he : M.exec i s.shared t a = some (σ', t', new)) :
    M.step s (.run i a) = some ⟨σ', s.threads.set i t' ++ new⟩ := by
  simp only [Machine.step, ht, he]

theorem Machine.step_of_env {M : Machine σ π α ε} {s : Pool σ π} {e : ε} {σ' : σ}
    {new : List π} (he : M.env s.shared e = some (σ', new)) :
    M.step s (.env e) = some ⟨σ', s.threads ++ new⟩ := by
  simp only [Machine.step, he]

/-- A list with one element more, by position. -/
theorem getElem?_snoc (ts : List π) (t : π) (i : Nat) :
    (ts ++ [t])[i]? = if i = ts.length then some t else ts[i]? := by
  rcases Nat.lt_trichotomy i ts.length with hlt | rfl | hgt
  · rw [List.getElem?_append_left hlt, if_neg hlt.ne]
  · rw [List.getElem?_concat_length, if_pos rfl]
  · rw [if_neg hgt.ne', List.getElem?_eq_none, List.getElem?_eq_none (le_of_lt hgt)]
    rw [List.length_append]
    exact hgt

/-- What stands in a list with one element more: the new one behind all others, or one
    that was there. -/
theorem getElem?_snoc_cases {ts : List π} {t u : π} {i : Nat} (h : (ts ++ [t])[i]? = some u) :
    (i = ts.length ∧ u = t) ∨ (i < ts.length ∧ ts[i]? = some u) := by
  rw [getElem?_snoc] at h
  split at h
  · exact Or.inl ⟨‹_›, (Option.some.inj h).symm⟩
  · exact Or.inr ⟨(List.getElem?_eq_some_iff.mp h).1, h⟩

theorem getElem?_snoc_old {ts : List π} {t u : π} {i : Nat} (h : ts[i]? = some u) :
    (ts ++ [t])[i]? = some u :=
  (List.getElem?_append_left (List.getElem?_eq_some_iff.mp h).1).trans h

/-- After an assignment every element is as it was, or the one that was changed. -/
theorem set_related {ts : List π} {i j : Nat} {t u u' : π} (ht : ts[i]? = some t)
    (hu : ts[j]? = some u) {R : π → π → Prop} (hrefl : R t t) (hset : j = i → R u u') :
    ∃ t', (ts.set j u')[i]? = some t' ∧ R t t' := by
  by_cases hji : j = i
  · subst hji
    obtain rfl : t = u := Option.some.inj (ht.symm.trans hu)
    exact ⟨u', List.getElem?_set_self (List.getElem?_eq_some_iff.mp hu).1, hset rfl⟩
  · exact ⟨t, by rw [List.getElem?_set_ne hji]; exact ht, hrefl⟩

/-- One if there is an element at `i` and it has the property. -/
def oneAt (p : π → Bool) (ts : List π) (i : Nat) : Nat := ((ts[i]?).map (one p)).getD 0

theorem oneAt_le_one (p : π → Bool) (ts : List π) (i : Nat) : oneAt p ts i ≤ 1 := by
  rw [oneAt]
  cases ts[i]? with
  | none => exact Nat.zero_le 1
  | some t =>
      rw [Option.map_some, Option.getD_some, one]
      split <;> omega

theorem oneAt_snoc {p : π → Bool} (ts : List π) {t : π} (h : p t = true) (i : Nat) :
    oneAt p (ts ++ [t]) i = oneAt p ts i + if ts.length = i then 1 else 0 := by
  rw [oneAt, oneAt, getElem?_snoc]
  by_cases hi : i = ts.length
  · rw [if_pos hi, if_pos hi.symm, List.getElem?_eq_none hi.ge, Option.map_some, one_true h]
    rfl
  · rw [if_neg hi, if_neg (Ne.symm hi), Nat.add_zero]

/-- Where a thread has moved. -/
theorem getElem?_mover {ts : List π} {i : Nat} {t : π} (t' : π) (new : List π)
    (ht : ts[i]? = some t) : (ts.set i t' ++ new)[i]? = some t' := by
  have hlt : i < ts.length := (List.getElem?_eq_some_iff.mp ht).1
  rw [List.getElem?_append_left (by rw [List.length_set]; exact hlt), List.getElem?_set_self hlt]

/-- The others are where they were. -/
theorem getElem?_bystander {ts : List π} {i j : Nat} {u : π} (t' : π) (new : List π)
    (hij : i ≠ j) (hu : ts[j]? = some u) : (ts.set i t' ++ new)[j]? = some u := by
  have hlt : j < ts.length := (List.getElem?_eq_some_iff.mp hu).1
  rw [List.getElem?_append_left (by rw [List.length_set]; exact hlt), List.getElem?_set_ne hij]
  exact hu

/-- A thread is still there after one moved, unless it was that one. -/
theorem mem_moved {ts : List π} {i : Nat} {t u : π} (t' : π) (new : List π)
    (ht : ts[i]? = some t) (hu : u ∈ ts) : u = t ∨ u ∈ ts.set i t' ++ new := by
  obtain ⟨j, hj⟩ := List.mem_iff_getElem?.mp hu
  by_cases hij : i = j
  · subst hij
    exact Or.inl (Option.some.inj (hj.symm.trans ht))
  · exact Or.inr (List.mem_of_getElem? (getElem?_bystander t' new hij hj))

/-- The threads after one of them moved, by position: itself, an old one, or a new one
    behind the old ones. -/
theorem getElem?_moved_at {ts new : List π} {i j : Nat} {t' u : π}
    (h : (ts.set i t' ++ new)[j]? = some u) :
    (j = i ∧ u = t') ∨ (j ≠ i ∧ ts[j]? = some u) ∨ (ts.length ≤ j ∧ u ∈ new) := by
  by_cases hlt : j < ts.length
  · rw [List.getElem?_append_left (by simpa using hlt), List.getElem?_set] at h
    by_cases hij : i = j
    · subst hij
      rw [if_pos rfl, if_pos hlt] at h
      exact Or.inl ⟨rfl, (Option.some.inj h).symm⟩
    · rw [if_neg hij] at h
      exact Or.inr (Or.inl ⟨fun e => hij e.symm, h⟩)
  · rw [List.getElem?_append_right (by simpa using hlt)] at h
    exact Or.inr (Or.inr ⟨Nat.le_of_not_lt hlt, List.mem_of_getElem? h⟩)

/-- The threads after one of them moved: itself, an old one, or a new one. -/
theorem getElem?_moved {ts new : List π} {i j : Nat} {t' u : π}
    (h : (ts.set i t' ++ new)[j]? = some u) :
    (j = i ∧ u = t') ∨ (j ≠ i ∧ ts[j]? = some u) ∨ u ∈ new := by
  rcases getElem?_moved_at h with hself | hold | ⟨-, hnew⟩
  · exact Or.inl hself
  · exact Or.inr (Or.inl hold)
  · exact Or.inr (Or.inr hnew)

/-- The threads after the outside world acted, by position. -/
theorem getElem?_spawned_at {ts new : List π} {j : Nat} {u : π}
    (h : (ts ++ new)[j]? = some u) : ts[j]? = some u ∨ (ts.length ≤ j ∧ u ∈ new) := by
  by_cases hlt : j < ts.length
  · rw [List.getElem?_append_left hlt] at h
    exact Or.inl h
  · rw [List.getElem?_append_right (by simpa using hlt)] at h
    exact Or.inr ⟨Nat.le_of_not_lt hlt, List.mem_of_getElem? h⟩

/-- The threads after the outside world acted. -/
theorem getElem?_spawned {ts new : List π} {j : Nat} {u : π}
    (h : (ts ++ new)[j]? = some u) : ts[j]? = some u ∨ u ∈ new := by
  rcases getElem?_spawned_at h with hold | ⟨-, hnew⟩
  · exact Or.inl hold
  · exact Or.inr hnew

section Rules

variable {M : Machine σ π α ε} {ok : Pool σ π → Act α ε → Prop} {s₀ : Pool σ π}

/-- **TALLY RULE**: if the shared state agrees with the total of the threads'
    parts, whatever the part of the threads that do not act, it agrees in every
    state of a run.  A section may rely on facts `J` known of every reached
    pool and on where its thread is. -/
theorem Machine.reach_tallies {J : Pool σ π → Prop}
    (hJ : ∀ s, Reach M.step ok s₀ s → J s) (m : π → Nat) (R : σ → Nat → Prop)
    (h0 : R s₀.shared (load m s₀.threads))
    (hrun : ∀ (s : Pool σ π) i t a σ' t' new rest, J s → s.threads[i]? = some t →
      load m s.threads = m t + rest → R s.shared (m t + rest) →
      M.exec i s.shared t a = some (σ', t', new) → R σ' (m t' + load m new + rest))
    (henv : ∀ (s : Pool σ π) e σ' new total, J s → R s.shared total →
      M.env s.shared e = some (σ', new) → R σ' (total + load m new))
    {s : Pool σ π} (h : Reach M.step ok s₀ s) : R s.shared (load m s.threads) := by
  refine Reach.invariant (I := fun s => R s.shared (load m s.threads)) h0 ?_ h
  intro s a s' hr hI _ hs
  cases a with
  | run i a =>
      obtain ⟨t, σ', t', new, ht, he, rfl⟩ := Machine.step_run hs
      obtain ⟨rest, hrest⟩ := Nat.exists_eq_add_of_le (le_load m ht)
      have hset := load_set m t' ht
      have htotal : load m (s.threads.set i t' ++ new) = m t' + load m new + rest := by
        rw [load_append]
        omega
      show R σ' (load m (s.threads.set i t' ++ new))
      rw [htotal]
      exact hrun s i t a σ' t' new rest (hJ s hr) ht hrest (hrest ▸ hI) he
  | env e =>
      obtain ⟨σ', new, he, rfl⟩ := Machine.step_env hs
      show R σ' (load m (s.threads ++ new))
      rw [load_append]
      exact henv s e σ' new _ (hJ s hr) hI he

/-- **BALANCE RULE**: if each section moves a quantity only between the shared
    state, the acting thread and the threads it starts, the pool's total does not
    change.  A section may rely on facts `J` known of every reached pool, on
    where its thread is and on the balance before it. -/
theorem Machine.reach_balances {J : Pool σ π → Prop}
    (hJ : ∀ s, Reach M.step ok s₀ s → J s) (f : σ → Nat) (m : π → Nat) (c : σ → Nat)
    (h0 : f s₀.shared + load m s₀.threads = c s₀.shared)
    (hrun : ∀ (s : Pool σ π) i t a σ' t' new, J s → s.threads[i]? = some t →
      f s.shared + load m s.threads = c s.shared →
      M.exec i s.shared t a = some (σ', t', new) →
      f σ' + m t' + load m new + c s.shared = f s.shared + m t + c σ')
    (henv : ∀ (s : Pool σ π) e σ' new, J s → M.env s.shared e = some (σ', new) →
      f σ' + load m new + c s.shared = f s.shared + c σ')
    {s : Pool σ π} (h : Reach M.step ok s₀ s) :
    f s.shared + load m s.threads = c s.shared := by
  refine Machine.reach_tallies hJ m (fun σ n => f σ + n = c σ) h0 ?_ ?_ h
  · intro s i t a σ' t' new rest hj ht hrest hI he
    have := hrun s i t a σ' t' new hj ht (hrest ▸ hI) he
    omega
  · intro s e σ' new total hj hI he
    have := henv s e σ' new hj he
    omega

/-- **CONSERVATION RULE**: the balance rule for sections that rely on nothing. -/
theorem Machine.reach_conserves (f : σ → Nat) (m : π → Nat) (c : σ → Nat)
    (h0 : f s₀.shared + load m s₀.threads = c s₀.shared)
    (hrun : ∀ i σ₁ t a σ₂ t' new, M.exec i σ₁ t a = some (σ₂, t', new) →
      f σ₂ + m t' + load m new + c σ₁ = f σ₁ + m t + c σ₂)
    (henv : ∀ σ₁ e σ₂ new, M.env σ₁ e = some (σ₂, new) →
      f σ₂ + load m new + c σ₁ = f σ₁ + c σ₂)
    {s : Pool σ π} (h : Reach M.step ok s₀ s) :
    f s.shared + load m s.threads = c s.shared :=
  Machine.reach_balances (J := fun _ => True) (fun _ _ => trivial) f m c h0
    (fun s i t a σ' t' new _ _ _ he => hrun i s.shared t a σ' t' new he)
    (fun s e σ' new _ he => henv s.shared e σ' new he) h

/-- **SUM RULE**: the conservation rule in a group, for quantities that the shared state
    may owe to the threads as well as they to it. -/
theorem Machine.reach_sums {G : Type} [AddCommGroup G] {J : Pool σ π → Prop}
    (hJ : ∀ s, Reach M.step ok s₀ s → J s) (f : σ → G) (m : π → G)
    (h0 : f s₀.shared = total m s₀.threads)
    (hrun : ∀ (s : Pool σ π) i t a σ' t' new, J s → s.threads[i]? = some t →
      M.exec i s.shared t a = some (σ', t', new) →
      f σ' + m t = f s.shared + m t' + total m new)
    (henv : ∀ (s : Pool σ π) e σ' new, J s → M.env s.shared e = some (σ', new) →
      f σ' = f s.shared + total m new)
    {s : Pool σ π} (h : Reach M.step ok s₀ s) : f s.shared = total m s.threads := by
  refine Reach.invariant (I := fun s => f s.shared = total m s.threads) h0 ?_ h
  intro s a s' hr hI _ hs
  cases a with
  | run i a =>
      obtain ⟨t, σ', t', new, ht, he, rfl⟩ := Machine.step_run hs
      have hset := total_set m t' ht
      refine add_right_cancel (b := m t) ?_
      calc f σ' + m t = total m s.threads + m t' + total m new := by
            rw [hrun s i t a σ' t' new (hJ s hr) ht he, hI]
        _ = total m (s.threads.set i t' ++ new) + m t := by
            rw [← hset, total_append]
            abel
  | env e =>
      obtain ⟨σ', new, he, rfl⟩ := Machine.step_env hs
      show f σ' = total m (s.threads ++ new)
      rw [total_append, henv s e σ' new (hJ s hr) he, hI]

/-- A pool whose shared state meets `I` and whose threads meet their
    assertions. -/
def Annotated (I : σ → Prop) (L : Nat → σ → π → Prop) (s : Pool σ π) : Prop :=
  I s.shared ∧ ∀ i t, s.threads[i]? = some t → L i s.shared t

/-- **OWICKI–GRIES RULE**, by position: a shared invariant `I` and an assertion `L` for
    each control point hold throughout every run when each section establishes its
    own thread's next assertion and keeps every other thread's.  Facts `J` already
    known of every reached pool may be used at each step, and of a new thread that it
    stands behind the old ones. -/
theorem Machine.owickiGries_at {J : Pool σ π → Prop}
    (hJ : ∀ s, Reach M.step ok s₀ s → J s)
    (I : σ → Prop) (L : Nat → σ → π → Prop) (h0 : Annotated I L s₀)
    (own : ∀ (s : Pool σ π) i t a σ' t' new, J s → s.threads[i]? = some t →
      ok s (.run i a) → M.exec i s.shared t a = some (σ', t', new) →
      I s.shared → L i s.shared t →
      I σ' ∧ L i σ' t' ∧ ∀ n, s.threads.length ≤ n → ∀ u ∈ new, L n σ' u)
    (stable : ∀ (s : Pool σ π) i j t u a σ' t' new, J s → i ≠ j →
      s.threads[i]? = some t → s.threads[j]? = some u →
      M.exec i s.shared t a = some (σ', t', new) →
      I s.shared → L i s.shared t → L j s.shared u → L j σ' u)
    (outside : ∀ (s : Pool σ π) e σ' new, J s →
      ok s (.env e) → M.env s.shared e = some (σ', new) → I s.shared →
      I σ' ∧ (∀ n, s.threads.length ≤ n → ∀ u ∈ new, L n σ' u) ∧
        ∀ j u, s.threads[j]? = some u → L j s.shared u → L j σ' u)
    {s : Pool σ π} (h : Reach M.step ok s₀ s) : Annotated I L s := by
  refine Reach.invariant (I := Annotated I L) h0 ?_ h
  intro s a s' hr hA hok hs
  obtain ⟨hI, hL⟩ := hA
  cases a with
  | run i a =>
      obtain ⟨t, σ', t', new, ht, he, rfl⟩ := Machine.step_run hs
      have hown := own s i t a σ' t' new (hJ s hr) ht hok he hI (hL i t ht)
      refine ⟨hown.1, ?_⟩
      intro j u hu
      rcases getElem?_moved_at hu with ⟨rfl, rfl⟩ | ⟨hne, hj⟩ | ⟨hlen, hnew⟩
      · exact hown.2.1
      · exact stable s i j t u a σ' t' new (hJ s hr) (fun e => hne e.symm) ht hj he
          hI (hL i t ht) (hL j u hj)
      · exact hown.2.2 j hlen u hnew
  | env e =>
      obtain ⟨σ', new, he, rfl⟩ := Machine.step_env hs
      have hout := outside s e σ' new (hJ s hr) hok he hI
      refine ⟨hout.1, ?_⟩
      intro j u hu
      rcases getElem?_spawned_at hu with hj | ⟨hlen, hnew⟩
      · exact hout.2.2 j u hj (hL j u hj)
      · exact hout.2.1 j hlen u hnew

/-- **OWICKI–GRIES RULE** for assertions that do not depend on where a new thread
    stands. -/
theorem Machine.owickiGries {J : Pool σ π → Prop}
    (hJ : ∀ s, Reach M.step ok s₀ s → J s)
    (I : σ → Prop) (L : Nat → σ → π → Prop) (h0 : Annotated I L s₀)
    (own : ∀ (s : Pool σ π) i t a σ' t' new, J s → s.threads[i]? = some t →
      ok s (.run i a) → M.exec i s.shared t a = some (σ', t', new) →
      I s.shared → L i s.shared t →
      I σ' ∧ L i σ' t' ∧ ∀ n, ∀ u ∈ new, L n σ' u)
    (stable : ∀ (s : Pool σ π) i j t u a σ' t' new, J s → i ≠ j →
      s.threads[i]? = some t → s.threads[j]? = some u →
      M.exec i s.shared t a = some (σ', t', new) →
      I s.shared → L i s.shared t → L j s.shared u → L j σ' u)
    (outside : ∀ (s : Pool σ π) e σ' new, J s →
      ok s (.env e) → M.env s.shared e = some (σ', new) → I s.shared →
      I σ' ∧ (∀ n, ∀ u ∈ new, L n σ' u) ∧
        ∀ j u, s.threads[j]? = some u → L j s.shared u → L j σ' u)
    {s : Pool σ π} (h : Reach M.step ok s₀ s) : Annotated I L s := by
  refine Machine.owickiGries_at hJ I L h0 ?_ stable ?_ h
  · intro s i t a σ' t' new hj ht hok he hI hL
    obtain ⟨hI', hL', hnew⟩ := own s i t a σ' t' new hj ht hok he hI hL
    exact ⟨hI', hL', fun n _ u hu => hnew n u hu⟩
  · intro s e σ' new hj hok he hI
    obtain ⟨hI', hnew, hold⟩ := outside s e σ' new hj hok he hI
    exact ⟨hI', fun n _ u hu => hnew n u hu, hold⟩

end Rules

end ThreadPool
