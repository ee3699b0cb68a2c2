import VkTurn.CredentialCacheProofs

/-! # What it takes to clear cached credentials

    The error counter belongs to the cache, not to the credentials in it.  So
    what `handleAuthError` knows when it decides to clear the cache is how many
    failures were counted in that cache since the counter was last set to zero;
    meanwhile the credentials they failed with may have been replaced.

    Three facts carry the argument: a failure is counted once (`counted_once`),
    the counter is the number of failures counted since its last reset
    (`Books.count`), and a failure is counted in the cache that its credentials
    were taken from (`Books.own`). -/

namespace VkTurnInvalidation

open ThreadPool GoMap GoText GoTime VkTurnCredentials

/-! ## A failure is counted once -/

/-- The failure that a call of `getStreamCache` is to report. -/
def callFailure : Call → Option Nat
  | .auth n => some n
  | _ => none

/-- The failure that a thread has not counted yet. -/
def uncounted : VkTurnCredentials.Pc → Option Nat
  | .find _ k => callFailure k
  | .insert _ k => callFailure k
  | .now _ _ n => some n
  | .load _ _ n _ => some n
  | .reset _ _ n _ => some n
  | .add _ _ n _ => some n
  | _ => none

/-- One when the thread has the failure to count. -/
def reporting (n : Nat) (t : VkTurnCredentials.Pc) : Nat := (uncounted t).toList.count n

theorem uncounted_resume (s : Int) (g : CacheRef) (k : Call) :
    uncounted (k.resume s g) = callFailure k := by
  cases k <;> rfl

/-- How often a cache has counted the failure since its last reset. -/
def countedIn (n : Nat) (c : StreamCredentialsCache) : Nat := c.counted.count n

/-- How often the failure was counted, in all caches and before all resets. -/
def countings (n : Nat) (σ : Store) : Nat :=
  load (countedIn n) σ.objs + σ.forgotten.count n

/-- Replacing a cache moves the countings by that cache's difference. -/
theorem countings_set (n : Nat) {σ : Store} {g : CacheRef} {c : StreamCredentialsCache}
    (c' : StreamCredentialsCache) (hg : σ.objs[g]? = some c) :
    countings n (σ.set g c') + countedIn n c = countings n σ + countedIn n c' := by
  have := load_set (countedIn n) c' hg
  show load (countedIn n) (σ.objs.set g c') + σ.forgotten.count n + _
    = load (countedIn n) σ.objs + σ.forgotten.count n + _
  omega

/-- So a cache that has counted the same leaves them. -/
theorem countings_same (n : Nat) {σ : Store} {g : CacheRef} {c : StreamCredentialsCache}
    (c' : StreamCredentialsCache) (hg : σ.objs[g]? = some c)
    (hc : c'.counted = c.counted) : countings n (σ.set g c') = countings n σ := by
  have hset := countings_set n c' hg
  rw [countedIn, countedIn, hc] at hset
  omega

/-- A reset only moves what was counted to what is forgotten. -/
theorem countings_reset (n : Nat) {σ : Store} {g : CacheRef} {c : StreamCredentialsCache}
    (hg : σ.objs[g]? = some c) : countings n (σ.resetCount g c) = countings n σ := by
  have hset := countings_set n { c with errorCount := 0, counted := [] } hg
  have hnil : countedIn n { c with errorCount := 0, counted := [] } = 0 := rfl
  have happ : countings n (σ.resetCount g c)
      = countings n (σ.set g { c with errorCount := 0, counted := [] }) + countedIn n c := by
    rw [countings, countings, Store.resetCount, List.count_append, countedIn]
    exact (Nat.add_assoc ..).symm
  omega

/-- One when the failure has happened. -/
def happened (n : Nat) (σ : Store) : Nat := if n < σ.failures.length then 1 else 0

/-- A section moves a failure from its reporter to a counter, and loses none. -/
theorem moves_counted {cfg : VkTurnCredentials.Config} {i : Nat} {σ σ' : Store}
    {t t' : VkTurnCredentials.Pc} (h : VkTurnCredentials.Moves cfg i σ t σ' t') (n : Nat) :
    countings n σ' + reporting n t' + happened n σ
      = countings n σ + reporting n t + happened n σ' := by
  cases h with
  | found s k g _ =>
      rw [show reporting n (k.resume s g) = reporting n (.find s k) from
        congrArg (fun o : Option Nat => o.toList.count n) (uncounted_resume s g k)]
  | foundLate s k g _ =>
      rw [show reporting n (k.resume s g) = reporting n (.insert s k) from
        congrArg (fun o : Option Nat => o.toList.count n) (uncounted_resume s g k)]
  | created s k _ =>
      have hz : countings n (σ.create (getCacheID cfg s)) = countings n σ := by
        rw [countings, Store.create, load_append]
        rfl
      rw [hz, show reporting n (k.resume s σ.objs.length) = reporting n (.insert s k) from
        congrArg (fun o : Option Nat => o.toList.count n) (uncounted_resume s _ k)]
      rfl
  | locked s g link c hg => rw [countings_same n { c with mutex := some i } hg rfl]; rfl
  | notFetched s g link c hg => rw [countings_same n { c with mutex := none } hg rfl]; rfl
  | fetched s g link c creds hg =>
      have hz : countings n (σ.fetch g c creds) = countings n σ :=
        countings_same n { c with creds := some creds, mutex := none } hg rfl
      rw [hz]
      rfl
  | authFailed s g creds =>
      show countings n σ + [σ.failures.length].count n + happened n σ
        = countings n σ + 0 + happened n (σ.failed ⟨s, g, creds⟩)
      have hlen : (σ.failed ⟨s, g, creds⟩).failures.length = σ.failures.length + 1 := by
        show (σ.failures ++ [_]).length = _
        rw [List.length_append, List.length_singleton]
      rw [happened, happened, hlen, issued_succ]
      omega
  | windowReset s g m now c hg => rw [countings_reset n hg]; rfl
  | zeroedCount s g c hg => rw [countings_reset n hg]; rfl
  | counted s g m now c hg =>
      have hset := countings_set n
        { c with errorCount := c.errorCount + 1, counted := c.counted ++ [m] } hg
      have hnew : countedIn n
          { c with errorCount := c.errorCount + 1, counted := c.counted ++ [m] }
          = countedIn n c + [m].count n := List.count_append ..
      show countings n (σ.set g _) + 0 + happened n σ
        = countings n σ + [m].count n + happened n σ
      omega
  | stamped s g now count counted c hg =>
      have hz : reporting n (afterStamp s g count counted) = 0 := by
        rw [afterStamp]
        split <;> rfl
      rw [countings_same n { c with lastErrorTime := now } hg rfl, hz]
      rfl
  | cleared s g counted c hg _ =>
      have hz : countings n (σ.clear g c counted) = countings n σ :=
        countings_same n { c with creds := none } hg rfl
      rw [hz]
      rfl
  | zeroedTime s g c hg => rw [countings_same n { c with lastErrorTime := 0 } hg rfl]; rfl
  | _ => rfl

section Once

variable {cfg : VkTurnCredentials.Config} {clock : Nat} {s : CachePool}

/-- **COUNTED ONCE**: in every state of every interleaving a failure that has
    happened is counted, or one thread has it to count, and only one of these,
    once. -/
theorem counted_once (h : CacheReach cfg clock s) (n : Nat) :
    countings n s.shared + load (reporting n) s.threads = happened n s.shared := by
  refine Machine.reach_conserves (M := cacheMachine cfg) (countings n) (reporting n)
    (happened n) rfl ?_ ?_ h
  · intro i σ t a σ' t' new he
    obtain ⟨hm, rfl⟩ := VkTurnCredentials.exec_moves he
    have := moves_counted hm n
    rw [load_nil]
    omega
  · intro σ e σ' new he
    cases e with
    | stream st => cases he; rfl
    | tick d => cases he; rfl

theorem happened_le (n : Nat) (σ : Store) : happened n σ ≤ 1 := by
  rw [happened]
  split <;> omega

/-- No cache has a failure twice. -/
theorem counted_nodup (h : CacheReach cfg clock s) {g : CacheRef}
    {c : StreamCredentialsCache} (hg : s.shared.objs[g]? = some c) : c.counted.Nodup := by
  refine List.nodup_iff_count_le_one.mpr ?_
  intro n
  have honce := counted_once h n
  have hle := le_load (countedIn n) hg
  have hone := happened_le n s.shared
  rw [countings] at honce
  rw [countedIn] at hle
  omega

/-- A failure that a thread has to count is in no cache. -/
theorem uncounted_not_mem (h : CacheReach cfg clock s) {i : Nat}
    {t : VkTurnCredentials.Pc} (ht : s.threads[i]? = some t) {n : Nat}
    (hn : uncounted t = some n) {g : CacheRef} {c : StreamCredentialsCache}
    (hg : s.shared.objs[g]? = some c) : n ∉ c.counted := by
  intro hmem
  have hpos : 0 < countedIn n c := List.count_pos_iff.mpr hmem
  have honce := counted_once h n
  have hle := le_load (countedIn n) hg
  have hthread := le_load (reporting n) ht
  have hself : reporting n t = 1 := by
    rw [reporting, hn]
    exact List.count_singleton_self
  have hone := happened_le n s.shared
  rw [countings] at honce
  omega

end Once

/-! ## The books of a cache -/

/-- Failure `n` was one with credentials taken from cache `g`. -/
def Charged (failures : List Failure) (g : CacheRef) (n : Nat) : Prop :=
  ∃ f, failures[n]? = some f ∧ f.cache = g

/-- Different failures, each with credentials taken from the cache. -/
def Evidence (failures : List Failure) (g : CacheRef) (counted : List Nat) : Prop :=
  counted.Nodup ∧ ∀ n ∈ counted, Charged failures g n

/-- What holds of every cache and of every clearing. -/
structure Books (σ : Store) : Prop where
  count : ∀ (g : CacheRef) (c : StreamCredentialsCache), σ.objs[g]? = some c →
    c.errorCount = Int32.ofNat c.counted.length
  own : ∀ (g : CacheRef) (c : StreamCredentialsCache), σ.objs[g]? = some c →
    ∀ n ∈ c.counted, Charged σ.failures g n
  cleared : ∀ clear ∈ σ.clears, 3 ≤ clear.counted.length ∧
    Evidence clear.failures clear.cache clear.counted

/-- The cache of a stream. -/
def cacheOf (cfg : VkTurnCredentials.Config) (σ : Store) (s : Int) : Option CacheRef :=
  get σ.caches (getCacheID cfg s)

/-- What a call of `getStreamCache` relies on. -/
def CallReady (cfg : VkTurnCredentials.Config) (σ : Store) (s : Int) : Call → Prop
  | .auth n => ∃ g, cacheOf cfg σ s = some g ∧ Charged σ.failures g n
  | _ => True

/-- What a stream relies on: its cache, the failure it reports and, from the
    count on, what it has counted. -/
def Ready (cfg : VkTurnCredentials.Config) (_ : Nat) (σ : Store) :
    VkTurnCredentials.Pc → Prop
  | .find s k => CallReady cfg σ s k
  | .insert s k => CallReady cfg σ s k
  | .check s g _ => cacheOf cfg σ s = some g
  | .recheck s g _ => cacheOf cfg σ s = some g
  | .fetching s g _ => cacheOf cfg σ s = some g
  | .holding s g _ => cacheOf cfg σ s = some g
  | .now _ g n => Charged σ.failures g n
  | .load _ g n _ => Charged σ.failures g n
  | .reset _ g n _ => Charged σ.failures g n
  | .add _ g n _ => Charged σ.failures g n
  | .stamp _ g _ count counted => count = Int32.ofNat counted.length ∧
      Evidence σ.failures g counted
  | .clear _ g counted => 3 ≤ counted.length ∧ Evidence σ.failures g counted
  | _ => True

/-- A counter of at least three stands for at least three countings, also when it
    has wrapped around. -/
theorem three_le_of_count {n : Nat} (h : maxCacheErrors ≤ Int32.ofNat n) : 3 ≤ n := by
  by_contra hlt
  have hcases : n = 0 ∨ n = 1 ∨ n = 2 := by omega
  rcases hcases with rfl | rfl | rfl
  · exact absurd h (by decide)
  · exact absurd h (by decide)
  · exact absurd h (by decide)

/-! ## Growth -/

/-- Caches stay where they are registered, and failures on record. -/
structure Grows (σ σ' : Store) : Prop where
  caches : ∀ (id : Int) (g : CacheRef), get σ.caches id = some g → get σ'.caches id = some g
  failures : σ.failures <+: σ'.failures

theorem Charged.mono {fs fs' : List Failure} {g : CacheRef} {n : Nat}
    (h : Charged fs g n) (hp : fs <+: fs') : Charged fs' g n := by
  obtain ⟨f, hf, hc⟩ := h
  obtain ⟨more, rfl⟩ := hp
  refine ⟨f, ?_, hc⟩
  rw [List.getElem?_append_left (List.getElem?_eq_some_iff.mp hf).1]
  exact hf

theorem Evidence.mono {fs fs' : List Failure} {g : CacheRef} {counted : List Nat}
    (h : Evidence fs g counted) (hp : fs <+: fs') : Evidence fs' g counted :=
  ⟨h.1, fun n hn => (h.2 n hn).mono hp⟩

theorem moves_grows {cfg : VkTurnCredentials.Config} {i : Nat} {σ σ' : Store}
    {t t' : VkTurnCredentials.Pc} (h : VkTurnCredentials.Moves cfg i σ t σ' t') :
    Grows σ σ' := by
  cases h with
  | created s k hnone =>
      refine ⟨?_, List.prefix_rfl⟩
      intro id g hg
      show get (insert σ.caches _ _) id = some g
      rw [get_insert, if_neg ?_]
      · exact hg
      · rintro rfl
        cases hnone.symm.trans hg
  | authFailed s g creds => exact ⟨fun _ _ hg => hg, List.prefix_append ..⟩
  | _ => exact ⟨fun _ _ hg => hg, List.prefix_rfl⟩

/-- What a stream relies on survives growth. -/
theorem ready_grows {cfg : VkTurnCredentials.Config} {j : Nat} {σ σ' : Store}
    {u : VkTurnCredentials.Pc} (h : Grows σ σ') (hu : Ready cfg j σ u) :
    Ready cfg j σ' u := by
  have call : ∀ s k, CallReady cfg σ s k → CallReady cfg σ' s k := by
    intro s k hk
    cases k with
    | auth n =>
        obtain ⟨g, hg, hc⟩ := hk
        exact ⟨g, h.caches _ g hg, hc.mono h.failures⟩
    | _ => trivial
  cases u with
  | find s k => exact call s k hu
  | insert s k => exact call s k hu
  | check s g link | recheck s g link | fetching s g link | holding s g creds =>
      exact h.caches _ g hu
  | now s g n | load s g n now | reset s g n now | add s g n now => exact Charged.mono hu h.failures
  | stamp s g now count counted => exact ⟨hu.1, hu.2.mono h.failures⟩
  | clear s g counted => exact ⟨hu.1, hu.2.mono h.failures⟩
  | _ => trivial

/-! ## Steps -/

section Step

variable {cfg : VkTurnCredentials.Config} {i : Nat} {σ σ' : Store}
variable {t t' : VkTurnCredentials.Pc}

/-- Replacing a cache whose books are in order. -/
theorem books_set (hB : Books σ) {g : CacheRef} (c' : StreamCredentialsCache)
    (hcount : c'.errorCount = Int32.ofNat c'.counted.length)
    (hown : ∀ n ∈ c'.counted, Charged σ.failures g n) : Books (σ.set g c') := by
  have hcase : ∀ (g' : CacheRef) (x : StreamCredentialsCache),
      (σ.objs.set g c')[g']? = some x → (g' = g ∧ x = c') ∨ σ.objs[g']? = some x := by
    intro g' x hx
    rw [List.getElem?_set] at hx
    by_cases he : g = g'
    · subst he
      rw [if_pos rfl] at hx
      split at hx
      · exact Or.inl ⟨rfl, (Option.some.inj hx).symm⟩
      · cases hx
    · rw [if_neg he] at hx
      exact Or.inr hx
  refine ⟨?_, ?_, hB.cleared⟩
  · intro g' x hx
    rcases hcase g' x hx with ⟨-, rfl⟩ | hold
    · exact hcount
    · exact hB.count g' x hold
  · intro g' x hx
    rcases hcase g' x hx with ⟨rfl, rfl⟩ | hold
    · exact hown
    · exact hB.own g' x hold

/-- Replacing a cache but for its counter. -/
theorem books_keep (hB : Books σ) {g : CacheRef} {c : StreamCredentialsCache}
    (hg : σ.objs[g]? = some c) (c' : StreamCredentialsCache)
    (he : c'.errorCount = c.errorCount) (hc : c'.counted = c.counted) :
    Books (σ.set g c') := by
  refine books_set hB c' ?_ ?_
  · rw [he, hc]
    exact hB.count g c hg
  · rw [hc]
    exact hB.own g c hg

theorem books_reset (hB : Books σ) (g : CacheRef) (c : StreamCredentialsCache) :
    Books (σ.resetCount g c) := by
  have h := books_set hB (g := g) { c with errorCount := 0, counted := [] } rfl
    fun n hn => (by cases hn)
  exact ⟨h.count, h.own, h.cleared⟩

theorem books_create (hB : Books σ) (id : Int) : Books (σ.create id) := by
  have hcase : ∀ (g : CacheRef) (x : StreamCredentialsCache),
      (σ.create id).objs[g]? = some x → x = {} ∨ σ.objs[g]? = some x := by
    intro g x hx
    rcases getElem?_spawned hx with hold | hnew
    · exact Or.inr hold
    · exact Or.inl (List.mem_singleton.mp hnew)
  refine ⟨?_, ?_, hB.cleared⟩
  · intro g x hx
    rcases hcase g x hx with rfl | hold
    · rfl
    · exact hB.count g x hold
  · intro g x hx
    rcases hcase g x hx with rfl | hold
    · exact fun n hn => (by cases hn)
    · exact hB.own g x hold

theorem count_succ {n : Nat} {e : Int32} (h : e = Int32.ofNat n) :
    e + 1 = Int32.ofNat (n + 1) := by
  rw [h, Int32.ofNat_add]
  rfl

/-- Clearing a value on evidence. -/
theorem books_clear (hB : Books σ) {g : CacheRef} {c : StreamCredentialsCache}
    (hg : σ.objs[g]? = some c) {counted : List Nat} (h3 : 3 ≤ counted.length)
    (hev : Evidence σ.failures g counted) : Books (σ.clear g c counted) := by
  have h := books_keep hB hg { c with creds := none } rfl rfl
  refine ⟨h.count, h.own, ?_⟩
  intro clear hclear
  rw [Store.clear] at hclear
  cases hc : c.creds with
  | none =>
      rw [hc] at hclear
      exact hB.cleared clear hclear
  | some creds =>
      rw [hc] at hclear
      rcases List.mem_append.mp hclear with hold | hnew
      · exact hB.cleared clear hold
      · rw [List.mem_singleton.mp hnew]
        exact ⟨h3, hev⟩

/-- A section keeps the books in order. -/
theorem books_step (h : VkTurnCredentials.Moves cfg i σ t σ' t') (hB : Books σ)
    (hL : Ready cfg i σ t) : Books σ' := by
  cases h with
  | created s k _ => exact books_create hB _
  | locked s g link c hg => exact books_keep hB hg _ rfl rfl
  | fetched s g link c creds hg =>
      have h := books_keep hB hg { c with creds := some creds, mutex := none } rfl rfl
      exact ⟨h.count, h.own, h.cleared⟩
  | notFetched s g link c hg => exact books_keep hB hg _ rfl rfl
  | authFailed s g creds =>
      refine ⟨hB.count, ?_, hB.cleared⟩
      intro g' c hc n hn
      exact (hB.own g' c hc n hn).mono (List.prefix_append ..)
  | windowReset s g n now c hg => exact books_reset hB g c
  | counted s g n now c hg =>
      refine books_set hB _ ?_ ?_
      · show c.errorCount + 1 = Int32.ofNat (c.counted ++ [n]).length
        rw [List.length_append, List.length_singleton]
        exact count_succ (hB.count g c hg)
      · intro m hm
        rcases List.mem_append.mp hm with hold | hnew
        · exact hB.own g c hg m hold
        · rw [List.mem_singleton.mp hnew]
          exact hL
  | stamped s g now count counted c hg => exact books_keep hB hg _ rfl rfl
  | cleared s g counted c hg _ => exact books_clear hB hg hL.1 hL.2
  | zeroedCount s g c hg => exact books_reset hB g c
  | zeroedTime s g c hg => exact books_keep hB hg _ rfl rfl
  | _ => exact hB

/-- A call of `getStreamCache` that found the stream's cache goes on with it. -/
theorem ready_resume {s : Int} {k : Call} {g : CacheRef} (hL : CallReady cfg σ s k)
    (hg : cacheOf cfg σ s = some g) : Ready cfg i σ (k.resume s g) := by
  cases k with
  | take link => exact hg
  | auth n =>
      obtain ⟨g₀, hg₀, hc⟩ := hL
      obtain rfl : g₀ = g := Option.some.inj (hg₀.symm.trans hg)
      exact hc
  | success => trivial

/-- A section leaves its stream with what it then relies on, when the failure it
    counts is new to the cache. -/
theorem ready_step (h : VkTurnCredentials.Moves cfg i σ t σ' t') (hB : Books σ)
    (hL : Ready cfg i σ t)
    (hnew : ∀ n, uncounted t = some n → ∀ (g : CacheRef) (c : StreamCredentialsCache),
      σ.objs[g]? = some c → (c.counted ++ [n]).Nodup) : Ready cfg i σ' t' := by
  cases h with
  | takes s link => trivial
  | found s k g hg => exact ready_resume hL hg
  | missing s k => exact hL
  | foundLate s k g hg => exact ready_resume hL hg
  | created s k hnone =>
      have hreg : cacheOf cfg (σ.create (getCacheID cfg s)) s = some σ.objs.length := by
        show get (insert σ.caches _ _) _ = _
        rw [get_insert, if_pos rfl]
      refine ready_resume ?_ hreg
      cases k with
      | auth n =>
          -- a stream that reports a failure has its cache
          obtain ⟨g, hg, -⟩ := hL
          cases hnone.symm.trans hg
      | _ => trivial
  | hit s g link creds => exact hL
  | missed s g link => exact hL
  | hitLate s g link creds => exact hL
  | locked s g link c _ => exact hL
  | fetched s g link c creds _ => exact hL
  | authFailed s g creds =>
      exact ⟨g, hL, _, List.getElem?_concat_length .., rfl⟩
  | timed s g n now => exact hL
  | windowOver s g n now => exact hL
  | windowOpen s g n now => exact hL
  | windowReset s g n now c _ => exact hL
  | counted s g n now c hg =>
      refine ⟨?_, hnew n rfl g c hg, ?_⟩
      · rw [List.length_append, List.length_singleton]
        exact count_succ (hB.count g c hg)
      · intro m hm
        rcases List.mem_append.mp hm with hold | hlast
        · exact hB.own g c hg m hold
        · rw [List.mem_singleton.mp hlast]
          exact hL
  | stamped s g now count counted c _ =>
      rw [afterStamp]
      split
      · rename_i h3
        rw [hL.1] at h3
        exact ⟨three_le_of_count h3, hL.2⟩
      · trivial
  | _ => trivial

end Step

section Reached

variable {cfg : VkTurnCredentials.Config} {clock : Nat} {s : CachePool}

/-- **BOOKS**: throughout every run the books of the caches are in order. -/
theorem books (h : CacheReach cfg clock s) : Annotated Books (Ready cfg) s := by
  refine Machine.owickiGries (M := cacheMachine cfg) (J := CacheReach cfg clock)
    (fun s hs => hs) Books (Ready cfg) ?_ ?_ ?_ ?_ h
  · refine ⟨⟨?_, ?_, fun _ hc => (by cases hc)⟩,
      fun i t ht => absurd ht (Option.some_ne_none t).symm⟩ <;>
    · intro g c hg
      exact absurd hg (Option.some_ne_none c).symm
  · intro s i t a σ' t' new hreach ht _ he hB hL
    obtain ⟨hm, rfl⟩ := VkTurnCredentials.exec_moves he
    refine ⟨books_step hm hB hL, ready_step hm hB hL ?_, fun n u hu => (by cases hu)⟩
    intro n hn g c hg
    refine List.nodup_append.mpr ⟨counted_nodup hreach hg, List.nodup_singleton n, ?_⟩
    rintro m hm' k hk rfl
    rw [List.mem_singleton.mp hk] at hm'
    exact uncounted_not_mem hreach ht hn hg hm'
  · intro s i j t u a σ' t' new _ _ _ _ he _ _ hLu
    exact ready_grows (moves_grows (VkTurnCredentials.exec_moves he).1) hLu
  · intro s e σ' new _ _ he hB
    cases e with
    | stream st =>
        cases he
        refine ⟨hB, ?_, fun j u _ hLu => hLu⟩
        intro n u hu
        rw [List.mem_singleton.mp hu]
        trivial
    | tick d =>
        cases he
        refine ⟨⟨hB.count, hB.own, hB.cleared⟩, fun n u hu => (by cases hu), ?_⟩
        intro j u _ hLu
        exact ready_grows ⟨fun _ _ hg => hg, List.prefix_rfl⟩ hLu

end Reached

/-! ## Clearings -/

/-- **CLEARED AFTER THREE FAILURES OF THE CACHE**: in every state of every
    interleaving of any number of streams, a cached value was cleared only after
    three different authentication failures of allocations with credentials taken
    from its cache, all counted since the counter was last set to zero. -/
theorem cleared_after_three_failures (cfg : VkTurnCredentials.Config) (clock : Nat)
    (s : CachePool) (h : CacheReach cfg clock s) :
    ∀ clear ∈ s.shared.clears,
      3 ≤ clear.counted.length ∧ clear.counted.Nodup ∧
        ∀ n ∈ clear.counted, ∃ f, clear.failures[n]? = some f ∧ f.cache = clear.cache := by
  intro clear hclear
  obtain ⟨h3, hnodup, hown⟩ := (books h).1.cleared clear hclear
  exact ⟨h3, hnodup, hown⟩

/-- A client with the default `streamsPerCache`. -/
def tenStreams : VkTurnCredentials.Config := ⟨10⟩

/-- Stream `i`, the thread of that number, goes through `m` sections of
    `getVkCredsCached`. -/
def takes (i m : Nat) : List (Act Choice Op) :=
  .run i (.take []) :: List.replicate m (.run i .go)

/-- Its fetch succeeds. -/
def fetches (i : Nat) (username : Bytes) : List (Act Choice Op) :=
  [.run i (.fetched (some (username, [], [])))]

/-- Its allocation fails with a 401, and it goes through `m` sections of
    `handleAuthError`. -/
def unauthorized (i m : Nat) : List (Act Choice Op) :=
  .run i (.allocated (some { text := ascii "401" })) :: List.replicate m (.run i .go)

/-- Streams 0 to 2 fail with the first credentials, which are then cleared. -/
def threeFail : List (Act Choice Op) :=
  takes 0 4 ++ fetches 0 [1] ++ takes 1 2 ++ takes 2 2 ++ takes 3 2 ++ takes 4 2 ++ takes 5 2
    ++ unauthorized 0 6 ++ unauthorized 1 5 ++ unauthorized 2 8

/-- Six streams of one cache start. -/
def sixStart : List (Act Choice Op) :=
  [.env (.stream 0), .env (.stream 1), .env (.stream 2), .env (.stream 3),
    .env (.stream 4), .env (.stream 5)]

/-- Such a clearing happens. -/
theorem cleared_once : ∃ s clear, CacheReach tenStreams (20 * clockSecond) s ∧
    clear ∈ s.shared.clears ∧ 3 ≤ clear.counted.length := by
  obtain ⟨s, hr, hp⟩ := Reach.of_follow (cacheStep tenStreams) anyStep
    (newStore (20 * clockSecond)) (sixStart ++ threeFail)
    (fun s : CachePool => !s.shared.clears.isEmpty) (by decide)
  cases hc : s.shared.clears with
  | nil =>
      rw [hc] at hp
      cases hp
  | cons clear rest =>
      have hmem : clear ∈ s.shared.clears := hc ▸ List.mem_cons_self
      exact ⟨s, clear, hr, hmem,
        (cleared_after_three_failures tenStreams (20 * clockSecond) s hr clear hmem).1⟩

/-- A value is cleared only after `maxCacheErrors` failures of allocations with
    that value. -/
def OwnFailures (s : CachePool) : Prop :=
  ∀ clear ∈ s.shared.clears,
    3 ≤ (clear.failures.filter fun f => f.creds = clear.creds).length

instance (s : CachePool) : Decidable (OwnFailures s) :=
  inferInstanceAs (Decidable (∀ clear ∈ s.shared.clears, _))

/-- **CLEARED BY OLD FAILURES**: while stream 0 fetches again, streams 3 to 5 still
    hold the credentials that were cleared; their failures clear the new ones, with
    which no allocation was tried. -/
theorem cleared_by_old_failures :
    ¬ ∀ s, CacheReach tenStreams (20 * clockSecond) s → OwnFailures s := by
  intro hall
  obtain ⟨s, hr, hp⟩ := Reach.of_follow (cacheStep tenStreams) anyStep
    (newStore (20 * clockSecond))
    (sixStart ++ threeFail ++ takes 0 3 ++ fetches 0 [2]
      ++ unauthorized 3 6 ++ unauthorized 4 5 ++ unauthorized 5 8)
    (fun s : CachePool => decide (¬ OwnFailures s)) (by decide)
  exact of_decide_eq_true hp (hall s hr)

end VkTurnInvalidation
