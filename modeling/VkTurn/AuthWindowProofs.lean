import Mathlib.Data.Set.Card
import VkTurn.FetchProofs

/-! # When failures to authenticate clear the cached credentials

    `recordTURNAllocationResult` counts authentication failures in the cache of the
    stream's group, and the third one clears the credentials.  The count starts
    again after a success, after a clearing, and when more than ten seconds have passed
    since the failure before.

    Here one report is made after another, so the three functions are plain functions on the
    store.  What "the third of a run" means is said on the history of a group alone
    (`InRun`), without the counter: a failure belongs to the run of a later one
    unless a success, a clearing or a gap parts the two.

    * `auth_count` — one failure, as the counter sees it;
    * `counts_step`, `counts` — the counter counts the run that is open;
    * `report_alone` — a stream of the client that runs a report alone does what the
      function does. -/

namespace VkTurnAuthWindow

open ThreadPool GoMap GoTime VkTurnCredentials
open VkTurnBond (GoError)
open VkTurnFetch (Registered registered_same registered_create)

/-! ## The functions -/

/-- The cache a pointer refers to. -/
def cacheAt (σ : Store) (g : CacheRef) : StreamCredentialsCache := σ.objs.getD g {}

/-- `getStreamCache`. -/
def getStreamCache (cfg : Config) (σ : Store) (streamID : Int) : Store × CacheRef :=
  match get σ.caches (getCacheID cfg streamID) with
  | some g => (σ, g)
  | none => (σ.create (getCacheID cfg streamID), σ.objs.length)

/-- The two stores of zero, of `invalidate` and of a success. -/
def zeroed (σ : Store) (g : CacheRef) : Store :=
  let σ₁ := σ.resetCount g (cacheAt σ g)
  σ₁.set g { cacheAt σ₁ g with lastErrorTime := 0 }

/-- `StreamCredentialsCache.invalidate`; `counted` is for the history. -/
def invalidate (σ : Store) (g : CacheRef) (counted : List Nat) : Store :=
  zeroed (σ.clear g (cacheAt σ g) counted) g

/-- The window: `now-cache.lastErrorTime.Load() > int64(errorWindow.Seconds())`. -/
def windowOver (c : StreamCredentialsCache) (now : Int) : Prop :=
  now - c.lastErrorTime > (unix errorWindow : Nat)

instance (c : StreamCredentialsCache) (now : Int) : Decidable (windowOver c now) :=
  inferInstanceAs (Decidable (_ > _))

/-- The first part of `handleAuthError`: the count starts again, or not. -/
def checkWindow (σ : Store) (g : CacheRef) (now : Int) : Store :=
  if windowOver (cacheAt σ g) now then σ.resetCount g (cacheAt σ g) else σ

/-- Its second part: the count and the time. -/
def countError (σ : Store) (g : CacheRef) (n : Nat) (now : Int) : Store :=
  let σ₁ := σ.addError g (cacheAt σ g) n
  σ₁.set g { cacheAt σ₁ g with lastErrorTime := now }

/-- `handleAuthError` at Unix time `now`, for failure `n` of the history, from where it has
    its cache. -/
def handleAuthErrorOf (σ : Store) (g : CacheRef) (n : Nat) (now : Int) : Store × Bool :=
  let σ₁ := checkWindow σ g now
  let σ₂ := countError σ₁ g n now
  if maxCacheErrors ≤ (cacheAt σ₁ g).errorCount + 1 then
    (invalidate σ₂ g ((cacheAt σ₁ g).counted ++ [n]), true)
  else (σ₂, false)

/-- `handleAuthError`. -/
def handleAuthError (cfg : Config) (σ : Store) (streamID : Int) (n : Nat) (now : Int) :
    Store × Bool :=
  handleAuthErrorOf (getStreamCache cfg σ streamID).1 (getStreamCache cfg σ streamID).2 n now

/-- `recordTURNAllocationResult`. -/
def recordTURNAllocationResult (cfg : Config) (σ : Store) (streamID : Int)
    (err : Option GoError) (n : Nat) (now : Int) : Store :=
  match err with
  | some err => if isAuthError err then (handleAuthError cfg σ streamID n now).1 else σ
  | none => zeroed (getStreamCache cfg σ streamID).1 (getStreamCache cfg σ streamID).2

/-! ## What they do to the caches -/

variable {cfg : Config} {σ σ' σ'' : Store} {g : CacheRef} {c c' : StreamCredentialsCache}
  {id : Int} {s : Int}

/-- The cache of a group; a group without one has a new one. -/
def cacheFor (σ : Store) (id : Int) : StreamCredentialsCache :=
  match get σ.caches id with
  | some g => cacheAt σ g
  | none => {}

theorem cacheFor_some (h : get σ.caches id = some g) : cacheFor σ id = cacheAt σ g := by
  rw [cacheFor, h]

theorem cacheFor_none (h : get σ.caches id = none) : cacheFor σ id = {} := by
  rw [cacheFor, h]

/-- `σ'` is `σ` with another cache at `g`. -/
structure Puts (σ : Store) (g : CacheRef) (c : StreamCredentialsCache) (σ' : Store) : Prop where
  caches : σ'.caches = σ.caches
  objs : σ'.objs = σ.objs.set g c

theorem Puts.trans (h : Puts σ g c σ') (h' : Puts σ' g c' σ'') : Puts σ g c' σ'' where
  caches := h'.caches.trans h.caches
  objs := by rw [h'.objs, h.objs, List.set_set]

theorem Puts.length (h : Puts σ g c σ') : σ'.objs.length = σ.objs.length := by
  rw [h.objs, List.length_set]

theorem Puts.self (hg : g < σ.objs.length) : Puts σ g (cacheAt σ g) σ where
  caches := rfl
  objs := by
    rw [cacheAt, List.getD_eq_getElem?_getD, List.getElem?_eq_getElem hg, Option.getD_some,
      List.set_getElem_self]

theorem Puts.at (h : Puts σ g c σ') (hg : g < σ.objs.length) : cacheAt σ' g = c := by
  rw [cacheAt, h.objs, List.getD_eq_getElem?_getD, List.getElem?_set_self hg, Option.getD_some]

theorem Puts.other {g' : CacheRef} (h : Puts σ g c σ') (hne : g' ≠ g) :
    cacheAt σ' g' = cacheAt σ g' := by
  rw [cacheAt, cacheAt, h.objs, List.getD_eq_getElem?_getD, List.getD_eq_getElem?_getD,
    List.getElem?_set_ne (Ne.symm hne)]

theorem Puts.registered (h : Puts σ g c σ') (hI : Registered σ) : Registered σ' :=
  registered_same hI h.caches h.length

/-- The groups after a cache is replaced. -/
theorem Puts.cacheFor (h : Puts σ g c σ') (hI : Registered σ) (hg : get σ.caches id = some g)
    (id' : Int) : cacheFor σ' id' = if id' = id then c else cacheFor σ id' := by
  split
  · rename_i he
    subst he
    rw [cacheFor_some (h.caches ▸ hg), h.at (hI.bounded _ g hg)]
  · rename_i hne
    cases hg' : get σ.caches id' with
    | none => rw [cacheFor_none (h.caches ▸ hg'), cacheFor_none hg']
    | some g' =>
        have hgg : g' ≠ g := by
          rintro rfl
          exact hne (hI.unique _ _ g' hg' hg)
        rw [cacheFor_some (h.caches ▸ hg'), cacheFor_some hg', h.other hgg]

/-- `getStreamCache` finds the cache of the group. -/
theorem getStreamCache_spec (cfg : Config) (s : Int) (hI : Registered σ) :
    Registered (getStreamCache cfg σ s).1 ∧
      get (getStreamCache cfg σ s).1.caches (getCacheID cfg s) = some (getStreamCache cfg σ s).2 ∧
      ∀ id, cacheFor (getStreamCache cfg σ s).1 id = cacheFor σ id := by
  rw [getStreamCache]
  split
  · rename_i g hg
    exact ⟨hI, hg, fun _ => rfl⟩
  · rename_i hnone
    refine ⟨registered_create hI _, by rw [Store.create, get_insert, if_pos rfl], ?_⟩
    intro id
    have hget : get (σ.create (getCacheID cfg s)).caches id
        = if id = getCacheID cfg s then some σ.objs.length else get σ.caches id := get_insert ..
    split at hget
    · rename_i he
      rw [cacheFor_some hget, cacheFor_none (he ▸ hnone), cacheAt, Store.create,
        List.getD_eq_getElem?_getD, List.getElem?_concat_length, Option.getD_some]
    · cases hg : get σ.caches id with
      | none => rw [cacheFor_none (hget.trans hg), cacheFor_none hg]
      | some g =>
          rw [cacheFor_some (hget.trans hg), cacheFor_some hg, cacheAt, cacheAt, Store.create,
            List.getD_eq_getElem?_getD, List.getD_eq_getElem?_getD,
            List.getElem?_append_left (hI.bounded id g hg)]

theorem zeroed_puts (hg : g < σ.objs.length) :
    Puts σ g { cacheAt σ g with errorCount := 0, counted := [], lastErrorTime := 0 }
      (zeroed σ g) := by
  have hreset : Puts σ g { cacheAt σ g with errorCount := 0, counted := [] }
      (σ.resetCount g (cacheAt σ g)) := ⟨rfl, rfl⟩
  have hset : Puts (σ.resetCount g (cacheAt σ g)) g
      { cacheAt (σ.resetCount g (cacheAt σ g)) g with lastErrorTime := 0 } (zeroed σ g) := ⟨rfl, rfl⟩
  rw [hreset.at hg] at hset
  exact hreset.trans hset

theorem invalidate_puts (counted : List Nat) (hg : g < σ.objs.length) :
    Puts σ g { cacheAt σ g with creds := none, errorCount := 0, counted := [], lastErrorTime := 0 }
      (invalidate σ g counted) := by
  have hclear : Puts σ g { cacheAt σ g with creds := none } (σ.clear g (cacheAt σ g) counted) :=
    ⟨rfl, rfl⟩
  have hzero := zeroed_puts (hclear.length ▸ hg)
  rw [hclear.at hg] at hzero
  exact hclear.trans hzero

/-- The cache with the count that one more failure is added to. -/
def windowed (c : StreamCredentialsCache) (now : Int) : StreamCredentialsCache :=
  if windowOver c now then { c with errorCount := 0, counted := [] } else c

/-- The count after one more failure. -/
def countAfter (c : StreamCredentialsCache) (now : Int) : Int32 := (windowed c now).errorCount + 1

/-- The cache of a group after one more failure. -/
def failedAt (c : StreamCredentialsCache) (n : Nat) (now : Int) : StreamCredentialsCache :=
  if maxCacheErrors ≤ countAfter c now then
    { windowed c now with creds := none, errorCount := 0, counted := [], lastErrorTime := 0 }
  else
    { windowed c now with
      errorCount := countAfter c now
      counted := (windowed c now).counted ++ [n]
      lastErrorTime := now }

/-- The window is about the count alone. -/
theorem windowed_creds (c : StreamCredentialsCache) (now : Int) :
    (windowed c now).creds = c.creds ∧ (windowed c now).mutex = c.mutex := by
  rw [windowed]
  split
  · exact ⟨rfl, rfl⟩
  · exact ⟨rfl, rfl⟩

theorem checkWindow_puts (now : Int) (hg : g < σ.objs.length) :
    Puts σ g (windowed (cacheAt σ g) now) (checkWindow σ g now) := by
  rw [windowed, checkWindow]
  split
  · exact ⟨rfl, rfl⟩
  · exact Puts.self hg

theorem countError_puts (n : Nat) (now : Int) (hg : g < σ.objs.length) :
    Puts σ g
      { cacheAt σ g with
        errorCount := (cacheAt σ g).errorCount + 1
        counted := (cacheAt σ g).counted ++ [n]
        lastErrorTime := now }
      (countError σ g n now) := by
  have hadd : Puts σ g
      { cacheAt σ g with
        errorCount := (cacheAt σ g).errorCount + 1
        counted := (cacheAt σ g).counted ++ [n] }
      (σ.addError g (cacheAt σ g) n) := ⟨rfl, rfl⟩
  have hset : Puts (σ.addError g (cacheAt σ g) n) g
      { cacheAt (σ.addError g (cacheAt σ g) n) g with lastErrorTime := now }
      (countError σ g n now) := ⟨rfl, rfl⟩
  rw [hadd.at hg] at hset
  exact hadd.trans hset

/-- What `handleAuthError` does to its cache. -/
theorem handleAuthErrorOf_puts (n : Nat) (now : Int) (hg : g < σ.objs.length) :
    (handleAuthErrorOf σ g n now).2 = decide (maxCacheErrors ≤ countAfter (cacheAt σ g) now) ∧
      Puts σ g (failedAt (cacheAt σ g) n now) (handleAuthErrorOf σ g n now).1 := by
  have hwindow := checkWindow_puts now hg
  have hg₁ : g < (checkWindow σ g now).objs.length := hwindow.length ▸ hg
  have hcount := countError_puts n now hg₁
  have hg₂ : g < (countError (checkWindow σ g now) g n now).objs.length := hcount.length ▸ hg₁
  have hat := hcount.at hg₁
  rw [hwindow.at hg, ← countAfter] at hat hcount
  rw [handleAuthErrorOf, hwindow.at hg, ← countAfter, failedAt]
  by_cases hthree : maxCacheErrors ≤ countAfter (cacheAt σ g) now
  · rw [if_pos hthree, if_pos hthree]
    have hcleared := invalidate_puts ((windowed (cacheAt σ g) now).counted ++ [n]) hg₂
    rw [hat] at hcleared
    exact ⟨(decide_eq_true hthree).symm, (hwindow.trans hcount).trans hcleared⟩
  · rw [if_neg hthree, if_neg hthree]
    exact ⟨(decide_eq_false hthree).symm, hwindow.trans hcount⟩

/-- **ONE FAILURE**: the count, and what is left in the cache. -/
theorem auth_count (cfg : Config) (s : Int) (hI : Registered σ) (n : Nat) (now : Int) :
    (handleAuthError cfg σ s n now).2
        = decide (maxCacheErrors ≤ countAfter (cacheFor σ (getCacheID cfg s)) now) ∧
      Puts (getStreamCache cfg σ s).1 (getStreamCache cfg σ s).2
        (failedAt (cacheFor σ (getCacheID cfg s)) n now) (handleAuthError cfg σ s n now).1 := by
  obtain ⟨hI₁, hreg, hsame⟩ := getStreamCache_spec cfg s hI
  rw [← hsame, cacheFor_some hreg]
  exact handleAuthErrorOf_puts n now (hI₁.bounded _ _ hreg)

/-! ## Reports one after another -/

/-- A stream reports how its allocation went, at Unix time `now`; or credentials are
    fetched for it. -/
inductive Event where
  | report (streamID : Int) (err : Option GoError) (now : Nat)
  | fetched (streamID : Int) (creds : TurnCredentials)

def step (cfg : Config) (σ : Store) : Event → Store
  | .report s err now => recordTURNAllocationResult cfg σ s err σ.failures.length now
  | .fetched s creds =>
      let σ₁ := (getStreamCache cfg σ s).1
      let g := (getStreamCache cfg σ s).2
      σ₁.fetch g (cacheAt σ₁ g) creds

/-- What is noted of a report: a failure to authenticate with its time, and whether it
    cleared the cache. -/
inductive Mark where
  | success
  | otherError
  | authError (time : Nat) (cleared : Bool)
  deriving DecidableEq

def Mark.clears : Mark → Bool
  | .authError _ cleared => cleared
  | _ => false

/-- What is noted of a report to `recordTURNAllocationResult`. -/
def reported (cfg : Config) (σ : Store) (s : Int) (err : Option GoError) (now : Nat) : Mark :=
  match err with
  | none => .success
  | some err =>
      if isAuthError err then .authError now (handleAuthError cfg σ s σ.failures.length now).2
      else .otherError

theorem reported_auth {err : GoError} (h : isAuthError err = true) (cfg : Config) (σ : Store)
    (s : Int) (now : Nat) : reported cfg σ s (some err) now
      = .authError now (handleAuthError cfg σ s σ.failures.length now).2 := if_pos h

theorem reported_other {err : GoError} (h : ¬ isAuthError err = true) (cfg : Config) (σ : Store)
    (s : Int) (now : Nat) : reported cfg σ s (some err) now = .otherError := if_neg h

/-- The history of group `id` after one more event. -/
def note (cfg : Config) (id : Int) (h : List Mark) (σ : Store) : Event → List Mark
  | .report s err now => if getCacheID cfg s = id then h ++ [reported cfg σ s err now] else h
  | .fetched _ _ => h

/-- The client process and the history of group `id`, after a list of events. -/
def play (cfg : Config) (id : Int) (clock : Nat) (events : List Event) : Store × List Mark :=
  events.foldl (fun p e => (step cfg p.1 e, note cfg id p.2 p.1 e)) ((newStore clock).shared, [])

/-- The failure at `m` belongs to the run that ends with the failure at `k`: neither a
    success nor a clearing is between them, and no two failures that follow each other
    are more than ten seconds apart. -/
structure InRun (h : List Mark) (m k : Nat) : Prop where
  le : m ≤ k
  first : ∃ t cleared, h[m]? = some (.authError t cleared)
  last : ∃ t cleared, h[k]? = some (.authError t cleared)
  noSuccess : ∀ n : Nat, m < n → n < k → h[n]? ≠ some .success
  noClearing : ∀ (n : Nat) t, m ≤ n → n < k → h[n]? ≠ some (.authError t true)
  noGap : ∀ (a b ta tb : Nat) ca cb, m ≤ a → a < b → b ≤ k →
    h[a]? = some (.authError ta ca) → h[b]? = some (.authError tb cb) →
    (∀ (n t : Nat) cleared, a < n → n < b → h[n]? ≠ some (.authError t cleared)) →
    (tb : Int) - ta ≤ 10

/-! ## The run that is open -/

variable {h : List Mark} {e : Mark} {m k : Nat}

/-- The failure at `m` is not parted from the end of the history. -/
structure Open (h : List Mark) (m : Nat) : Prop where
  first : ∃ t cleared, h[m]? = some (.authError t cleared)
  noSuccess : ∀ n : Nat, m < n → h[n]? ≠ some .success
  noClearing : ∀ (n : Nat) t, m ≤ n → h[n]? ≠ some (.authError t true)
  noGap : ∀ (a b ta tb : Nat) ca cb, m ≤ a → a < b →
    h[a]? = some (.authError ta ca) → h[b]? = some (.authError tb cb) →
    (∀ (n t : Nat) cleared, a < n → n < b → h[n]? ≠ some (.authError t cleared)) →
    (tb : Int) - ta ≤ 10

/-- The last failure of a history. -/
def LastError (h : List Mark) (a t : Nat) : Prop :=
  (∃ cleared, h[a]? = some (.authError t cleared)) ∧
    ∀ (n t' : Nat) cleared, a < n → h[n]? ≠ some (.authError t' cleared)

theorem lastError_unique {a a' t t' : Nat} (hl : LastError h a t) (hl' : LastError h a' t') :
    a = a' ∧ t = t' := by
  obtain ⟨⟨c, ha⟩, hafter⟩ := hl
  obtain ⟨⟨c', ha'⟩, hafter'⟩ := hl'
  have he : a = a' := by
    rcases Nat.lt_trichotomy a a' with hlt | rfl | hlt
    · exact absurd ha' (hafter a' t' c' hlt)
    · rfl
    · exact absurd ha (hafter' a t c hlt)
  subst he
  cases Option.some.inj (ha.symm.trans ha')
  exact ⟨rfl, rfl⟩

theorem lastError_other {a t : Nat} (hl : LastError h a t)
    (he : ∀ t cleared, e ≠ .authError t cleared) : LastError (h ++ [e]) a t := by
  obtain ⟨⟨c, ha⟩, hafter⟩ := hl
  refine ⟨⟨c, getElem?_snoc_old ha⟩, ?_⟩
  intro n t' c' hlt hn
  rcases getElem?_snoc_cases hn with ⟨-, heq⟩ | ⟨-, hold⟩
  · exact he t' c' heq.symm
  · exact hafter n t' c' hlt hold

theorem lastError_snoc (h : List Mark) (t : Nat) (cleared : Bool) :
    LastError (h ++ [.authError t cleared]) h.length t := by
  refine ⟨⟨cleared, List.getElem?_concat_length⟩, ?_⟩
  intro n t' c' hlt hn
  have hn := (List.getElem?_eq_some_iff.mp hn).1
  rw [List.length_append, List.length_singleton] at hn
  omega

theorem snoc_lt (hm : m < h.length) : (h ++ [e])[m]? = h[m]? := List.getElem?_append_left hm

/-- Only the history up to the last failure counts. -/
theorem InRun.congr {h' : List Mark} (hr : InRun h m k) (hsame : ∀ n, n ≤ k → h'[n]? = h[n]?) :
    InRun h' m k := by
  refine ⟨hr.le, ?_, ?_, ?_, ?_, ?_⟩
  · rw [hsame m hr.le]
    exact hr.first
  · rw [hsame k le_rfl]
    exact hr.last
  · intro n hmn hnk
    rw [hsame n hnk.le]
    exact hr.noSuccess n hmn hnk
  · intro n t hmn hnk
    rw [hsame n hnk.le]
    exact hr.noClearing n t hmn hnk
  · intro a b ta tb ca cb hma hab hbk ha hb hnone
    rw [hsame a (by omega)] at ha
    rw [hsame b hbk] at hb
    refine hr.noGap a b ta tb ca cb hma hab hbk ha hb ?_
    intro n t cleared han hnb
    rw [← hsame n (by omega)]
    exact hnone n t cleared han hnb

theorem inRun_snoc (hk : k < h.length) : InRun (h ++ [e]) m k ↔ InRun h m k := by
  have hold : ∀ n, n ≤ k → (h ++ [e])[n]? = h[n]? := fun n hn => snoc_lt (by omega)
  exact ⟨fun hr => hr.congr fun n hn => (hold n hn).symm, fun hr => hr.congr hold⟩

/-- A failure is in its own run. -/
theorem inRun_self {t : Nat} {cleared : Bool} :
    InRun (h ++ [.authError t cleared]) h.length h.length := by
  have hlast : (h ++ [Mark.authError t cleared])[h.length]? = some (.authError t cleared) :=
    List.getElem?_concat_length
  refine ⟨le_rfl, ⟨t, cleared, hlast⟩, ⟨t, cleared, hlast⟩, ?_, ?_, ?_⟩
  · intro n hmn hn
    omega
  · intro n t' hmn hn
    omega
  · intro a b ta tb ca cb hma hab hb
    omega

/-- An earlier failure in the run of the last one is open, and the last failure before it is
    not too long ago. -/
theorem InRun.toOpen {t : Nat} {cleared : Bool}
    (hr : InRun (h ++ [.authError t cleared]) m h.length) (hlt : m < h.length) :
    Open h m ∧ ∀ a ta, LastError h a ta → (t : Int) - ta ≤ 10 := by
  have hlen : ∀ (n : Nat) x, h[n]? = some x → n < h.length :=
    fun n x hx => (List.getElem?_eq_some_iff.mp hx).1
  obtain ⟨t₀, c₀, hm⟩ := hr.first
  rw [snoc_lt hlt] at hm
  refine ⟨⟨⟨t₀, c₀, hm⟩, ?_, ?_, ?_⟩, ?_⟩
  · intro n hmn hn
    exact hr.noSuccess n hmn (hlen n _ hn) (getElem?_snoc_old hn)
  · intro n t' hmn hn
    exact hr.noClearing n t' hmn (hlen n _ hn) (getElem?_snoc_old hn)
  · intro a b ta tb ca cb hma hab ha hb hnone
    refine hr.noGap a b ta tb ca cb hma hab (hlen b _ hb).le (getElem?_snoc_old ha)
      (getElem?_snoc_old hb) ?_
    intro n t' c' han hnb
    rw [snoc_lt (hnb.trans (hlen b _ hb))]
    exact hnone n t' c' han hnb
  · rintro a ta ⟨⟨ca, ha⟩, hafter⟩
    have hma : m ≤ a := Nat.le_of_not_lt fun hlt => hafter m t₀ c₀ hlt hm
    refine hr.noGap a h.length ta t ca cleared hma (hlen a _ ha) le_rfl
      (getElem?_snoc_old ha) List.getElem?_concat_length ?_
    intro n t' c' han hn
    rw [snoc_lt hn]
    exact hafter n t' c' han

theorem Open.inRun {t : Nat} (cleared : Bool) (ho : Open h m)
    (hgap : ∀ a ta, LastError h a ta → (t : Int) - ta ≤ 10) :
    InRun (h ++ [.authError t cleared]) m h.length := by
  obtain ⟨t₀, c₀, hm⟩ := ho.first
  have hlt := (List.getElem?_eq_some_iff.mp hm).1
  refine ⟨hlt.le, ⟨t₀, c₀, getElem?_snoc_old hm⟩, ⟨t, cleared, List.getElem?_concat_length⟩,
    ?_, ?_, ?_⟩
  · intro n hmn hn
    rw [snoc_lt hn]
    exact ho.noSuccess n hmn
  · intro n t' hmn hn
    rw [snoc_lt hn]
    exact ho.noClearing n t' hmn
  · intro a b ta tb ca cb hma hab hbk ha hb hnone
    rw [snoc_lt (hab.trans_le hbk)] at ha
    rcases getElem?_snoc_cases hb with ⟨rfl, he⟩ | ⟨hbl, hb⟩
    · cases he
      refine hgap a ta ⟨⟨ca, ha⟩, ?_⟩
      intro n t' c' han hn
      have hnl := (List.getElem?_eq_some_iff.mp hn).1
      exact hnone n t' c' han hnl (getElem?_snoc_old hn)
    · refine ho.noGap a b ta tb ca cb hma hab ha hb ?_
      intro n t' c' han hnb
      rw [← snoc_lt (e := .authError t cleared) (hnb.trans hbl)]
      exact hnone n t' c' han hnb

/-- The run that a failure ends: itself, and the open run unless the last failure
    is too long ago. -/
theorem inRun_last {t : Nat} {cleared : Bool} :
    InRun (h ++ [.authError t cleared]) m h.length ↔
      m = h.length ∨ Open h m ∧ ∀ a ta, LastError h a ta → (t : Int) - ta ≤ 10 := by
  constructor
  · intro hr
    rcases Nat.lt_or_eq_of_le hr.le with hlt | rfl
    · exact Or.inr (hr.toOpen hlt)
    · exact Or.inl rfl
  · rintro (rfl | ⟨ho, hgap⟩)
    · exact inRun_self
    · exact ho.inRun cleared hgap

/-- After a failure that does not clear, its run is open. -/
theorem open_authError {t : Nat} :
    Open (h ++ [.authError t false]) m ↔ InRun (h ++ [.authError t false]) m h.length := by
  have hlen : ∀ (n : Nat) x, (h ++ [Mark.authError t false])[n]? = some x → n ≤ h.length := by
    intro n x hx
    have hlt := (List.getElem?_eq_some_iff.mp hx).1
    rw [List.length_append, List.length_singleton] at hlt
    omega
  have hlast : (h ++ [Mark.authError t false])[h.length]? = some (.authError t false) :=
    List.getElem?_concat_length
  constructor
  · intro ho
    obtain ⟨t₀, c₀, hm⟩ := ho.first
    exact ⟨hlen m _ hm, ho.first, ⟨t, false, hlast⟩, fun n hmn _ => ho.noSuccess n hmn,
      fun n t' hmn _ => ho.noClearing n t' hmn,
      fun a b ta tb ca cb hma hab _ => ho.noGap a b ta tb ca cb hma hab⟩
  · intro hr
    refine ⟨hr.first, ?_, ?_, ?_⟩
    · intro n hmn hn
      rcases Nat.lt_or_eq_of_le (hlen n _ hn) with hlt | rfl
      · exact hr.noSuccess n hmn hlt hn
      · rw [hlast] at hn
        cases hn
    · intro n t' hmn hn
      rcases Nat.lt_or_eq_of_le (hlen n _ hn) with hlt | rfl
      · exact hr.noClearing n t' hmn hlt hn
      · rw [hlast] at hn
        cases hn
    · intro a b ta tb ca cb hma hab ha hb
      exact hr.noGap a b ta tb ca cb hma hab (hlen b _ hb) ha hb

/-- An error of another kind changes nothing. -/
theorem open_otherError : Open (h ++ [.otherError]) m ↔ Open h m := by
  have hback : ∀ (n : Nat) x, x ≠ .otherError → (h ++ [Mark.otherError])[n]? = some x →
      h[n]? = some x := by
    intro n x hx hn
    rcases getElem?_snoc_cases hn with ⟨-, he⟩ | ⟨-, hold⟩
    · exact absurd he hx
    · exact hold
  have hauth : ∀ (n t : Nat) c, (h ++ [Mark.otherError])[n]? = some (.authError t c) →
      h[n]? = some (.authError t c) := by
    intro n t c hn
    exact hback n _ (fun he => by cases he) hn
  constructor
  · rintro ⟨⟨t, c, hm⟩, hsuccess, hclear, hgap⟩
    refine ⟨⟨t, c, hauth m t c hm⟩, ?_, ?_, ?_⟩
    · intro n hmn hn
      exact hsuccess n hmn (getElem?_snoc_old hn)
    · intro n t' hmn hn
      exact hclear n t' hmn (getElem?_snoc_old hn)
    · intro a b ta tb ca cb hma hab ha hb hnone
      refine hgap a b ta tb ca cb hma hab (getElem?_snoc_old ha) (getElem?_snoc_old hb) ?_
      intro n t' c' han hnb hn
      exact hnone n t' c' han hnb (hauth n t' c' hn)
  · rintro ⟨⟨t, c, hm⟩, hsuccess, hclear, hgap⟩
    refine ⟨⟨t, c, getElem?_snoc_old hm⟩, ?_, ?_, ?_⟩
    · intro n hmn hn
      exact hsuccess n hmn (hback n _ (fun he => by cases he) hn)
    · intro n t' hmn hn
      exact hclear n t' hmn (hauth n t' true hn)
    · intro a b ta tb ca cb hma hab ha hb hnone
      refine hgap a b ta tb ca cb hma hab (hauth a ta ca ha) (hauth b tb cb hb) ?_
      intro n t' c' han hnb hn
      exact hnone n t' c' han hnb (getElem?_snoc_old hn)

theorem open_success : ¬ Open (h ++ [.success]) m := by
  rintro ⟨⟨t, c, hm⟩, hsuccess, -, -⟩
  rcases getElem?_snoc_cases hm with ⟨-, he⟩ | ⟨hlt, -⟩
  · cases he
  · exact hsuccess h.length hlt List.getElem?_concat_length

theorem open_cleared {t : Nat} : ¬ Open (h ++ [.authError t true]) m := by
  rintro ⟨⟨t', c, hm⟩, -, hclear, -⟩
  have hlt := (List.getElem?_eq_some_iff.mp hm).1
  rw [List.length_append, List.length_singleton] at hlt
  exact hclear h.length t (by omega) List.getElem?_concat_length

/-! ## The counter counts the open run -/

/-- The failures of the open run, how many they are, and when the last one was. -/
structure Tallied (c : StreamCredentialsCache) (h : List Mark) (run : List Nat) : Prop where
  nodup : run.Nodup
  mem : ∀ m, m ∈ run ↔ Open h m
  few : run.length ≤ 2
  count : c.errorCount = Int32.ofNat run.length
  time : run ≠ [] → ∃ a t : Nat, LastError h a t ∧ c.lastErrorTime = t

/-- The run that one more failure ends. -/
def runAfter (c : StreamCredentialsCache) (h : List Mark) (run : List Nat) (now : Nat) : List Nat :=
  if windowOver c now then [h.length] else run ++ [h.length]

section Step

variable {run : List Nat} {now : Nat} {cleared : Bool}

theorem Tallied.lt (hT : Tallied c h run) (hm : m ∈ run) : m < h.length := by
  obtain ⟨t, cl, hget⟩ := ((hT.mem m).mp hm).first
  exact (List.getElem?_eq_some_iff.mp hget).1

/-- The counter's window is the gap of the history. -/
theorem mem_runAfter (hT : Tallied c h run) :
    m ∈ runAfter c h run now ↔ InRun (h ++ [.authError now cleared]) m h.length := by
  rw [inRun_last, ← hT.mem, runAfter]
  -- the last failure, where there is an open run
  have hgap : m ∈ run →
      ((∀ a ta, LastError h a ta → (now : Int) - ta ≤ 10) ↔ ¬ windowOver c now) := by
    intro hm
    obtain ⟨a, t, hl, ht⟩ := hT.time (List.ne_nil_of_mem hm)
    have hten : ((unix errorWindow : Nat) : Int) = 10 := rfl
    rw [windowOver, ht, hten, not_lt]
    constructor
    · intro hall
      exact hall a t hl
    · intro hle a' t' hl'
      rw [← (lastError_unique hl hl').2]
      exact hle
  split
  · rename_i hover
    rw [List.mem_singleton]
    constructor
    · exact Or.inl
    · rintro (hm | ⟨hm, hall⟩)
      · exact hm
      · exact absurd hover ((hgap hm).mp hall)
  · rename_i hopen
    rw [List.mem_append, List.mem_singleton]
    constructor
    · rintro (hm | hm)
      · exact Or.inr ⟨hm, (hgap hm).mpr hopen⟩
      · exact Or.inl hm
    · rintro (hm | ⟨hm, -⟩)
      · exact Or.inr hm
      · exact Or.inl hm

theorem runAfter_nodup (hT : Tallied c h run) : (runAfter c h run now).Nodup := by
  rw [runAfter]
  split
  · exact List.nodup_singleton _
  · refine List.nodup_append.mpr ⟨hT.nodup, List.nodup_singleton _, ?_⟩
    rintro m hm n hn rfl
    rw [List.mem_singleton.mp hn] at hm
    exact Nat.lt_irrefl _ (hT.lt hm)

theorem runAfter_count (hT : Tallied c h run) (now : Nat) :
    (runAfter c h run now).length ≤ 3 ∧
      countAfter c now = Int32.ofNat (runAfter c h run now).length := by
  rw [runAfter, countAfter, windowed]
  split
  · exact ⟨by rw [List.length_singleton]; omega, rfl⟩
  · rw [List.length_append, List.length_singleton]
    exact ⟨Nat.succ_le_succ hT.few, VkTurnInvalidation.count_succ hT.count⟩

theorem three_iff {n : Nat} (hn : n ≤ 3) : maxCacheErrors ≤ Int32.ofNat n ↔ n = 3 := by
  interval_cases n <;> decide

/-- **STEP**: one more failure of the group, and the run it ends. -/
theorem tallied_authError (hT : Tallied c h run) (n : Nat)
    (hc : c' = failedAt c n now)
    (hcleared : cleared = decide (maxCacheErrors ≤ countAfter c now)) :
    (cleared = true ↔ (runAfter c h run now).length = 3) ∧
      Tallied c' (h ++ [.authError now cleared]) (if cleared then [] else runAfter c h run now) := by
  obtain ⟨hle, hcount⟩ := runAfter_count hT now
  have hthree := three_iff hle
  rw [← hcount] at hthree
  subst hc hcleared
  refine ⟨decide_eq_true_iff.trans hthree, ?_⟩
  by_cases hover : maxCacheErrors ≤ countAfter c now
  · rw [if_pos (decide_eq_true hover), failedAt, if_pos hover, decide_eq_true hover]
    exact ⟨List.nodup_nil, fun m => ⟨fun hm => (by cases hm), fun ho => absurd ho open_cleared⟩,
      Nat.zero_le _, rfl, fun hne => absurd rfl hne⟩
  · rw [decide_eq_false hover, if_neg Bool.false_ne_true, failedAt, if_neg hover]
    refine ⟨runAfter_nodup hT, ?_, ?_, hcount, ?_⟩
    · intro m
      rw [open_authError, mem_runAfter hT]
    · have hne := mt hthree.mpr hover
      omega
    · intro _
      exact ⟨h.length, now, lastError_snoc h now false, rfl⟩

theorem tallied_otherError (hT : Tallied c h run) : Tallied c (h ++ [.otherError]) run := by
  refine ⟨hT.nodup, ?_, hT.few, hT.count, ?_⟩
  · intro m
    rw [open_otherError, hT.mem]
  · intro hne
    obtain ⟨a, t, hl, ht⟩ := hT.time hne
    exact ⟨a, t, lastError_other hl (fun t c he => by cases he), ht⟩

theorem tallied_success (hcount : c.errorCount = 0) : Tallied c (h ++ [.success]) [] :=
  ⟨List.nodup_nil, fun m => ⟨fun hm => (by cases hm), fun ho => absurd ho open_success⟩,
    Nat.zero_le _, hcount, fun hne => absurd rfl hne⟩

end Step

/-- Every report so far cleared the cache if it was the third of its run, and only then. -/
def Judged (h : List Mark) : Prop :=
  ∀ (k : Nat) e, h[k]? = some e → (e.clears = true ↔ {m | InRun h m k}.ncard = 3)

/-- The run of a report, as a list. -/
theorem judged_snoc (hJ : Judged h) {run : List Nat} (hnodup : run.Nodup)
    (hmem : ∀ m, m ∈ run ↔ InRun (h ++ [e]) m h.length)
    (hclears : e.clears = true ↔ run.length = 3) : Judged (h ++ [e]) := by
  intro k x hk
  rcases getElem?_snoc_cases hk with ⟨rfl, rfl⟩ | ⟨hlt, hold⟩
  · have hset : {m | InRun (h ++ [x]) m h.length} = (run.toFinset : Set Nat) := by
      ext m
      rw [Finset.mem_coe, List.mem_toFinset]
      exact (hmem m).symm
    rw [hset, Set.ncard_coe_finset, List.toFinset_card_of_nodup hnodup]
    exact hclears
  · have hset : {m | InRun (h ++ [e]) m k} = {m | InRun h m k} := by
      ext m
      exact inRun_snoc hlt
    rw [hset]
    exact hJ k x hold

/-- A report that is no failure to authenticate. -/
theorem judged_other (hJ : Judged h) (he : ∀ t cleared, e ≠ .authError t cleared)
    (hclears : e.clears = false) : Judged (h ++ [e]) := by
  refine judged_snoc hJ List.nodup_nil ?_ ?_
  · intro m
    refine ⟨fun hm => (by cases hm), ?_⟩
    intro hr
    obtain ⟨t, cleared, hlast⟩ := hr.last
    rw [List.getElem?_concat_length] at hlast
    exact absurd (Option.some.inj hlast) (he t cleared)
  · rw [hclears]
    exact ⟨fun hf => (by cases hf), fun hf => (by cases hf)⟩

/-! ## Whole histories -/

/-- The cache of a group after a report for one of its streams. -/
def afterReport (c : StreamCredentialsCache) (err : Option GoError) (n : Nat) (now : Int) :
    StreamCredentialsCache :=
  match err with
  | none => { c with errorCount := 0, counted := [], lastErrorTime := 0 }
  | some err => if isAuthError err then failedAt c n now else c

/-- A report changes the cache of the stream's group and no other. -/
theorem report_spec (cfg : Config) (s : Int) (err : Option GoError) (n : Nat) (now : Int)
    (hI : Registered σ) :
    Registered (recordTURNAllocationResult cfg σ s err n now) ∧
      ∀ id, cacheFor (recordTURNAllocationResult cfg σ s err n now) id =
        if id = getCacheID cfg s then afterReport (cacheFor σ id) err n now else cacheFor σ id := by
  obtain ⟨hI₁, hreg, hsame⟩ := getStreamCache_spec cfg s hI
  have hputs : ∀ {c σ'}, Puts (getStreamCache cfg σ s).1 (getStreamCache cfg σ s).2 c σ' →
      c = afterReport (cacheFor σ (getCacheID cfg s)) err n now →
      Registered σ' ∧ ∀ id, cacheFor σ' id =
        if id = getCacheID cfg s then afterReport (cacheFor σ id) err n now else cacheFor σ id := by
    intro c σ' h hc
    refine ⟨h.registered hI₁, ?_⟩
    intro id
    rw [h.cacheFor hI₁ hreg, hsame]
    split
    · rename_i he
      rw [hc, he]
    · rfl
  cases err with
  | none =>
      refine hputs (zeroed_puts (hI₁.bounded _ _ hreg)) ?_
      rw [← cacheFor_some hreg, hsame]
      rfl
  | some err =>
      rw [recordTURNAllocationResult]
      by_cases hauth : isAuthError err = true
      · rw [if_pos hauth]
        refine hputs (auth_count cfg s hI n now).2 ?_
        rw [afterReport, if_pos hauth]
      · rw [if_neg hauth]
        refine ⟨hI, ?_⟩
        intro id
        rw [afterReport, if_neg hauth, ite_self]

/-- A fetch changes no count. -/
theorem fetched_spec (cfg : Config) (s : Int) (creds : TurnCredentials) (hI : Registered σ) :
    Registered (step cfg σ (.fetched s creds)) ∧
      ∀ id, cacheFor (step cfg σ (.fetched s creds)) id =
        if id = getCacheID cfg s then { cacheFor σ id with creds := some creds, mutex := none }
        else cacheFor σ id := by
  obtain ⟨hI₁, hreg, hsame⟩ := getStreamCache_spec cfg s hI
  have hputs : Puts (getStreamCache cfg σ s).1 (getStreamCache cfg σ s).2
      { cacheAt (getStreamCache cfg σ s).1 (getStreamCache cfg σ s).2 with
        creds := some creds, mutex := none } (step cfg σ (.fetched s creds)) := ⟨rfl, rfl⟩
  refine ⟨hputs.registered hI₁, ?_⟩
  intro id
  rw [hputs.cacheFor hI₁ hreg, hsame, ← cacheFor_some hreg, hsame]
  split
  · rename_i he
    rw [he]
  · rfl

/-- What holds of a group and its history. -/
structure Counts (id : Int) (p : Store × List Mark) : Prop where
  registered : Registered p.1
  tallied : ∃ run, Tallied (cacheFor p.1 id) p.2 run
  judged : Judged p.2

/-- The open run depends on the count and the time alone. -/
theorem Tallied.congr {run : List Nat} (hT : Tallied c h run)
    (hcount : c'.errorCount = c.errorCount) (htime : c'.lastErrorTime = c.lastErrorTime) :
    Tallied c' h run :=
  ⟨hT.nodup, hT.mem, hT.few, hcount.trans hT.count, fun hne => htime ▸ hT.time hne⟩

/-- **STEP**: one event, and what is noted of it. -/
theorem counts_step (cfg : Config) {id : Int} {p : Store × List Mark} (hp : Counts id p)
    (e : Event) : Counts id (step cfg p.1 e, note cfg id p.2 p.1 e) := by
  obtain ⟨hI, ⟨run, hT⟩, hJ⟩ := hp
  cases e with
  | fetched s creds =>
      obtain ⟨hI', hcaches⟩ := fetched_spec cfg s creds hI
      refine ⟨hI', ⟨run, hT.congr ?_ ?_⟩, hJ⟩
      · rw [hcaches]
        split
        · rfl
        · rfl
      · rw [hcaches]
        split
        · rfl
        · rfl
  | report s err now =>
      obtain ⟨hI', hcaches⟩ := report_spec cfg s err p.1.failures.length now hI
      have hcache := hcaches id
      rw [note]
      by_cases hid : getCacheID cfg s = id
      · rw [if_pos hid.symm] at hcache
        rw [if_pos hid]
        cases err with
        | none =>
            refine ⟨hI', ⟨[], tallied_success ?_⟩, judged_other hJ (fun _ _ he => by cases he) rfl⟩
            rw [step, hcache]
            rfl
        | some err =>
            rw [afterReport] at hcache
            by_cases hauth : isAuthError err = true
            · rw [if_pos hauth] at hcache
              rw [reported_auth hauth]
              have hbool := (auth_count cfg s hI p.1.failures.length now).1
              rw [hid] at hbool
              obtain ⟨hclears, hT'⟩ := tallied_authError hT p.1.failures.length hcache hbool
              exact ⟨hI', ⟨_, hT'⟩,
                judged_snoc hJ (runAfter_nodup hT) (fun m => mem_runAfter hT) hclears⟩
            · rw [if_neg hauth] at hcache
              rw [reported_other hauth]
              refine ⟨hI', ⟨run, ?_⟩, judged_other hJ (fun _ _ he => by cases he) rfl⟩
              rw [step, hcache]
              exact tallied_otherError hT
      · rw [if_neg (Ne.symm hid)] at hcache
        rw [if_neg hid]
        refine ⟨hI', ⟨run, ?_⟩, hJ⟩
        rw [step, hcache]
        exact hT

/-- **RUN**: the counter of a group counts its open run, whatever is reported. -/
theorem counts (cfg : Config) (id : Int) (clock : Nat) (events : List Event) :
    Counts id (play cfg id clock events) := by
  have hfold : ∀ (es : List Event) (p : Store × List Mark), Counts id p →
      Counts id (es.foldl (fun p e => (step cfg p.1 e, note cfg id p.2 p.1 e)) p) := by
    intro es
    induction es with
    | nil => exact fun p hp => hp
    | cons e es ih => exact fun p hp => ih _ (counts_step cfg hp e)
  refine hfold events _ ⟨?_, ⟨[], List.nodup_nil, ?_, Nat.zero_le _, rfl, ?_⟩, ?_⟩
  · exact ⟨fun id g hg => (by cases hg), fun id id' g hg => (by cases hg)⟩
  · intro m
    refine ⟨fun hm => (by cases hm), ?_⟩
    rintro ⟨⟨t, c, hm⟩, -⟩
    cases hm
  · exact fun hne => absurd rfl hne
  · intro k e hk
    cases hk

/-- **WHEN FAILURES CLEAR THE CACHE**: reports for any streams, one after another, at any
    Unix times, with fetches between them.  A report for a stream of group `id` clears the
    cached credentials of the group if and only if it is a failure to authenticate and the
    third of its run.  A report that does not clear leaves them as they are; an error of
    another kind changes nothing; and no report changes the cache of another group. -/
theorem third_auth_error_clears (cfg : Config) (id : Int) (clock : Nat) (events : List Event) :
    (∀ (k : Nat) e, (play cfg id clock events).2[k]? = some e →
      (e.clears = true ↔ {m | InRun (play cfg id clock events).2 m k}.ncard = 3)) ∧
    ∀ s err now,
      (cacheFor (step cfg (play cfg id clock events).1 (.report s err now)) (getCacheID cfg s)).creds
          = (if (reported cfg (play cfg id clock events).1 s err now).clears then none
             else (cacheFor (play cfg id clock events).1 (getCacheID cfg s)).creds) ∧
        (reported cfg (play cfg id clock events).1 s err now = .otherError →
          step cfg (play cfg id clock events).1 (.report s err now) = (play cfg id clock events).1) ∧
        ∀ id', id' ≠ getCacheID cfg s →
          cacheFor (step cfg (play cfg id clock events).1 (.report s err now)) id'
            = cacheFor (play cfg id clock events).1 id' := by
  obtain ⟨hI, -, hJ⟩ := counts cfg id clock events
  refine ⟨hJ, ?_⟩
  intro s err now
  generalize (play cfg id clock events).1 = σ at *
  have hcaches := (report_spec cfg s err σ.failures.length now hI).2
  refine ⟨?_, ?_, ?_⟩
  · rw [step, hcaches, if_pos rfl]
    cases err with
    | none => rfl
    | some err =>
        rw [afterReport]
        by_cases hauth : isAuthError err = true
        · rw [if_pos hauth, reported_auth hauth, Mark.clears,
            (auth_count cfg s hI σ.failures.length now).1, failedAt]
          simp only [decide_eq_true_eq]
          split
          · rfl
          · exact (windowed_creds _ _).1
        · rw [if_neg hauth, reported_other hauth]
          rfl
  · intro hother
    cases err with
    | none => cases hother
    | some err =>
        by_cases hauth : isAuthError err = true
        · rw [reported_auth hauth] at hother
          cases hother
        · rw [step, recordTURNAllocationResult, if_neg hauth]
  · intro id' hne
    rw [step, hcaches, if_neg hne]

/-- A 401 and another error. -/
def unauthorized : Option GoError := some { text := GoText.ascii "401" }

def timeout : Option GoError := some { text := GoText.ascii "timeout" }

/-- Streams of group 0 fail at 100, 110 and 120 s, with another error and a failure of
    group 1 between. -/
def threeErrors : List Event :=
  [.fetched 0 ⟨[1], [], [], 0, [], 0⟩, .report 0 unauthorized 100, .report 3 timeout 101,
    .report 5 unauthorized 110, .report 12 unauthorized 115, .report 9 unauthorized 120]

theorem cleared_at_window_edge :
    (play VkTurnInvalidation.tenStreams 0 0 threeErrors).2
        = [.authError 100 false, .otherError, .authError 110 false, .authError 120 true] ∧
      {m | InRun (play VkTurnInvalidation.tenStreams 0 0 threeErrors).2 m 3}.ncard = 3 :=
  ⟨by decide, ((third_auth_error_clears VkTurnInvalidation.tenStreams 0 0 threeErrors).1 3
    (.authError 120 true) (by decide)).mp rfl⟩

/-! ## A stream that reports alone -/

section Alone

variable {i : Nat} {s : CachePool} {t t' : Pc} {a : Choice} {st : Int}

/-- Thread `i` of pool `s` runs alone and comes to `t`, with store `σ`. -/
def Alone (cfg : Config) (i : Nat) (s : CachePool) (σ : Store) (t : Pc) : Prop :=
  i < s.threads.length ∧ Reach (cacheStep cfg) anyStep s ⟨σ, s.threads.set i t⟩

theorem alone_start (ht : s.threads[i]? = some t) : Alone cfg i s s.shared t := by
  obtain ⟨hlt, hget⟩ := List.getElem?_eq_some_iff.mp ht
  refine ⟨hlt, ?_⟩
  rw [← hget, List.set_getElem_self]
  exact Reach.start

theorem Alone.next (h : Alone cfg i s σ t) (a : Choice)
    (he : exec cfg i σ t a = some (σ', t', [])) : Alone cfg i s σ' t' := by
  obtain ⟨hlt, hr⟩ := h
  refine ⟨hlt, hr.tail (.run i a) trivial ?_⟩
  have hget : (s.threads.set i t)[i]? = some t := List.getElem?_set_self hlt
  have hstep := Machine.step_of_exec (M := cacheMachine cfg) (s := ⟨σ, s.threads.set i t⟩) hget he
  rw [List.append_nil, List.set_set] at hstep
  exact hstep

theorem getStreamCache_clock (cfg : Config) (σ : Store) (s : Int) :
    (getStreamCache cfg σ s).1.clock = σ.clock := by
  rw [getStreamCache]
  split
  · rfl
  · rfl

/-- The call of `getStreamCache`. -/
theorem Alone.getStreamCache {k : Call} (h : Alone cfg i s σ (.find st k)) :
    Alone cfg i s (getStreamCache cfg σ st).1 (k.resume st (getStreamCache cfg σ st).2) := by
  rw [VkTurnAuthWindow.getStreamCache]
  cases hg : get σ.caches (getCacheID cfg st) with
  | some g => exact h.next .go (by simp only [exec, hg])
  | none =>
      have hinsert : Alone cfg i s σ (.insert st k) := h.next .go (by simp only [exec, hg])
      exact hinsert.next .go (by simp only [exec, hg])

theorem objs_cacheAt (hg : g < σ.objs.length) : σ.objs[g]? = some (cacheAt σ g) := by
  rw [cacheAt, List.getD_eq_getElem?_getD, List.getElem?_eq_getElem hg, Option.getD_some]

/-- The two stores of zero. -/
theorem Alone.zeroed (h : Alone cfg i s σ (.zeroCount st g)) (hg : g < σ.objs.length) :
    Alone cfg i s (zeroed σ g) (.idle st) := by
  have hcount : Alone cfg i s (σ.resetCount g (cacheAt σ g)) (.zeroTime st g) :=
    h.next .go (by simp only [exec, objs_cacheAt hg])
  have hg' : g < (σ.resetCount g (cacheAt σ g)).objs.length := by
    rwa [Store.resetCount, Store.set, List.length_set]
  exact hcount.next .go (by simp only [exec, objs_cacheAt hg', VkTurnAuthWindow.zeroed])

/-- `invalidate`, where nobody has the lock. -/
theorem Alone.invalidate {counted : List Nat} (h : Alone cfg i s σ (.clear st g counted))
    (hg : g < σ.objs.length) (hfree : (cacheAt σ g).mutex = none) :
    Alone cfg i s (invalidate σ g counted) (.idle st) := by
  have hclear : Alone cfg i s (σ.clear g (cacheAt σ g) counted) (.zeroCount st g) :=
    h.next .go (by simp only [exec, objs_cacheAt hg, hfree, if_true])
  refine hclear.zeroed ?_
  rwa [Store.clear, Store.set, List.length_set]

/-- The window. -/
theorem Alone.checkWindow {n : Nat} {now : Int} (h : Alone cfg i s σ (.load st g n now))
    (hg : g < σ.objs.length) : Alone cfg i s (checkWindow σ g now) (.add st g n now) := by
  rw [VkTurnAuthWindow.checkWindow]
  split
  · rename_i hover
    have hreset : Alone cfg i s σ (.reset st g n now) :=
      h.next .go (by simp only [exec, objs_cacheAt hg]; exact if_pos hover)
    exact hreset.next .go (by simp only [exec, objs_cacheAt hg])
  · rename_i hopen
    exact h.next .go (by simp only [exec, objs_cacheAt hg]; exact if_neg hopen)

/-- The count and the time. -/
theorem Alone.countError {n : Nat} {now : Int} (h : Alone cfg i s σ (.add st g n now))
    (hg : g < σ.objs.length) :
    Alone cfg i s (countError σ g n now)
      (afterStamp st g ((cacheAt σ g).errorCount + 1) ((cacheAt σ g).counted ++ [n])) := by
  have hstamp : Alone cfg i s (σ.addError g (cacheAt σ g) n)
      (.stamp st g now ((cacheAt σ g).errorCount + 1) ((cacheAt σ g).counted ++ [n])) :=
    h.next .go (by simp only [exec, objs_cacheAt hg])
  have hg' : g < (σ.addError g (cacheAt σ g) n).objs.length := by
    rwa [Store.addError, Store.set, List.length_set]
  exact hstamp.next .go (by simp only [exec, objs_cacheAt hg', VkTurnAuthWindow.countError])

/-- `handleAuthError` from where it has its cache, with nobody in the lock. -/
theorem Alone.handleAuthErrorOf {n : Nat} {now : Int} (h : Alone cfg i s σ (.load st g n now))
    (hg : g < σ.objs.length) (hfree : (cacheAt σ g).mutex = none) :
    Alone cfg i s (handleAuthErrorOf σ g n now).1 (.idle st) := by
  have hwindow := checkWindow_puts now hg
  have hg₁ : g < (VkTurnAuthWindow.checkWindow σ g now).objs.length := hwindow.length ▸ hg
  have hcount := countError_puts n now hg₁
  have hend := (h.checkWindow hg).countError hg₁
  rw [afterStamp] at hend
  rw [VkTurnAuthWindow.handleAuthErrorOf]
  split
  · rename_i hthree
    rw [if_pos hthree] at hend
    refine hend.invalidate (hcount.length ▸ hg₁) ?_
    rw [hcount.at hg₁, hwindow.at hg]
    exact (windowed_creds _ _).2.trans hfree
  · rename_i hfew
    rw [if_neg hfew] at hend
    exact hend

/-- `handleAuthError`, at the time it starts. -/
theorem Alone.handleAuthError {n : Nat} (h : Alone cfg i s σ (.find st (.auth n)))
    (hI : Registered σ) (hfree : (cacheFor σ (getCacheID cfg st)).mutex = none) :
    Alone cfg i s (handleAuthError cfg σ st n (unix σ.clock : Nat)).1 (.idle st) := by
  obtain ⟨hI₁, hreg, hsame⟩ := getStreamCache_spec cfg st hI
  have hnow := h.getStreamCache.next .go rfl
  rw [getStreamCache_clock] at hnow
  rw [← hsame, cacheFor_some hreg] at hfree
  exact hnow.handleAuthErrorOf (hI₁.bounded _ _ hreg) hfree

/-- The store when the report starts: the history has a failure to authenticate. -/
def ended (σ : Store) (f : Failure) : Option GoError → Store
  | some err => if isAuthError err then σ.failed f else σ
  | none => σ

/-- **REPORTS OF THE CLIENT**: a stream whose allocation has ended and that runs alone, where
    nobody has the lock of its cache, does what `recordTURNAllocationResult` does. -/
theorem report_alone {g : CacheRef} {creds : TurnCredentials} (hI : Registered s.shared)
    (ht : s.threads[i]? = some (.holding st g creds)) (err : Option GoError)
    (hfree : (cacheFor s.shared (getCacheID cfg st)).mutex = none) :
    Reach (cacheStep cfg) anyStep s
      ⟨recordTURNAllocationResult cfg (ended s.shared ⟨st, g, creds⟩ err) st err
        s.shared.failures.length (unix s.shared.clock : Nat), s.threads.set i (.idle st)⟩ := by
  have hstart : Alone cfg i s s.shared (.holding st g creds) := alone_start ht
  cases err with
  | none =>
      have hfound : Alone cfg i s s.shared (.find st .success) := hstart.next (.allocated none) rfl
      obtain ⟨hI₁, hreg, -⟩ := getStreamCache_spec cfg st hI
      exact (hfound.getStreamCache.zeroed (hI₁.bounded _ _ hreg)).2
  | some err =>
      rw [recordTURNAllocationResult, ended]
      by_cases hauth : isAuthError err = true
      · have hfailed : Alone cfg i s (s.shared.failed ⟨st, g, creds⟩)
            (.find st (.auth s.shared.failures.length)) :=
          hstart.next (.allocated (some err)) (by simp only [exec, if_pos hauth])
        rw [if_pos hauth, if_pos hauth]
        exact (hfailed.handleAuthError ⟨hI.bounded, hI.unique⟩ hfree).2
      · rw [if_neg hauth, if_neg hauth]
        exact (hstart.next (.allocated (some err)) (by simp only [exec, if_neg hauth])).2

end Alone

end VkTurnAuthWindow
