import VkTurn.InvalidationProofs

/-! # One fetch per validity period

    A fetch of credentials costs a captcha, so `getVkCredsCached` fetches under the
    write lock and looks at the cache again before it does.  Here every call of it
    that is made, every invalidation and every tick of the clock may come at any time;
    what the calls answer and what is stored and cleared is noted in a history.

    The argument is about the thread that is FETCHING: it has the lock and knows that
    the cache has nothing for its link that has not expired (`Fetching`).  Nobody
    else changes the cached value while it has the lock, and time only makes it
    older, so this still holds when it stores what it fetched. -/

namespace VkTurnFetch

open ThreadPool GoMap GoText GoTime VkTurnCredentials

/-! ## Calls and invalidations at any time -/

/-- A stream starts, or a call of `getVkCredsCached` or of `invalidate` by itself; time
    passes. -/
inductive Op where
  | stream (s : Int)
  | call (s : Int) (link : Bytes)
  | invalidate (s : Int) (g : CacheRef)
  | tick (d : Nat)
  deriving DecidableEq

def outside (σ : Store) : Op → Option (Store × List Pc)
  | .stream s => some (σ, [.idle s])
  | .call s link => some (σ, [.find s (.take link)])
  | .invalidate s g => if g < σ.objs.length then some (σ, [.clear s g []]) else none
  | .tick d => some ({ σ with clock := σ.clock + d }, [])

def fetchMachine (cfg : Config) : Machine Store Pc Choice Op where
  exec := exec cfg
  env := outside

def fetchStep (cfg : Config) : CachePool → Act Choice Op → Option CachePool :=
  (fetchMachine cfg).step

/-- Every run of the client is one of these. -/
theorem reach_of_cacheReach {cfg : Config} {clock : Nat} {s : CachePool}
    (h : CacheReach cfg clock s) : Reach (fetchStep cfg) anyStep (newStore clock) s := by
  refine @Reach.simulates _ _ _ _ _ _ _ _ _ id ?_ _ h
  intro s a s' _ _ hs
  cases a with
  | run i a => exact Or.inr ⟨.run i a, trivial, hs⟩
  | env e =>
      cases e with
      | stream s => exact Or.inr ⟨.env (.stream s), trivial, hs⟩
      | tick d => exact Or.inr ⟨.env (.tick d), trivial, hs⟩

/-- The call of `getVkCredsCached` that a step makes: its stream and link. -/
def asks (s : CachePool) : Act Choice Op → Option (Int × Bytes)
  | .run i (.take link) =>
      match s.threads[i]? with
      | some (.idle st) => some (st, link)
      | _ => none
  | .env (.call st link) => some (st, link)
  | _ => none

/-- The calls for the streams of cache `id` are all for one link. -/
def sameLink (cfg : Config) (id : Int) (link : Bytes) (s : CachePool) (a : Act Choice Op) :
    Prop :=
  ∀ q ∈ asks s a, getCacheID cfg q.1 = id → q.2 = link

instance (cfg : Config) (id : Int) (link : Bytes) (s : CachePool) (a : Act Choice Op) :
    Decidable (sameLink cfg id link s a) :=
  inferInstanceAs (Decidable (∀ q ∈ asks s a, _))

/-! ## The history -/

/-- What is noted: a value is stored in a cache, a cache is cleared, a fetch failed, and a
    call answers; each with the time. -/
inductive Event where
  | stored (g : CacheRef) (creds : TurnCredentials) (time : Nat)
  | cleared (g : CacheRef)
  | notFetched (g : CacheRef)
  | answered (g : CacheRef) (link : Bytes) (creds : TurnCredentials) (time : Nat)
  deriving DecidableEq

/-- What a section notes. -/
def events (σ : Store) : Pc → Pc → List Event
  | .check _ g link, .holding _ _ creds => [.answered g link creds σ.clock]
  | .recheck _ g link, .holding _ _ creds => [.answered g link creds σ.clock]
  | .fetching _ g link, .holding _ _ creds =>
      [.stored g creds σ.clock, .answered g link creds σ.clock]
  | .fetching _ g _, .idle _ => [.notFetched g]
  | .clear _ g _, _ => [.cleared g]
  | _, _ => []

def note (h : List Event) (s : CachePool) (a : Act Choice Op) (s' : CachePool) : List Event :=
  match a with
  | .run i _ =>
      match s.threads[i]?, s'.threads[i]? with
      | some t, some t' => h ++ events s.shared t t'
      | _, _ => h
  | .env _ => h

/-- The caches with the history beside them. -/
abbrev Watched := CachePool × List Event

def watchedStep (cfg : Config) : Watched → Act Choice Op → Option Watched :=
  watch (fetchStep cfg) note

/-! ## What a section does to the cached values -/

variable {cfg : Config} {i j : Nat} {σ σ' : Store} {t t' : Pc} {g : CacheRef}

/-- Values, locks and clock are as before; a new cache is empty. -/
structure Kept (σ σ' : Store) : Prop where
  clock : σ'.clock = σ.clock
  forth : ∀ (g : CacheRef) (c : StreamCredentialsCache), σ.objs[g]? = some c →
    ∃ c', σ'.objs[g]? = some c' ∧ c'.creds = c.creds ∧ c'.mutex = c.mutex
  back : ∀ (g : CacheRef) (c' : StreamCredentialsCache), σ'.objs[g]? = some c' →
    c'.creds = none ∨ ∃ c, σ.objs[g]? = some c ∧ c'.creds = c.creds

theorem Kept.same (hclock : σ'.clock = σ.clock) (hobjs : σ'.objs = σ.objs) : Kept σ σ' where
  clock := hclock
  forth g c hc := ⟨c, by rw [hobjs, hc], rfl, rfl⟩
  back g c hc := Or.inr ⟨c, by rw [← hobjs, hc], rfl⟩

theorem Kept.set {c c' : StreamCredentialsCache} (hclock : σ'.clock = σ.clock)
    (hobjs : σ'.objs = σ.objs.set g c') (hg : σ.objs[g]? = some c) (hcreds : c'.creds = c.creds)
    (hmutex : c'.mutex = c.mutex) : Kept σ σ' where
  clock := hclock
  forth g' x hx := by
    by_cases he : g' = g
    · subst he
      obtain rfl : c = x := Option.some.inj (hg.symm.trans hx)
      exact ⟨c', by rw [hobjs, List.getElem?_set_self (List.getElem?_eq_some_iff.mp hx).1], hcreds,
        hmutex⟩
    · exact ⟨x, by rw [hobjs, List.getElem?_set_ne (Ne.symm he), hx], rfl, rfl⟩
  back g' x hx := by
    rw [hobjs] at hx
    by_cases he : g' = g
    · subst he
      rw [List.getElem?_set_self (List.getElem?_eq_some_iff.mp hg).1] at hx
      obtain rfl := Option.some.inj hx
      exact Or.inr ⟨c, hg, hcreds⟩
    · rw [List.getElem?_set_ne (Ne.symm he)] at hx
      exact Or.inr ⟨x, hx, rfl⟩

/-- The cache that a thread is fetching for, and the link. -/
def fetchingAt : Pc → Option (CacheRef × Bytes)
  | .fetching _ g link => some (g, link)
  | _ => none

/-- The sections of `getVkCredsCached` and the locked part of `invalidate`, and all other
    sections, as the cached values see them. -/
inductive Acts (cfg : Config) (i : Nat) (σ : Store) : Pc → Store → Pc → Prop where
  | hit (s : Int) (g : CacheRef) (link : Bytes) (c : StreamCredentialsCache)
      (creds : TurnCredentials) (t : Pc) : t = .check s g link ∨ t = .recheck s g link →
      σ.objs[g]? = some c → c.cached link σ.clock = some creds →
      Acts cfg i σ t σ (.holding s g creds)
  | locked (s : Int) (g : CacheRef) (link : Bytes) (c : StreamCredentialsCache) :
      σ.objs[g]? = some c → c.mutex = none → c.cached link σ.clock = none →
      Acts cfg i σ (.recheck s g link) (σ.set g { c with mutex := some i }) (.fetching s g link)
  | stored (s : Int) (g : CacheRef) (link username password serverAddr : Bytes)
      (c : StreamCredentialsCache) : σ.objs[g]? = some c →
      Acts cfg i σ (.fetching s g link)
        (σ.fetch g c (σ.fresh link username password serverAddr))
        (.holding s g (σ.fresh link username password serverAddr))
  | notFetched (s : Int) (g : CacheRef) (link : Bytes) (c : StreamCredentialsCache) :
      σ.objs[g]? = some c →
      Acts cfg i σ (.fetching s g link) (σ.set g { c with mutex := none }) (.idle s)
  | cleared (s : Int) (g : CacheRef) (counted : List Nat) (c : StreamCredentialsCache) :
      σ.objs[g]? = some c → c.mutex = none →
      Acts cfg i σ (.clear s g counted) (σ.clear g c counted) (.zeroCount s g)
  | other (t t' : Pc) (σ' : Store) : Moves cfg i σ t σ' t' → Kept σ σ' → events σ t t' = [] →
      fetchingAt t' = none → Acts cfg i σ t σ' t'

theorem fetchingAt_resume (s : Int) (g : CacheRef) (k : Call) : fetchingAt (k.resume s g) = none := by
  cases k <;> rfl

theorem kept_create (id : Int) : Kept σ (σ.create id) where
  clock := rfl
  forth g c hc := ⟨c, getElem?_snoc_old hc, rfl, rfl⟩
  back g c hc := by
    rcases getElem?_snoc_cases hc with ⟨-, rfl⟩ | ⟨-, hold⟩
    · exact Or.inl rfl
    · exact Or.inr ⟨c, hold, rfl⟩

theorem exec_check {a : Choice} {new : List Pc} {s : Int} {link : Bytes}
    (h : exec cfg i σ (.check s g link) a = some (σ', t', new)) :
    Acts cfg i σ (.check s g link) σ' t' := by
  cases a with
  | go =>
      simp only [exec] at h
      split at h
      · cases h
      · split at h
        · split at h
          · cases h
            exact .hit s g link _ _ _ (Or.inl rfl) ‹_› ‹_›
          · cases h
            exact .other _ _ _ (.missed s g link) (.same rfl rfl) rfl rfl
        · cases h
  | _ => cases h

theorem exec_recheck {a : Choice} {new : List Pc} {s : Int} {link : Bytes}
    (h : exec cfg i σ (.recheck s g link) a = some (σ', t', new)) :
    Acts cfg i σ (.recheck s g link) σ' t' := by
  cases a with
  | go =>
      simp only [exec] at h
      split at h
      · cases h
      · split at h
        · split at h
          · cases h
            exact .hit s g link _ _ _ (Or.inr rfl) ‹_› ‹_›
          · cases h
            exact .locked s g link _ ‹_› ‹_› ‹_›
        · cases h
  | _ => cases h

theorem exec_fetching {a : Choice} {new : List Pc} {s : Int} {link : Bytes}
    (h : exec cfg i σ (.fetching s g link) a = some (σ', t', new)) :
    Acts cfg i σ (.fetching s g link) σ' t' := by
  cases a with
  | fetched r =>
      cases r with
      | none =>
          simp only [exec] at h
          split at h
          · cases h
          · cases h
            exact .notFetched s g link _ ‹_›
      | some r =>
          obtain ⟨username, password, serverAddr⟩ := r
          simp only [exec] at h
          split at h
          · cases h
          · cases h
            exact .stored s g link username password serverAddr _ ‹_›
  | _ => cases h

/-- **WHAT A SECTION DOES TO THE CACHED VALUES** -/
theorem exec_acts {a : Choice} {new : List Pc} (h : exec cfg i σ t a = some (σ', t', new)) :
    Acts cfg i σ t σ' t' ∧ new = [] := by
  obtain ⟨hm, hnew⟩ := exec_moves h
  refine ⟨?_, hnew⟩
  cases hm with
  | hit s g link creds => exact exec_check h
  | missed s g link => exact exec_check h
  | hitLate s g link creds => exact exec_recheck h
  | locked s g link c hg => exact exec_recheck h
  | fetched s g link c creds hg => exact exec_fetching h
  | notFetched s g link c hg => exact .notFetched s g link c hg
  | cleared s g counted c hg hmutex => exact .cleared s g counted c hg hmutex
  | found s k g hg =>
      exact .other _ _ _ (.found s k g hg) (.same rfl rfl) rfl (fetchingAt_resume s g k)
  | foundLate s k g hg =>
      exact .other _ _ _ (.foundLate s k g hg) (.same rfl rfl) rfl (fetchingAt_resume s g k)
  | created s k hnone =>
      exact .other _ _ _ (.created s k hnone) (kept_create _) rfl (fetchingAt_resume s _ k)
  | windowReset s g n now c hg =>
      exact .other _ _ _ (.windowReset s g n now c hg) (.set rfl rfl hg rfl rfl) rfl rfl
  | counted s g n now c hg =>
      exact .other _ _ _ (.counted s g n now c hg) (.set rfl rfl hg rfl rfl) rfl rfl
  | stamped s g now count counted c hg =>
      refine .other _ _ _ (.stamped s g now count counted c hg) (.set rfl rfl hg rfl rfl) rfl ?_
      rw [afterStamp]
      split <;> rfl
  | zeroedCount s g c hg =>
      exact .other _ _ _ (.zeroedCount s g c hg) (.set rfl rfl hg rfl rfl) rfl rfl
  | zeroedTime s g c hg =>
      exact .other _ _ _ (.zeroedTime s g c hg) (.set rfl rfl hg rfl rfl) rfl rfl
  | takes s link => exact .other _ _ _ (.takes s link) (.same rfl rfl) rfl rfl
  | missing s k => exact .other _ _ _ (.missing s k) (.same rfl rfl) rfl rfl
  | succeeded s g creds => exact .other _ _ _ (.succeeded s g creds) (.same rfl rfl) rfl rfl
  | authFailed s g creds => exact .other _ _ _ (.authFailed s g creds) (.same rfl rfl) rfl rfl
  | otherFailed s g creds => exact .other _ _ _ (.otherFailed s g creds) (.same rfl rfl) rfl rfl
  | timed s g n now => exact .other _ _ _ (.timed s g n now) (.same rfl rfl) rfl rfl
  | windowOver s g n now => exact .other _ _ _ (.windowOver s g n now) (.same rfl rfl) rfl rfl
  | windowOpen s g n now => exact .other _ _ _ (.windowOpen s g n now) (.same rfl rfl) rfl rfl

/-! ## The thread that is fetching -/

/-- It has the lock, and the cache has nothing for its link that has not expired. -/
def Fetching (i : Nat) (σ : Store) (g : CacheRef) (link : Bytes) : Prop :=
  ∃ c, σ.objs[g]? = some c ∧ c.mutex = some i ∧ c.cached link σ.clock = none

theorem Fetching.set {g' : CacheRef} {c' : StreamCredentialsCache} {link : Bytes}
    (h : Fetching j σ g link) (hne : g' ≠ g) (hclock : σ'.clock = σ.clock)
    (hobjs : σ'.objs = σ.objs.set g' c') : Fetching j σ' g link := by
  obtain ⟨c, hc, hmutex, hnone⟩ := h
  exact ⟨c, by rw [hobjs, List.getElem?_set_ne hne, hc], hmutex, by rw [hclock, hnone]⟩

theorem Fetching.unlocked {g' : CacheRef} {c' : StreamCredentialsCache} {link : Bytes}
    (h : Fetching j σ g link) (hg : σ.objs[g']? = some c') (hmutex : c'.mutex ≠ some j) :
    g' ≠ g := by
  rintro rfl
  obtain ⟨c, hc, hlocked, -⟩ := h
  rw [hg] at hc
  exact hmutex (Option.some.inj hc ▸ hlocked)

/-- Nobody else touches the value or the lock. -/
theorem Fetching.stable {link : Bytes} (h : Fetching j σ g link) (ha : Acts cfg i σ t σ' t')
    (hi : ∀ g' link', fetchingAt t = some (g', link') → Fetching i σ g' link') (hij : i ≠ j) :
    Fetching j σ' g link := by
  cases ha with
  | hit s g' link' c creds t _ _ _ => exact h
  | locked s g' link' c hg hmutex _ =>
      exact h.set (h.unlocked hg (by rw [hmutex]; exact (Option.some_ne_none j).symm)) rfl rfl
  | stored s g' link' username password serverAddr c hg =>
      obtain ⟨x, hx, hmutex, -⟩ := hi g' link' rfl
      exact h.set (h.unlocked hx (by rw [hmutex]; exact fun he => hij (Option.some.inj he))) rfl rfl
  | notFetched s g' link' c hg =>
      obtain ⟨x, hx, hmutex, -⟩ := hi g' link' rfl
      exact h.set (h.unlocked hx (by rw [hmutex]; exact fun he => hij (Option.some.inj he))) rfl rfl
  | cleared s g' counted c hg hmutex =>
      exact h.set (h.unlocked hg (by rw [hmutex]; exact (Option.some_ne_none j).symm)) rfl rfl
  | other t t' σ' _ hkept _ _ =>
      obtain ⟨c, hc, hlocked, hnone⟩ := h
      obtain ⟨c', hc', hcreds, hmutex⟩ := hkept.forth g c hc
      refine ⟨c', hc', hmutex.trans hlocked, ?_⟩
      rw [StreamCredentialsCache.cached, hcreds, hkept.clock]
      exact hnone

/-- A value that has expired stays expired. -/
theorem cached_later {c : StreamCredentialsCache} {link : Bytes} {now later : Nat}
    (h : c.cached link now = none) (hle : now ≤ later) : c.cached link later = none := by
  rw [StreamCredentialsCache.cached, Option.filter_eq_none_iff] at h ⊢
  intro creds hcreds hvalid
  have hnot := h creds hcreds
  simp only [decide_eq_true_eq] at hvalid hnot
  exact hnot ⟨hvalid.1, by omega⟩

/-! ## Links and caches -/

/-- The stream and the link of a call of `getVkCredsCached`. -/
def calling : Pc → Option (Int × Bytes)
  | .find s (.take link) => some (s, link)
  | .insert s (.take link) => some (s, link)
  | .check s _ link => some (s, link)
  | .recheck s _ link => some (s, link)
  | .fetching s _ link => some (s, link)
  | _ => none

/-- The stream and the cache that the call uses. -/
def cacheUsed : Pc → Option (Int × CacheRef)
  | .check s g _ => some (s, g)
  | .recheck s g _ => some (s, g)
  | .fetching s g _ => some (s, g)
  | _ => none

/-- What is known of a thread. -/
structure Asserted (cfg : Config) (id : Int) (link : Bytes) (i : Nat) (σ : Store) (t : Pc) :
    Prop where
  link : ∀ q, calling t = some q → getCacheID cfg q.1 = id → q.2 = link
  cache : ∀ q, cacheUsed t = some q → get σ.caches (getCacheID cfg q.1) = some q.2
  fetching : ∀ q, fetchingAt t = some q → Fetching i σ q.1 q.2

/-- A cache belongs to one `id`. -/
structure Registered (σ : Store) : Prop where
  bounded : ∀ id (g : CacheRef), get σ.caches id = some g → g < σ.objs.length
  unique : ∀ id id' (g : CacheRef), get σ.caches id = some g → get σ.caches id' = some g → id = id'

/-- Replacing a cache changes no registration. -/
theorem registered_same (hI : Registered σ) (hcaches : σ'.caches = σ.caches)
    (hlen : σ'.objs.length = σ.objs.length) : Registered σ' := by
  refine ⟨?_, ?_⟩
  · rw [hcaches, hlen]
    exact hI.bounded
  · rw [hcaches]
    exact hI.unique

theorem registered_create (hI : Registered σ) (new : Int) : Registered (σ.create new) := by
  refine ⟨?_, ?_⟩
  · intro id g hg
    rw [Store.create, List.length_append, List.length_singleton]
    rw [Store.create, get_insert] at hg
    split at hg
    · obtain rfl := Option.some.inj hg
      exact Nat.lt_succ_self _
    · exact Nat.lt_succ_of_lt (hI.bounded id g hg)
  · intro id id' g hg hg'
    rw [Store.create, get_insert] at hg hg'
    split at hg
    · obtain rfl := Option.some.inj hg
      split at hg'
      · rename_i h1 h2
        exact h1.trans h2.symm
      · exact absurd (hI.bounded id' _ hg') (Nat.lt_irrefl _)
    · split at hg'
      · obtain rfl := Option.some.inj hg'
        exact absurd (hI.bounded id _ hg) (Nat.lt_irrefl _)
      · exact hI.unique id id' g hg hg'

/-- A section creates a cache or leaves the registrations as they are. -/
theorem moves_registry (h : Moves cfg i σ t σ' t') :
    (∃ id, σ' = σ.create id) ∨ σ'.caches = σ.caches ∧ σ'.objs.length = σ.objs.length := by
  cases h with
  | created s k hnone => exact Or.inl ⟨_, rfl⟩
  | locked s g link c _ | fetched s g link c creds _ | notFetched s g link c _
  | windowReset s g n now c _ | counted s g n now c _ | stamped s g now count counted c _
  | cleared s g counted c _ _ | zeroedCount s g c _ | zeroedTime s g c _ =>
      exact Or.inr ⟨rfl, List.length_set⟩
  | _ => exact Or.inr ⟨rfl, rfl⟩

theorem registered_step (h : Moves cfg i σ t σ' t') (hI : Registered σ) : Registered σ' := by
  rcases moves_registry h with ⟨id, rfl⟩ | ⟨hcaches, hlen⟩
  · exact registered_create hI id
  · exact registered_same hI hcaches hlen

/-- What a call of `getStreamCache` leaves its caller with. -/
theorem resume_call {s : Int} {k : Call} {q : Int × Bytes} (h : calling (k.resume s g) = some q) :
    calling (.find s k) = some q ∧ calling (.insert s k) = some q := by
  cases k with
  | take link => exact ⟨h, h⟩
  | auth n => cases h
  | success => cases h

theorem resume_cache {s : Int} {k : Call} {q : Int × CacheRef}
    (h : cacheUsed (k.resume s g) = some q) : q = (s, g) := by
  cases k with
  | take link => exact (Option.some.inj h).symm
  | auth n => cases h
  | success => cases h

/-- A call of `getVkCredsCached` keeps its stream and link, and uses its stream's cache. -/
theorem call_step (h : Moves cfg i σ t σ' t') :
    (∀ q, calling t' = some q → calling t = some q ∨ t = .idle q.1 ∧ t' = .find q.1 (.take q.2)) ∧
      ∀ q, cacheUsed t' = some q →
        cacheUsed t = some q ∨ get σ'.caches (getCacheID cfg q.1) = some q.2 := by
  cases h with
  | takes s link =>
      refine ⟨?_, fun q hq => (by cases hq)⟩
      intro q hq
      obtain rfl := Option.some.inj hq
      exact Or.inr ⟨rfl, rfl⟩
  | found s k g hg =>
      refine ⟨fun q hq => Or.inl (resume_call hq).1, ?_⟩
      intro q hq
      obtain rfl := resume_cache hq
      exact Or.inr hg
  | foundLate s k g hg =>
      refine ⟨fun q hq => Or.inl (resume_call hq).2, ?_⟩
      intro q hq
      obtain rfl := resume_cache hq
      exact Or.inr hg
  | created s k hnone =>
      refine ⟨fun q hq => Or.inl (resume_call hq).2, ?_⟩
      intro q hq
      obtain rfl := resume_cache hq
      refine Or.inr ?_
      rw [Store.create, get_insert, if_pos rfl]
  | missing s k =>
      refine ⟨?_, fun q hq => (by cases hq)⟩
      intro q hq
      cases k with
      | take link => exact Or.inl hq
      | auth n => cases hq
      | success => cases hq
  | missed s g link => exact ⟨fun q hq => Or.inl hq, fun q hq => Or.inl hq⟩
  | locked s g link c hg => exact ⟨fun q hq => Or.inl hq, fun q hq => Or.inl hq⟩
  | stamped s g now count counted c hg =>
      rw [afterStamp]
      split
      · exact ⟨fun q hq => (by cases hq), fun q hq => (by cases hq)⟩
      · exact ⟨fun q hq => (by cases hq), fun q hq => (by cases hq)⟩
  | _ => exact ⟨fun q hq => (by cases hq), fun q hq => (by cases hq)⟩

/-- A call starts with the link it is made for. -/
theorem asks_of_take {s : CachePool} {a : Choice} {new : List Pc} {st : Int} {link : Bytes}
    (hs : s.threads[i]? = some (.idle st))
    (he : exec cfg i s.shared (.idle st) a = some (σ', .find st (.take link), new)) :
    asks s (.run i a) = some (st, link) := by
  cases a with
  | take link' =>
      cases he
      simp only [asks, hs]
  | _ => cases he

/-- After a section: what the thread then knows. -/
theorem acts_fetching (h : Acts cfg i σ t σ' t') :
    ∀ q, fetchingAt t' = some q → Fetching i σ' q.1 q.2 := by
  intro q hq
  cases h with
  | locked s g link c hg hmutex hnone =>
      obtain rfl := Option.some.inj hq
      have hlt := (List.getElem?_eq_some_iff.mp hg).1
      exact ⟨{ c with mutex := some i }, List.getElem?_set_self hlt, rfl, hnone⟩
  | other t t' σ' _ _ _ hnone =>
      rw [hnone] at hq
      cases hq
  | _ => cases hq

/-- Threads start, at the beginning of a call that is asked for or outside
    `getVkCredsCached`; or time passes. -/
inductive Happens (s : CachePool) : Op → Store → List Pc → Prop where
  | started (e : Op) (new : List Pc) :
      (∀ u ∈ new, (∀ q, calling u = some q → asks s (.env e) = some q) ∧ cacheUsed u = none ∧
        fetchingAt u = none) →
      Happens s e s.shared new
  | tick (d : Nat) : Happens s (.tick d) { s.shared with clock := s.shared.clock + d } []

theorem outside_happens {s : CachePool} {e : Op} {new : List Pc}
    (h : outside s.shared e = some (σ', new)) : Happens s e σ' new := by
  cases e with
  | stream st =>
      cases h
      refine .started _ _ ?_
      intro u hu
      rw [List.mem_singleton.mp hu]
      exact ⟨fun q hq => (by cases hq), rfl, rfl⟩
  | call st link =>
      cases h
      refine .started _ _ ?_
      intro u hu
      rw [List.mem_singleton.mp hu]
      exact ⟨fun q hq => hq, rfl, rfl⟩
  | invalidate st g =>
      rw [outside] at h
      split at h
      · cases h
        refine .started _ _ ?_
        intro u hu
        rw [List.mem_singleton.mp hu]
        exact ⟨fun q hq => (by cases hq), rfl, rfl⟩
      · cases h
  | tick d =>
      cases h
      exact .tick d

section Runs

variable {id : Int} {link : Bytes} {clock : Nat} {s : CachePool}

theorem asserted (h : Reach (fetchStep cfg) (sameLink cfg id link) (newStore clock) s) :
    Annotated Registered (Asserted cfg id link) s := by
  refine Machine.owickiGries (M := fetchMachine cfg) (J := fun _ => True) (fun _ _ => trivial)
    _ _ ?_ ?_ ?_ ?_ h
  · exact ⟨⟨fun id g hg => (by cases hg), fun id id' g hg => (by cases hg)⟩,
      fun i t ht => (by cases ht)⟩
  · intro s i t a σ' t' new _ ht hok he hI hA
    have hm := (exec_moves he).1
    obtain ⟨ha, rfl⟩ := exec_acts he
    obtain ⟨hcall, hcache⟩ := call_step hm
    refine ⟨registered_step hm hI, ⟨?_, ?_, acts_fetching ha⟩, fun n u hu => (by cases hu)⟩
    · intro q hq
      rcases hcall q hq with hold | ⟨rfl, rfl⟩
      · exact hA.link q hold
      · exact hok q (asks_of_take ht he)
    · intro q hq
      rcases hcache q hq with hold | hnew
      · exact (VkTurnInvalidation.moves_grows hm).caches _ _ (hA.cache q hold)
      · exact hnew
  · intro s i j t u a σ' t' new _ hij _ _ he _ hA hu
    refine ⟨hu.link, ?_, ?_⟩
    · intro q hq
      exact (VkTurnInvalidation.moves_grows (exec_moves he).1).caches _ _ (hu.cache q hq)
    · intro q hq
      exact (hu.fetching q hq).stable (exec_acts he).1 (fun g' l' hf => hA.fetching (g', l') hf) hij
  · intro s e σ' new _ hok he hI
    cases outside_happens he with
    | started e new hnew =>
        refine ⟨hI, ?_, fun _ _ _ hu => hu⟩
        intro n u hu
        obtain ⟨hcalls, hcache, hfetching⟩ := hnew u hu
        refine ⟨?_, fun q hq => ?_, fun q hq => ?_⟩
        · intro q hq
          exact hok q (hcalls q hq)
        · rw [hcache] at hq
          cases hq
        · rw [hfetching] at hq
          cases hq
    | tick d =>
        refine ⟨⟨hI.bounded, hI.unique⟩, fun n u hu => (by cases hu), ?_⟩
        intro j u _ hu
        refine ⟨hu.link, hu.cache, ?_⟩
        intro q hq
        obtain ⟨c, hc, hmutex, hnone⟩ := hu.fetching q hq
        exact ⟨c, hc, hmutex, cached_later hnone (Nat.le_add_right ..)⟩

end Runs

/-! ## What the history says -/

/-- What the history tells about the caches.  A value stored in the cache of `id` has
    been cleared since, has expired, or is still there. -/
structure Recorded (id : Int) (link : Bytes) (σ : Store) (h : List Event) : Prop where
  value : ∀ (g : CacheRef) (c : StreamCredentialsCache) creds, σ.objs[g]? = some c →
    c.creds = some creds → ∃ k time : Nat, h[k]? = some (.stored g creds time)
  stored : ∀ (k : Nat) g creds time, h[k]? = some (.stored g creds time) →
    time < creds.expiresAt ∧ g < σ.objs.length ∧ (get σ.caches id = some g →
      creds.link = link ∧
      ((∃ n : Nat, k < n ∧ h[n]? = some (.cleared g)) ∨ creds.expiresAt ≤ σ.clock ∨
        ∃ c, σ.objs[g]? = some c ∧ c.creds = some creds))
  apart : ∀ (k m : Nat) g creds time creds' time', k < m → h[k]? = some (.stored g creds time) →
    h[m]? = some (.stored g creds' time') → get σ.caches id = some g →
      (∃ n : Nat, k < n ∧ n < m ∧ h[n]? = some (.cleared g)) ∨ creds.expiresAt ≤ time'
  answered : ∀ (m : Nat) g link' creds time, h[m]? = some (.answered g link' creds time) →
    creds.link = link' ∧ time < creds.expiresAt ∧
      ∃ k time' : Nat, k < m ∧ h[k]? = some (.stored g creds time')

section History

variable {id : Int} {link : Bytes} {h : List Event}

/-- The values stay, and time may pass. -/
theorem Recorded.keep (hR : Recorded id link σ h) (hclock : σ.clock ≤ σ'.clock)
    (hlen : σ.objs.length ≤ σ'.objs.length)
    (hcaches : ∀ g : CacheRef, g < σ.objs.length → get σ'.caches id = some g →
      get σ.caches id = some g)
    (hforth : ∀ (g : CacheRef) (c : StreamCredentialsCache), σ.objs[g]? = some c →
      ∃ c', σ'.objs[g]? = some c' ∧ c'.creds = c.creds)
    (hback : ∀ (g : CacheRef) (c' : StreamCredentialsCache), σ'.objs[g]? = some c' →
      c'.creds = none ∨ ∃ c, σ.objs[g]? = some c ∧ c'.creds = c.creds) :
    Recorded id link σ' h := by
  refine ⟨?_, ?_, ?_, hR.answered⟩
  · intro g c' creds hc' hcreds
    rcases hback g c' hc' with hnone | ⟨c, hc, hsame⟩
    · rw [hnone] at hcreds
      cases hcreds
    · exact hR.value g c creds hc (hsame.symm.trans hcreds)
  · intro k g creds time hk
    obtain ⟨htime, hlt, hrest⟩ := hR.stored k g creds time hk
    refine ⟨htime, hlt.trans_le hlen, ?_⟩
    intro hg
    obtain ⟨hlink, hcase⟩ := hrest (hcaches g hlt hg)
    refine ⟨hlink, ?_⟩
    rcases hcase with hcleared | hexpired | ⟨c, hc, hcreds⟩
    · exact Or.inl hcleared
    · exact Or.inr (Or.inl (hexpired.trans hclock))
    · obtain ⟨c', hc', hsame⟩ := hforth g c hc
      exact Or.inr (Or.inr ⟨c', hc', hsame.trans hcreds⟩)
  · intro k m g creds time creds' time' hkm hk hm hg
    exact hR.apart k m g creds time creds' time' hkm hk hm
      (hcaches g (hR.stored k g creds time hk).2.1 hg)

/-- An event that stores nothing. -/
theorem Recorded.snoc {e : Event} (hR : Recorded id link σ h)
    (hnot : ∀ g creds time, e ≠ .stored g creds time)
    (hans : ∀ g link' creds time, e = .answered g link' creds time →
      creds.link = link' ∧ time < creds.expiresAt ∧
        ∃ k time' : Nat, h[k]? = some (.stored g creds time')) :
    Recorded id link σ (h ++ [e]) := by
  -- what is stored was stored before
  have hold : ∀ (k : Nat) g creds time, (h ++ [e])[k]? = some (.stored g creds time) →
      h[k]? = some (.stored g creds time) := by
    intro k g creds time hk
    rcases getElem?_snoc_cases hk with ⟨-, he⟩ | ⟨-, hk⟩
    · exact absurd he.symm (hnot g creds time)
    · exact hk
  refine ⟨?_, ?_, ?_, ?_⟩
  · intro g c creds hc hcreds
    obtain ⟨k, time, hk⟩ := hR.value g c creds hc hcreds
    exact ⟨k, time, getElem?_snoc_old hk⟩
  · intro k g creds time hk
    obtain ⟨htime, hlt, hrest⟩ := hR.stored k g creds time (hold k g creds time hk)
    refine ⟨htime, hlt, ?_⟩
    intro hg
    obtain ⟨hlink, hcase⟩ := hrest hg
    refine ⟨hlink, hcase.imp_left ?_⟩
    rintro ⟨n, hkn, hn⟩
    exact ⟨n, hkn, getElem?_snoc_old hn⟩
  · intro k m g creds time creds' time' hkm hk hm hg
    refine (hR.apart k m g creds time creds' time' hkm (hold _ _ _ _ hk) (hold _ _ _ _ hm) hg).imp_left ?_
    rintro ⟨n, hkn, hnm, hn⟩
    exact ⟨n, hkn, hnm, getElem?_snoc_old hn⟩
  · intro m g link' creds time hm
    rcases getElem?_snoc_cases hm with ⟨rfl, he⟩ | ⟨-, hm⟩
    · obtain ⟨hlink, htime, k, time', hk⟩ := hans g link' creds time he.symm
      exact ⟨hlink, htime, k, time', (List.getElem?_eq_some_iff.mp hk).1, getElem?_snoc_old hk⟩
    · obtain ⟨hlink, htime, k, time', hkm, hk⟩ := hR.answered m g link' creds time hm
      exact ⟨hlink, htime, k, time', hkm, getElem?_snoc_old hk⟩

/-- A cache is cleared. -/
theorem Recorded.clear {c : StreamCredentialsCache} {counted : List Nat}
    (hR : Recorded id link σ h) (hg : σ.objs[g]? = some c) :
    Recorded id link (σ.clear g c counted) (h ++ [.cleared g]) := by
  have hR' := hR.snoc (e := .cleared g) (fun _ _ _ he => by cases he) (fun _ _ _ _ he => by cases he)
  have hlt := (List.getElem?_eq_some_iff.mp hg).1
  have hlast : (h ++ [Event.cleared g])[h.length]? = some (.cleared g) := List.getElem?_concat_length
  have hself : (σ.clear g c counted).objs[g]? = some { c with creds := none } :=
    List.getElem?_set_self hlt
  have hother : ∀ g', g' ≠ g → (σ.clear g c counted).objs[g']? = σ.objs[g']? :=
    fun g' hne => List.getElem?_set_ne (Ne.symm hne)
  refine ⟨?_, ?_, hR'.apart, hR'.answered⟩
  · intro g' c' creds hc' hcreds
    by_cases he : g' = g
    · subst he
      rw [hself] at hc'
      obtain rfl := Option.some.inj hc'
      cases hcreds
    · rw [hother g' he] at hc'
      exact hR'.value g' c' creds hc' hcreds
  · intro k g' creds time hk
    obtain ⟨htime, hlt', hrest⟩ := hR'.stored k g' creds time hk
    refine ⟨htime, by rwa [Store.clear, Store.set, List.length_set], ?_⟩
    intro hreg
    obtain ⟨hlink, hcase⟩ := hrest hreg
    refine ⟨hlink, ?_⟩
    by_cases he : g' = g
    · subst he
      refine Or.inl ⟨h.length, ?_, hlast⟩
      rcases getElem?_snoc_cases hk with ⟨-, he⟩ | ⟨hlt, -⟩
      · cases he
      · exact hlt
    · rw [hother g' he]
      exact hcase

/-- In a cache that has nothing valid for the link, what was stored before has been cleared
    or has expired. -/
theorem Recorded.superseded {c : StreamCredentialsCache} {k : Nat} {creds : TurnCredentials}
    {time : Nat} (hR : Recorded id link σ h) (hg : σ.objs[g]? = some c)
    (hnone : c.cached link σ.clock = none) (hk : h[k]? = some (.stored g creds time))
    (hreg : get σ.caches id = some g) :
    (∃ n : Nat, k < n ∧ h[n]? = some (.cleared g)) ∨ creds.expiresAt ≤ σ.clock := by
  obtain ⟨hlink, hcleared | hexpired | ⟨c', hc', hcreds⟩⟩ := (hR.stored k g creds time hk).2.2 hreg
  · exact Or.inl hcleared
  · exact Or.inr hexpired
  · obtain rfl : c = c' := Option.some.inj (hg.symm.trans hc')
    have hnot := Option.filter_eq_none_iff.mp hnone creds hcreds
    simp only [decide_eq_true_eq, not_and] at hnot
    exact Or.inr (Nat.le_of_not_lt (hnot hlink))

/-- A fetch is stored by a thread that knows that the cache has nothing valid. -/
theorem Recorded.store {c : StreamCredentialsCache} {creds : TurnCredentials}
    (hR : Recorded id link σ h) (hg : σ.objs[g]? = some c)
    (hnone : c.cached creds.link σ.clock = none) (htime : σ.clock < creds.expiresAt)
    (hlink : get σ.caches id = some g → creds.link = link) :
    Recorded id link (σ.fetch g c creds) (h ++ [.stored g creds σ.clock]) := by
  have hlt := (List.getElem?_eq_some_iff.mp hg).1
  have hself : (σ.fetch g c creds).objs[g]? = some { c with creds := some creds, mutex := none } :=
    List.getElem?_set_self hlt
  have hother : ∀ g', g' ≠ g → (σ.fetch g c creds).objs[g']? = σ.objs[g']? :=
    fun g' hne => List.getElem?_set_ne (Ne.symm hne)
  have hlast : (h ++ [Event.stored g creds σ.clock])[h.length]? = some (.stored g creds σ.clock) :=
    List.getElem?_concat_length
  have hover : ∀ (k : Nat) creds' time', h[k]? = some (.stored g creds' time') →
      get σ.caches id = some g →
      (∃ n : Nat, k < n ∧ h[n]? = some (.cleared g)) ∨ creds'.expiresAt ≤ σ.clock :=
    fun k creds' time' hk hreg => hR.superseded hg (hlink hreg ▸ hnone) hk hreg
  refine ⟨?_, ?_, ?_, ?_⟩
  · intro g' c' creds' hc' hcreds
    by_cases he : g' = g
    · subst he
      rw [hself] at hc'
      obtain rfl := Option.some.inj hc'
      obtain rfl := Option.some.inj hcreds
      exact ⟨h.length, σ.clock, hlast⟩
    · rw [hother g' he] at hc'
      obtain ⟨k, time, hk⟩ := hR.value g' c' creds' hc' hcreds
      exact ⟨k, time, getElem?_snoc_old hk⟩
  · intro k g' creds' time hk
    have hlen : (σ.fetch g c creds).objs.length = σ.objs.length := List.length_set
    rw [hlen]
    rcases getElem?_snoc_cases hk with ⟨rfl, he⟩ | ⟨-, hold⟩
    · cases he
      exact ⟨htime, hlt, fun hreg => ⟨hlink hreg, Or.inr (Or.inr ⟨_, hself, rfl⟩)⟩⟩
    · obtain ⟨htime', hlt', hrest⟩ := hR.stored k g' creds' time hold
      refine ⟨htime', hlt', ?_⟩
      intro hreg
      obtain ⟨hlink', hcase⟩ := hrest hreg
      refine ⟨hlink', ?_⟩
      by_cases he : g' = g
      · subst he
        rcases hover k creds' time hold hreg with ⟨n, hkn, hn⟩ | hexpired
        · exact Or.inl ⟨n, hkn, getElem?_snoc_old hn⟩
        · exact Or.inr (Or.inl hexpired)
      · rw [hother g' he]
        refine hcase.imp_left ?_
        rintro ⟨n, hkn, hn⟩
        exact ⟨n, hkn, getElem?_snoc_old hn⟩
  · intro k m g' creds₁ time₁ creds₂ time₂ hkm hk hm hreg
    rcases getElem?_snoc_cases hk with ⟨rfl, -⟩ | ⟨hklt, hk⟩
    · have hmlt := (List.getElem?_eq_some_iff.mp hm).1
      rw [List.length_append, List.length_singleton] at hmlt
      omega
    · rcases getElem?_snoc_cases hm with ⟨rfl, he⟩ | ⟨-, hm⟩
      · cases he
        rcases hover k creds₁ time₁ hk hreg with ⟨n, hkn, hn⟩ | hexpired
        · exact Or.inl ⟨n, hkn, (List.getElem?_eq_some_iff.mp hn).1, getElem?_snoc_old hn⟩
        · exact Or.inr hexpired
      · refine (hR.apart k m g' creds₁ time₁ creds₂ time₂ hkm hk hm hreg).imp_left ?_
        rintro ⟨n, hkn, hnm, hn⟩
        exact ⟨n, hkn, hnm, getElem?_snoc_old hn⟩
  · intro m g' link' creds' time hm
    rcases getElem?_snoc_cases hm with ⟨-, he⟩ | ⟨-, hm⟩
    · cases he
    · obtain ⟨hlink', htime', k, time', hkm, hk⟩ := hR.answered m g' link' creds' time hm
      exact ⟨hlink', htime', k, time', hkm, getElem?_snoc_old hk⟩

/-- A cache is replaced by one with the same value. -/
theorem Recorded.set {c c' : StreamCredentialsCache} (hR : Recorded id link σ h)
    (hg : σ.objs[g]? = some c) (hcreds : c'.creds = c.creds) :
    Recorded id link (σ.set g c') h := by
  have hself : (σ.set g c').objs[g]? = some c' :=
    List.getElem?_set_self (List.getElem?_eq_some_iff.mp hg).1
  have hother : ∀ g', g' ≠ g → (σ.set g c').objs[g']? = σ.objs[g']? :=
    fun g' hne => List.getElem?_set_ne (Ne.symm hne)
  refine hR.keep le_rfl List.length_set.ge (fun _ _ hreg => hreg) ?_ ?_
  · intro g' x hx
    by_cases he : g' = g
    · subst he
      obtain rfl : c = x := Option.some.inj (hg.symm.trans hx)
      exact ⟨c', hself, hcreds⟩
    · exact ⟨x, (hother g' he).trans hx, rfl⟩
  · intro g' x hx
    by_cases he : g' = g
    · subst he
      obtain rfl : c' = x := Option.some.inj (hself.symm.trans hx)
      exact Or.inr ⟨c, hg, hcreds⟩
    · exact Or.inr ⟨x, (hother g' he).symm.trans hx, rfl⟩

end History

end VkTurnFetch
