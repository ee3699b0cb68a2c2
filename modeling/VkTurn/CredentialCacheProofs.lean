import VkTurn.BondProofs
import VkTurn.GoMapProofs
import VkTurn.GoTextProofs
import VkTurn.GoTimeProofs

/-! # The TURN credentials caches of the client

    Streams share credentials, `streamsPerCache` of them one cache.  A stream
    takes credentials from its cache, fetching them under the write lock when
    there are none, allocates with them and reports how that went.  The cache
    counts authentication failures in an atomic counter beside the lock: every
    load, store and add on it is a section of its own, so reports interleave
    with each other and with the fetch of another stream.

    How a fetch or an allocation ends is the scheduler's choice, and so is the
    passing of time. -/

namespace VkTurnCredentials

open ThreadPool GoMap GoText GoTime
open VkTurnBond (GoError)

/-! ## State -/

/-- A pointer to a `StreamCredentialsCache`, by order of creation. -/
abbrev CacheRef := Nat

def credentialLifetime : Nat := 10 * 60 * clockSecond
def cacheSafetyMargin : Nat := 60 * clockSecond
def maxCacheErrors : Int32 := 3
def errorWindow : Nat := 10 * clockSecond

/-- The settings of a client process. -/
structure Config where
  streamsPerCache : Int
  deriving DecidableEq, Repr

/-- `TurnCredentials`, with the number of the fetch that brought them. -/
structure TurnCredentials where
  username : Bytes
  password : Bytes
  serverAddr : Bytes
  expiresAt : Nat
  link : Bytes
  serial : Nat
  deriving DecidableEq, Repr

/-- `StreamCredentialsCache`: `creds` is `none` for the zero value, `mutex` the
    thread that holds the write lock between two sections, and `counted` a
    history of the failures counted since `errorCount` was last set to zero. -/
structure StreamCredentialsCache where
  creds : Option TurnCredentials := none
  mutex : Option Nat := none
  errorCount : Int32 := 0
  lastErrorTime : Int := 0
  counted : List Nat := []
  deriving DecidableEq, Repr

/-- An allocation that failed with an authentication error: its stream, the cache
    its credentials were taken from, and the credentials. -/
structure Failure where
  stream : Int
  cache : CacheRef
  creds : TurnCredentials
  deriving DecidableEq, Repr

/-- A cached value was cleared: the failures there had been, and those counted in
    the cache when the clearing was decided. -/
structure Clear where
  cache : CacheRef
  creds : TurnCredentials
  failures : List Failure
  counted : List Nat
  deriving DecidableEq, Repr

/-- The clock, `credentialsStore` and its caches.  Histories: the number of
    fetches, the authentication failures, those no counter has any more, and the
    clearings. -/
structure Store where
  clock : Nat
  caches : Map Int CacheRef := []
  objs : List StreamCredentialsCache := []
  fetched : Nat := 0
  failures : List Failure := []
  forgotten : List Nat := []
  clears : List Clear := []
  deriving DecidableEq, Repr

/-- `getCacheID`. -/
def getCacheID (cfg : Config) (streamID : Int) : Int := streamID.tdiv cfg.streamsPerCache

/-- `isAuthError`. -/
def isAuthError (err : GoError) : Bool :=
  let errStr := toLowerText err.text
  containsText errStr (ascii "401") || containsText errStr (ascii "unauthorized")
    || containsText errStr (ascii "authentication")
    || containsText errStr (ascii "invalid credential")
    || containsText errStr (ascii "stale nonce")

/-- The credentials a cache has for the link, unless they have expired. -/
def StreamCredentialsCache.cached (c : StreamCredentialsCache) (link : Bytes)
    (clock : Nat) : Option TurnCredentials :=
  c.creds.filter fun creds => creds.link = link ∧ clock < creds.expiresAt

/-- Replace a cache. -/
def Store.set (σ : Store) (g : CacheRef) (c : StreamCredentialsCache) : Store :=
  { σ with objs := σ.objs.set g c }

/-- `getStreamCache`, where the cache is missing under the write lock. -/
def Store.create (σ : Store) (id : Int) : Store :=
  { σ with caches := insert σ.caches id σ.objs.length, objs := σ.objs ++ [{}] }

/-- `cache.errorCount.Store(0)`. -/
def Store.resetCount (σ : Store) (g : CacheRef) (c : StreamCredentialsCache) : Store :=
  { σ.set g { c with errorCount := 0, counted := [] }
    with forgotten := σ.forgotten ++ c.counted }

/-- `cache.errorCount.Add(1)`, for failure `n`. -/
def Store.addError (σ : Store) (g : CacheRef) (c : StreamCredentialsCache) (n : Nat) :
    Store :=
  σ.set g { c with errorCount := c.errorCount + 1, counted := c.counted ++ [n] }

/-- The locked part of `invalidate`. -/
def Store.clear (σ : Store) (g : CacheRef) (c : StreamCredentialsCache)
    (counted : List Nat) : Store :=
  { σ.set g { c with creds := none }
    with clears := match c.creds with
                   | none => σ.clears
                   | some creds => σ.clears ++ [⟨g, creds, σ.failures, counted⟩] }

/-- The end of a successful fetch. -/
def Store.fetch (σ : Store) (g : CacheRef) (c : StreamCredentialsCache)
    (creds : TurnCredentials) : Store :=
  { σ.set g { c with creds := some creds, mutex := none } with fetched := σ.fetched + 1 }

/-- The credentials of a fetch that ends now. -/
def Store.fresh (σ : Store) (link username password serverAddr : Bytes) :
    TurnCredentials where
  username := username
  password := password
  serverAddr := serverAddr
  expiresAt := σ.clock + (credentialLifetime - cacheSafetyMargin)
  link := link
  serial := σ.fetched

/-- Note an authentication failure. -/
def Store.failed (σ : Store) (f : Failure) : Store :=
  { σ with failures := σ.failures ++ [f] }

/-! ## Control points -/

/-- Who calls `getStreamCache`: `getVkCredsCached`, `handleAuthError` or
    `recordTURNAllocationResult`. -/
inductive Call where
  | take (link : Bytes)
  | auth (n : Nat)
  | success
  deriving DecidableEq, Repr

/-- A place between two sections of a stream.  `n` is the failure that is being
    reported. -/
inductive Pc where
  | idle (s : Int)
  -- getStreamCache
  | find (s : Int) (k : Call)
  | insert (s : Int) (k : Call)
  -- getVkCredsCached
  | check (s : Int) (g : CacheRef) (link : Bytes)
  | recheck (s : Int) (g : CacheRef) (link : Bytes)
  | fetching (s : Int) (g : CacheRef) (link : Bytes)
  -- the allocation
  | holding (s : Int) (g : CacheRef) (creds : TurnCredentials)
  -- handleAuthError
  | now (s : Int) (g : CacheRef) (n : Nat)
  | load (s : Int) (g : CacheRef) (n : Nat) (now : Int)
  | reset (s : Int) (g : CacheRef) (n : Nat) (now : Int)
  | add (s : Int) (g : CacheRef) (n : Nat) (now : Int)
  | stamp (s : Int) (g : CacheRef) (now : Int) (count : Int32) (counted : List Nat)
  -- invalidate
  | clear (s : Int) (g : CacheRef) (counted : List Nat)
  -- the two stores of zero, of invalidate and of a success
  | zeroCount (s : Int) (g : CacheRef)
  | zeroTime (s : Int) (g : CacheRef)
  deriving DecidableEq, Repr

/-- Where the caller of `getStreamCache` goes on. -/
def Call.resume (s : Int) (g : CacheRef) : Call → Pc
  | .take link => .check s g link
  | .auth n => .now s g n
  | .success => .zeroCount s g

/-- What is not up to the code: the link a stream wants credentials for, how a
    fetch and how an allocation ends. -/
inductive Choice where
  | go
  | take (link : Bytes)
  | fetched (r : Option (Bytes × Bytes × Bytes))
  | allocated (err : Option GoError)
  deriving DecidableEq, Repr

/-- A stream starts; time passes. -/
inductive Op where
  | stream (s : Int)
  | tick (d : Nat)
  deriving DecidableEq, Repr

/-! ## Sections -/

/-- After the count: `invalidate` or not. -/
def afterStamp (s : Int) (g : CacheRef) (count : Int32) (counted : List Nat) : Pc :=
  if maxCacheErrors ≤ count then .clear s g counted else .idle s

/-- One section of thread `i`. -/
def exec (cfg : Config) (i : Nat) (σ : Store) : Pc → Choice → Option (Store × Pc × List Pc)
  | .idle s, .take link => some (σ, .find s (.take link), [])
  | .find s k, .go =>
      match get σ.caches (getCacheID cfg s) with
      | some g => some (σ, k.resume s g, [])
      | none => some (σ, .insert s k, [])
  | .insert s k, .go =>
      match get σ.caches (getCacheID cfg s) with
      | some g => some (σ, k.resume s g, [])
      | none => some (σ.create (getCacheID cfg s), k.resume s σ.objs.length, [])
  | .check s g link, .go =>
      match σ.objs[g]? with
      | none => none
      | some c =>
          if c.mutex = none then
            match c.cached link σ.clock with
            | some creds => some (σ, .holding s g creds, [])
            | none => some (σ, .recheck s g link, [])
          else none
  | .recheck s g link, .go =>
      match σ.objs[g]? with
      | none => none
      | some c =>
          if c.mutex = none then
            match c.cached link σ.clock with
            | some creds => some (σ, .holding s g creds, [])
            | none => some (σ.set g { c with mutex := some i }, .fetching s g link, [])
          else none
  | .fetching s g link, .fetched (some (username, password, serverAddr)) =>
      match σ.objs[g]? with
      | none => none
      | some c =>
          some (σ.fetch g c (σ.fresh link username password serverAddr),
            .holding s g (σ.fresh link username password serverAddr), [])
  | .fetching s g _, .fetched none =>
      match σ.objs[g]? with
      | none => none
      | some c => some (σ.set g { c with mutex := none }, .idle s, [])
  | .holding s _ _, .allocated none => some (σ, .find s .success, [])
  | .holding s g creds, .allocated (some err) =>
      if isAuthError err then
        some (σ.failed ⟨s, g, creds⟩, .find s (.auth σ.failures.length), [])
      else some (σ, .idle s, [])
  | .now s g n, .go => some (σ, .load s g n (unix σ.clock : Nat), [])
  | .load s g n now, .go =>
      match σ.objs[g]? with
      | none => none
      | some c =>
          if now - c.lastErrorTime > (unix errorWindow : Nat) then
            some (σ, .reset s g n now, [])
          else some (σ, .add s g n now, [])
  | .reset s g n now, .go =>
      match σ.objs[g]? with
      | none => none
      | some c => some (σ.resetCount g c, .add s g n now, [])
  | .add s g n now, .go =>
      match σ.objs[g]? with
      | none => none
      | some c =>
          some (σ.addError g c n, .stamp s g now (c.errorCount + 1) (c.counted ++ [n]), [])
  | .stamp s g now count counted, .go =>
      match σ.objs[g]? with
      | none => none
      | some c =>
          some (σ.set g { c with lastErrorTime := now }, afterStamp s g count counted, [])
  | .clear s g counted, .go =>
      match σ.objs[g]? with
      | none => none
      | some c =>
          if c.mutex = none then some (σ.clear g c counted, .zeroCount s g, []) else none
  | .zeroCount s g, .go =>
      match σ.objs[g]? with
      | none => none
      | some c => some (σ.resetCount g c, .zeroTime s g, [])
  | .zeroTime s g, .go =>
      match σ.objs[g]? with
      | none => none
      | some c => some (σ.set g { c with lastErrorTime := 0 }, .idle s, [])
  | _, _ => none

/-- The outside world. -/
def outside (σ : Store) : Op → Option (Store × List Pc)
  | .stream s => some (σ, [.idle s])
  | .tick d => some ({ σ with clock := σ.clock + d }, [])

/-- The caches and their streams as a machine. -/
def cacheMachine (cfg : Config) : Machine Store Pc Choice Op where
  exec := exec cfg
  env := outside

/-- The caches and the streams. -/
abbrev CachePool := Pool Store Pc

/-- A client that starts at some time. -/
def newStore (clock : Nat) : CachePool := ⟨{ clock := clock }, []⟩

/-- One step of the client. -/
def cacheStep (cfg : Config) : CachePool → Act Choice Op → Option CachePool :=
  (cacheMachine cfg).step

/-- Every state of the caches, under every interleaving. -/
abbrev CacheReach (cfg : Config) (clock : Nat) : CachePool → Prop :=
  Reach (cacheStep cfg) anyStep (newStore clock)

/-! ## What a section can do -/

/-- `Moves i σ t σ' t'`: thread `i` at `t` can run one section, which leaves the
    shared state `σ'` and the thread at `t'`. -/
inductive Moves (cfg : Config) (i : Nat) (σ : Store) : Pc → Store → Pc → Prop where
  | takes (s : Int) (link : Bytes) : Moves cfg i σ (.idle s) σ (.find s (.take link))
  | found (s : Int) (k : Call) (g : CacheRef) :
      get σ.caches (getCacheID cfg s) = some g →
      Moves cfg i σ (.find s k) σ (k.resume s g)
  | missing (s : Int) (k : Call) : Moves cfg i σ (.find s k) σ (.insert s k)
  | foundLate (s : Int) (k : Call) (g : CacheRef) :
      get σ.caches (getCacheID cfg s) = some g →
      Moves cfg i σ (.insert s k) σ (k.resume s g)
  | created (s : Int) (k : Call) : get σ.caches (getCacheID cfg s) = none →
      Moves cfg i σ (.insert s k) (σ.create (getCacheID cfg s))
        (k.resume s σ.objs.length)
  | hit (s : Int) (g : CacheRef) (link : Bytes) (creds : TurnCredentials) :
      Moves cfg i σ (.check s g link) σ (.holding s g creds)
  | missed (s : Int) (g : CacheRef) (link : Bytes) :
      Moves cfg i σ (.check s g link) σ (.recheck s g link)
  | hitLate (s : Int) (g : CacheRef) (link : Bytes) (creds : TurnCredentials) :
      Moves cfg i σ (.recheck s g link) σ (.holding s g creds)
  | locked (s : Int) (g : CacheRef) (link : Bytes) (c : StreamCredentialsCache) :
      σ.objs[g]? = some c →
      Moves cfg i σ (.recheck s g link) (σ.set g { c with mutex := some i })
        (.fetching s g link)
  | fetched (s : Int) (g : CacheRef) (link : Bytes) (c : StreamCredentialsCache)
      (creds : TurnCredentials) : σ.objs[g]? = some c →
      Moves cfg i σ (.fetching s g link) (σ.fetch g c creds) (.holding s g creds)
  | notFetched (s : Int) (g : CacheRef) (link : Bytes) (c : StreamCredentialsCache) :
      σ.objs[g]? = some c →
      Moves cfg i σ (.fetching s g link) (σ.set g { c with mutex := none }) (.idle s)
  | succeeded (s : Int) (g : CacheRef) (creds : TurnCredentials) :
      Moves cfg i σ (.holding s g creds) σ (.find s .success)
  | authFailed (s : Int) (g : CacheRef) (creds : TurnCredentials) :
      Moves cfg i σ (.holding s g creds) (σ.failed ⟨s, g, creds⟩)
        (.find s (.auth σ.failures.length))
  | otherFailed (s : Int) (g : CacheRef) (creds : TurnCredentials) :
      Moves cfg i σ (.holding s g creds) σ (.idle s)
  | timed (s : Int) (g : CacheRef) (n : Nat) (now : Int) :
      Moves cfg i σ (.now s g n) σ (.load s g n now)
  | windowOver (s : Int) (g : CacheRef) (n : Nat) (now : Int) :
      Moves cfg i σ (.load s g n now) σ (.reset s g n now)
  | windowOpen (s : Int) (g : CacheRef) (n : Nat) (now : Int) :
      Moves cfg i σ (.load s g n now) σ (.add s g n now)
  | windowReset (s : Int) (g : CacheRef) (n : Nat) (now : Int)
      (c : StreamCredentialsCache) : σ.objs[g]? = some c →
      Moves cfg i σ (.reset s g n now) (σ.resetCount g c) (.add s g n now)
  | counted (s : Int) (g : CacheRef) (n : Nat) (now : Int)
      (c : StreamCredentialsCache) : σ.objs[g]? = some c →
      Moves cfg i σ (.add s g n now) (σ.addError g c n)
        (.stamp s g now (c.errorCount + 1) (c.counted ++ [n]))
  | stamped (s : Int) (g : CacheRef) (now : Int) (count : Int32) (counted : List Nat)
      (c : StreamCredentialsCache) : σ.objs[g]? = some c →
      Moves cfg i σ (.stamp s g now count counted)
        (σ.set g { c with lastErrorTime := now }) (afterStamp s g count counted)
  | cleared (s : Int) (g : CacheRef) (counted : List Nat) (c : StreamCredentialsCache) :
      σ.objs[g]? = some c → c.mutex = none →
      Moves cfg i σ (.clear s g counted) (σ.clear g c counted) (.zeroCount s g)
  | zeroedCount (s : Int) (g : CacheRef) (c : StreamCredentialsCache) :
      σ.objs[g]? = some c →
      Moves cfg i σ (.zeroCount s g) (σ.resetCount g c) (.zeroTime s g)
  | zeroedTime (s : Int) (g : CacheRef) (c : StreamCredentialsCache) :
      σ.objs[g]? = some c →
      Moves cfg i σ (.zeroTime s g) (σ.set g { c with lastErrorTime := 0 }) (.idle s)

/-- A section does one of the listed moves and starts no thread. -/
theorem exec_moves {cfg : Config} {i : Nat} {σ σ' : Store} {t t' : Pc} {a : Choice}
    {new : List Pc} (h : exec cfg i σ t a = some (σ', t', new)) :
    Moves cfg i σ t σ' t' ∧ new = [] := by
  cases a with
  | take link =>
      cases t with
      | idle s => cases h; exact ⟨.takes s link, rfl⟩
      | _ => cases h
  | fetched r =>
      cases t with
      | fetching s g link =>
          rcases r with _ | ⟨username, password, serverAddr⟩
          · simp only [exec] at h
            split at h <;> cases h
            exact ⟨.notFetched s g link _ ‹_›, rfl⟩
          · simp only [exec] at h
            split at h <;> cases h
            exact ⟨.fetched s g link _ _ ‹_›, rfl⟩
      | _ => cases h
  | allocated err =>
      cases t with
      | holding s g creds =>
          cases err with
          | none => cases h; exact ⟨.succeeded s g creds, rfl⟩
          | some err =>
              simp only [exec] at h
              split at h <;> cases h
              · exact ⟨.authFailed s g creds, rfl⟩
              · exact ⟨.otherFailed s g creds, rfl⟩
      | _ => cases h
  | go =>
      cases t with
      | find s k =>
          simp only [exec] at h
          split at h <;> cases h
          · exact ⟨.found s k _ ‹_›, rfl⟩
          · exact ⟨.missing s k, rfl⟩
      | insert s k =>
          simp only [exec] at h
          split at h <;> cases h
          · exact ⟨.foundLate s k _ ‹_›, rfl⟩
          · exact ⟨.created s k ‹_›, rfl⟩
      | check s g link =>
          simp only [exec] at h
          split at h
          · cases h
          · obtain ⟨-, h⟩ := Option.ite_none_right_eq_some.mp h
            split at h <;> cases h
            · exact ⟨.hit s g link _, rfl⟩
            · exact ⟨.missed s g link, rfl⟩
      | recheck s g link =>
          simp only [exec] at h
          split at h
          · cases h
          · obtain ⟨-, h⟩ := Option.ite_none_right_eq_some.mp h
            split at h <;> cases h
            · exact ⟨.hitLate s g link _, rfl⟩
            · exact ⟨.locked s g link _ ‹_›, rfl⟩
      | now s g n => cases h; exact ⟨.timed s g n _, rfl⟩
      | load s g n now =>
          simp only [exec] at h
          split at h
          · cases h
          · split at h <;> cases h
            · exact ⟨.windowOver s g n now, rfl⟩
            · exact ⟨.windowOpen s g n now, rfl⟩
      | reset s g n now =>
          simp only [exec] at h
          split at h <;> cases h
          exact ⟨.windowReset s g n now _ ‹_›, rfl⟩
      | add s g n now =>
          simp only [exec] at h
          split at h <;> cases h
          exact ⟨.counted s g n now _ ‹_›, rfl⟩
      | stamp s g now count counted =>
          simp only [exec] at h
          split at h <;> cases h
          exact ⟨.stamped s g now count counted _ ‹_›, rfl⟩
      | clear s g counted =>
          simp only [exec] at h
          split at h
          · cases h
          · obtain ⟨hfree, h⟩ := Option.ite_none_right_eq_some.mp h
            cases h
            exact ⟨.cleared s g counted _ ‹_› hfree, rfl⟩
      | zeroCount s g =>
          simp only [exec] at h
          split at h <;> cases h
          exact ⟨.zeroedCount s g _ ‹_›, rfl⟩
      | zeroTime s g =>
          simp only [exec] at h
          split at h <;> cases h
          exact ⟨.zeroedTime s g _ ‹_›, rfl⟩
      | _ => cases h

end VkTurnCredentials
