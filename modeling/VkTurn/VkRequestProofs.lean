import VkTurn.GoTimeProofs
import VkTurn.ThreadPoolProofs
import VkTurn.TokenChainProofs

/-! # Fetching credentials without being banned

    Every stream may want new credentials at any time.  `fetchVkCredsSerialized` lets one
    of them at a time at the API, not before some seconds have passed since the last one
    was there, and `fetchVkCreds` sends nothing during a lockout.  It then goes through
    the applications, a token chain for each.

    A thread is a call of `fetchVkCredsSerialized`.  What the API and the solvers answer,
    how long anything takes and how many streams are connected is not up to it; everything
    that is sent is noted with its time.  While a call has the mutex, no other call changes
    anything (`bystander`); what the calls know of the history follows from that. -/

namespace VkTurnRequests

open ThreadPool GoText GoTime VkTurnTokenChain

variable {ν : Type}

/-! ## State -/

/-- What is noted: a call sent something, or engaged the lockout. -/
inductive Event where
  | sent (call time : Nat) (what : Sent)
  | lockout (call time : Nat)
  deriving DecidableEq, Repr

/-- The clock and the variables that the calls share, with the history. -/
structure Client where
  clock : Nat
  vkRequestMu : Option Nat := none
  globalLastVkFetchTime : Option Nat := none
  globalCaptchaLockout : Nat := 0
  connectedStreams : Int32 := 0
  log : List Event := []
  deriving DecidableEq, Repr

/-- What a call returns. -/
abbrev Result := Except Bytes (Bytes × Bytes × Bytes)

/-- A place between two sections of `fetchVkCredsSerialized`. -/
inductive Pc where
  | locking (link : Bytes)
  | throttling (link : Bytes)
  | waiting (link : Bytes) (wake : Int)
  -- fetchVkCreds
  | entering (link : Bytes)
  | trying (link : Bytes) (k : Nat) (lastErr : Option Bytes)
  -- getTokenChain
  | asking (k : Nat) (c : Chain) (p : Place)
  | awaiting (k : Nat) (c : Chain) (p : Place)
  | engaging (k : Nat) (c : Chain)
  | judging (k : Nat) (c : Chain)
  -- the end
  | stamping (r : Result)
  | unlocking (r : Result)
  | returned (r : Result)

/-- What is not up to the code: the random part of the interval, the end of the context, the
    HTTP client with the name and the device made up for a chain, and the answers. -/
inductive Choice (ν : Type) where
  | go
  | draw (n : Nat)
  | ctxDone (deadlineExceeded : Bool)
  | client (r : Except Bytes (Bytes × Bytes))
  | answer (a : Answer ν)

/-- A new call; time passes; streams connect and disconnect. -/
inductive Op where
  | call (link : Bytes)
  | tick (d : Nat)
  | streams (n : Int32)

/-! ## Sections -/

/-- `time.Millisecond`. -/
def millisecond : Duration := 1000000

/-- `minInterval`, with what `rand.Intn(3000)` returned. -/
def minInterval (n : Nat) : Duration := 3 * second + ofInt n * millisecond

/-- Before a fetch: wait for the rest of the interval since the last one, if there is a
    rest. -/
def throttle (σ : Client) (link : Bytes) (minInterval : Duration) : Pc :=
  match σ.globalLastVkFetchTime with
  | none => .entering link
  | some last =>
      let elapsed := sub σ.clock last
      if elapsed < minInterval then .waiting link (σ.clock + (minInterval - elapsed).toInt)
      else .entering link

def ctxError (deadlineExceeded : Bool) : Bytes :=
  ascii (if deadlineExceeded then "context deadline exceeded" else "context canceled")

def lockoutActive : Bytes := ascii "CAPTCHA_WAIT_REQUIRED: global lockout active"

/-- `isFatalCaptchaError`. -/
def isFatalCaptchaError (err : Bytes) : Bool := containsText err (ascii "FATAL_CAPTCHA")

/-- A chain failed: captcha errors end the call, others lead to the next application. -/
def afterError (link : Bytes) (k : Nat) (err : Bytes) : Pc :=
  if containsText err (ascii "CAPTCHA_WAIT_REQUIRED") || isFatalCaptchaError err then
    .stamping (.error err)
  else .trying link (k + 1) (some err)

/-- No application is left. -/
def allFailed (lastErr : Option Bytes) : Bytes :=
  ascii "all VK credentials failed: " ++ lastErr.getD (ascii "%!w(<nil>)")

/-- The error with which the lockout begins. -/
def lockoutError (connectedStreams : Int32) : Bytes :=
  ascii (if connectedStreams = 0 then "FATAL_CAPTCHA_FAILED_NO_STREAMS"
    else "CAPTCHA_WAIT_REQUIRED")

/-- Where a call goes on with its chain. -/
def resume (k : Nat) (c : Chain) : Next → Pc
  | .ask p => .asking k c p
  | .engage => .engaging k c
  | .fail err => afterError c.link k err
  | .done user pass address => .stamping (.ok (user, pass, address))

/-- One section of call `i`. -/
def exec (cfg : Config ν) (i : Nat) (σ : Client) :
    Pc → Choice ν → Option (Client × Pc × List Pc)
  | .locking link, .go =>
      if σ.vkRequestMu = none then
        some ({ σ with vkRequestMu := some i }, .throttling link, [])
      else none
  | .throttling link, .draw n =>
      if n < 3000 then some (σ, throttle σ link (minInterval n), []) else none
  | .waiting link wake, .go => if wake ≤ σ.clock then some (σ, .entering link, []) else none
  | .waiting _ _, .ctxDone d => some (σ, .unlocking (.error (ctxError d)), [])
  | .entering link, .go =>
      if unix σ.clock < σ.globalCaptchaLockout then
        some (σ, .stamping (.error lockoutActive), [])
      else some (σ, .trying link 0 none, [])
  | .trying _ k lastErr, .go =>
      match cfg.credentials[k]? with
      | none => some (σ, .stamping (.error (allFailed lastErr)), [])
      | some _ => none
  | .trying link k _, .client (.ok (name, device)) =>
      match cfg.credentials[k]? with
      | none => none
      | some creds => some (σ, .asking k ⟨link, creds, queryEscape name, device⟩ .anonymToken, [])
  | .trying link k _, .client (.error err) =>
      match cfg.credentials[k]? with
      | none => none
      | some _ =>
          some (σ, afterError link k (ascii "failed to initialize tls_client: " ++ err), [])
  | .asking k c p, .go =>
      some ({ σ with log := σ.log ++ [.sent i σ.clock (p.sends c)] }, .awaiting k c p, [])
  | .awaiting k c p, .answer a =>
      match advance cfg c p a with
      | none => none
      | some next => some (σ, resume k c next, [])
  | .engaging k c, .go =>
      some ({ σ with globalCaptchaLockout := unix (σ.clock + 60 * clockSecond)
                     log := σ.log ++ [.lockout i σ.clock] }, .judging k c, [])
  | .judging k c, .go => some (σ, afterError c.link k (lockoutError σ.connectedStreams), [])
  | .stamping r, .go => some ({ σ with globalLastVkFetchTime := some σ.clock }, .unlocking r, [])
  | .unlocking r, .go => some ({ σ with vkRequestMu := none }, .returned r, [])
  | _, _ => none

def outside (σ : Client) : Op → Option (Client × List Pc)
  | .call link => some (σ, [.locking link])
  | .tick d => some ({ σ with clock := σ.clock + d }, [])
  | .streams n => some ({ σ with connectedStreams := n }, [])

/-- The calls as a machine. -/
def requestMachine (cfg : Config ν) : Machine Client Pc (Choice ν) Op where
  exec := exec cfg
  env := outside

abbrev RequestPool := Pool Client Pc

/-- A process that has just started. -/
def newClient (clock : Nat) : RequestPool := ⟨{ clock := clock }, []⟩

def requestStep (cfg : Config ν) : RequestPool → Act (Choice ν) Op → Option RequestPool :=
  (requestMachine cfg).step

/-- Every state of a process, under every interleaving. -/
abbrev RequestReach (cfg : Config ν) (clock : Nat) : RequestPool → Prop :=
  Reach (requestStep cfg) anyStep (newClient clock)

/-! ## What a section can do -/

/-- What one section of call `i` can do. -/
inductive Moves (cfg : Config ν) (i : Nat) (σ : Client) : Pc → Client → Pc → Prop where
  | locks (link : Bytes) : σ.vkRequestMu = none →
      Moves cfg i σ (.locking link) { σ with vkRequestMu := some i } (.throttling link)
  | passes (link : Bytes) (n : Nat) : n < 3000 →
      (∀ last, σ.globalLastVkFetchTime = some last → minInterval n ≤ sub σ.clock last) →
      Moves cfg i σ (.throttling link) σ (.entering link)
  | waits (link : Bytes) (n last : Nat) : n < 3000 → σ.globalLastVkFetchTime = some last →
      sub σ.clock last < minInterval n → Moves cfg i σ (.throttling link) σ
        (.waiting link (σ.clock + (minInterval n - sub σ.clock last).toInt))
  | wakes (link : Bytes) (wake : Int) : wake ≤ σ.clock →
      Moves cfg i σ (.waiting link wake) σ (.entering link)
  | cancelled (link : Bytes) (wake : Int) (err : Bytes) :
      Moves cfg i σ (.waiting link wake) σ (.unlocking (.error err))
  | refused (link err : Bytes) : Moves cfg i σ (.entering link) σ (.stamping (.error err))
  | enters (link : Bytes) : σ.globalCaptchaLockout ≤ unix σ.clock →
      Moves cfg i σ (.entering link) σ (.trying link 0 none)
  | exhausted (link : Bytes) (k : Nat) (lastErr : Option Bytes) (err : Bytes) :
      Moves cfg i σ (.trying link k lastErr) σ (.stamping (.error err))
  | starts (link : Bytes) (k : Nat) (lastErr : Option Bytes) (c : Chain) :
      k < cfg.credentials.length →
      Moves cfg i σ (.trying link k lastErr) σ (.asking k c .anonymToken)
  | skips (link : Bytes) (k : Nat) (lastErr : Option Bytes) (err : Bytes) :
      k < cfg.credentials.length →
      Moves cfg i σ (.trying link k lastErr) σ (.trying link (k + 1) (some err))
  | sends (k : Nat) (c : Chain) (p : Place) :
      Moves cfg i σ (.asking k c p)
        { σ with log := σ.log ++ [.sent i σ.clock (p.sends c)] } (.awaiting k c p)
  | asks (k : Nat) (c : Chain) (p p' : Place) (a : Answer ν) :
      advance cfg c p a = some (.ask p') → Moves cfg i σ (.awaiting k c p) σ (.asking k c p')
  | locked (k : Nat) (c : Chain) (p : Place) : Moves cfg i σ (.awaiting k c p) σ (.engaging k c)
  | fails (k : Nat) (c : Chain) (p : Place) (err : Bytes) :
      Moves cfg i σ (.awaiting k c p) σ (.trying c.link (k + 1) (some err))
  | ends (k : Nat) (c : Chain) (p : Place) (r : Result) :
      Moves cfg i σ (.awaiting k c p) σ (.stamping r)
  | engages (k : Nat) (c : Chain) :
      Moves cfg i σ (.engaging k c)
        { σ with globalCaptchaLockout := unix (σ.clock + 60 * clockSecond)
                 log := σ.log ++ [.lockout i σ.clock] } (.judging k c)
  | judges (k : Nat) (c : Chain) (r : Result) : Moves cfg i σ (.judging k c) σ (.stamping r)
  | stamps (r : Result) :
      Moves cfg i σ (.stamping r) { σ with globalLastVkFetchTime := some σ.clock } (.unlocking r)
  | unlocks (r : Result) :
      Moves cfg i σ (.unlocking r) { σ with vkRequestMu := none } (.returned r)

section Inversion

variable {cfg : Config ν} {i : Nat} {σ σ' : Client} {t t' : Pc}

/-- The errors of a lockout end the call: both texts are among those that are looked for. -/
theorem afterError_lockout (link : Bytes) (k : Nat) (n : Int32) :
    afterError link k (lockoutError n) = .stamping (.error (lockoutError n)) := by
  have hwait :
      containsText (ascii "CAPTCHA_WAIT_REQUIRED") (ascii "CAPTCHA_WAIT_REQUIRED") = true :=
    by decide
  have hfatal : isFatalCaptchaError (ascii "FATAL_CAPTCHA_FAILED_NO_STREAMS") = true := by decide
  refine if_pos ?_
  rw [lockoutError]
  split
  · rw [hfatal, Bool.or_true]
  · rw [hwait, Bool.true_or]

/-- A call waits, or goes on at once. -/
theorem throttle_moves {link : Bytes} {n : Nat} (hn : n < 3000) :
    Moves cfg i σ (.throttling link) σ (throttle σ link (minInterval n)) := by
  rw [throttle]
  cases hlast : σ.globalLastVkFetchTime with
  | none => exact .passes link n hn fun last he => (by rw [hlast] at he; cases he)
  | some last =>
      by_cases hearly : sub σ.clock last < minInterval n
      · simp only [hearly, if_true]
        exact .waits link n last hn hlast hearly
      · simp only [hearly, if_false]
        refine .passes link n hn fun last' he => ?_
        obtain rfl : last = last' := Option.some.inj (hlast.symm.trans he)
        exact Int64.not_lt.mp hearly

/-- An answer ends a chain, or leads to its next request. -/
theorem resume_moves {k : Nat} {c : Chain} {p : Place} {a : Answer ν} {next : Next}
    (h : advance cfg c p a = some next) :
    Moves cfg i σ (.awaiting k c p) σ (resume k c next) := by
  cases next with
  | ask p' => exact .asks k c p p' a h
  | engage => exact .locked k c p
  | done user pass address => exact .ends k c p _
  | fail err =>
      rw [resume, afterError]
      split
      · exact .ends k c p _
      · exact .fails k c p err

/-- Without a client, the error leads on as that of a chain does. -/
theorem noClient_moves {link err : Bytes} {k : Nat} {lastErr : Option Bytes}
    (hk : k < cfg.credentials.length) :
    Moves cfg i σ (.trying link k lastErr) σ (afterError link k err) := by
  rw [afterError]
  split
  · exact .exhausted link k lastErr err
  · exact .skips link k lastErr err hk

/-- A section does one of the listed moves and starts no thread. -/
theorem exec_moves {a : Choice ν} {new : List Pc} (h : exec cfg i σ t a = some (σ', t', new)) :
    Moves cfg i σ t σ' t' ∧ new = [] := by
  cases a with
  | draw n =>
      cases t with
      | throttling link =>
          obtain ⟨hn, h⟩ := Option.ite_none_right_eq_some.mp h
          cases h
          exact ⟨throttle_moves hn, rfl⟩
      | _ => cases h
  | ctxDone d =>
      cases t with
      | waiting link wake => cases h; exact ⟨.cancelled link wake _, rfl⟩
      | _ => cases h
  | client r =>
      cases t with
      | trying link k lastErr =>
          cases r with
          | error err =>
              simp only [exec] at h
              split at h <;> cases h
              exact ⟨noClient_moves (List.getElem?_eq_some_iff.mp ‹_›).1, rfl⟩
          | ok made =>
              simp only [exec] at h
              split at h <;> cases h
              exact ⟨.starts link k lastErr _ (List.getElem?_eq_some_iff.mp ‹_›).1, rfl⟩
      | _ => cases h
  | answer a =>
      cases t with
      | awaiting k c p =>
          simp only [exec] at h
          split at h <;> cases h
          exact ⟨resume_moves ‹_›, rfl⟩
      | _ => cases h
  | go =>
      cases t with
      | locking link =>
          obtain ⟨hfree, h⟩ := Option.ite_none_right_eq_some.mp h
          cases h
          exact ⟨.locks link hfree, rfl⟩
      | waiting link wake =>
          obtain ⟨hwake, h⟩ := Option.ite_none_right_eq_some.mp h
          cases h
          exact ⟨.wakes link wake hwake, rfl⟩
      | entering link =>
          simp only [exec] at h
          split at h <;> cases h
          · exact ⟨.refused link _, rfl⟩
          · exact ⟨.enters link (Nat.le_of_not_lt ‹_›), rfl⟩
      | trying link k lastErr =>
          simp only [exec] at h
          split at h <;> cases h
          exact ⟨.exhausted link k lastErr _, rfl⟩
      | asking k c p => cases h; exact ⟨.sends k c p, rfl⟩
      | engaging k c => cases h; exact ⟨.engages k c, rfl⟩
      | judging k c =>
          simp only [exec, afterError_lockout] at h
          cases h
          exact ⟨.judges k c _, rfl⟩
      | stamping r => cases h; exact ⟨.stamps r, rfl⟩
      | unlocking r => cases h; exact ⟨.unlocks r, rfl⟩
      | _ => cases h

/-- What the outside world can do. -/
inductive Happens (σ : Client) : Client → List Pc → Prop where
  | call (link : Bytes) : Happens σ σ [.locking link]
  | tick (d : Nat) : Happens σ { σ with clock := σ.clock + d } []
  | streams (n : Int32) : Happens σ { σ with connectedStreams := n } []

/-- A new call, time that passes, or streams that come and go. -/
theorem outside_happens {e : Op} {new : List Pc} (h : outside σ e = some (σ', new)) :
    Happens σ σ' new := by
  cases e <;> cases h <;> constructor

end Inversion

/-! ## One call at a time -/

/-- The call has the mutex. -/
def Pc.holds : Pc → Bool
  | .locking _ => false
  | .returned _ => false
  | _ => true

/-- A call that has the mutex is the one that the mutex says. -/
def Exclusive (s : RequestPool) : Prop :=
  ∀ i t, s.threads[i]? = some t → t.holds = true → s.shared.vkRequestMu = some i

section Exclusion

variable {cfg : Config ν} {i j : Nat} {σ σ' : Client} {t t' u : Pc} {clock : Nat}

/-- Nobody moves while another call has the mutex. -/
theorem moves_free (h : Moves cfg i σ t σ' t') (ht : t.holds = true → σ.vkRequestMu = some i) :
    σ.vkRequestMu = none ∨ σ.vkRequestMu = some i := by
  cases h with
  | locks link hmu => exact Or.inl hmu
  | _ => exact Or.inr (ht rfl)

/-- After a section the mutex is with the call, or the call is over. -/
theorem moves_mutex (h : Moves cfg i σ t σ' t') (ht : t.holds = true → σ.vkRequestMu = some i) :
    t'.holds = true → σ'.vkRequestMu = some i := by
  cases h with
  | locks link hmu => exact fun _ => rfl
  | unlocks r => exact fun h => by cases h
  | _ => exact fun _ => ht rfl

/-- What comes from outside touches no variable that the mutex guards. -/
theorem happens_mutex {new : List Pc} (h : Happens σ σ' new) :
    σ'.vkRequestMu = σ.vkRequestMu ∧ σ'.log = σ.log ∧ σ.clock ≤ σ'.clock ∧
      σ'.globalLastVkFetchTime = σ.globalLastVkFetchTime ∧
      σ'.globalCaptchaLockout = σ.globalCaptchaLockout ∧ ∀ u ∈ new, ∃ link, u = .locking link := by
  cases h with
  | call link => exact ⟨rfl, rfl, Nat.le_refl _, rfl, rfl, by simp⟩
  | tick d => exact ⟨rfl, rfl, Nat.le_add_right _ _, rfl, rfl, by simp⟩
  | streams n => exact ⟨rfl, rfl, Nat.le_refl _, rfl, rfl, by simp⟩

/-- **ONE REQUEST AT A TIME**: only one call is behind the mutex. -/
theorem exclusive {s : RequestPool} (h : RequestReach cfg clock s) : Exclusive s := by
  refine (Machine.owickiGries (M := requestMachine cfg) (J := fun _ => True) (fun _ _ => trivial)
    (fun _ => True) (fun i σ t => t.holds = true → σ.vkRequestMu = some i) ?_ ?_ ?_ ?_ h).2
  · exact ⟨trivial, fun i t ht => by cases ht⟩
  · intro s i t a σ' t' new _ _ _ he _ hL
    obtain ⟨hm, rfl⟩ := exec_moves he
    exact ⟨trivial, moves_mutex hm hL, fun _ u hu => by cases hu⟩
  · intro s i j t u a σ' t' new _ hij _ _ he _ hLi hLj hu
    obtain ⟨hm, -⟩ := exec_moves he
    have hj := hLj hu
    rcases moves_free hm hLi with hnone | hi
    · rw [hnone] at hj
      cases hj
    · rw [hi] at hj
      exact absurd (Option.some.inj hj) hij
  · intro s e σ' new _ _ he _
    obtain ⟨hmu, -, -, -, -, hnew⟩ := happens_mutex (outside_happens he)
    refine ⟨trivial, ?_, fun j u _ hu hh => hmu.trans (hu hh)⟩
    intro n u hu hh
    obtain ⟨link, rfl⟩ := hnew u hu
    cases hh

/-- While a call has the mutex no other call moves. -/
theorem bystander {s : RequestPool} (hs : Exclusive s) (hij : i ≠ j) (ht : s.threads[i]? = some t)
    (hu : s.threads[j]? = some u) (hheld : u.holds = true) :
    ¬ Moves cfg i s.shared t σ' t' := by
  intro hm
  have hj := hs j u hu hheld
  rcases moves_free hm (hs i t ht) with hnone | hi
  · rw [hnone] at hj
    cases hj
  · rw [hi] at hj
    exact hij (Option.some.inj hj)

/-- **THE RULE OF THE MUTEX**: what holds of the shared variables, and of a call while it has the
    mutex, is kept if the sections of the call keep it and nothing from outside breaks it. -/
theorem under_mutex {I : Client → Prop} {L : Nat → Client → Pc → Prop}
    (hidle : ∀ {i σ t}, t.holds = false → L i σ t) (h0 : I { clock := clock })
    (hstep : ∀ {s : RequestPool} {i t σ' t'}, RequestReach cfg clock s →
      Moves cfg i s.shared t σ' t' → (t.holds = true → s.shared.vkRequestMu = some i) →
      I s.shared → L i s.shared t → I σ' ∧ L i σ' t')
    (hout : ∀ {σ σ' new}, Happens σ σ' new → I σ → I σ' ∧ ∀ j u, L j σ u → L j σ' u)
    {s : RequestPool} (h : RequestReach cfg clock s) : I s.shared := by
  refine (Machine.owickiGries (M := requestMachine cfg) (J := RequestReach cfg clock)
    (fun _ hs => hs) I L ⟨h0, fun i t ht => by cases ht⟩ ?_ ?_ ?_ h).1
  · intro s i t a σ' t' new hr ht _ he hI hL
    obtain ⟨hm, rfl⟩ := exec_moves he
    obtain ⟨hI', hL'⟩ := hstep hr hm (exclusive hr i t ht) hI hL
    exact ⟨hI', hL', fun _ u hu => by cases hu⟩
  · intro s i j t u a σ' t' new hr hij ht hu he _ _ _
    obtain ⟨hm, -⟩ := exec_moves he
    cases hheld : u.holds with
    | false => exact hidle hheld
    | true => exact absurd hm (bystander (exclusive hr) hij ht hu hheld)
  · intro s e σ' new _ _ he hI
    obtain ⟨hI', hstable⟩ := hout (outside_happens he) hI
    refine ⟨hI', ?_, fun j u _ hu => hstable j u hu⟩
    intro n u hu
    obtain ⟨link, rfl⟩ := (happens_mutex (outside_happens he)).2.2.2.2.2 u hu
    exact hidle rfl

end Exclusion

/-! ## Calls keep their distance -/

/-- The call that an event belongs to. -/
def Event.call : Event → Nat
  | .sent call _ _ => call
  | .lockout call _ => call

def Event.time : Event → Nat
  | .sent _ time _ => time
  | .lockout _ time => time

/-- Three seconds. -/
def cooldown : Nat := 3 * 1000000000

/-- The events of two calls are three seconds apart. -/
def Spaced (e e' : Event) : Prop := e.call ≠ e'.call → e.time + cooldown ≤ e'.time

/-- The last fetch was stamped after everything that was noted. -/
def Settled (σ : Client) : Prop :=
  ∀ e ∈ σ.log, ∃ last, σ.globalLastVkFetchTime = some last ∧ e.time ≤ last

/-- What was noted is this call's own, or three seconds old. -/
def Apart (i : Nat) (σ : Client) : Prop :=
  ∀ e ∈ σ.log, e.call = i ∨ e.time + cooldown ≤ σ.clock

/-- What holds of the shared variables. -/
structure Paced (σ : Client) : Prop where
  times : ∀ e ∈ σ.log, e.time ≤ σ.clock
  stamped : ∀ last, σ.globalLastVkFetchTime = some last → last ≤ σ.clock
  free : σ.vkRequestMu = none → Settled σ
  spaced : σ.log.Pairwise Spaced

/-- What a call knows where it is. -/
def Paces (i : Nat) (σ : Client) : Pc → Prop
  | .locking _ => True
  | .throttling _ => Settled σ
  | .waiting _ wake =>
      Settled σ ∧ ∀ last, σ.globalLastVkFetchTime = some last → (last + cooldown : Int) ≤ wake
  | .unlocking _ => Settled σ
  | .returned _ => True
  | _ => Apart i σ

section Pace

variable {cfg : Config ν} {i : Nat} {σ σ' : Client} {t t' : Pc} {clock : Nat}

theorem minInterval_toInt {n : Nat} (h : n < 3000) :
    (minInterval n).toInt = 3000000000 + n * 1000000 := by
  have hn : (ofInt n).toInt = n := toInt_ofInt_of_fits ⟨by omega, by omega⟩
  have hms : millisecond.toInt = 1000000 := by decide
  have hmul : (ofInt n * millisecond).toInt = n * 1000000 := by
    rw [toInt_mul_of_fits, hn, hms]
    rw [hn, hms]
    exact ⟨by omega, by omega⟩
  have hthree : (3 * second : Duration).toInt = 3000000000 := by decide
  rw [minInterval, toInt_add_of_fits, hmul, hthree]
  rw [hmul, hthree]
  exact ⟨by omega, by omega⟩

/-- Before the time is up, the wait is for the rest of the interval. -/
theorem rest_toInt {clock last : Nat} {d : Duration} (hle : last ≤ clock) (hpos : 0 < d.toInt)
    (h : sub clock last < d) : (clock : Int) + (d - sub clock last).toInt = last + d.toInt := by
  have hshort : (clock : Int) - last < d.toInt := by
    by_contra hlong
    have hge : d ≤ sub clock last := (le_sub_iff hpos).mpr (by omega)
    exact absurd h (Int64.not_lt.mpr hge)
  have hmax : d.toInt < 2 ^ 63 := d.toInt_lt
  have hsub : (sub clock last).toInt = clock - last := toInt_between ⟨by omega, by omega⟩
  rw [toInt_sub_of_fits (by rw [hsub]; exact ⟨by omega, by omega⟩), hsub]
  omega

theorem paces_of_idle (h : t.holds = false) : Paces i σ t := by
  cases t with
  | locking link => trivial
  | returned r => trivial
  | _ => cases h

/-- The call that is at the API notes something now. -/
theorem paced_note (hI : Paced σ) (hmu : σ.vkRequestMu = some i) (hA : Apart i σ) {e : Event}
    (hcall : e.call = i) (htime : e.time = σ.clock) (n : Nat) :
    Paced { σ with globalCaptchaLockout := n, log := σ.log ++ [e] } ∧
      Apart i { σ with globalCaptchaLockout := n, log := σ.log ++ [e] } := by
  refine ⟨⟨?_, hI.stamped, ?_, ?_⟩, ?_⟩
  · intro e' he'
    rcases List.mem_append.mp he' with hold | hnew
    · exact hI.times e' hold
    · rw [List.mem_singleton.mp hnew, htime]
  · intro hfree
    rw [hmu] at hfree
    cases hfree
  · refine List.pairwise_append.mpr ⟨hI.spaced, List.pairwise_singleton _ _, ?_⟩
    intro e' he' e'' he'' hne
    obtain rfl := List.mem_singleton.mp he''
    rw [htime]
    exact (hA e' he').resolve_left fun h => hne (h.trans hcall.symm)
  · intro e' he'
    rcases List.mem_append.mp he' with hold | hnew
    · exact hA e' hold
    · rw [List.mem_singleton.mp hnew]
      exact Or.inl hcall

/-- The holder keeps its distance to the last fetch, which it then records. -/
theorem paced_step (h : Moves cfg i σ t σ' t') (hx : t.holds = true → σ.vkRequestMu = some i)
    (hI : Paced σ) (hL : Paces i σ t) : Paced σ' ∧ Paces i σ' t' := by
  cases h with
  | locks link hmu =>
      exact ⟨⟨hI.times, hI.stamped, fun h => (by cases h), hI.spaced⟩, hI.free hmu⟩
  | passes link n hn hlate =>
      refine ⟨hI, fun e he => Or.inr ?_⟩
      obtain ⟨last, hlast, htime⟩ := hL e he
      have hmin := minInterval_toInt hn
      have hlong := (le_sub_iff (by omega)).mp (hlate last hlast)
      rw [cooldown]
      omega
  | waits link n last hn hlast hearly =>
      have hmin := minInterval_toInt hn
      refine ⟨hI, hL, fun last' hlast' => ?_⟩
      obtain rfl : last = last' := Option.some.inj (hlast.symm.trans hlast')
      rw [rest_toInt (hI.stamped last hlast) (by omega) hearly, hmin, cooldown]
      omega
  | wakes link wake hwake =>
      refine ⟨hI, ?_⟩
      intro e he
      obtain ⟨last, hlast, htime⟩ := hL.1 e he
      have hlate := hL.2 last hlast
      refine Or.inr ?_
      omega
  | cancelled link wake err => exact ⟨hI, hL.1⟩
  | sends k c p => exact paced_note hI (hx rfl) hL rfl rfl σ.globalCaptchaLockout
  | engages k c => exact paced_note hI (hx rfl) hL rfl rfl _
  | stamps r =>
      have hs : Settled { σ with globalLastVkFetchTime := some σ.clock } :=
        fun e he => ⟨σ.clock, rfl, hI.times e he⟩
      refine ⟨⟨hI.times, ?_, fun _ => hs, hI.spaced⟩, hs⟩
      intro last hlast
      rw [← Option.some.inj hlast]
  | unlocks r => exact ⟨⟨hI.times, hI.stamped, fun _ => hL, hI.spaced⟩, trivial⟩
  | _ => exact ⟨hI, hL⟩

/-- Time that passes only adds to the distance. -/
theorem paced_happens {new : List Pc} (h : Happens σ σ' new) (hI : Paced σ) :
    Paced σ' ∧ ∀ j u, Paces j σ u → Paces j σ' u := by
  obtain ⟨hmu, hlog, hclock, hlast, -, -⟩ := happens_mutex h
  have hsettled : Settled σ → Settled σ' := by
    intro hs e he
    rw [hlog] at he
    rw [hlast]
    exact hs e he
  have hapart : ∀ j, Apart j σ → Apart j σ' := by
    intro j hA e he
    rw [hlog] at he
    exact (hA e he).imp_right fun h => h.trans hclock
  refine ⟨⟨?_, ?_, fun h => hsettled (hI.free (hmu ▸ h)), hlog ▸ hI.spaced⟩, ?_⟩
  · intro e he
    rw [hlog] at he
    exact (hI.times e he).trans hclock
  · intro last h
    rw [hlast] at h
    exact (hI.stamped last h).trans hclock
  · intro j u hu
    cases u with
    | locking link => trivial
    | returned r => trivial
    | throttling link => exact hsettled hu
    | unlocking r => exact hsettled hu
    | waiting link wake => exact ⟨hsettled hu.1, fun last h => hu.2 last (hlast ▸ h)⟩
    | _ => exact hapart j hu

theorem paced {s : RequestPool} (h : RequestReach cfg clock s) : Paced s.shared := by
  refine under_mutex (L := Paces) paces_of_idle ?_ (fun _ hm hx hI hL => paced_step hm hx hI hL)
    paced_happens h
  exact ⟨fun e he => (by cases he), fun last h => (by cases h), fun _ e he => (by cases he),
    List.Pairwise.nil⟩

end Pace

/-- **ONE AT A TIME, AND NOT TOO SOON**: at most one call is at the API, and whatever two
    different calls do there is at least three seconds apart. -/
theorem calls_keep_distance {cfg : Config ν} {clock : Nat} {s : RequestPool}
    (h : RequestReach cfg clock s) :
    (∀ (i j : Nat) (t u : Pc), s.threads[i]? = some t → s.threads[j]? = some u →
      t.holds = true → u.holds = true → i = j) ∧
    s.shared.log.Pairwise fun e e' => e.call ≠ e'.call → e.time + 3 * 1000000000 ≤ e'.time := by
  refine ⟨?_, (paced h).spaced⟩
  intro i j t u ht hu hti huj
  have hi := exclusive h i t ht hti
  have hj := exclusive h j u hu huj
  exact Option.some.inj (hi.symm.trans hj)

/-- A process with one application and manual captchas only. -/
def sampleConfig : Config Unit where
  manualCaptcha := true
  autoCaptchaSliderPOC := false
  credentials := vkCredentialsList.take 1
  toInt := fun _ => 14
  format := fun _ => []
  display := fun _ => []
  sessionToken := fun _ => none

/-- A call meets a captcha that nobody solves, and a second call comes a minute later. -/
def sampleRun : List (Act (Choice Unit) Op) :=
  [.env (.call []), .run 0 .go, .run 0 (.draw 0), .run 0 .go, .run 0 (.client (.ok ([], []))),
   .run 0 .go,
   .run 0 (.answer (.response
     (.ok [(ascii "data", .object [(ascii "access_token", .string [0x61])])]))),
   .run 0 .go, .run 0 (.answer (.response (.error []))), .run 0 .go,
   .run 0 (.answer (.response (.ok [(ascii "error", .object
     [(ascii "error_code", .number ()), (ascii "captcha_img", .string [0x69]),
      (ascii "captcha_sid", .string [0x31])])]))),
   .run 0 .go, .run 0 (.answer (.solved (.error []) true)), .run 0 .go, .run 0 .go, .run 0 .go,
   .run 0 .go, .env (.call []), .run 1 .go, .env (.tick 61000000000), .run 1 (.draw 2999),
   .run 1 .go, .run 1 (.client (.ok ([], []))), .run 1 .go]

/-- Two calls, the second after its wait. -/
theorem sample_keeps_distance :
    ∃ s, RequestReach sampleConfig 0 s ∧ s.shared.log.map Event.call = [0, 0, 0, 0, 0, 1] ∧
      s.shared.log.Pairwise fun e e' =>
        e.call ≠ e'.call → e.time + 3 * 1000000000 ≤ e'.time := by
  obtain ⟨s, hr, hs⟩ := Reach.of_follow (requestStep sampleConfig) anyStep (newClient 0) sampleRun
    (fun s => s.shared.log.map Event.call = [0, 0, 0, 0, 0, 1]) (by decide)
  exact ⟨s, hr, of_decide_eq_true hs, (calls_keep_distance hr).2⟩

/-! ## The lockout -/

/-- The time of a lockout. -/
def Event.lockedAt : Event → Option Nat
  | .sent _ _ _ => none
  | .lockout _ time => some time

/-- The time at which something was sent. -/
def Event.sentAt : Event → Option Nat
  | .sent _ time _ => some time
  | .lockout _ _ => none

/-- What was sent after a lockout began was sent after it ended. -/
def Respects (e e' : Event) : Prop :=
  ∀ began, e.lockedAt = some began → ∀ time, e'.sentAt = some time → unix began + 60 ≤ unix time

/-- What holds of the shared variables. -/
structure LockedOut (σ : Client) : Prop where
  covered : ∀ e ∈ σ.log, ∀ began, e.lockedAt = some began →
    unix began + 60 ≤ σ.globalCaptchaLockout
  respected : σ.log.Pairwise Respects

/-- A call that may send something has seen the end of every lockout. -/
def Unlocked (_ : Nat) (σ : Client) : Pc → Prop
  | .trying _ _ _ => σ.globalCaptchaLockout ≤ unix σ.clock
  | .asking _ _ _ => σ.globalCaptchaLockout ≤ unix σ.clock
  | .awaiting _ _ _ => σ.globalCaptchaLockout ≤ unix σ.clock
  | _ => True

section Lockout

variable {cfg : Config ν} {i : Nat} {σ σ' : Client} {t t' : Pc} {clock : Nat}

/-- A lockout holds off every call that looks at it later. -/
theorem unlocked_step (h : Moves cfg i σ t σ' t') (htimes : ∀ e ∈ σ.log, e.time ≤ σ.clock)
    (hI : LockedOut σ) (hL : Unlocked i σ t) : LockedOut σ' ∧ Unlocked i σ' t' := by
  cases h with
  | enters link hopen => exact ⟨hI, hopen⟩
  | starts | skips | asks | fails => exact ⟨hI, hL⟩
  | sends k c p =>
      refine ⟨⟨?_, ?_⟩, hL⟩
      · intro e he began hbegan
        rcases List.mem_append.mp he with hold | hnew
        · exact hI.covered e hold began hbegan
        · rw [List.mem_singleton.mp hnew] at hbegan
          cases hbegan
      · refine List.pairwise_append.mpr ⟨hI.respected, List.pairwise_singleton _ _, ?_⟩
        intro e he e' he' began hbegan time htime
        rw [List.mem_singleton.mp he'] at htime
        obtain rfl := Option.some.inj htime
        exact (hI.covered e he began hbegan).trans hL
  | engages k c =>
      refine ⟨⟨?_, ?_⟩, trivial⟩
      · intro e he began hbegan
        show unix began + 60 ≤ unix (σ.clock + 60 * clockSecond)
        rw [unix_add]
        have hle : began ≤ σ.clock := by
          rcases List.mem_append.mp he with hold | hnew
          · cases e with
            | sent call time what => cases hbegan
            | lockout call time =>
                rw [← Option.some.inj hbegan]
                exact htimes _ hold
          · rw [List.mem_singleton.mp hnew] at hbegan
            rw [← Option.some.inj hbegan]
        exact Nat.add_le_add_right (unix_mono hle) 60
      · refine List.pairwise_append.mpr ⟨hI.respected, List.pairwise_singleton _ _, ?_⟩
        intro e _ e' he' began _ time htime
        rw [List.mem_singleton.mp he'] at htime
        cases htime
  | _ => exact ⟨⟨hI.covered, hI.respected⟩, trivial⟩

theorem unlocked_happens {new : List Pc} (h : Happens σ σ' new) (hI : LockedOut σ) :
    LockedOut σ' ∧ ∀ j u, Unlocked j σ u → Unlocked j σ' u := by
  obtain ⟨-, hlog, hclock, -, hlock, -⟩ := happens_mutex h
  refine ⟨⟨?_, hlog ▸ hI.respected⟩, ?_⟩
  · rw [hlog, hlock]
    exact hI.covered
  · have hmono : σ.globalCaptchaLockout ≤ unix σ.clock →
        σ'.globalCaptchaLockout ≤ unix σ'.clock := by
      intro hle
      rw [hlock]
      exact hle.trans (unix_mono hclock)
    intro j u hu
    cases u with
    | trying | asking | awaiting => exact hmono hu
    | _ => trivial

theorem lockedOut {s : RequestPool} (h : RequestReach cfg clock s) : LockedOut s.shared := by
  refine under_mutex (L := Unlocked) ?_ ⟨fun e he => (by cases he), List.Pairwise.nil⟩
    (fun hr hm _ hI hL => unlocked_step hm (paced hr).times hI hL) unlocked_happens h
  intro i σ t hidle
  cases t with
  | locking | returned => trivial
  | _ => cases hidle

end Lockout

/-- **A LOCKOUT IS KEPT**: once a call has engaged the lockout, nothing is sent to the API or
    to a solver, by whichever call, until the clock shows sixty seconds more. -/
theorem lockout_is_kept {cfg : Config ν} {clock : Nat} {s : RequestPool}
    (h : RequestReach cfg clock s) :
    s.shared.log.Pairwise fun e e' => ∀ began, e.lockedAt = some began →
      ∀ time, e'.sentAt = some time → unix began + 60 ≤ unix time :=
  (lockedOut h).respected

/-- A lockout, and a call that comes when it is over. -/
theorem sample_lockout_is_kept :
    ∃ s, RequestReach sampleConfig 0 s ∧
      s.shared.log.map Event.lockedAt = [none, none, none, none, some 0, none] ∧
      s.shared.log.Pairwise fun e e' => ∀ began, e.lockedAt = some began →
        ∀ time, e'.sentAt = some time → unix began + 60 ≤ unix time := by
  obtain ⟨s, hr, hs⟩ := Reach.of_follow (requestStep sampleConfig) anyStep (newClient 0) sampleRun
    (fun s => s.shared.log.map Event.lockedAt = [none, none, none, none, some 0, none]) (by decide)
  exact ⟨s, hr, of_decide_eq_true hs, lockout_is_kept hr⟩

/-! ## How much is sent -/

/-- What an event costs call `i`. -/
def Event.cost (i : Nat) : Event → Cost
  | .sent call _ what => if call = i then what.cost else 0
  | .lockout _ _ => 0

/-- What call `i` has sent, as a cost: the calls of `doRequest`, and the solvers it has used. -/
def spent (i : Nat) (log : List Event) : Cost := log.foldl (fun c e => c + e.cost i) 0

/-- What the applications from the `k`-th on may cost: a chain each. -/
def rest (cfg : Config ν) (k : Nat) : Cost where
  doRequests := (cfg.credentials.length - k) * (cfg.modes.length + 5)
  solvers := (List.replicate (cfg.credentials.length - k) cfg.modes).flatten

/-- What a call that has spent `a` may still spend, where it is. -/
def Affords (cfg : Config ν) (a : Cost) : Pc → Prop
  | .locking _ => a + rest cfg 0 ≤ rest cfg 0
  | .throttling _ => a + rest cfg 0 ≤ rest cfg 0
  | .waiting _ _ => a + rest cfg 0 ≤ rest cfg 0
  | .entering _ => a + rest cfg 0 ≤ rest cfg 0
  | .trying _ k _ => a + rest cfg k ≤ rest cfg 0
  | .asking k _ p => p.Sound cfg.modes ∧ a + (p.left cfg.modes + rest cfg (k + 1)) ≤ rest cfg 0
  | .awaiting k c p => p.Sound cfg.modes ∧ ∃ b, a = b + (p.sends c).cost ∧
      b + (p.left cfg.modes + rest cfg (k + 1)) ≤ rest cfg 0
  | _ => a ≤ rest cfg 0

/-- Every call can afford where it is, and those to come have spent nothing. -/
def Afforded (cfg : Config ν) (s : RequestPool) : Prop :=
  ∀ i, (s.threads[i]?).elim (spent i s.shared.log = 0) (Affords cfg (spent i s.shared.log))

section Bounds

variable {cfg : Config ν} {i j k : Nat} {σ σ' : Client} {t t' : Pc} {clock : Nat} {a b : Cost}

theorem spent_snoc (i : Nat) (log : List Event) (e : Event) :
    spent i (log ++ [e]) = spent i log + e.cost i := by
  rw [spent, List.foldl_concat]
  rfl

/-- What one more attempt may cost. -/
theorem rest_succ (hk : k < cfg.credentials.length) :
    rest cfg k = Place.left cfg.modes .anonymToken + rest cfg (k + 1) := by
  have hsucc : cfg.credentials.length - k = cfg.credentials.length - (k + 1) + 1 := by omega
  rw [rest, hsucc, List.replicate_succ, Nat.succ_mul, Nat.add_comm]
  rfl

theorem le_of_add_le (h : a + b ≤ rest cfg 0) : a ≤ rest cfg 0 := by
  refine le_trans ?_ h
  calc a = a + 0 := (add_zero a).symm
    _ ≤ a + b := Cost.add_le_add le_rfl (Cost.zero_le b)

/-- A part of what a place leaves was used; the other part, or what fits in it, is left. -/
theorem affords_part {x y z : Cost} (hpart : x + y ≤ z)
    (h : b + (z + rest cfg (k + 1)) ≤ rest cfg 0) :
    b + x + (y + rest cfg (k + 1)) ≤ rest cfg 0 := by
  refine le_trans ?_ h
  calc b + x + (y + rest cfg (k + 1)) = b + (x + y + rest cfg (k + 1)) := by
        rw [add_assoc, add_assoc]
    _ ≤ b + (z + rest cfg (k + 1)) := Cost.add_le_add le_rfl (Cost.add_le_add hpart le_rfl)

/-- After an answer the chain may end. -/
theorem affords_answered {c : Chain} {p : Place} (h : Affords cfg a (.awaiting k c p)) :
    a + rest cfg (k + 1) ≤ rest cfg 0 := by
  obtain ⟨hp, b, rfl, hroom⟩ := h
  have hfits : (p.sends c).cost + 0 ≤ p.left cfg.modes := by
    rw [add_zero]
    exact sends_fits hp c
  have hpart := affords_part hfits hroom
  rwa [zero_add] at hpart

/-- A request is paid from what its call has left. -/
theorem affords_step (h : Moves cfg i σ t σ' t') (hL : Affords cfg (spent i σ.log) t) :
    Affords cfg (spent i σ'.log) t' := by
  cases h with
  | cancelled | refused | exhausted => exact le_of_add_le hL
  | starts link k lastErr c hk => exact ⟨trivial, rest_succ hk ▸ hL⟩
  | skips link k lastErr err hk =>
      refine le_trans (Cost.add_le_add le_rfl ?_) hL
      rw [rest_succ hk]
      calc rest cfg (k + 1) = 0 + rest cfg (k + 1) := (zero_add _).symm
        _ ≤ _ := Cost.add_le_add (Cost.zero_le _) le_rfl
  | sends k c p =>
      obtain ⟨hp, hroom⟩ := hL
      refine ⟨hp, spent i σ.log, ?_, hroom⟩
      show spent i (σ.log ++ [_]) = _
      rw [spent_snoc, Event.cost, if_pos rfl]
  | asks k c p p' answer hnext =>
      obtain ⟨hp, b, hb, hroom⟩ := hL
      have hf := advance_follows hp hnext
      refine ⟨hf.sound, ?_⟩
      rw [hb]
      exact affords_part hf.room hroom
  | fails => exact affords_answered hL
  | locked | ends => exact le_of_add_le (affords_answered hL)
  | engages k c =>
      show spent i (σ.log ++ [_]) ≤ rest cfg 0
      rw [spent_snoc, Event.cost, add_zero]
      exact hL
  | _ => exact hL

/-- What another call sends does not count. -/
theorem spent_other (h : Moves cfg i σ t σ' t') (hij : i ≠ j) :
    spent j σ'.log = spent j σ.log := by
  cases h with
  | sends k c p =>
      show spent j (σ.log ++ [_]) = _
      rw [spent_snoc, Event.cost, if_neg hij, add_zero]
  | engages k c =>
      show spent j (σ.log ++ [_]) = _
      rw [spent_snoc, Event.cost, add_zero]
  | _ => rfl

/-- **WHAT A CALL MAY SPEND**, under every interleaving. -/
theorem afforded {s : RequestPool} (h : RequestReach cfg clock s) : Afforded cfg s := by
  refine Reach.invariant (I := Afforded cfg) (fun i => by rfl) ?_ h
  intro s act s' _ hI _ hs
  cases act with
  | run i choice =>
      obtain ⟨t, σ', t', new, ht, he, rfl⟩ := Machine.step_run hs
      obtain ⟨hm, rfl⟩ := exec_moves he
      intro j
      by_cases hij : i = j
      · subst hij
        have hold := hI i
        rw [ht] at hold
        show ((s.threads.set i t' ++ [])[i]?).elim _ _
        rw [getElem?_mover t' [] ht]
        exact affords_step hm hold
      · show ((s.threads.set i t' ++ [])[j]?).elim _ _
        rw [List.append_nil, List.getElem?_set_ne hij, spent_other hm hij]
        exact hI j
  | env e =>
      obtain ⟨σ', new, he, rfl⟩ := Machine.step_env hs
      cases outside_happens he with
      | tick d => exact fun j => by simpa using hI j
      | streams n => exact fun j => by simpa using hI j
      | call link =>
          intro j
          show ((s.threads ++ [_])[j]?).elim _ _
          rw [getElem?_snoc]
          split
          case isFalse => exact hI j
          case isTrue hj =>
              have hnew := hI j
              rw [List.getElem?_eq_none hj.ge] at hnew
              show spent j s.shared.log + rest cfg 0 ≤ rest cfg 0
              rw [show spent j s.shared.log = 0 from hnew, zero_add]

theorem affords_bounds {u : Pc} (h : Affords cfg a u) : a ≤ rest cfg 0 := by
  cases u with
  | locking link | throttling link | waiting link wake | entering link | trying link k lastErr =>
      exact le_of_add_le h
  | asking k c p => exact le_of_add_le h.2
  | awaiting k c p => exact le_of_add_le (affords_answered h)
  | _ => exact h

end Bounds

/-- **A CALL IS BOUNDED**, whatever is answered: each application is tried in one chain, which
    calls `doRequest` at most five times more than there are solve modes and uses the modes in
    their order, none twice.  The requests that the solvers send themselves are not counted. -/
theorem call_is_bounded {cfg : Config ν} {clock : Nat} {s : RequestPool}
    (h : RequestReach cfg clock s) (call : Nat) :
    (spent call s.shared.log).doRequests ≤ cfg.credentials.length * (cfg.modes.length + 5) ∧
    (spent call s.shared.log).solvers.Sublist
      (List.replicate cfg.credentials.length cfg.modes).flatten := by
  have hall := afforded h call
  cases ht : s.threads[call]? with
  | some t =>
      rw [ht] at hall
      exact affords_bounds hall
  | none =>
      rw [ht] at hall
      rw [show spent call s.shared.log = 0 from hall]
      exact Cost.zero_le (rest cfg 0)

/-- What the call that met the captcha has sent. -/
theorem sample_is_bounded :
    ∃ s, RequestReach sampleConfig 0 s ∧ spent 0 s.shared.log = ⟨3, [.manual]⟩ ∧
      (spent 0 s.shared.log).doRequests ≤ 1 * (1 + 5) := by
  obtain ⟨s, hr, hs⟩ := Reach.of_follow (requestStep sampleConfig) anyStep (newClient 0) sampleRun
    (fun s => spent 0 s.shared.log = ⟨3, [.manual]⟩) (by decide)
  exact ⟨s, hr, of_decide_eq_true hs, (call_is_bounded hr 0).1⟩

end VkTurnRequests
