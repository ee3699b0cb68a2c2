import VkTurn.SessionPoolProofs
import VkTurn.ThreadPoolProofs

/-! # Opening a pooled stream

    `openPooledStream` starts a goroutine, the OPENER, that opens a stream on a session
    and offers it on an unbuffered channel; the caller takes it, or gives up when its
    context is cancelled or its timer fires, and then closes `abandoned` and the session.
    `openStreamWithAttemptTimeout` makes such attempts on one candidate after the other
    until one succeeds or its time is over.

    Any number of calls run at once over one pool.  An attempt is a record with what
    its two sides share; the opener's place is part of the record, the caller is a
    thread.  A receive takes the value an opener is waiting with, so afterwards that
    opener can only go on from its send.  `select` takes any case that is ready.

    A stream changes hands at one point, the receive: `Settled` says what holds of an
    attempt on either side of it, and every step keeps it. -/

namespace VkTurnStreamOpen

open ThreadPool VkTurnSessionPool

/-! ## State -/

/-- The errors: "smux stream wait must be positive", "smux stream attempt timeout must be
    positive", "smux stream open timed out after %s", `ctx.Err()`, "all active smux
    sessions rejected the stream: %w", "no active smux sessions", and those of
    `OpenStream`. -/
inductive OpenError where
  | waitNotPositive
  | attemptNotPositive
  | timedOut (timeout : Int)
  | ctxErr
  | rejected (last : OpenError)
  | noSessions
  | session (code : Nat)
  deriving DecidableEq

/-- `pooledStreamResult`.  A stream is named by the attempt that opened it. -/
structure PooledStreamResult where
  stream : Option Nat
  err : Option OpenError
  deriving DecidableEq

/-- Where an opener is: in `OpenStream`, at its `select`, at `stream.Close`, done. -/
inductive Opener where
  | opening
  | offering
  | disposing
  | finished
  deriving DecidableEq

/-- One call of `openPooledStream`: its session, the thread that made it, its opener,
    what `OpenStream` returned, whether that was received, whether `abandoned` is
    closed, how often the opener has closed the stream; and what the call returned. -/
structure Attempt where
  session : Nat
  caller : Nat
  opener : Opener := .opening
  produced : Option PooledStreamResult := none
  taken : Bool := false
  abandoned : Bool := false
  closes : Nat := 0
  returned : Option PooledStreamResult := none
  deriving DecidableEq

/-- `OpenStream` has returned a stream. -/
def Attempt.hasStream (att : Attempt) : Bool := (att.produced.bind (·.stream)).isSome

/-- What the calls share.  Time is in nanoseconds. -/
structure Client where
  pool : SessionPool Nat := {}
  closed : List Nat := []
  attempts : List Attempt := []
  clock : Int := 0
  cancelled : List Nat := []

/-- Change an attempt. -/
def Client.update (σ : Client) (a : Nat) (f : Attempt → Attempt) : Client :=
  { σ with attempts := σ.attempts.modify a f }

/-- One call of `openStreamWithAttemptTimeout`: its arguments, deadline and `lastErr`. -/
structure Call where
  ctx : Nat
  deadline : Int
  maxAttempt : Int
  lastErr : Option OpenError := none
  deriving DecidableEq

/-- Where a caller is; `rest` are the candidates still to be tried. -/
inductive Pc where
  | enter (ctx : Nat) (wait maxAttempt : Int)
  | listing (c : Call)
  | next (c : Call) (rest : List Nat)
  | arming (c : Call) (rest : List Nat) (a : Nat) (timeout : Int)
  | waiting (c : Call) (rest : List Nat) (a : Nat) (timeout fire : Int)
  | received (c : Call) (rest : List Nat) (a : Nat) (r : PooledStreamResult)
  | abandoning (c : Call) (rest : List Nat) (a : Nat) (e : OpenError)
  | closing (c : Call) (rest : List Nat) (a : Nat) (e : OpenError)
  | exhausted (c : Call)
  | polling (c : Call) (fire : Int)
  | returned (r : PooledStreamResult)
  deriving DecidableEq

/-- Which case of a `select` is taken, and what the sessions answer to `candidates`. -/
inductive Choice where
  | go
  | candidates (v : View Nat)
  | result
  | done
  | fire

/-- 25 ms. -/
def pollInterval : Int := 25000000

/-- The loop after an attempt: `if err == nil { return stream, nil }; lastErr = err`. -/
def Call.after (c : Call) (rest : List Nat) (r : PooledStreamResult) : Pc :=
  match r.err with
  | none => .returned ⟨r.stream, none⟩
  | some e => .next { c with lastErr := some e } rest

/-- One section of a caller. -/
def exec (i : Nat) (σ : Client) (t : Pc) (a : Choice) : Option (Client × Pc × List Pc) :=
  match t, a with
  | .enter ctx wait maxAttempt, .go =>
      if wait ≤ 0 then some (σ, .returned ⟨none, some .waitNotPositive⟩, [])
      else if maxAttempt ≤ 0 then some (σ, .returned ⟨none, some .attemptNotPositive⟩, [])
      else some (σ, .listing { ctx, deadline := σ.clock + wait, maxAttempt }, [])
  | .listing c, .candidates v =>
      some ({ σ with pool := (σ.pool.candidates v).1 }, .next c (σ.pool.candidates v).2, [])
  | .next c [], .go => some (σ, .exhausted c, [])
  | .next c (session :: rest), .go =>
      let remaining := c.deadline - σ.clock
      if remaining ≤ 0 then some (σ, .exhausted c, [])
      else
        let timeout := if remaining < c.maxAttempt then remaining else c.maxAttempt
        -- the two channels are made and the opener is started
        some ({ σ with attempts := σ.attempts ++ [{ session, caller := i }] },
          .arming c rest σ.attempts.length timeout, [])
  | .arming c rest a timeout, .go =>
      some (σ, .waiting c rest a timeout (σ.clock + timeout), [])
  | .waiting c rest a _ _, .result =>
      match σ.attempts[a]? with
      | none => none
      | some att =>
          match att.opener, att.produced with
          | .offering, some r =>
              some (σ.update a ({ · with taken := true }), .received c rest a r, [])
          | _, _ => none
  | .waiting c rest a _ _, .done =>
      if c.ctx ∈ σ.cancelled then some (σ, .abandoning c rest a .ctxErr, []) else none
  | .waiting c rest a timeout fire, .fire =>
      if fire ≤ σ.clock then some (σ, .abandoning c rest a (.timedOut timeout), []) else none
  | .received c rest a r, .go =>
      some (σ.update a ({ · with abandoned := true, returned := some r }), c.after rest r, [])
  | .abandoning c rest a e, .go =>
      some (σ.update a ({ · with abandoned := true }), .closing c rest a e, [])
  | .closing c rest a e, .go =>
      match σ.attempts[a]? with
      | none => none
      | some att =>
          some ({ σ.update a ({ · with returned := some ⟨none, some e⟩ }) with
              closed := att.session :: σ.closed },
            c.after rest ⟨none, some e⟩, [])
  | .exhausted c, .go =>
      let remaining := c.deadline - σ.clock
      if remaining ≤ 0 then
        match c.lastErr with
        | some e => some (σ, .returned ⟨none, some (.rejected e)⟩, [])
        | none => some (σ, .returned ⟨none, some .noSessions⟩, [])
      else
        let poll := if remaining < pollInterval then remaining else pollInterval
        some (σ, .polling c (σ.clock + poll), [])
  | .polling c _, .done =>
      if c.ctx ∈ σ.cancelled then some (σ, .returned ⟨none, some .ctxErr⟩, []) else none
  | .polling c fire, .fire => if fire ≤ σ.clock then some (σ, .listing c, []) else none
  | _, _ => none

/-- What goes on beside the callers: new calls, the openers, the clock, the contexts,
    and the owners of the sessions. -/
inductive Op where
  | call (ctx : Nat) (wait maxAttempt : Int)
  | opened (a : Nat) (stream : Bool) (err : Option OpenError)
  | opener (a : Nat)
  | tick (d : Nat)
  | cancel (ctx : Nat)
  | add (session : Nat)
  | remove (session : Nat)
  | close (session : Nat)
  deriving DecidableEq

/-- The opener of an attempt goes on from its `select`: its value has been received, or
    `abandoned` is closed and it disposes of its stream. -/
def Attempt.advance (att : Attempt) : Option Attempt :=
  match att.opener with
  | .opening => none
  | .offering =>
      if att.taken then some { att with opener := .finished }
      else if att.abandoned then
        if att.hasStream then some { att with opener := .disposing }
        else some { att with opener := .finished }
      else none
  | .disposing => some { att with opener := .finished, closes := att.closes + 1 }
  | .finished => none

def outside (σ : Client) : Op → Option (Client × List Pc)
  | .call ctx wait maxAttempt => some (σ, [.enter ctx wait maxAttempt])
  | .opened a stream err =>
      match σ.attempts[a]? with
      | none => none
      | some att =>
          if att.opener = .opening then
            some (σ.update a fun x =>
              { x with opener := .offering, produced := some ⟨if stream then some a else none, err⟩ }, [])
          else none
  | .opener a =>
      match (σ.attempts[a]?).bind Attempt.advance with
      | none => none
      | some att => some (σ.update a fun _ => att, [])
  | .tick d => some ({ σ with clock := σ.clock + d }, [])
  | .cancel ctx => some ({ σ with cancelled := ctx :: σ.cancelled }, [])
  | .add session => some ({ σ with pool := σ.pool.add session }, [])
  | .remove session => some ({ σ with pool := σ.pool.remove session }, [])
  | .close session => some ({ σ with closed := session :: σ.closed }, [])

def openMachine : Machine Client Pc Choice Op where
  exec := exec
  env := outside

abbrev Clients := Pool Client Pc

def openStep : Clients → Act Choice Op → Option Clients := openMachine.step

/-- Whether a step, if it is the return of an `OpenStream`, returns a stream or an error,
    not both and not neither. -/
def oneOfTwo : Act Choice Op → Bool
  | .env (.opened _ stream err) => stream == err.isNone
  | _ => true

/-- `OpenStream` returns a stream or an error. -/
def streamOrError (_ : Clients) (a : Act Choice Op) : Prop := oneOfTwo a = true

instance (s : Clients) (a : Act Choice Op) : Decidable (streamOrError s a) :=
  inferInstanceAs (Decidable (oneOfTwo a = true))

/-! ## What a step can do -/

variable {i j : Nat} {σ σ' : Client} {t t' : Pc}

/-- The ways a caller moves. -/
inductive Moves (i : Nat) (σ : Client) : Pc → Client → Pc → Prop where
  | refused (ctx : Nat) (wait maxAttempt : Int) (e : OpenError) :
      Moves i σ (.enter ctx wait maxAttempt) σ (.returned ⟨none, some e⟩)
  | entered (ctx : Nat) (wait maxAttempt : Int) (c : Call) :
      Moves i σ (.enter ctx wait maxAttempt) σ (.listing c)
  | listed (c : Call) (v : View Nat) :
      Moves i σ (.listing c) { σ with pool := (σ.pool.candidates v).1 }
        (.next c (σ.pool.candidates v).2)
  | ended (c : Call) (rest : List Nat) : Moves i σ (.next c rest) σ (.exhausted c)
  | started (c : Call) (session : Nat) (rest : List Nat) (timeout : Int) :
      Moves i σ (.next c (session :: rest))
        { σ with attempts := σ.attempts ++ [{ session, caller := i }] }
        (.arming c rest σ.attempts.length timeout)
  | armed (c : Call) (rest : List Nat) (a : Nat) (timeout fire : Int) :
      Moves i σ (.arming c rest a timeout) σ (.waiting c rest a timeout fire)
  | received (c : Call) (rest : List Nat) (a : Nat) (timeout fire : Int) (att : Attempt)
      (r : PooledStreamResult) : σ.attempts[a]? = some att → att.opener = .offering →
      att.produced = some r →
      Moves i σ (.waiting c rest a timeout fire) (σ.update a ({ · with taken := true }))
        (.received c rest a r)
  | gaveUp (c : Call) (rest : List Nat) (a : Nat) (timeout fire : Int) (e : OpenError) :
      Moves i σ (.waiting c rest a timeout fire) σ (.abandoning c rest a e)
  | handed (c : Call) (rest : List Nat) (a : Nat) (r : PooledStreamResult) :
      Moves i σ (.received c rest a r)
        (σ.update a ({ · with abandoned := true, returned := some r })) (c.after rest r)
  | abandoned (c : Call) (rest : List Nat) (a : Nat) (e : OpenError) :
      Moves i σ (.abandoning c rest a e) (σ.update a ({ · with abandoned := true }))
        (.closing c rest a e)
  | closed (c : Call) (rest : List Nat) (a : Nat) (e : OpenError) (att : Attempt) :
      σ.attempts[a]? = some att →
      Moves i σ (.closing c rest a e)
        { σ.update a ({ · with returned := some ⟨none, some e⟩ }) with
          closed := att.session :: σ.closed }
        (c.after rest ⟨none, some e⟩)
  | failed (c : Call) (e : OpenError) : Moves i σ (.exhausted c) σ (.returned ⟨none, some e⟩)
  | paused (c : Call) (fire : Int) : Moves i σ (.exhausted c) σ (.polling c fire)
  | cancelled (c : Call) (fire : Int) :
      Moves i σ (.polling c fire) σ (.returned ⟨none, some .ctxErr⟩)
  | resumed (c : Call) (fire : Int) : Moves i σ (.polling c fire) σ (.listing c)

theorem exec_moves {a : Choice} {new : List Pc} (h : exec i σ t a = some (σ', t', new)) :
    Moves i σ t σ' t' ∧ new = [] := by
  unfold exec at h
  split at h
  · split at h
    · cases h
      exact ⟨.refused _ _ _ _, rfl⟩
    · split at h
      · cases h
        exact ⟨.refused _ _ _ _, rfl⟩
      · cases h
        exact ⟨.entered _ _ _ _, rfl⟩
  · cases h
    exact ⟨.listed _ _, rfl⟩
  · cases h
    exact ⟨.ended _ _, rfl⟩
  · dsimp only at h
    split at h
    · cases h
      exact ⟨.ended _ _, rfl⟩
    · cases h
      exact ⟨.started _ _ _ _, rfl⟩
  · cases h
    exact ⟨.armed _ _ _ _ _, rfl⟩
  · split at h
    · cases h
    · split at h
      · cases h
        exact ⟨.received _ _ _ _ _ _ _ ‹_› ‹_› ‹_›, rfl⟩
      · cases h
  · split at h
    · cases h
      exact ⟨.gaveUp _ _ _ _ _ _, rfl⟩
    · cases h
  · split at h
    · cases h
      exact ⟨.gaveUp _ _ _ _ _ _, rfl⟩
    · cases h
  · cases h
    exact ⟨.handed _ _ _ _, rfl⟩
  · cases h
    exact ⟨.abandoned _ _ _ _, rfl⟩
  · split at h
    · cases h
    · cases h
      exact ⟨.closed _ _ _ _ _ ‹_›, rfl⟩
  · dsimp only at h
    split at h
    · split at h
      · cases h
        exact ⟨.failed _ _, rfl⟩
      · cases h
        exact ⟨.failed _ _, rfl⟩
    · cases h
      exact ⟨.paused _ _, rfl⟩
  · split at h
    · cases h
      exact ⟨.cancelled _ _, rfl⟩
    · cases h
  · split at h
    · cases h
      exact ⟨.resumed _ _, rfl⟩
    · cases h
  · cases h

/-- What goes on beside the callers. -/
inductive Happens (σ : Client) : Op → Client → List Pc → Prop where
  | call (ctx : Nat) (wait maxAttempt : Int) :
      Happens σ (.call ctx wait maxAttempt) σ [.enter ctx wait maxAttempt]
  | opened (a : Nat) (stream : Bool) (err : Option OpenError) (att : Attempt) :
      σ.attempts[a]? = some att → att.opener = .opening →
      Happens σ (.opened a stream err)
        (σ.update a fun x =>
          { x with opener := .offering, produced := some ⟨if stream then some a else none, err⟩ })
        []
  | opener (a : Nat) (att att' : Attempt) : σ.attempts[a]? = some att →
      att.advance = some att' → Happens σ (.opener a) (σ.update a fun _ => att') []
  | other (op : Op) (σ' : Client) : σ'.attempts = σ.attempts → (∀ n ∈ σ.closed, n ∈ σ'.closed) →
      Happens σ op σ' []

theorem outside_happens {op : Op} {new : List Pc} (h : outside σ op = some (σ', new)) :
    Happens σ op σ' new := by
  cases op with
  | call ctx wait maxAttempt =>
      cases h
      exact .call ctx wait maxAttempt
  | opened a stream err =>
      simp only [outside] at h
      split at h
      · cases h
      · split at h
        · cases h
          exact .opened a stream err _ ‹_› ‹_›
        · cases h
  | opener a =>
      simp only [outside] at h
      split at h
      · cases h
      · rename_i att' hatt'
        cases h
        obtain ⟨att, hatt, hadvance⟩ := Option.bind_eq_some_iff.mp hatt'
        exact .opener a att att' hatt hadvance
  | tick d =>
      cases h
      exact .other _ _ rfl fun _ hn => hn
  | cancel ctx =>
      cases h
      exact .other _ _ rfl fun _ hn => hn
  | add session =>
      cases h
      exact .other _ _ rfl fun _ hn => hn
  | remove session =>
      cases h
      exact .other _ _ rfl fun _ hn => hn
  | close session =>
      cases h
      exact .other _ _ rfl fun _ hn => List.mem_cons_of_mem _ hn

/-! ## Attempts -/

section Attempts

variable {a b : Nat} {f : Attempt → Attempt} {att att' : Attempt} {closed : List Nat}

theorem update_self (h : σ.attempts[a]? = some att) :
    (σ.update a f).attempts[a]? = some (f att) := by
  rw [Client.update, List.getElem?_modify_eq, h]
  rfl

theorem update_other (h : b ≠ a) : (σ.update a f).attempts[b]? = σ.attempts[b]? := by
  rw [Client.update, List.getElem?_modify_ne _ _ h.symm]

/-- An attempt after a change: the changed one, or as it was. -/
theorem of_update (h : (σ.update a f).attempts[b]? = some att') :
    (b = a ∧ ∃ att, σ.attempts[a]? = some att ∧ att' = f att) ∨
      (b ≠ a ∧ σ.attempts[b]? = some att') := by
  by_cases hb : b = a
  · subst hb
    rw [Client.update, List.getElem?_modify_eq] at h
    obtain ⟨att, hatt, rfl⟩ := Option.map_eq_some_iff.mp h
    exact Or.inl ⟨rfl, att, hatt, rfl⟩
  · rw [update_other hb] at h
    exact Or.inr ⟨hb, h⟩

/-- What holds of every attempt.  The stream is received, or the opener closes it; the
    call returns what it received, or an error with the session closed. -/
structure Settled (closed : List Nat) (a : Nat) (att : Attempt) : Prop where
  named : ∀ r, att.produced = some r → ∀ b, r.stream = some b → b = a
  opening : att.opener = .opening → att.produced = none
  opened : att.opener ≠ .opening → ∃ r, att.produced = some r
  taken : att.taken = true → att.opener ≠ .opening ∧ att.opener ≠ .disposing
  disposing : att.opener = .disposing → att.abandoned = true ∧ att.hasStream = true
  closes : att.closes = (att.opener == .finished && !att.taken && att.hasStream).toNat
  returned : ∀ r, att.returned = some r → att.abandoned = true ∧
    (att.taken = true → att.produced = some r) ∧
    (att.taken = false → r.stream = none ∧ r.err ≠ none ∧ att.session ∈ closed)
  finished : att.opener = .finished → att.taken = true ∨ att.abandoned = true

theorem Settled.mono {closed' : List Nat} (h : Settled closed a att)
    (hsub : ∀ n ∈ closed, n ∈ closed') : Settled closed' a att := by
  refine { h with returned := ?_ }
  intro r hr
  obtain ⟨habandoned, hgot, hgone⟩ := h.returned r hr
  refine ⟨habandoned, hgot, ?_⟩
  intro ht
  obtain ⟨hstream, herr, hclosed⟩ := hgone ht
  exact ⟨hstream, herr, hsub _ hclosed⟩

theorem settled_new (session caller : Nat) : Settled closed a { session, caller } where
  named _ hr := by cases hr
  opening _ := rfl
  opened h := absurd rfl h
  taken h := by cases h
  disposing h := by cases h
  closes := rfl
  returned _ hr := by cases hr
  finished h := by cases h

/-- `OpenStream` returns. -/
theorem Settled.open (h : Settled closed a att) (hopening : att.opener = .opening) (stream : Bool)
    (err : Option OpenError) :
    Settled closed a
      { att with opener := .offering, produced := some ⟨if stream then some a else none, err⟩ } := by
  have hnone := h.opening hopening
  have htaken : att.taken = false := by
    cases ht : att.taken with
    | false => rfl
    | true => exact absurd hopening (h.taken ht).1
  have hcloses : att.closes = 0 := by
    rw [h.closes, hopening]
    rfl
  refine ⟨?_, fun hf => (by cases hf), fun _ => ⟨_, rfl⟩, ?_, fun hf => (by cases hf), hcloses, ?_,
    fun hf => (by cases hf)⟩
  · rintro r hr b hb
    obtain rfl := Option.some.inj hr
    cases stream with
    | false => cases hb
    | true => exact (Option.some.inj hb).symm
  · intro ht
    rw [show att.taken = true from ht] at htaken
    cases htaken
  · intro r hr
    obtain ⟨habandoned, -, hgone⟩ := h.returned r hr
    refine ⟨habandoned, ?_, hgone⟩
    intro ht
    rw [show att.taken = true from ht] at htaken
    cases htaken

theorem finished_ne : Opener.finished ≠ .opening ∧ Opener.finished ≠ .disposing := by decide

/-- The opener goes on. -/
theorem Settled.advance (h : Settled closed a att) (hadvance : att.advance = some att') :
    Settled closed a att' := by
  unfold Attempt.advance at hadvance
  split at hadvance
  · cases hadvance
  · rename_i hoffering
    have hcloses : att.closes = 0 := by
      rw [h.closes, hoffering]
      rfl
    have hopened := h.opened (by rw [hoffering]; decide)
    split at hadvance
    · -- the value was received
      rename_i htaken
      cases hadvance
      exact ⟨h.named, fun hf => (by cases hf), fun _ => hopened, fun _ => finished_ne,
        fun hf => (by cases hf), by rw [hcloses]; simp [htaken], h.returned, fun _ => Or.inl htaken⟩
    · rename_i htaken
      split at hadvance
      · rename_i habandoned
        split at hadvance
        · -- a stream to close
          rename_i hstream
          cases hadvance
          exact ⟨h.named, fun hf => (by cases hf), fun _ => hopened, fun ht => absurd ht htaken,
            fun _ => ⟨habandoned, hstream⟩, hcloses, h.returned, fun hf => (by cases hf)⟩
        · rename_i hstream
          cases hadvance
          refine ⟨h.named, fun hf => (by cases hf), fun _ => hopened,
            fun ht => absurd ht htaken, fun hf => (by cases hf), ?_, h.returned,
            fun _ => Or.inr habandoned⟩
          show att.closes = (_ && att.hasStream).toNat
          rw [hcloses, Bool.eq_false_of_not_eq_true hstream, Bool.and_false]
          rfl
      · cases hadvance
  · rename_i hdisposing
    cases hadvance
    obtain ⟨habandoned, hstream⟩ := h.disposing hdisposing
    have htaken : att.taken = false := by
      cases ht : att.taken with
      | false => rfl
      | true => exact absurd hdisposing (h.taken ht).2
    have hcloses : att.closes = 0 := by
      rw [h.closes, hdisposing]
      rfl
    refine ⟨h.named, fun hf => (by cases hf), fun _ => h.opened (by rw [hdisposing]; decide),
      fun _ => finished_ne, fun hf => (by cases hf), ?_, h.returned,
      fun _ => Or.inr habandoned⟩
    show att.closes + 1 = (_ && !att.taken && att.hasStream).toNat
    rw [hcloses, htaken, hstream]
    rfl
  · cases hadvance

/-- The value is received: the opener is waiting with it. -/
theorem Settled.receive (h : Settled closed a att) (hoffering : att.opener = .offering)
    (hreturned : att.returned = none) : Settled closed a { att with taken := true } := by
  refine { h with taken := ?_, closes := ?_, returned := ?_, finished := fun _ => Or.inl rfl }
  · intro _
    show att.opener ≠ _ ∧ att.opener ≠ _
    rw [hoffering]
    decide
  · show att.closes = (att.opener == .finished && _ && _).toNat
    rw [h.closes, hoffering]
    rfl
  · intro r hr
    rw [show att.returned = some r from hr] at hreturned
    cases hreturned

/-- The caller returns what it received. -/
theorem Settled.hand {r : PooledStreamResult} (h : Settled closed a att) (htaken : att.taken = true)
    (hproduced : att.produced = some r) :
    Settled closed a { att with abandoned := true, returned := some r } := by
  refine { h with
    disposing := fun hd => ⟨rfl, (h.disposing hd).2⟩, returned := ?_, finished := fun _ => Or.inr rfl }
  intro r' hr'
  obtain rfl := Option.some.inj hr'
  refine ⟨rfl, fun _ => hproduced, ?_⟩
  intro hf
  rw [show att.taken = false from hf] at htaken
  cases htaken

/-- The caller gives up. -/
theorem Settled.abandon (h : Settled closed a att) :
    Settled closed a { att with abandoned := true } := by
  refine { h with
    disposing := fun hd => ⟨rfl, (h.disposing hd).2⟩, returned := ?_, finished := fun _ => Or.inr rfl }
  intro r hr
  exact ⟨rfl, (h.returned r hr).2⟩

/-- The caller has closed the session. -/
theorem Settled.giveUp {e : OpenError} (h : Settled closed a att) (htaken : att.taken = false)
    (habandoned : att.abandoned = true) :
    Settled (att.session :: closed) a { att with returned := some ⟨none, some e⟩ } := by
  refine { h with returned := ?_ }
  intro r hr
  obtain rfl := Option.some.inj hr
  refine ⟨habandoned, ?_, fun _ => ⟨rfl, Option.some_ne_none e, List.mem_cons_self ..⟩⟩
  intro ht
  rw [show att.taken = true from ht] at htaken
  cases htaken

end Attempts

/-! ## Callers -/

/-- The attempt that a caller is in. -/
def Pc.attempt : Pc → Option Nat
  | .arming _ _ a _ => some a
  | .waiting _ _ a _ _ => some a
  | .received _ _ a _ => some a
  | .abandoning _ _ a _ => some a
  | .closing _ _ a _ => some a
  | _ => none

/-- The caller is between two attempts. -/
def Pc.between : Pc → Bool
  | .enter .. => true
  | .listing _ => true
  | .next .. => true
  | .exhausted _ => true
  | .polling .. => true
  | _ => false

/-- A call that has not returned in attempt `a`, which is as far as this. -/
def Current (i : Nat) (σ : Client) (a : Nat) (P : Attempt → Prop) : Prop :=
  ∃ att, σ.attempts[a]? = some att ∧ att.caller = i ∧ att.returned = none ∧ P att

/-- How far the attempt is where a caller is in one; and where the caller has returned
    a stream, which attempt it is from. -/
def Stands (i : Nat) (σ : Client) : Pc → Prop
  | .arming _ _ a _ => Current i σ a fun att => att.taken = false ∧ att.abandoned = false
  | .waiting _ _ a _ _ => Current i σ a fun att => att.taken = false ∧ att.abandoned = false
  | .received _ _ a r => Current i σ a fun att => att.taken = true ∧ att.produced = some r
  | .abandoning _ _ a _ => Current i σ a fun att => att.taken = false ∧ att.abandoned = false
  | .closing _ _ a _ => Current i σ a fun att => att.taken = false ∧ att.abandoned = true
  | .returned r => r.err = none → ∃ (a : Nat) (att : Attempt), σ.attempts[a]? = some att ∧
      att.caller = i ∧ att.returned = some r ∧ att.taken = true
  | _ => True

/-- The attempts of a caller that it is not in: they returned an error, or what the
    caller returned. -/
def Past (i : Nat) (σ : Client) (t : Pc) : Prop :=
  ∀ (a : Nat) (att : Attempt), σ.attempts[a]? = some att → att.caller = i →
    t.attempt = some a ∨ ∃ r, att.returned = some r ∧ (r.err ≠ none ∨ t = .returned r)

/-- What is known of a caller. -/
def Asserted (i : Nat) (σ : Client) (t : Pc) : Prop := Stands i σ t ∧ Past i σ t

/-- What the openers and the other callers do to an attempt of a caller: nothing that
    its own side has set. -/
structure Grown (att att' : Attempt) : Prop where
  caller : att'.caller = att.caller
  taken : att'.taken = att.taken
  abandoned : att'.abandoned = att.abandoned
  returned : att'.returned = att.returned
  produced : ∀ r, att.produced = some r → att'.produced = some r

theorem Grown.refl (att : Attempt) : Grown att att := ⟨rfl, rfl, rfl, rfl, fun _ h => h⟩

/-- The attempts of caller `j` before and after a step that is not its own. -/
structure Leaves (j : Nat) (σ σ' : Client) : Prop where
  forth : ∀ (a : Nat) (att : Attempt), σ.attempts[a]? = some att → att.caller = j →
    ∃ att', σ'.attempts[a]? = some att' ∧ Grown att att'
  back : ∀ (a : Nat) (att' : Attempt), σ'.attempts[a]? = some att' → att'.caller = j →
    ∃ att, σ.attempts[a]? = some att ∧ Grown att att'

theorem Leaves.same (h : σ'.attempts = σ.attempts) : Leaves j σ σ' where
  forth a att ha _ := ⟨att, by rw [h, ha], .refl att⟩
  back a att ha _ := ⟨att, by rw [← h, ha], .refl att⟩

/-- A change to one attempt that leaves the caller's side alone, or is another caller's. -/
theorem Leaves.update {a : Nat} {f : Attempt → Attempt} {att : Attempt}
    (ha : σ.attempts[a]? = some att) (hcaller : (f att).caller = att.caller)
    (hf : att.caller = j → Grown att (f att)) : Leaves j σ (σ.update a f) where
  forth b x hb hx := by
    by_cases hba : b = a
    · subst hba
      obtain rfl : att = x := Option.some.inj (ha.symm.trans hb)
      exact ⟨f att, update_self ha, hf hx⟩
    · exact ⟨x, (update_other hba).trans hb, .refl x⟩
  back b x hb hx := by
    rcases of_update hb with ⟨rfl, y, hy, rfl⟩ | ⟨-, hold⟩
    · obtain rfl : att = y := Option.some.inj (ha.symm.trans hy)
      exact ⟨att, hy, hf (hcaller.symm.trans hx)⟩
    · exact ⟨x, hold, .refl x⟩

theorem Current.stable {a : Nat} {P : Attempt → Prop} (h : Current j σ a P)
    (hl : Leaves j σ σ') (hP : ∀ att att', Grown att att' → P att → P att') :
    Current j σ' a P := by
  obtain ⟨att, hatt, hcaller, hreturned, hp⟩ := h
  obtain ⟨att', hatt', hg⟩ := hl.forth a att hatt hcaller
  exact ⟨att', hatt', hg.caller.trans hcaller, hg.returned.trans hreturned, hP att att' hg hp⟩

/-- **NON-INTERFERENCE** -/
theorem Asserted.stable (h : Asserted j σ t) (hl : Leaves j σ σ') : Asserted j σ' t := by
  have hopen : ∀ (b : Bool) att att', Grown att att' → att.taken = false ∧ att.abandoned = b →
      att'.taken = false ∧ att'.abandoned = b := by
    rintro b att att' hg ⟨ht, hb⟩
    exact ⟨hg.taken.trans ht, hg.abandoned.trans hb⟩
  refine ⟨?_, ?_⟩
  · have hs := h.1
    cases t with
    | arming c rest a timeout => exact hs.stable hl (hopen false)
    | waiting c rest a timeout fire => exact hs.stable hl (hopen false)
    | received c rest a r =>
        refine hs.stable hl ?_
        rintro att att' hg ⟨ht, hr⟩
        exact ⟨hg.taken.trans ht, hg.produced r hr⟩
    | abandoning c rest a e => exact hs.stable hl (hopen false)
    | closing c rest a e => exact hs.stable hl (hopen true)
    | returned r =>
        intro hr
        obtain ⟨a, att, hatt, hcaller, hreturned, htaken⟩ := hs hr
        obtain ⟨att', hatt', hg⟩ := hl.forth a att hatt hcaller
        exact ⟨a, att', hatt', hg.caller.trans hcaller, hg.returned.trans hreturned,
          hg.taken.trans htaken⟩
    | _ => trivial
  · intro a att' hatt' hcaller
    obtain ⟨att, hatt, hg⟩ := hl.back a att' hatt' hcaller
    rw [hg.returned]
    exact h.2 a att hatt (hg.caller.symm.trans hcaller)

/-- What a caller does leaves the attempts of the others alone. -/
theorem moves_leaves (h : Moves i σ t σ' t') (hs : Stands i σ t) (hij : i ≠ j) :
    Leaves j σ σ' := by
  -- a change to an attempt of its own
  have hupdate : ∀ (a : Nat) (f : Attempt → Attempt) (att : Attempt), σ.attempts[a]? = some att →
      att.caller = i → (∀ x, (f x).caller = x.caller) → Leaves j σ (σ.update a f) :=
    fun a f att hatt hcaller hf =>
      .update hatt (hf att) fun hj => absurd (hcaller.symm.trans hj) hij
  cases h with
  | listed c v => exact .same rfl
  | started c session rest timeout =>
      refine ⟨?_, ?_⟩
      · intro a att hatt _
        exact ⟨att, getElem?_snoc_old hatt, .refl att⟩
      · intro a att hatt hcaller
        rcases getElem?_snoc_cases hatt with ⟨-, rfl⟩ | ⟨-, hold⟩
        · exact absurd hcaller hij
        · exact ⟨att, hold, .refl att⟩
  | received c rest a timeout fire att r hatt _ _ =>
      obtain ⟨x, hx, hcaller, -⟩ := hs
      exact hupdate a _ x hx hcaller fun _ => rfl
  | handed c rest a r =>
      obtain ⟨x, hx, hcaller, -⟩ := hs
      exact hupdate a _ x hx hcaller fun _ => rfl
  | abandoned c rest a e =>
      obtain ⟨x, hx, hcaller, -⟩ := hs
      exact hupdate a _ x hx hcaller fun _ => rfl
  | closed c rest a e att hatt =>
      obtain ⟨x, hx, hcaller, -⟩ := hs
      have hl := hupdate a ({ · with returned := some ⟨none, some e⟩ }) x hx hcaller fun _ => rfl
      exact ⟨hl.forth, hl.back⟩
  | _ => exact .same rfl

/-- Every attempt is settled. -/
def AllSettled (σ : Client) : Prop :=
  ∀ (a : Nat) (att : Attempt), σ.attempts[a]? = some att → Settled σ.closed a att

theorem AllSettled.update {a : Nat} {f : Attempt → Attempt} {att : Attempt} (h : AllSettled σ)
    (hatt : σ.attempts[a]? = some att) (hf : Settled σ.closed a (f att)) :
    AllSettled (σ.update a f) := by
  intro b x hx
  rcases of_update hx with ⟨rfl, y, hy, rfl⟩ | ⟨-, hold⟩
  · obtain rfl : att = y := Option.some.inj (hatt.symm.trans hy)
    exact hf
  · exact h b x hold

theorem moves_settled (h : Moves i σ t σ' t') (hs : Stands i σ t) (hI : AllSettled σ) :
    AllSettled σ' := by
  cases h with
  | listed c v => exact hI
  | started c session rest timeout =>
      intro a att hatt
      rcases getElem?_snoc_cases hatt with ⟨-, rfl⟩ | ⟨-, hold⟩
      · exact settled_new session i
      · exact hI a att hold
  | received c rest a timeout fire att r hatt hoffering _ =>
      obtain ⟨x, hx, -, hreturned, -⟩ := hs
      obtain rfl : x = att := Option.some.inj (hx.symm.trans hatt)
      exact hI.update hatt ((hI a x hatt).receive hoffering hreturned)
  | handed c rest a r =>
      obtain ⟨att, hatt, -, -, htaken, hproduced⟩ := hs
      exact hI.update hatt ((hI a att hatt).hand htaken hproduced)
  | abandoned c rest a e =>
      obtain ⟨att, hatt, -⟩ := hs
      exact hI.update hatt (hI a att hatt).abandon
  | closed c rest a e att hatt =>
      obtain ⟨x, hx, -, -, htaken, habandoned⟩ := hs
      obtain rfl : x = att := Option.some.inj (hx.symm.trans hatt)
      intro b y hy
      rcases of_update hy with ⟨rfl, z, hz, rfl⟩ | ⟨-, hold⟩
      · obtain rfl : x = z := Option.some.inj (hatt.symm.trans hz)
        exact (hI b x hatt).giveUp htaken habandoned
      · exact (hI b y hold).mono fun n hn => List.mem_cons_of_mem _ hn
  | _ => exact hI

/-- After an attempt: the call goes on, or returns its stream. -/
theorem asserted_after {c : Call} {rest : List Nat} {a : Nat} {r : PooledStreamResult}
    {f : Attempt → Attempt} {att : Attempt} (hatt : σ.attempts[a]? = some att)
    (hcaller : (f att).caller = i) (hreturned : (f att).returned = some r)
    (htaken : r.err = none → (f att).taken = true) (hpast : Past i σ t)
    (ht : t.attempt = some a) : Asserted i (σ.update a f) (c.after rest r) := by
  -- the other attempts have returned errors before
  have hothers : ∀ (b : Nat) (x : Attempt), (σ.update a f).attempts[b]? = some x → x.caller = i →
      ∃ r', x.returned = some r' ∧ (r'.err ≠ none ∨ r' = r) := by
    intro b x hx hxi
    rcases of_update hx with ⟨rfl, y, hy, rfl⟩ | ⟨hne, hold⟩
    · obtain rfl : att = y := Option.some.inj (hatt.symm.trans hy)
      exact ⟨r, hreturned, Or.inr rfl⟩
    · rcases hpast b x hold hxi with hb | ⟨r', hr', herr | rfl⟩
      · exact absurd (Option.some.inj (hb.symm.trans ht)) hne
      · exact ⟨r', hr', Or.inl herr⟩
      · cases ht
  cases herr : r.err with
  | none =>
      have hr : r = ⟨r.stream, none⟩ := by rw [← herr]
      rw [Call.after, herr, ← hr]
      refine ⟨fun _ => ⟨a, f att, update_self hatt, hcaller, hreturned, htaken herr⟩, ?_⟩
      intro b x hx hxi
      obtain ⟨r', hr', hcase⟩ := hothers b x hx hxi
      exact Or.inr ⟨r', hr', hcase.imp_right (congrArg Pc.returned ·.symm)⟩
  | some e =>
      rw [Call.after, herr]
      refine ⟨trivial, ?_⟩
      intro b x hx hxi
      obtain ⟨r', hr', hcase | rfl⟩ := hothers b x hx hxi
      · exact Or.inr ⟨r', hr', Or.inl hcase⟩
      · exact Or.inr ⟨r', hr', Or.inl (by rw [herr]; exact Option.some_ne_none e)⟩

theorem attempt_of_between (h : t.between = true) : t.attempt = none := by
  cases t <;> first | rfl | cases h

/-- A caller that is in no attempt goes on without starting one. -/
theorem Past.idle (h : Past i σ t) (ht : t.between = true) (hatts : σ'.attempts = σ.attempts) :
    Past i σ' t' := by
  intro a att hatt hcaller
  rw [hatts] at hatt
  rcases h a att hatt hcaller with ha | ⟨r, hr, herr | rfl⟩
  · rw [attempt_of_between ht] at ha
    cases ha
  · exact Or.inr ⟨r, hr, Or.inl herr⟩
  · cases ht

/-- A caller goes on in its attempt. -/
theorem Past.update {a : Nat} {f : Attempt → Attempt} (h : Past i σ t) (ht : t.attempt = some a)
    (ht' : t'.attempt = some a) : Past i (σ.update a f) t' := by
  intro b x hx hxi
  rcases of_update hx with ⟨rfl, -⟩ | ⟨hne, hold⟩
  · exact Or.inl ht'
  · rcases h b x hold hxi with hb | ⟨r, hr, herr | rfl⟩
    · exact absurd (Option.some.inj (hb.symm.trans ht)) hne
    · exact Or.inr ⟨r, hr, Or.inl herr⟩
    · cases ht

theorem Past.same {a : Nat} (h : Past i σ t) (ht : t.attempt = some a)
    (ht' : t'.attempt = some a) : Past i σ t' := by
  intro b x hx hxi
  rcases h b x hx hxi with hb | ⟨r, hr, herr | rfl⟩
  · exact Or.inl (ht'.trans (ht.symm.trans hb))
  · exact Or.inr ⟨r, hr, Or.inl herr⟩
  · cases ht

theorem stands_error (e : OpenError) (s : Option Nat) : Stands i σ (.returned ⟨s, some e⟩) :=
  fun hf => (by cases hf)

/-- **EACH SECTION ESTABLISHES THE NEXT ASSERTION** -/
theorem moves_asserted (h : Moves i σ t σ' t') (hA : Asserted i σ t) : Asserted i σ' t' := by
  obtain ⟨hs, hp⟩ := hA
  cases h with
  | refused ctx wait maxAttempt e => exact ⟨stands_error _ _, hp.idle rfl rfl⟩
  | entered ctx wait maxAttempt c | listed c v | ended c rest => exact ⟨trivial, hp.idle rfl rfl⟩
  | started c session rest timeout =>
      refine ⟨⟨_, List.getElem?_concat_length, rfl, rfl, rfl, rfl⟩, ?_⟩
      intro a att hatt hcaller
      rcases getElem?_snoc_cases hatt with ⟨rfl, -⟩ | ⟨-, hold⟩
      · exact Or.inl rfl
      · have hidle : Past i σ (.arming c rest σ.attempts.length timeout) :=
          hp.idle rfl rfl
        exact hidle a att hold hcaller
  | armed c rest a timeout fire => exact ⟨hs, hp.same rfl rfl⟩
  | received c rest a timeout fire att r hatt hoffering hproduced =>
      obtain ⟨x, hx, hcaller, hreturned, -⟩ := hs
      obtain rfl : x = att := Option.some.inj (hx.symm.trans hatt)
      exact ⟨⟨_, update_self hatt, hcaller, hreturned, rfl, hproduced⟩,
        hp.update rfl rfl⟩
  | gaveUp c rest a timeout fire e => exact ⟨hs, hp.same rfl rfl⟩
  | handed c rest a r =>
      obtain ⟨att, hatt, hcaller, -, htaken, -⟩ := hs
      exact asserted_after hatt hcaller rfl (fun _ => htaken) hp rfl
  | abandoned c rest a e =>
      obtain ⟨att, hatt, hcaller, hreturned, htaken, -⟩ := hs
      exact ⟨⟨_, update_self hatt, hcaller, hreturned, htaken, rfl⟩,
        hp.update rfl rfl⟩
  | closed c rest a e att hatt =>
      obtain ⟨x, hx, hcaller, -⟩ := hs
      have hafter : Asserted i (σ.update a ({ · with returned := some ⟨none, some e⟩ }))
          (c.after rest ⟨none, some e⟩) :=
        asserted_after hx hcaller rfl (fun hf => (by cases hf)) hp rfl
      exact hafter
  | failed c e => exact ⟨stands_error _ _, hp.idle rfl rfl⟩
  | paused c fire => exact ⟨trivial, hp.idle rfl rfl⟩
  | cancelled c fire => exact ⟨stands_error _ _, hp.idle rfl rfl⟩
  | resumed c fire => exact ⟨trivial, hp.idle rfl rfl⟩

/-! ## Runs -/

section Runs

variable {ok : Clients → Act Choice Op → Prop} {s : Clients}

/-- What goes on beside the callers keeps the attempts settled and the callers' sides of
    them. -/
theorem happens_settled {op : Op} {new : List Pc} (h : Happens σ op σ' new) (hI : AllSettled σ) :
    AllSettled σ' := by
  cases h with
  | call ctx wait maxAttempt => exact hI
  | opened a stream err att hatt hopening => exact hI.update hatt ((hI a att hatt).open hopening _ _)
  | opener a att att' hatt hadvance => exact hI.update hatt ((hI a att hatt).advance hadvance)
  | other op σ' hatts hclosed =>
      intro a att hatt
      rw [hatts] at hatt
      exact (hI a att hatt).mono hclosed

theorem grown_advance {att att' : Attempt} (h : att.advance = some att') :
    Grown att att' ∧ att'.produced = att.produced := by
  unfold Attempt.advance at h
  split at h
  · cases h
  · split at h
    · cases h
      exact ⟨⟨rfl, rfl, rfl, rfl, fun _ hr => hr⟩, rfl⟩
    · split at h
      · split at h <;> cases h <;> exact ⟨⟨rfl, rfl, rfl, rfl, fun _ hr => hr⟩, rfl⟩
      · cases h
  · cases h
    exact ⟨⟨rfl, rfl, rfl, rfl, fun _ hr => hr⟩, rfl⟩
  · cases h

theorem happens_leaves {op : Op} {new : List Pc} (h : Happens σ op σ' new) (hI : AllSettled σ) :
    Leaves j σ σ' := by
  cases h with
  | call ctx wait maxAttempt => exact .same rfl
  | opened a stream err att hatt hopening =>
      refine .update hatt rfl fun _ => ⟨rfl, rfl, rfl, rfl, ?_⟩
      intro r hr
      rw [(hI a att hatt).opening hopening] at hr
      cases hr
  | opener a att att' hatt hadvance =>
      exact .update hatt (grown_advance hadvance).1.caller fun _ => (grown_advance hadvance).1
  | other op σ' hatts hclosed => exact .same hatts

/-- A property of all attempts after a change to one of them. -/
theorem update_all {P : Attempt → Prop} {a : Nat} {f : Attempt → Attempt}
    (hf : ∀ x, σ.attempts[a]? = some x → P x → P (f x)) (h : ∀ att ∈ σ.attempts, P att) :
    ∀ att ∈ (σ.update a f).attempts, P att := by
  intro att hatt
  obtain ⟨b, hb⟩ := List.getElem?_of_mem hatt
  rcases of_update hb with ⟨-, x, hx, rfl⟩ | ⟨-, hold⟩
  · exact hf x hx (h x (List.mem_of_getElem? hx))
  · exact h att (List.mem_of_getElem? hold)

/-- A property of the callers' and the openers' parts that are fixed when they are set. -/
theorem moves_all {P : Attempt → Prop} (h : Moves i σ t σ' t')
    (hnew : ∀ session, P { session, caller := i })
    (hkeep : ∀ x y, y.caller = x.caller → y.produced = x.produced → P x → P y)
    (hI : ∀ att ∈ σ.attempts, P att) : ∀ att ∈ σ'.attempts, P att := by
  cases h with
  | started c session rest timeout =>
      intro att hatt
      rcases List.mem_append.mp hatt with hold | hlast
      · exact hI att hold
      · rw [List.mem_singleton.mp hlast]
        exact hnew session
  | received | handed | abandoned => exact update_all (fun x _ hx => hkeep x _ rfl rfl hx) hI
  | closed c rest a e =>
      exact update_all (f := ({ · with returned := some ⟨none, some e⟩ }))
        (fun x _ hx => hkeep x _ rfl rfl hx) hI
  | _ => exact hI

theorem happens_all {P : Attempt → Prop} {op : Op} {new : List Pc} (h : Happens σ op σ' new)
    (hopen : ∀ a stream err x, op = .opened a stream err → P x →
      P { x with opener := .offering, produced := some ⟨if stream then some a else none, err⟩ })
    (hkeep : ∀ x y, y.caller = x.caller → y.produced = x.produced → P x → P y)
    (hI : ∀ att ∈ σ.attempts, P att) : ∀ att ∈ σ'.attempts, P att := by
  cases h with
  | call => exact hI
  | opened a stream err att hatt hopening =>
      exact update_all (fun x _ hx => hopen a stream err x rfl hx) hI
  | opener a att att' hatt hadvance =>
      refine update_all (fun x hx hp => ?_) hI
      obtain rfl : att = x := Option.some.inj (hatt.symm.trans hx)
      exact hkeep att att' (grown_advance hadvance).1.caller (grown_advance hadvance).2 hp
  | other op σ' hatts =>
      rw [hatts]
      exact hI

/-- The attempts are made by threads. -/
theorem callers_lt (h : Reach openStep ok ⟨{}, []⟩ s) :
    ∀ att ∈ s.shared.attempts, att.caller < s.threads.length := by
  refine Reach.invariant
    (I := fun s : Clients => ∀ att ∈ s.shared.attempts, att.caller < s.threads.length)
    (fun att hatt => (by cases hatt)) ?_ h
  intro s a s' _ hI _ hs
  cases a with
  | run i a =>
      obtain ⟨t, σ', t', new, ht, he, rfl⟩ := Machine.step_run hs
      obtain ⟨hm, rfl⟩ := exec_moves he
      have hi := (List.getElem?_eq_some_iff.mp ht).1
      rw [List.append_nil, List.length_set]
      exact moves_all (P := fun att => att.caller < s.threads.length) hm (fun _ => hi)
        (fun x y hc _ hx => hc ▸ hx) hI
  | env op =>
      obtain ⟨σ', new, he, rfl⟩ := Machine.step_env hs
      intro att hatt
      have hlt := happens_all (P := fun att => att.caller < s.threads.length)
        (outside_happens he) (fun _ _ _ _ _ hx => hx) (fun x y hc _ hx => hc ▸ hx) hI att hatt
      rw [List.length_append]
      exact Nat.lt_add_right _ hlt

theorem asserted (h : Reach openStep ok ⟨{}, []⟩ s) : Annotated AllSettled Asserted s := by
  refine Machine.owickiGries_at (M := openMachine)
    (J := fun s => ∀ att ∈ s.shared.attempts, att.caller < s.threads.length)
    (fun s hr => callers_lt hr) _ _ ?_ ?_ ?_ ?_ h
  · exact ⟨fun a att hatt => (by cases hatt), fun i t ht => (by cases ht)⟩
  · intro s i t a σ' t' new _ _ _ he hI hA
    obtain ⟨hm, rfl⟩ := exec_moves he
    exact ⟨moves_settled hm hA.1 hI, moves_asserted hm hA, fun _ _ _ hu => (by cases hu)⟩
  · intro s i j t u a σ' t' new _ hij _ _ he _ hA hu
    exact hu.stable (moves_leaves (exec_moves he).1 hA.1 hij)
  · intro s op σ' new hj _ he hI
    have hh := outside_happens he
    refine ⟨happens_settled hh hI, ?_, fun j u _ hu => hu.stable (happens_leaves hh hI)⟩
    intro n hn u hu
    cases hh with
    | call ctx wait maxAttempt =>
        rw [List.mem_singleton.mp hu]
        refine ⟨trivial, ?_⟩
        intro a att hatt hcaller
        have hlt := hj att (List.mem_of_getElem? hatt)
        omega
    | _ => cases hu

/-- A stream or an error. -/
def Contract (att : Attempt) : Prop :=
  ∀ r, att.produced = some r → (r.stream ≠ none ↔ r.err = none)

/-- What `OpenStream` returned, if it keeps to its contract. -/
theorem contract (h : Reach openStep streamOrError ⟨{}, []⟩ s) :
    ∀ att ∈ s.shared.attempts, Contract att := by
  refine Reach.invariant (I := fun s : Clients => ∀ att ∈ s.shared.attempts, Contract att)
    (fun att hatt => (by cases hatt)) ?_ h
  have hkeep : ∀ x y : Attempt, y.caller = x.caller → y.produced = x.produced →
      Contract x → Contract y :=
    fun x y _ hp hx r hr => hx r (hp.symm.trans hr)
  intro s a s' _ hI hok hs
  cases a with
  | run i a =>
      obtain ⟨t, σ', t', new, ht, he, rfl⟩ := Machine.step_run hs
      exact moves_all (exec_moves he).1 (fun _ r hr => (by cases hr)) hkeep hI
  | env op =>
      obtain ⟨σ', new, he, rfl⟩ := Machine.step_env hs
      refine happens_all (outside_happens he) ?_ hkeep hI
      rintro a stream err x rfl _ r hr
      obtain rfl := Option.some.inj hr
      have hone : stream = err.isNone := eq_of_beq hok
      subst hone
      cases err with
      | none => exact ⟨fun _ => rfl, fun _ => Option.some_ne_none a⟩
      | some e => exact ⟨fun hf => absurd rfl hf, fun hf => (by cases hf)⟩

/-- Where both sides have finished: who has the stream. -/
theorem Settled.owner {closed : List Nat} {a b : Nat} {att : Attempt} {r : PooledStreamResult}
    {err : Option OpenError} (h : Settled closed a att) (hfinished : att.opener = .finished)
    (hreturned : att.returned = some r) (hproduced : att.produced = some ⟨some b, err⟩) :
    (att.taken = true ∧ r = ⟨some b, err⟩ ∧ att.closes = 0) ∨
      (att.taken = false ∧ r.stream = none ∧ r.err ≠ none ∧ att.closes = 1) := by
  obtain ⟨-, hgot, hgone⟩ := h.returned r hreturned
  have hstream : att.hasStream = true := by
    rw [Attempt.hasStream, hproduced]
    rfl
  have hcloses := h.closes
  rw [hfinished, hstream] at hcloses
  cases htaken : att.taken with
  | true =>
      rw [htaken] at hcloses
      exact Or.inl ⟨rfl, (Option.some.inj (hproduced.symm.trans (hgot htaken))).symm, hcloses⟩
  | false =>
      rw [htaken] at hcloses
      obtain ⟨hnone, herr, -⟩ := hgone htaken
      exact Or.inr ⟨rfl, hnone, herr, hcloses⟩

/-- An opener whose caller has left is not stuck. -/
theorem Settled.enabled {closed : List Nat} {a : Nat} {att : Attempt} (h : Settled closed a att)
    (hreturned : att.returned ≠ none)
    (hopener : att.opener = .offering ∨ att.opener = .disposing) :
    ∃ att', att.advance = some att' := by
  obtain ⟨r, hr⟩ := Option.ne_none_iff_exists'.mp hreturned
  have habandoned := (h.returned r hr).1
  rw [Attempt.advance]
  rcases hopener with ho | ho
  · rw [ho]
    simp only [habandoned, if_true]
    split
    · exact ⟨_, rfl⟩
    · split <;> exact ⟨_, rfl⟩
  · rw [ho]
    exact ⟨_, rfl⟩

end Runs

/-- **ONE OWNER**: for any number of calls over one pool, and under every interleaving of
    callers, openers, clock, contexts and the sessions' owners, for every attempt:

    * when both sides have finished, a stream that its session's `OpenStream` produced was
      returned to the caller, with the error `OpenStream` gave, and the opener has not
      closed it; or it was not returned and the opener has closed it, once;
    * when the caller has given up, the session has been closed;
    * once the caller has left, an opener that is not in `OpenStream` can go on until it
      has finished.

    If `OpenStream` always returns a stream or an error, a call that returns no error
    returns the stream of an attempt of its own that it received; and every other
    stream of its attempts, when its opener has finished, has been closed. -/
theorem pooled_stream_one_owner :
    (∀ s : Clients, Reach openStep anyStep ⟨{}, []⟩ s →
      ∀ (a : Nat) (att : Attempt), s.shared.attempts[a]? = some att →
        (∀ r b err, att.opener = .finished → att.returned = some r →
          att.produced = some ⟨some b, err⟩ →
          (r = ⟨some b, err⟩ ∧ att.closes = 0) ∨
            (r.stream = none ∧ r.err ≠ none ∧ att.closes = 1)) ∧
        (∀ r, att.returned = some r → att.taken = false → att.session ∈ s.shared.closed) ∧
        (att.returned ≠ none → att.opener = .offering ∨ att.opener = .disposing →
          ∃ s', openStep s (.env (.opener a)) = some s')) ∧
    ∀ s : Clients, Reach openStep streamOrError ⟨{}, []⟩ s →
      ∀ (i : Nat) (r : PooledStreamResult), s.threads[i]? = some (.returned r) →
        (r.err = none → ∃ (a : Nat) (att : Attempt), s.shared.attempts[a]? = some att ∧
          att.caller = i ∧ att.returned = some r ∧ r.stream = some a ∧ att.closes = 0) ∧
        ∀ (a : Nat) (att : Attempt), s.shared.attempts[a]? = some att → att.caller = i →
          att.opener = .finished → ∀ b err, att.produced = some ⟨some b, err⟩ →
            r = ⟨some b, none⟩ ∨ att.closes = 1 := by
  refine ⟨?_, ?_⟩
  · intro s h a att hatt
    have hsettled := (asserted h).1 a att hatt
    refine ⟨?_, ?_, ?_⟩
    · intro r b err hfinished hreturned hproduced
      rcases hsettled.owner hfinished hreturned hproduced with ⟨-, hgot⟩ | ⟨-, hgone⟩
      · exact Or.inl hgot
      · exact Or.inr hgone
    · intro r hreturned htaken
      exact ((hsettled.returned r hreturned).2.2 htaken).2.2
    · intro hreturned hopener
      obtain ⟨att', hadvance⟩ := hsettled.enabled hreturned hopener
      have hbind : (s.shared.attempts[a]?).bind Attempt.advance = some att' := by
        rw [hatt]
        exact hadvance
      refine ⟨⟨s.shared.update a fun _ => att', s.threads ++ []⟩, ?_⟩
      simp only [openStep, Machine.step, openMachine, outside, hbind]
  · intro s h i r hr
    have hA := asserted h
    obtain ⟨hstands, hpast⟩ := hA.2 i _ hr
    refine ⟨?_, ?_⟩
    · intro herr
      obtain ⟨a, att, hatt, hcaller, hreturned, htaken⟩ := hstands herr
      have hsettled := hA.1 a att hatt
      have hproduced := (hsettled.returned r hreturned).2.1 htaken
      have hstream := (contract h att (List.mem_of_getElem? hatt) r hproduced).mpr herr
      obtain ⟨b, hb⟩ := Option.ne_none_iff_exists'.mp hstream
      obtain rfl := hsettled.named r hproduced b hb
      refine ⟨b, att, hatt, hcaller, hreturned, hb, ?_⟩
      rw [hsettled.closes, htaken, Bool.not_true, Bool.and_false, Bool.false_and]
      rfl
    · intro a att hatt hcaller hfinished b err hproduced
      have hsettled := hA.1 a att hatt
      have hcontract := contract h att (List.mem_of_getElem? hatt) _ hproduced
      obtain rfl : err = none := hcontract.mp (Option.some_ne_none b)
      rcases hpast a att hatt hcaller with hcur | ⟨r', hr', hcase⟩
      · cases hcur
      · rcases hsettled.owner hfinished hr' hproduced with ⟨-, rfl, -⟩ | ⟨-, -, -, hone⟩
        · rcases hcase with herr | hsame
          · exact absurd rfl herr
          · exact Or.inl (Pc.returned.inj hsame)
        · exact Or.inr hone

/-- Two live sessions without streams. -/
def idleSessions : View Nat where
  isClosed _ := false
  numStreams _ := 0

/-- An attempt on session 8 times out, and its stream arrives afterwards; the next attempt,
    on session 7, succeeds. -/
def failOver : List (Act Choice Op) :=
  [.env (.add 7), .env (.add 8), .env (.call 0 100 10), .run 0 .go,
    .run 0 (.candidates idleSessions), .run 0 .go, .run 0 .go, .env (.tick 10), .run 0 .fire,
    .env (.opened 0 true none), .run 0 .go, .run 0 .go, .env (.opener 0), .env (.opener 0),
    .run 0 .go, .run 0 .go, .env (.opened 1 true none), .run 0 .result, .run 0 .go,
    .env (.opener 1)]

theorem late_stream_closed :
    ∃ s : Clients, Reach openStep streamOrError ⟨{}, []⟩ s ∧
      s.threads = [.returned ⟨some 1, none⟩] ∧
      ∃ late, s.shared.attempts[0]? = some late ∧ late.produced = some ⟨some 0, none⟩ ∧
        late.closes = 1 ∧ late.session ∈ s.shared.closed := by
  obtain ⟨s, hr, hp⟩ := Reach.of_follow openStep streamOrError ⟨{}, []⟩ failOver
    (fun s : Clients => decide (s.threads = [.returned ⟨some 1, none⟩]) &&
      (s.shared.attempts[0]?).any fun att : Attempt => decide (att.opener = .finished ∧ att.caller = 0 ∧
        att.produced = some ⟨some 0, none⟩ ∧ att.taken = false ∧ att.returned ≠ none))
    (by decide)
  obtain ⟨hthreads, hlate⟩ := Bool.and_eq_true_iff.mp hp
  replace hthreads := of_decide_eq_true hthreads
  cases hatt : s.shared.attempts[0]? with
  | none => rw [hatt] at hlate; cases hlate
  | some late =>
      rw [hatt] at hlate
      obtain ⟨hfinished, hcaller, hproduced, htaken, hreturned⟩ := of_decide_eq_true hlate
      obtain ⟨r, hr'⟩ := Option.ne_none_iff_exists'.mp hreturned
      obtain ⟨hany, hcontract⟩ := pooled_stream_one_owner
      have hclosed := (hany s hr.any 0 late hatt).2.1 r hr' htaken
      have hmine := (hcontract s hr 0 _ (by rw [hthreads]; rfl)).2 0 late hatt hcaller hfinished 0 none
        hproduced
      refine ⟨s, hr, hthreads, late, hatt, hproduced, hmine.resolve_left ?_, hclosed⟩
      decide

end VkTurnStreamOpen
