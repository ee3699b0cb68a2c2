import VkTurn.BondProofs
import VkTurn.GoTextProofs

/-! # Client authentication

    Inside the DTLS channel the client's `Authenticate` sends its token and waits
    for an acknowledgement; the server's `Verify` reads one record and answers it.
    Both work under a deadline.

    The channel carries records.  It may lose them, but it neither forges nor
    alters them: a read delivers a record that the other side has written.  (It is
    not said that it delivers a record only once or in order; nothing depends on
    that.)  Once a deadline has passed, reads and writes under it fail; before
    that they may fail as well, and a write may fail with its record sent.  The
    other side of `Verify` is `Authenticate`, or anybody.

    What a side knows when it returns is a fact about what was written to it
    (`verified`, `answered`), so the two agree. -/

namespace VkTurnSessionAuth

open ThreadPool GoText

/-! ## Records -/

def tokenBytes : Nat := 32

/-- Five seconds. -/
def authTimeout : Int := 5000000000

def authPrefix : Bytes := ascii "VKTA" ++ [1]

def authOK : Bytes := ascii "VKTA" ++ [1] ++ ascii "OK"

def authDenied : Bytes := ascii "VKTA" ++ [1] ++ ascii "NO"

/-- `Token`. -/
@[ext] structure Token where
  bytes : Bytes
  size : bytes.length = tokenBytes
  deriving DecidableEq

/-- The record that carries a token. -/
def Token.frame (token : Token) : Bytes := authPrefix ++ token.bytes

theorem Token.frame_inj {t t' : Token} (h : t.frame = t'.frame) : t = t' :=
  Token.ext (List.append_cancel_left h)

/-- `subtle.ConstantTimeCompare`. -/
def constantTimeCompare (x y : Bytes) : Nat := if x = y then 1 else 0

theorem constantTimeCompare_eq_one {x y : Bytes} : constantTimeCompare x y = 1 ↔ x = y := by
  rw [constantTimeCompare]
  split <;> simp [*]

/-! ## Reading and writing -/

/-- What a `Read` returned: the bytes in the buffer and the error. -/
structure Read where
  data : Bytes
  err : Option VkTurnBond.GoError
  deriving DecidableEq

/-- What a `Read` met: a record, with what the connection does if it does not fit
    the buffer (cut it, or fail), or a failure. -/
inductive Arrival where
  | record (r : Bytes) (tooLong : Option VkTurnBond.GoError)
  | failed (data : Bytes) (e : VkTurnBond.GoError)
  deriving DecidableEq

/-- `conn.Read` into a buffer of the given size. -/
def Arrival.read (size : Nat) : Arrival → Read
  | .record r tooLong =>
      if r.length ≤ size then ⟨r, none⟩
      else
        match tooLong with
        | none => ⟨r.take size, none⟩
        | some e => ⟨[], some e⟩
  | .failed data e => ⟨data.take size, some e⟩

def errShortWrite : VkTurnBond.GoError where
  text := ascii "short write"

/-- `writeFull`. -/
def writeFull (r : VkTurnBond.WriteResult) (payload : Bytes) : Option VkTurnBond.GoError :=
  match r.err with
  | some e => some e
  | none => if r.n ≠ payload.length then some errShortWrite else none

/-- The errors of `Authenticate`: "set client authentication deadline: %w", "send
    client authentication: %w", "read client authentication acknowledgement: %w" and
    `ErrRejected`. -/
inductive AuthError where
  | setDeadline (e : VkTurnBond.GoError)
  | send (e : VkTurnBond.GoError)
  | readAck (e : VkTurnBond.GoError)
  | rejected
  deriving DecidableEq

/-- The errors of `Verify`: "set client authentication deadline: %w", "read client
    authentication: %w", "client authentication failed" and "acknowledge client
    authentication: %w". -/
inductive VerifyError where
  | setDeadline (e : VkTurnBond.GoError)
  | read (e : VkTurnBond.GoError)
  | failed
  | acknowledge (e : VkTurnBond.GoError)
  deriving DecidableEq

/-- What `Authenticate` makes of the acknowledgement. -/
def authResult (r : Read) : Option AuthError :=
  match r.err with
  | some e => some (.readAck e)
  | none =>
      if r.data.length ≠ authOK.length ∨ constantTimeCompare r.data authOK ≠ 1 then
        some .rejected
      else none

/-- The test of `Verify`. -/
def valid (token : Token) (r : Read) : Bool :=
  r.err.isNone && r.data.length = token.frame.length &&
    constantTimeCompare r.data token.frame = 1

/-- What `Verify` returns behind its denial. -/
def denial : Option VkTurnBond.GoError → VerifyError
  | some e => .read e
  | none => .failed

/-- The buffer of `Verify`. -/
def Token.bufferSize (token : Token) : Nat := token.frame.length + 1

/-- The buffer of `Authenticate`. -/
def ackBufferSize : Nat := authOK.length + 1

/-- A record of which `Verify` has read all without error is valid if it is that of
    its token. -/
theorem valid_ok {token : Token} {data : Bytes} :
    valid token ⟨data, none⟩ = true ↔ data = token.frame := by
  rw [valid, Bool.and_eq_true, Bool.and_eq_true, decide_eq_true_eq, decide_eq_true_eq,
    constantTimeCompare_eq_one]
  constructor
  · rintro ⟨-, h⟩
    exact h
  · rintro rfl
    exact ⟨⟨rfl, rfl⟩, rfl⟩

theorem authResult_ok (data : Bytes) :
    authResult ⟨data, none⟩ = if data = authOK then none else some .rejected := by
  by_cases h : data = authOK
  · rw [if_pos h, h]
    rfl
  · rw [if_neg h]
    exact if_pos (Or.inr fun hc => h (constantTimeCompare_eq_one.mp hc))

/-- A record that fits the buffer is read as it is, and nothing else is read as a
    record that does. -/
theorem Arrival.read_record {size : Nat} {r data : Bytes}
    {tooLong : Option VkTurnBond.GoError} (hdata : data.length < size)
    (h : (Arrival.record r tooLong).read size = ⟨data, none⟩) : r = data := by
  simp only [Arrival.read] at h
  split at h
  · exact congrArg Read.data h
  · rename_i hlong
    cases tooLong with
    | some e => cases congrArg Read.err h
    | none =>
        -- it was cut, so that the buffer is full
        have hcut : (r.take size).length = data.length :=
          congrArg (List.length ∘ Read.data) h
        rw [List.length_take] at hcut
        omega

/-- What a record without error is read as. -/
theorem Arrival.read_err (size : Nat) (r : Bytes) (tooLong : Option VkTurnBond.GoError) :
    (∃ data, (Arrival.record r tooLong).read size = ⟨data, none⟩) ∨
      ∃ e, ((Arrival.record r tooLong).read size).err = some e := by
  cases he : ((Arrival.record r tooLong).read size).err with
  | none => exact Or.inl ⟨((Arrival.record r tooLong).read size).data, by rw [← he]⟩
  | some e => exact Or.inr ⟨e, rfl⟩

theorem Arrival.read_fits {size : Nat} {r : Bytes} (h : r.length ≤ size)
    (tooLong : Option VkTurnBond.GoError) :
    (Arrival.record r tooLong).read size = ⟨r, none⟩ := if_pos h

/-- **ONE RECORD IS VALID**: of everything a `Read` can meet, `Verify` accepts the
    one record of its token. -/
theorem valid_iff (token : Token) (a : Arrival) :
    valid token (a.read token.bufferSize) = true ↔
      ∃ tooLong, a = .record token.frame tooLong := by
  have hfits : token.frame.length < token.bufferSize := Nat.lt_succ_self _
  constructor
  · intro h
    cases a with
    | failed data e => cases h
    | record r tooLong =>
        rcases Arrival.read_err token.bufferSize r tooLong with ⟨data, hread⟩ | ⟨e, herr⟩
        · rw [hread, valid_ok] at h
          subst h
          exact ⟨tooLong, congrArg (Arrival.record · tooLong) (Arrival.read_record hfits hread)⟩
        · rw [valid, herr] at h
          cases h
  · rintro ⟨tooLong, rfl⟩
    rw [Arrival.read_fits hfits.le, valid_ok]

/-- `Authenticate` returns nil for the acknowledgement alone. -/
theorem authResult_none {a : Arrival} (h : authResult (a.read ackBufferSize) = none) :
    ∃ tooLong, a = .record authOK tooLong := by
  cases a with
  | failed data e => cases h
  | record r tooLong =>
      rcases Arrival.read_err ackBufferSize r tooLong with ⟨data, hread⟩ | ⟨e, herr⟩
      · rw [hread, authResult_ok] at h
        split at h
        · rename_i hdata
          subst hdata
          have hr := Arrival.read_record (Nat.lt_succ_self _) hread
          exact ⟨tooLong, congrArg (Arrival.record · tooLong) hr⟩
        · cases h
      · rw [authResult, herr] at h
        cases h

/-- And `ErrRejected` for a record that is not the acknowledgement. -/
theorem authResult_rejected {a : Arrival}
    (h : authResult (a.read ackBufferSize) = some .rejected) :
    ∃ r tooLong, a = .record r tooLong ∧ r ≠ authOK := by
  cases a with
  | failed data e => cases h
  | record r tooLong =>
      have hfits : authOK.length ≤ ackBufferSize := Nat.le_succ _
      refine ⟨r, tooLong, rfl, ?_⟩
      rintro rfl
      rw [Arrival.read_fits hfits, authResult_ok, if_pos rfl] at h
      cases h

/-! ## The two sides -/

/-- Whom a session is between.  The other side of `Verify` is `Authenticate` with a
    token, or somebody who writes whatever they like.  The contexts may have
    deadlines. -/
structure Config where
  client : Option Token
  server : Token
  clientCtx : Option Int
  serverCtx : Option Int

/-- Where `Authenticate` is. -/
inductive Client where
  | start
  | write
  | read
  | returned (err : Option AuthError)
  deriving DecidableEq

/-- Where `Verify` is. -/
inductive Server where
  | start
  | read
  | deny (readErr : Option VkTurnBond.GoError)
  | acknowledge
  | returned (err : Option VerifyError)
  deriving DecidableEq

/-- The two sides, the clock, their deadlines, the records each has written to the
    other, and what the `Read` of `Verify` met. -/
structure Session where
  client : Client := .start
  server : Server := .start
  now : Int := 0
  clientDeadline : Option Int := none
  serverDeadline : Option Int := none
  toServer : List Bytes := []
  toClient : List Bytes := []
  arrival : Option Arrival := none

def newSession : Session := {}

/-- The deadline that `setAuthenticationDeadline` sets. -/
def authDeadline (now : Int) (ctx : Option Int) : Int :=
  match ctx with
  | none => now + authTimeout
  | some d => if d < now + authTimeout then d else now + authTimeout

/-- What a connection answers to a call.  A write that returns `r` may have sent its
    record or not. -/
inductive Answer where
  | deadlineSet (err : Option VkTurnBond.GoError)
  | wrote (r : VkTurnBond.WriteResult) (sent : Bool)
  | met (a : Arrival)
  deriving DecidableEq

/-- What it can answer under a deadline, when the records of the other side are as
    given. -/
def possible (now : Int) (deadline : Option Int) (written : List Bytes) : Answer → Bool
  | .deadlineSet _ => true
  | .wrote r sent => deadline.all (now < ·) || r.err.isSome && !sent
  | .met (.record r _) => deadline.all (now < ·) && r ∈ written
  | .met (.failed _ _) => true

/-- A step: a call of one side is answered; a record of another peer; time passes;
    the context of a side is cancelled, which brings its deadline forward. -/
inductive Choice where
  | client (a : Answer)
  | server (a : Answer)
  | peer (r : Bytes)
  | tick (t : Nat)
  | cancelClient
  | cancelServer
  deriving DecidableEq

/-- `Authenticate` returns; its deferred function clears the deadline. -/
def Session.clientReturns (s : Session) (err : Option AuthError) : Session :=
  { s with client := .returned err, clientDeadline := none }

/-- `Verify` returns. -/
def Session.serverReturns (s : Session) (err : Option VerifyError) : Session :=
  { s with server := .returned err, serverDeadline := none }

/-- A record, if it was sent. -/
def records (sent : Bool) (r : Bytes) : List Bytes := if sent then [r] else []

/-- One section of `Authenticate`. -/
def clientStep (cfg : Config) (token : Token) (s : Session) :
    Client → Answer → Option Session
  | .start, .deadlineSet (some e) =>
      some { s with client := .returned (some (.setDeadline e)) }
  | .start, .deadlineSet none =>
      some { s with client := .write
                    clientDeadline := some (authDeadline s.now cfg.clientCtx) }
  | .write, .wrote r sent =>
      let s := { s with toServer := s.toServer ++ records sent token.frame }
      match writeFull r token.frame with
      | some e => some (s.clientReturns (some (.send e)))
      | none => some { s with client := .read }
  | .read, .met a => some (s.clientReturns (authResult (a.read ackBufferSize)))
  | _, _ => none

/-- One section of `Verify`. -/
def serverStep (cfg : Config) (s : Session) : Server → Answer → Option Session
  | .start, .deadlineSet (some e) =>
      some { s with server := .returned (some (.setDeadline e)) }
  | .start, .deadlineSet none =>
      some { s with server := .read
                    serverDeadline := some (authDeadline s.now cfg.serverCtx) }
  | .read, .met a =>
      let r := a.read cfg.server.bufferSize
      some { s with server := if valid cfg.server r then .acknowledge else .deny r.err
                    arrival := some a }
  | .deny readErr, .wrote _ sent =>
      some ({ s with toClient := s.toClient ++ records sent authDenied }.serverReturns
        (some (denial readErr)))
  | .acknowledge, .wrote r sent =>
      some ({ s with toClient := s.toClient ++ records sent authOK }.serverReturns
        ((writeFull r authOK).map .acknowledge))
  | _, _ => none

/-- One step of a session. -/
def sessionStep (cfg : Config) (s : Session) : Choice → Option Session
  | .client a =>
      match cfg.client with
      | none => none
      | some token =>
          if possible s.now s.clientDeadline s.toClient a then
            clientStep cfg token s s.client a
          else none
  | .server a =>
      if possible s.now s.serverDeadline s.toServer a then serverStep cfg s s.server a
      else none
  | .peer r =>
      if cfg.client.isNone then some { s with toServer := s.toServer ++ [r] } else none
  | .tick t => some { s with now := s.now + t }
  | .cancelClient => some { s with clientDeadline := s.clientDeadline.map fun _ => s.now }
  | .cancelServer => some { s with serverDeadline := s.serverDeadline.map fun _ => s.now }

/-- Every state of a session. -/
abbrev SessionReach (cfg : Config) : Session → Prop :=
  Reach (sessionStep cfg) anyStep newSession

/-! ## What a step can do -/

/-- The steps of a session, as far as the records and the returns go. -/
inductive Moves (cfg : Config) (s : Session) : Session → Prop where
  | unset (e : VkTurnBond.GoError) : s.client = .start →
      Moves cfg s { s with client := .returned (some (.setDeadline e)) }
  | begins (d : Option Int) : s.client = .start →
      Moves cfg s { s with client := .write, clientDeadline := d }
  | sends (token : Token) (sent : Bool) (e : VkTurnBond.GoError) : cfg.client = some token →
      s.client = .write →
      Moves cfg s ({ s with toServer := s.toServer ++ records sent token.frame }.clientReturns
        (some (.send e)))
  | sent (token : Token) (sent : Bool) : cfg.client = some token → s.client = .write →
      Moves cfg s
        { s with toServer := s.toServer ++ records sent token.frame, client := .read }
  | hears (a : Arrival) : s.client = .read →
      (∀ r tooLong, a = .record r tooLong → r ∈ s.toClient) →
      Moves cfg s (s.clientReturns (authResult (a.read ackBufferSize)))
  | serverUnset (e : VkTurnBond.GoError) : s.server = .start →
      Moves cfg s { s with server := .returned (some (.setDeadline e)) }
  | serverBegins (d : Option Int) : s.server = .start →
      Moves cfg s { s with server := .read, serverDeadline := d }
  | accepts (a : Arrival) : s.server = .read →
      (∀ r tooLong, a = .record r tooLong → r ∈ s.toServer) →
      valid cfg.server (a.read cfg.server.bufferSize) = true →
      Moves cfg s { s with server := .acknowledge, arrival := some a }
  | refuses (a : Arrival) (e : Option VkTurnBond.GoError) : s.server = .read →
      (∀ r tooLong, a = .record r tooLong → r ∈ s.toServer) →
      valid cfg.server (a.read cfg.server.bufferSize) = false →
      Moves cfg s { s with server := .deny e, arrival := some a }
  | denies (readErr : Option VkTurnBond.GoError) (sent : Bool) : s.server = .deny readErr →
      Moves cfg s ({ s with toClient := s.toClient ++ records sent authDenied }.serverReturns
        (some (denial readErr)))
  | acknowledges (sent : Bool) (err : Option VerifyError) : s.server = .acknowledge →
      Moves cfg s ({ s with toClient := s.toClient ++ records sent authOK }.serverReturns err)
  | peer (r : Bytes) : cfg.client = none →
      Moves cfg s { s with toServer := s.toServer ++ [r] }
  | time (now : Int) (clientDeadline serverDeadline : Option Int) :
      Moves cfg s { s with now := now, clientDeadline := clientDeadline
                           serverDeadline := serverDeadline }

section Inversion

variable {cfg : Config} {s s' : Session}

theorem possible_met {now : Int} {deadline : Option Int} {written : List Bytes} {a : Arrival}
    (h : possible now deadline written (.met a) = true) :
    ∀ r tooLong, a = .record r tooLong → r ∈ written := by
  rintro r tooLong rfl
  rw [possible, Bool.and_eq_true] at h
  exact of_decide_eq_true h.2

theorem clientStep_moves {token : Token} {a : Answer} (hcfg : cfg.client = some token)
    (hp : possible s.now s.clientDeadline s.toClient a = true)
    (h : clientStep cfg token s s.client a = some s') : Moves cfg s s' := by
  generalize hc : s.client = c at h
  unfold clientStep at h
  split at h
  · cases h
    exact .unset _ hc
  · cases h
    exact .begins _ hc
  · rename_i r sent
    cases hw : writeFull r token.frame with
    | none =>
        rw [hw] at h
        cases h
        exact .sent token sent hcfg hc
    | some e =>
        rw [hw] at h
        cases h
        exact .sends token sent e hcfg hc
  · cases h
    exact .hears _ hc (possible_met hp)
  · cases h

theorem serverStep_moves {a : Answer}
    (hp : possible s.now s.serverDeadline s.toServer a = true)
    (h : serverStep cfg s s.server a = some s') : Moves cfg s s' := by
  generalize hc : s.server = c at h
  unfold serverStep at h
  split at h
  · cases h
    exact .serverUnset _ hc
  · cases h
    exact .serverBegins _ hc
  · rename_i a
    cases hv : valid cfg.server (a.read cfg.server.bufferSize) with
    | true =>
        simp only [hv, if_true] at h
        cases h
        exact .accepts a hc (possible_met hp) hv
    | false =>
        simp only [hv] at h
        cases h
        exact .refuses a _ hc (possible_met hp) hv
  · cases h
    exact .denies _ _ hc
  · cases h
    exact .acknowledges _ _ hc
  · cases h

/-- A step does one of the listed moves. -/
theorem sessionStep_moves {a : Choice} (h : sessionStep cfg s a = some s') :
    Moves cfg s s' := by
  cases a with
  | client a =>
      simp only [sessionStep] at h
      split at h
      · cases h
      · split at h
        · exact clientStep_moves ‹_› ‹_› h
        · cases h
  | server a =>
      simp only [sessionStep] at h
      split at h
      · exact serverStep_moves ‹_› h
      · cases h
  | peer r =>
      simp only [sessionStep] at h
      split at h
      · cases h
        exact .peer r (Option.isNone_iff_eq_none.mp ‹_›)
      · cases h
  | tick t =>
      cases h
      exact .time _ _ _
  | cancelClient =>
      cases h
      exact .time _ _ _
  | cancelServer =>
      cases h
      exact .time _ _ _

end Inversion

/-! ## What each side knows -/

/-- `Verified token pc arrival written`: where `Verify` is, what its `Read` met and
    what it has written go together. -/
inductive Verified (token : Token) : Server → Option Arrival → List Bytes → Prop where
  | start : Verified token .start none []
  | reading : Verified token .read none []
  | unset (e : VkTurnBond.GoError) :
      Verified token (.returned (some (.setDeadline e))) none []
  | denying (a : Arrival) (e : Option VkTurnBond.GoError) :
      valid token (a.read token.bufferSize) = false →
      Verified token (.deny e) (some a) []
  | denied (a : Arrival) (e : VerifyError) (sent : Bool) :
      valid token (a.read token.bufferSize) = false →
      Verified token (.returned (some e)) (some a) (records sent authDenied)
  | acknowledging (a : Arrival) : valid token (a.read token.bufferSize) = true →
      Verified token .acknowledge (some a) []
  | acknowledged (a : Arrival) (err : Option VerifyError) (sent : Bool) :
      valid token (a.read token.bufferSize) = true →
      Verified token (.returned err) (some a) (records sent authOK)

/-- What `Authenticate` knows when it has returned. -/
def Answered (written : List Bytes) : Client → Prop
  | .returned none => authOK ∈ written
  | .returned (some .rejected) => ∃ r ∈ written, r ≠ authOK
  | _ => True

/-- The records on their way are those of the client, if there is one, and what the
    `Read` of `Verify` met is one of them. -/
structure Carried (cfg : Config) (s : Session) : Prop where
  sent : ∀ token, cfg.client = some token → ∀ r ∈ s.toServer, r = token.frame
  met : ∀ r tooLong, s.arrival = some (.record r tooLong) → r ∈ s.toServer

theorem answered_mono {written more : List Bytes} {c : Client} (h : Answered written c) :
    Answered (written ++ more) c := by
  cases c with
  | returned err =>
      cases err with
      | none => exact List.mem_append_left _ h
      | some e =>
          cases e with
          | rejected =>
              obtain ⟨r, hr, hne⟩ := h
              exact ⟨r, List.mem_append_left _ hr, hne⟩
          | _ => exact trivial
  | _ => exact trivial

theorem answered_reads {written : List Bytes} {a : Arrival}
    (h : ∀ r tooLong, a = .record r tooLong → r ∈ written) :
    Answered written (.returned (authResult (a.read ackBufferSize))) := by
  cases hres : authResult (a.read ackBufferSize) with
  | none =>
      obtain ⟨tooLong, ha⟩ := authResult_none hres
      exact h _ _ ha
  | some e =>
      cases e with
      | rejected =>
          obtain ⟨r, tooLong, ha, hne⟩ := authResult_rejected hres
          exact ⟨r, h _ _ ha, hne⟩
      | _ => exact trivial

theorem mem_records {sent : Bool} {r x : Bytes} (h : x ∈ records sent r) : x = r := by
  cases sent with
  | true => exact List.mem_singleton.mp h
  | false => cases h

section Steps

variable {cfg : Config} {s s' : Session}

theorem Moves.verified (h : Moves cfg s s')
    (hI : Verified cfg.server s.server s.arrival s.toClient) :
    Verified cfg.server s'.server s'.arrival s'.toClient := by
  generalize harr : s.arrival = arrival at hI
  generalize hto : s.toClient = written at hI
  cases h with
  | serverUnset e hs =>
      rw [hs] at hI
      cases hI
      show Verified cfg.server _ s.arrival s.toClient
      rw [harr, hto]
      exact .unset e
  | serverBegins d hs =>
      rw [hs] at hI
      cases hI
      show Verified cfg.server _ s.arrival s.toClient
      rw [harr, hto]
      exact .reading
  | accepts a hs _ hv =>
      rw [hs] at hI
      cases hI
      show Verified cfg.server _ _ s.toClient
      rw [hto]
      exact .acknowledging a hv
  | refuses a e hs _ hv =>
      rw [hs] at hI
      cases hI
      show Verified cfg.server _ _ s.toClient
      rw [hto]
      exact .denying a e hv
  | denies e sent hs =>
      rw [hs] at hI
      cases hI with
      | denying a _ hv =>
          show Verified cfg.server _ s.arrival (s.toClient ++ _)
          rw [harr, hto, List.nil_append]
          exact .denied a _ sent hv
  | acknowledges sent err hs =>
      rw [hs] at hI
      cases hI with
      | acknowledging a hv =>
          show Verified cfg.server _ s.arrival (s.toClient ++ _)
          rw [harr, hto, List.nil_append]
          exact .acknowledged a err sent hv
  | _ =>
      rw [← harr, ← hto] at hI
      exact hI

theorem Moves.answered (h : Moves cfg s s') (hI : Answered s.toClient s.client) :
    Answered s'.toClient s'.client := by
  cases h with
  | hears a _ hmet => exact answered_reads hmet
  | denies e sent _ => exact answered_mono hI
  | acknowledges sent err _ => exact answered_mono hI
  | unset e _ => exact trivial
  | begins d _ => exact trivial
  | sends token sent e _ _ => exact trivial
  | sent token sent _ _ => exact trivial
  | _ => exact hI

theorem Carried.write (hI : Carried cfg s) {token : Token} (hcfg : cfg.client = some token)
    (sent : Bool) :
    Carried cfg { s with toServer := s.toServer ++ records sent token.frame } := by
  refine ⟨?_, fun r tooLong hr => List.mem_append_left _ (hI.met r tooLong hr)⟩
  intro t ht r hr
  rcases List.mem_append.mp hr with hold | hnew
  · exact hI.sent t ht r hold
  · obtain rfl : token = t := Option.some.inj (hcfg.symm.trans ht)
    exact mem_records hnew

theorem Moves.carried (h : Moves cfg s s') (hI : Carried cfg s) : Carried cfg s' := by
  cases h with
  | sends token sent e hcfg _ => exact ⟨(hI.write hcfg sent).sent, (hI.write hcfg sent).met⟩
  | sent token sent hcfg _ => exact ⟨(hI.write hcfg sent).sent, (hI.write hcfg sent).met⟩
  | accepts a _ hmet _ =>
      exact ⟨hI.sent, fun r tooLong hr => hmet r tooLong (Option.some.inj hr)⟩
  | refuses a e _ hmet _ =>
      exact ⟨hI.sent, fun r tooLong hr => hmet r tooLong (Option.some.inj hr)⟩
  | peer r hcfg =>
      refine ⟨fun token ht => ?_, fun x tooLong hx => List.mem_append_left _ (hI.met x tooLong hx)⟩
      rw [hcfg] at ht
      cases ht
  | _ => exact ⟨hI.sent, hI.met⟩

end Steps

section Reached

variable {cfg : Config} {s : Session}

/-- **VERIFIED**: throughout every session, what `Verify` has written and returned is
    what its `Read` met. -/
theorem verified (h : SessionReach cfg s) :
    Verified cfg.server s.server s.arrival s.toClient := by
  refine Reach.invariant (I := fun s : Session =>
    Verified cfg.server s.server s.arrival s.toClient)
    (show Verified cfg.server newSession.server newSession.arrival newSession.toClient from
      .start) ?_ h
  intro s a s' _ hI _ hs
  exact (sessionStep_moves hs).verified hI

/-- **ANSWERED**: throughout every session, what `Authenticate` has returned is what
    was written to it. -/
theorem answered (h : SessionReach cfg s) : Answered s.toClient s.client := by
  refine Reach.invariant (I := fun s : Session => Answered s.toClient s.client)
    (show Answered newSession.toClient newSession.client from trivial) ?_ h
  intro s a s' _ hI _ hs
  exact (sessionStep_moves hs).answered hI

theorem carried (h : SessionReach cfg s) : Carried cfg s := by
  refine Reach.invariant (I := Carried cfg)
    ⟨fun _ _ _ hr => (by cases hr), fun _ _ hr => (by cases hr)⟩ ?_ h
  intro s a s' _ hI _ hs
  exact (sessionStep_moves hs).carried hI

/-- A `Verify` that has returned nil has met the record of its token. -/
theorem met_of_returned (h : SessionReach cfg s) (hret : s.server = .returned none) :
    ∃ tooLong, s.arrival = some (.record cfg.server.frame tooLong) := by
  have hv := verified h
  rw [hret] at hv
  generalize s.arrival = arrival at hv
  generalize s.toClient = written at hv
  cases hv with
  | acknowledged a _ sent hvalid =>
      obtain ⟨tooLong, rfl⟩ := (valid_iff cfg.server a).mp hvalid
      exact ⟨tooLong, rfl⟩

/-- What `Verify` has written answers what it has met: the acknowledgement the record
    of its token, and the denial anything else. -/
theorem written_answers (h : SessionReach cfg s) {r : Bytes} (hr : r ∈ s.toClient) :
    ∃ a, s.arrival = some a ∧
      (r = authOK ∧ valid cfg.server (a.read cfg.server.bufferSize) = true ∨
        r = authDenied ∧ valid cfg.server (a.read cfg.server.bufferSize) = false) := by
  have hv := verified h
  generalize s.arrival = arrival at hv
  generalize s.server = pc at hv
  generalize s.toClient = written at hv hr
  cases hv with
  | denied a e sent hvalid => exact ⟨a, rfl, Or.inr ⟨mem_records hr, hvalid⟩⟩
  | acknowledged a err sent hvalid => exact ⟨a, rfl, Or.inl ⟨mem_records hr, hvalid⟩⟩
  | _ => cases hr

/-- A record of its token that `Verify` has met was written by a client with that
    token. -/
theorem token_of_met (h : SessionReach cfg s) {token : Token} (hcfg : cfg.client = some token)
    {tooLong : Option VkTurnBond.GoError}
    (hmet : s.arrival = some (.record cfg.server.frame tooLong)) : token = cfg.server := by
  have hI := carried h
  exact (Token.frame_inj (hI.sent token hcfg _ (hI.met _ _ hmet))).symm

end Reached

/-- **AGREEMENT**: in every state of every session, for all tokens, whatever is lost,
    whenever deadlines pass and whatever calls fail,

    * `Verify` has returned nil only if the record its `Read` met is the one of its
      token, whoever the peer is and whatever it writes;
    * `Authenticate` has returned nil only if the tokens are the same and `Verify` has
      written the acknowledgement;
    * if the tokens differ neither has returned nil;
    * if they are the same and the `Read` of `Verify` met the client's record,
      `Authenticate` has not returned `ErrRejected`. -/
theorem authentication_agreement (cfg : Config) (s : Session) (h : SessionReach cfg s) :
    (s.server = .returned none →
      ∃ tooLong, s.arrival = some (.record (authPrefix ++ cfg.server.bytes) tooLong)) ∧
    ∀ token, cfg.client = some token →
      (s.client = .returned none → token = cfg.server ∧ authOK ∈ s.toClient) ∧
      (token ≠ cfg.server → s.client ≠ .returned none ∧ s.server ≠ .returned none) ∧
      (token = cfg.server → ∀ tooLong, s.arrival = some (.record token.frame tooLong) →
        s.client ≠ .returned (some .rejected)) := by
  have hanswered := answered h
  refine ⟨met_of_returned h, ?_⟩
  intro token hcfg
  have hagree : s.client = .returned none → token = cfg.server ∧ authOK ∈ s.toClient := by
    intro hret
    rw [hret] at hanswered
    have hok : authOK ∈ s.toClient := hanswered
    obtain ⟨a, harr, ⟨-, hvalid⟩ | ⟨hne, -⟩⟩ := written_answers h hok
    · obtain ⟨tooLong, rfl⟩ := (valid_iff cfg.server a).mp hvalid
      exact ⟨token_of_met h hcfg harr, hok⟩
    · exact absurd hne (by decide)
  refine ⟨hagree, ?_, ?_⟩
  · intro hne
    refine ⟨fun hret => hne (hagree hret).1, fun hret => ?_⟩
    obtain ⟨tooLong, hmet⟩ := met_of_returned h hret
    exact hne (token_of_met h hcfg hmet)
  · intro heq tooLong hmet hret
    rw [hret] at hanswered
    obtain ⟨r, hr, hne⟩ := hanswered
    obtain ⟨a, harr, ⟨hok, -⟩ | ⟨-, hinvalid⟩⟩ := written_answers h hr
    · exact hne hok
    · obtain rfl := Option.some.inj (harr.symm.trans hmet)
      rw [heq, (valid_iff cfg.server _).mpr ⟨tooLong, rfl⟩] at hinvalid
      cases hinvalid

/-- A token. -/
def sevens : Token := ⟨List.replicate 32 7, rfl⟩

/-- Another one. -/
def eights : Token := ⟨List.replicate 32 8, rfl⟩

def between (client server : Token) : Config where
  client := some client
  server := server
  clientCtx := none
  serverCtx := none

/-- A session in which nothing is lost and nothing fails, up to the last read. -/
def exchange (client : Token) (answer : Bytes) : List Choice :=
  [.client (.deadlineSet none), .server (.deadlineSet none),
    .client (.wrote ⟨37, none⟩ true), .server (.met (.record client.frame none)),
    .server (.wrote ⟨7, none⟩ true), .client (.met (.record answer none))]

/-- With one token both sides return nil; with two, the client is rejected. -/
theorem agreed_and_rejected :
    (∃ s, SessionReach (between sevens sevens) s ∧ s.client = .returned none ∧
      s.server = .returned none ∧ authOK ∈ s.toClient) ∧
    ∃ s, SessionReach (between sevens eights) s ∧
      s.client = .returned (some .rejected) ∧ s.server ≠ .returned none := by
  refine ⟨?_, ?_⟩
  · obtain ⟨s, hr, hp⟩ := Reach.of_follow (sessionStep (between sevens sevens)) anyStep
      newSession (exchange sevens authOK)
      (fun s : Session => decide (s.client = .returned none ∧ s.server = .returned none))
      (by decide)
    obtain ⟨hclient, hserver⟩ := of_decide_eq_true hp
    exact ⟨s, hr, hclient, hserver,
      (((authentication_agreement _ s hr).2 sevens rfl).1 hclient).2⟩
  · obtain ⟨s, hr, hp⟩ := Reach.of_follow (sessionStep (between sevens eights)) anyStep
      newSession (exchange sevens authDenied)
      (fun s : Session => decide (s.client = .returned (some .rejected))) (by decide)
    have hne : sevens ≠ eights := by decide
    exact ⟨s, hr, of_decide_eq_true hp,
      (((authentication_agreement _ s hr).2 sevens rfl).2.1 hne).2⟩

end VkTurnSessionAuth
