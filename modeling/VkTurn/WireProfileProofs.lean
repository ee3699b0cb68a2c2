import VkTurn.AcknowledgementProofs

/-! # One wire profile on both ends

    KCP only works when both ends use the same MTU and the same Reed-Solomon
    shards.  Three validators watch over this: `validateTuning` at the start of
    each process, `validateBondHello` on both ends of the hello, and
    `ValidateBondHelloTuning` on the server.

    The legal profiles of the first two are the same, so a hello made from a
    legal tuning is written and read back; the third compares it with the
    server's own.  An acknowledgement is on record only behind that comparison
    (`acknowledged_fits`), so it means one profile on both ends. -/

namespace VkTurnWireProfile

open ThreadPool VkTurnStripe VkTurnBond VkTurnBondHello VkTurnServer VkTurnHandover
open VkTurnHomogeneity VkTurnAcknowledgement GoText

/-! ## The tuning of a process -/

/-- `tuningValues`. -/
structure TuningValues where
  window : Int
  interval : Int
  nodelay : Int
  resend : Int
  nc : Int
  mtu : Int
  smuxRecv : Int
  smuxStream : Int
  dataShards : Int
  parityShards : Int
  deriving DecidableEq, Repr

/-- The settings that have to be the same on both ends. -/
def TuningValues.wire (v : TuningValues) : Tuning where
  kcpMtu := v.mtu
  kcpDataShards := v.dataShards
  kcpParityShards := v.parityShards

/-- `math.MaxInt32`. -/
def maxInt32 : Int := 2147483647

/-- The errors of `validateTuning`, with what their texts print. -/
inductive TuningError where
  | windowRange (max : Int)
  | intervalRange
  | nodelayRange
  | resendRange (max : Int)
  | ncRange
  | fec (e : HelloError)
  | mtuRange (min max : Int)
  | smuxRecvRange (max : Int)
  | smuxStreamRange (max : Int)
  | smuxStreamExceeds
  deriving DecidableEq, Repr

/-- One check that appends its error. -/
def complain (bad : Prop) [Decidable bad] (e : TuningError) : List TuningError :=
  if bad then [e] else []

/-- `validateTuning`: the errors that it joins, none of them for `nil`. -/
def validateTuning (v : TuningValues) : List TuningError :=
  complain (v.window < 1 ∨ v.window > maxKCPWindow) (.windowRange maxKCPWindow)
    ++ complain (v.interval < 10 ∨ v.interval > 5000) .intervalRange
    ++ complain (v.nodelay ≠ 0 ∧ v.nodelay ≠ 1) .nodelayRange
    ++ complain (v.resend < 0 ∨ v.resend > maxInt32) (.resendRange maxInt32)
    ++ complain (v.nc ≠ 0 ∧ v.nc ≠ 1) .ncRange
    ++ (validateFECShards v.dataShards v.parityShards).toList.map .fec
    ++ (let maxMTU := maxKCPMTU v.dataShards v.parityShards
        complain (v.mtu < minKCPMTU ∨ v.mtu > maxMTU) (.mtuRange minKCPMTU maxMTU))
    ++ complain (v.smuxRecv < 1 ∨ v.smuxRecv > maxInt32) (.smuxRecvRange maxInt32)
    ++ (if v.smuxStream < 1 ∨ v.smuxStream > maxInt32 then [.smuxStreamRange maxInt32]
        else complain (v.smuxStream > v.smuxRecv) .smuxStreamExceeds)

/-- What the KCP library answered: the first error on the way to a session, and
    the result of `SetMtu`. -/
structure KCPEnd where
  err : Option GoError := none
  mtuAccepted : Bool := true
  deriving DecidableEq, Repr

/-- The settings a KCP session was given. -/
structure KCPSession where
  dataShards : Int
  parityShards : Int
  nodelay : Int
  interval : Int
  resend : Int
  nc : Int
  window : Int
  mtu : Int
  deriving DecidableEq, Repr

/-- The errors of `newKCPOverPacketConn`. -/
inductive KCPError where
  | invalidTuning (errs : List TuningError)
  | windowRange (max : Int)
  | library (e : GoError)
  | mtuRejected (mtu : Int)
  deriving DecidableEq, Repr

/-- `newKCPOverPacketConn` in a process with these settings. -/
def newKCPOverPacketConn (v : TuningValues) (window : Int) (kcp : KCPEnd) :
    Except KCPError KCPSession :=
  match validateTuning v with
  | e :: errs => .error (.invalidTuning (e :: errs))
  | [] =>
      if window < 1 ∨ window > maxKCPWindow then .error (.windowRange maxKCPWindow)
      else
        match kcp.err with
        | some e => .error (.library e)
        | none =>
            if kcp.mtuAccepted then
              .ok { dataShards := v.dataShards, parityShards := v.parityShards
                    nodelay := v.nodelay, interval := v.interval, resend := v.resend
                    nc := v.nc, window := window, mtu := v.mtu }
            else .error (.mtuRejected v.mtu)

/-! ## Two validators, one domain -/

theorem complain_eq_nil {bad : Prop} [Decidable bad] {e : TuningError} :
    complain bad e = [] ↔ ¬ bad := by
  unfold complain
  split <;> simp_all

/-- What an accepted tuning says about its wire profile. -/
theorem validateTuning_wire {v : TuningValues} (h : validateTuning v = []) :
    validateFECShards v.dataShards v.parityShards = none ∧
      ¬ (v.mtu < minKCPMTU ∨ v.mtu > maxKCPMTU v.dataShards v.parityShards) := by
  simp only [validateTuning, List.append_eq_nil_iff, complain_eq_nil, List.map_eq_nil_iff,
    Option.toList_eq_nil_iff] at h
  obtain ⟨⟨⟨⟨-, hfec⟩, hmtu⟩, -⟩, -⟩ := h
  exact ⟨hfec, hmtu⟩

/-- The hello of a process whose tuning was accepted is a valid hello. -/
theorem currentBondHello_valid {v : TuningValues} (hv : validateTuning v = [])
    {bondID : Bytes} (hid : isValidBondID bondID = true) {n : Int}
    (hn : 1 ≤ n ∧ n ≤ maxBondPaths) :
    validateBondHello (currentBondHello v.wire bondID n) = none := by
  obtain ⟨hfec, hmtu⟩ := validateTuning_wire hv
  have hpaths : ¬ (n < 1 ∨ n > maxBondPaths) := by omega
  simp only [validateBondHello, currentBondHello, TuningValues.wire, hid, Bool.not_true,
    Bool.false_eq_true, if_false, if_true, if_neg hpaths, hfec,
    show bondProtocolV2 ≠ bondProtocolV1 by decide]
  exact if_neg hmtu

/-- The server's comparison, on a valid hello that a process made of its own
    tuning. -/
theorem validateBondHelloTuning_current {v : TuningValues} {tuning : Tuning}
    {bondID : Bytes} {n : Int}
    (h : validateBondHello (currentBondHello v.wire bondID n) = none) :
    validateBondHelloTuning tuning (currentBondHello v.wire bondID n) = none ↔
      v.mtu = tuning.kcpMtu ∧ v.dataShards = tuning.kcpDataShards ∧
        v.parityShards = tuning.kcpParityShards := by
  have hv : (currentBondHello v.wire bondID n).version ≠ bondProtocolV1 := by
    show bondProtocolV2 ≠ bondProtocolV1
    decide
  rw [validateBondHelloTuning, h]
  show (if _ then _ else _) = none ↔ _
  rw [if_neg hv]
  constructor
  · intro hnone
    split at hnone
    · cases hnone
    · rename_i hmtu
      split at hnone
      · cases hnone
      · rename_i hfec
        exact ⟨not_not.mp hmtu, not_not.mp fun hd => hfec (Or.inl hd),
          not_not.mp fun hp => hfec (Or.inr hp)⟩
  · rintro ⟨hmtu, hdata, hparity⟩
    show (if v.mtu ≠ tuning.kcpMtu then _ else if v.dataShards ≠ tuning.kcpDataShards ∨
      v.parityShards ≠ tuning.kcpParityShards then _ else none) = none
    rw [if_neg (not_not.mpr hmtu), if_neg]
    rintro (hd | hp)
    · exact hd hdata
    · exact hp hparity

theorem newKCPOverPacketConn_wire {v : TuningValues} {window : Int} {kcp : KCPEnd}
    {sess : KCPSession} (h : newKCPOverPacketConn v window kcp = .ok sess) :
    sess.mtu = v.mtu ∧ sess.dataShards = v.dataShards ∧
      sess.parityShards = v.parityShards := by
  unfold newKCPOverPacketConn at h
  split at h
  · cases h
  · split at h
    · cases h
    · split at h
      · cases h
      · split at h
        · cases h
          exact ⟨rfl, rfl, rfl⟩
        · cases h

/-! ## Behind an acknowledgement -/

/-- What a control line leaves on the connection: the line or nothing. -/
theorem writeBondControlLine_records (w : WriteEnd) (line : Bytes) :
    (writeBondControlLine w line).1 ⊆ [line] := by
  unfold writeBondControlLine
  split
  · exact List.nil_subset _
  · split
    · exact List.nil_subset _
    · split <;> exact List.Subset.refl _

/-- A rejection is not an acknowledgement. -/
theorem ack_not_in_reject (w : WriteEnd) (code : Bytes) :
    bondHelloV2Ack ∉ (writeBondHelloReject w code).1 := by
  intro hmem
  unfold writeBondHelloReject at hmem
  split at hmem
  · cases hmem
  · exact ack_ne_reject code
      (List.mem_singleton.mp (writeBondControlLine_records w _ hmem))

/-- An acknowledged connection has said a hello that fits, and nothing is
    written on a connection that has not been accepted. -/
structure Acked (cfg : Config) (σ : Server) : Prop where
  fits : ∀ c, bondHelloV2Ack ∈ σ.records c →
    ∃ hello, σ.hellos c = some hello ∧ validateBondHelloTuning cfg.tuning hello = none
  blank : ∀ c, σ.leases.length ≤ c → σ.records c = []

/-- Before its hello nothing has been written on a connection. -/
def Silent (_ : Nat) (σ : Server) : VkTurnServer.Pc → Prop
  | .typeCheck c => σ.records c = []
  | .handshake c => σ.records c = []
  | .auth c => σ.records c = []
  | .session c => σ.records c = []
  | .readHello c => σ.records c = []
  | _ => True

section Step

variable {cfg : Config} {i : Nat} {σ σ' : Server} {t t' : VkTurnServer.Pc}
variable {new : List VkTurnServer.Pc}

/-- A record written on a connection: it was there, or it is one of these. -/
theorem mem_wrote {c : Conn} {rs : List Bytes} {r : Bytes}
    (h : r ∈ (σ.wrote c rs).records c) : r ∈ σ.records c ∨ r ∈ rs := by
  rw [show (σ.wrote c rs).records c = σ.records c ++ rs from Function.update_self ..] at h
  exact List.mem_append.mp h

theorem fits_step (h : VkTurnServer.Moves cfg i σ t σ' t' new) (hI : Acked cfg σ)
    (hS : Silent i σ t) (hE : Entering cfg i σ t) {c : Conn} (hc : t.conn = some c)
    (hack : bondHelloV2Ack ∈ σ'.records c) :
    ∃ hello, σ'.hellos c = some hello ∧ validateBondHelloTuning cfg.tuning hello = none := by
  cases h with
  | helloMistuned d hello e _ =>
      obtain rfl : d = c := Option.some.inj hc
      rw [show (σ.greeted d hello).records d = [] from hS] at hack
      cases hack
  | helloRead d hello _ =>
      obtain rfl : d = c := Option.some.inj hc
      rw [show (σ.greeted d hello).records d = [] from hS] at hack
      cases hack
  | rejectUnsent d hello code cause w rs e _ hw =>
      obtain rfl : d = c := Option.some.inj hc
      rcases mem_wrote hack with hold | hnew
      · exact hI.fits d hold
      · refine absurd ?_ (ack_not_in_reject w code)
        rw [hw]
        exact hnew
  | rejectSent d hello code cause w rs _ hw =>
      obtain rfl : d = c := Option.some.inj hc
      rcases mem_wrote hack with hold | hnew
      · exact hI.fits d hold
      · refine absurd ?_ (ack_not_in_reject w code)
        rw [hw]
        exact hnew
  | ackUnsent d hello w rs e _ =>
      obtain rfl : d = c := Option.some.inj hc
      exact ⟨hello, hE.profiled d hello rfl⟩
  | ackSent d hello w rs _ =>
      obtain rfl : d = c := Option.some.inj hc
      exact ⟨hello, hE.profiled d hello rfl⟩
  | called d hello g grp bond _ _ =>
      have hf := bondMoved_frame σ g grp bond
      rw [hf.records] at hack
      rw [hf.hellos]
      exact hI.fits c hack
  | released d o =>
      have hf := releaseConnection_frame σ d
      rw [hf.records] at hack
      rw [hf.hellos]
      exact hI.fits c hack
  | runCloses g grp bond _ _ => cases hc
  | unregistered g grp _ => cases hc
  | _ => exact hI.fits c hack

theorem silent_step (h : VkTurnServer.Moves cfg i σ t σ' t' new) (hS : Silent i σ t) :
    Silent i σ' t' := by
  cases h with
  | typed c => exact hS
  | shook c => exact hS
  | bonded c => exact hS
  | unbonded c => exact hS
  | sessionClosed c => exact hS
  | checked c hello =>
      rw [afterCheck]
      split <;> trivial
  | _ => trivial

theorem silent_keep {j : Nat} {u : VkTurnServer.Pc} (hS : Silent j σ u)
    (hconn : ∀ c, u.conn = some c → σ'.records c = σ.records c) : Silent j σ' u := by
  cases u with
  | typeCheck c | handshake c | auth c | session c | readHello c => exact (hconn c rfl).trans hS
  | _ => trivial

end Step

/-- **BEHIND AN ACKNOWLEDGEMENT**: in every state of a server, a connection with
    an acknowledgement on record has said a hello that passed the comparison. -/
theorem acknowledged_fits {cfg : Config} {limiter : VkTurnLimiter.ConnectionLimiter}
    {s : ServerPool} (h : ServerReach cfg limiter s) : Annotated (Acked cfg) Silent s := by
  refine Machine.owickiGries (M := serverMachine cfg) (J := ServerReach cfg limiter)
    (fun s hs => hs) (Acked cfg) Silent ?_ ?_ ?_ ?_ h
  · exact ⟨⟨fun c hc => (by cases hc), fun c _ => rfl⟩,
      fun i t ht => absurd ht (Option.some_ne_none t).symm⟩
  · intro s i t a σ' t' new hreach ht _ he hI hS
    have hm := VkTurnServer.exec_moves he
    refine ⟨⟨?_, ?_⟩, silent_step hm hS, ?_⟩
    · intro c hack
      by_cases hc : t.conn = some c
      · exact fits_step hm hI hS ((homogeneous hreach).2 i t ht) hc hack
      · obtain ⟨hhel, hrec, -⟩ := hm.conn_frame hc
        rw [hrec] at hack
        rw [hhel]
        exact hI.fits c hack
    · intro c hle
      rw [hm.conn_eq.2.2] at hle
      have hne : t.conn ≠ some c :=
        fun heq => Nat.not_lt.mpr hle (conn_accepted hreach ht heq)
      exact (hm.conn_frame hne).2.1.trans (hI.blank c hle)
    · intro n u hu
      cases hm with
      | startedNow c g grp _ _ =>
          rw [List.mem_singleton.mp hu]
          trivial
      | _ => cases hu
  · intro s i j t u a σ' t' new hreach hij ht hu he _ _ hS
    refine silent_keep hS fun c hc => ?_
    exact ((VkTurnServer.exec_moves he).conn_frame (handler_unique hreach hij ht hu hc)).2.1
  · intro s e σ' new hreach _ he hI
    have hh := outside_happens he
    obtain ⟨hhel, hrec, -⟩ := hh.frame
    refine ⟨⟨?_, ?_⟩, ?_, ?_⟩
    · rw [hhel, hrec]
      exact hI.fits
    · rw [hrec]
      exact fun c hle => hI.blank c (le_trans hh.leases_le hle)
    · intro n u hu
      cases hh with
      | accepted l lease _ =>
          rw [List.mem_singleton.mp hu]
          exact hI.blank _ (le_refl _)
      | _ => cases hu
    · intro j u _ hS
      exact silent_keep hS fun c _ => congrFun hrec c

/-! ## The agreement -/

/-- **ONE WIRE PROFILE**: for every two tunings of which the client's is accepted
    at its start, every valid bond ID and every number of paths, the client's
    hello is written and the server reads it back; the server's comparison
    accepts it exactly when MTU, data shards and parity shards are the same; and
    in every state of the server, a connection on which this hello was read and
    acknowledged has the same MTU and shards in the KCP sessions of both ends. -/
theorem wire_profile_agreement (arch : Arch) (c s : TuningValues)
    (hc : validateTuning c = []) (bondID : Bytes) (hid : isValidBondID bondID = true)
    (n : Int) (hn : 1 ≤ n ∧ n ≤ maxBondPaths) :
    (∃ record, writeBondHelloConfig wholeWrite (currentBondHello c.wire bondID n)
        = ([record], none) ∧
      readBondHelloConfig arch (wholeRead record)
        = (currentBondHello c.wire bondID n, none)) ∧
    (validateBondHelloTuning s.wire (currentBondHello c.wire bondID n) = none ↔
      c.mtu = s.mtu ∧ c.dataShards = s.dataShards ∧ c.parityShards = s.parityShards) ∧
    (∀ (cfg : Config) (limiter : VkTurnLimiter.ConnectionLimiter) (srv : ServerPool)
        (conn : Conn), cfg.tuning = s.wire → ServerReach cfg limiter srv →
      srv.shared.hellos conn = some (currentBondHello c.wire bondID n) →
      bondHelloV2Ack ∈ srv.shared.records conn →
      ∀ wc ws kc ks sc ss, newKCPOverPacketConn c wc kc = .ok sc →
        newKCPOverPacketConn s ws ks = .ok ss →
        sc.mtu = ss.mtu ∧ sc.dataShards = ss.dataShards ∧
          sc.parityShards = ss.parityShards) := by
  have hvalid := currentBondHello_valid hc hid hn
  refine ⟨?_, validateBondHelloTuning_current hvalid, ?_⟩
  · obtain ⟨record, hwrite, -, hread⟩ := bondHello_roundtrip arch hvalid
    exact ⟨record, hwrite, hread⟩
  · intro cfg limiter srv conn htuning hreach hhello hack wc ws kc ks sc ss hsc hss
    obtain ⟨hello, hsaid, hfits⟩ := (acknowledged_fits hreach).1.fits conn hack
    obtain rfl : currentBondHello c.wire bondID n = hello :=
      Option.some.inj (hhello.symm.trans hsaid)
    rw [htuning] at hfits
    obtain ⟨hmtu, hdata, hparity⟩ := (validateBondHelloTuning_current hvalid).mp hfits
    obtain ⟨hcm, hcd, hcp⟩ := newKCPOverPacketConn_wire hsc
    obtain ⟨hsm, hsd, hsp⟩ := newKCPOverPacketConn_wire hss
    exact ⟨(hcm.trans hmtu).trans hsm.symm, (hcd.trans hdata).trans hsd.symm,
      (hcp.trans hparity).trans hsp.symm⟩

/-- The built-in tuning. -/
def defaultTuning : TuningValues where
  window := 256
  interval := 20
  nodelay := 1
  resend := 2
  nc := 1
  mtu := 1200
  smuxRecv := 4 * 1024 * 1024
  smuxStream := 1 * 1024 * 1024
  dataShards := 0
  parityShards := 0

/-- The hello of a bond of two paths in a process with the built-in tuning. -/
def defaultHello : BondHello :=
  currentBondHello defaultTuning.wire (ascii "0123456789abcdef") 2

/-- A client with the built-in tuning: a server with FEC refuses its hello, one
    with the built-in tuning reads and acknowledges it, and both ends then run
    KCP with an MTU of 1200 and without FEC. -/
theorem default_profile_agreed :
    validateBondHelloTuning
        { defaultTuning with dataShards := 10, parityShards := 3 }.wire defaultHello ≠ none ∧
      ∃ (srv : ServerPool) (sc ss : KCPSession),
        ServerReach bondConfig fourConnections srv ∧
        srv.shared.hellos 0 = some defaultHello ∧
        bondHelloV2Ack ∈ srv.shared.records 0 ∧
        newKCPOverPacketConn defaultTuning 512 {} = .ok sc ∧
        newKCPOverPacketConn { defaultTuning with window := 1024 } 2048 {} = .ok ss ∧
        sc.mtu = ss.mtu ∧ sc.dataShards = ss.dataShards ∧
          sc.parityShards = ss.parityShards := by
  have hlegal : validateTuning defaultTuning = [] := by decide
  have hid : isValidBondID (ascii "0123456789abcdef") = true := by decide
  have hn : 1 ≤ (2 : Int) ∧ (2 : Int) ≤ maxBondPaths := by decide
  constructor
  · intro hfits
    have hiff := (wire_profile_agreement .bits64 defaultTuning
      { defaultTuning with dataShards := 10, parityShards := 3 } hlegal _ hid 2 hn).2.1
    exact absurd (hiff.mp hfits).2.1 (by decide)
  · obtain ⟨srv, hr, hp⟩ := Reach.of_follow (serverStep bondConfig) anyStep
      (newServer fourConnections) (enterBond 0 (helloRecord "2"))
      (fun s : ServerPool => decide (s.shared.hellos 0 = some defaultHello ∧
        bondHelloV2Ack ∈ s.shared.records 0)) (by decide)
    obtain ⟨hhello, hack⟩ := of_decide_eq_true hp
    refine ⟨srv, _, _, hr, hhello, hack, rfl, rfl, ?_⟩
    exact (wire_profile_agreement .bits64 defaultTuning
      { defaultTuning with window := 1024 } hlegal _ hid 2 hn).2.2 bondConfig
      fourConnections srv 0 rfl hr hhello hack 512 2048 {} {} _ _ rfl rfl

end VkTurnWireProfile
