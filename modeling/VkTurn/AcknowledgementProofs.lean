import VkTurn.HomogeneityProofs
import VkTurn.RegistrationProofs

/-! # What an acknowledgement is worth

    `add` writes `VKTURNBOND/2 OK` between its two locked sections, before it is
    decided whether the path joins: a path can still be refused because another
    one has created the group with another profile, because the group has its
    negotiated number of paths, or because the bond is closed or expired.  None
    of these late refusals sends anything.

    They are the only gap.  `timely` says of one step that it takes no late
    refusal, and `answers` that in a run of such steps every handler has given
    the answer that fits where it is: what is acknowledged joins the group
    registered under its ID, and what does not join gets one rejection. -/

namespace VkTurnAcknowledgement

open ThreadPool VkTurnStripe VkTurnBond VkTurnBondHello VkTurnServer VkTurnHandover
open VkTurnHomogeneity VkTurnRegistration GoText GoMap

/-! ## The property -/

/-- The connection joined the bond of a group that was then registered under
    the ID. -/
def Admitted (σ : Server) (c : Conn) (id : Bytes) : Prop :=
  ∃ (g : GroupRef) (grp : Group), ⟨c, g, some g⟩ ∈ σ.admissions ∧
    σ.objs[g]? = some grp ∧ grp.id = id

/-- The handler is between the acknowledgement and the end of `addWithCleanup`. -/
def joining : VkTurnServer.Pc → Bool
  | .join _ _ => true
  | .limit _ _ _ => true
  | .call _ _ _ => true
  | .adding _ _ _ _ => true
  | _ => false

/-- `add` has returned. -/
def returned : VkTurnServer.Pc → Bool
  | .closing _ _ => true
  | .releasing _ _ => true
  | .done _ _ => true
  | .accepted _ => true
  | _ => false

/-- Of each V2 hello that was accepted: an acknowledged path is admitted or its
    `add` is still at it; and once `add` has returned, a path that is not
    admitted has got one rejection and nothing else. -/
def AckSound (s : ServerPool) : Prop :=
  ∀ c hello, s.shared.hellos c = some hello → hello.version = bondProtocolV2 →
    (bondHelloV2Ack ∈ s.shared.records c →
      Admitted s.shared c hello.bondID ∨
        ∃ t ∈ s.threads, t.conn = some c ∧ joining t = true) ∧
    (∀ t ∈ s.threads, t.conn = some c → returned t = true →
      ¬ Admitted s.shared c hello.bondID →
      ∃ code, isValidBondRejectionCode code = true ∧
        s.shared.records c = [rejectRecord code])

/-! ## The condition -/

/-- The write of a control record returns no error. -/
def writeSucceeds : VkTurnServer.Pc → WriteEnd → Bool
  | .ack _ _, w => (writeBondHelloAck w).2.isNone
  | .reject _ _ code _, w => (writeBondHelloReject w code).2.isNone
  | _, _ => true

/-- Writes on the connections succeed. -/
def writesSucceed (s : ServerPool) : Act VkTurnServer.Choice VkTurnServer.Op → Bool
  | .run i (.write w) =>
      match s.threads[i]? with
      | some t => writeSucceeds t w
      | none => true
  | _ => true

/-- A handler is not refused late: in the second locked section the registered
    group has its profile, and at the limit the group has room. -/
def inTime (σ : Server) : VkTurnServer.Pc → Bool
  | .join _ hello =>
      hello.version ≠ bondProtocolV2 ||
        match σ.registered hello.bondID with
        | some grp => decide (grp.hello = hello)
        | none => true
  | .limit _ _ g =>
      match σ.objs[g]? with
      | some grp => !grp.full
      | none => true
  | _ => true

/-- When the `AddConn` of a V2 group looks, the bond is not closed and not
    expired. -/
def openFor (grp : Group) (tid : Nat) : Bool :=
  grp.hello.version ≠ bondProtocolV2 ||
    match grp.bond.threads[tid]? with
    | some (.addLock _) => !grp.bond.shared.bond.closed
    | some (.addTest _) => !grp.bond.shared.bond.emptyExpired
    | _ => true

/-- No late refusal is taken in this step. -/
def timely (s : ServerPool) (a : Act VkTurnServer.Choice VkTurnServer.Op) : Bool :=
  writesSucceed s a &&
    match a with
    | .run i _ =>
        match s.threads[i]? with
        | some t => inTime s.shared t
        | none => true
    | .env (.bond g (.run tid _)) =>
        match s.shared.objs[g]? with
        | some grp => openFor grp tid
        | none => true
    | _ => true

/-! ## What a handler knows of its answer -/

/-- Nothing has been read or written on the connection. -/
def Unheard (σ : Server) (c : Conn) : Prop := σ.hellos c = none ∧ σ.records c = []

/-- The `AddConn` of the connection has not looked at its bond for the last
    time. -/
def OnItsWay (σ : Server) (c : Conn) (hello : BondHello) (g : GroupRef) (tid : Nat) :
    Prop :=
  ∃ (grp : Group) (p : PathRef), σ.objs[g]? = some grp ∧ grp.hello = hello ∧
    (grp.bond.threads[tid]? = some (.addLock p) ∨
      grp.bond.threads[tid]? = some (.addTest p)) ∧
    connOf grp.bond p = some c

/-- The hello was read and nothing was answered. -/
def Heard (σ : Server) (c : Conn) (hello : BondHello) : Prop :=
  σ.hellos c = some hello ∧ σ.records c = []

/-- The hello was read, and acknowledged if it is V2. -/
def Promised (σ : Server) (c : Conn) (hello : BondHello) : Prop :=
  σ.hellos c = some hello ∧
    (hello.version = bondProtocolV2 → σ.records c = [bondHelloV2Ack])

/-- A V2 hello, if one was read, was acknowledged and its path admitted. -/
def Kept (σ : Server) (c : Conn) : Prop :=
  ∀ hello, σ.hellos c = some hello → hello.version = bondProtocolV2 →
    σ.records c = [bondHelloV2Ack] ∧ Admitted σ c hello.bondID

/-- A V2 hello, if one was read, was rejected. -/
def Refused (σ : Server) (c : Conn) : Prop :=
  ∀ hello, σ.hellos c = some hello → hello.version = bondProtocolV2 →
    ∃ code, isValidBondRejectionCode code = true ∧ σ.records c = [rejectRecord code]

/-- What holds of the connection of a handler, by where the handler is. -/
def Answer (_ : Nat) (σ : Server) : VkTurnServer.Pc → Prop
  | .typeCheck c => Unheard σ c
  | .handshake c => Unheard σ c
  | .auth c => Unheard σ c
  | .session c => Unheard σ c
  | .readHello c => Unheard σ c
  | .reject c hello _ _ => Heard σ c hello
  | .check c hello => Heard σ c hello
  | .ack c hello => Heard σ c hello
  | .join c hello => Promised σ c hello
  | .limit c hello _ => Promised σ c hello
  | .call c hello _ => Promised σ c hello
  | .adding c hello g tid => Promised σ c hello ∧ (hello.version = bondProtocolV2 →
      Admitted σ c hello.bondID ∨ OnItsWay σ c hello g tid)
  | .start c _ => Kept σ c
  | .accepted c => Kept σ c
  | .closing c _ => Refused σ c
  | .releasing c _ => Refused σ c
  | .done c _ => Refused σ c
  | _ => True

/-- Nobody has heard of a connection that has not been accepted. -/
def Untouched (σ : Server) : Prop := ∀ c, σ.leases.length ≤ c → Unheard σ c

theorem refused_of_unheard {σ : Server} {c : Conn} (h : Unheard σ c) : Refused σ c :=
  fun _ hh => (by cases h.1.symm.trans hh)

/-- A V1 hello needs no answer. -/
theorem refused_of_v1 {σ : Server} {c : Conn} {hello : BondHello}
    (h : σ.hellos c = some hello) (hv : hello.version ≠ bondProtocolV2) :
    Refused σ c := by
  intro hello' h' hv'
  obtain rfl : hello = hello' := Option.some.inj (h.symm.trans h')
  exact absurd hv' hv

/-! ## An `AddConn` on its way -/

/-- A step of the bond leaves an `AddConn` on its way where it is or a section
    further, unless it is the look at a closed bond, the look at an expired bond,
    or the listing of the path. -/
theorem addConn_step {arch : Arch} {b b' : Bond}
    {a : Act VkTurnBond.Choice VkTurnBond.Op} (h : bondStep arch b a = some b')
    {tid : Nat} {p : PathRef} {c : Conn} (hc : connOf b p = some c)
    (ht : b.threads[tid]? = some (.addLock p) ∨ b.threads[tid]? = some (.addTest p)) :
    connOf b' p = some c ∧
      ((b'.threads[tid]? = some (.addLock p) ∨ b'.threads[tid]? = some (.addTest p)) ∨
        (∃ x, a = .run tid x) ∧
          ((b.threads[tid]? = some (.addLock p) ∧ b.shared.bond.closed = true) ∨
            (b.threads[tid]? = some (.addTest p) ∧ b.shared.bond.emptyExpired = true) ∨
            (b.threads[tid]? = some (.addTest p) ∧
              b'.shared.log = b.shared.log ++ [.appended p]))) := by
  obtain ⟨u, hu, hup⟩ : ∃ u, b.threads[tid]? = some u ∧ (u = .addLock p ∨ u = .addTest p) := by
    rcases ht with ht | ht
    · exact ⟨_, ht, Or.inl rfl⟩
    · exact ⟨_, ht, Or.inr rfl⟩
  have hlt : tid < b.threads.length := (List.getElem?_eq_some_iff.mp hu).1
  refine ⟨connOf_step h hc, ?_⟩
  cases a with
  | run k a =>
      obtain ⟨t, σ', t', new, htk, he, rfl⟩ := Machine.step_run h
      have hm := VkTurnBond.exec_moves he
      have hat : (b.threads.set k t' ++ new)[tid]? = (b.threads.set k t')[tid]? :=
        List.getElem?_append_left (by simpa using hlt)
      by_cases hk : k = tid
      · subst hk
        obtain rfl : t = u := Option.some.inj (htk.symm.trans hu)
        have hself : (b.threads.set k t' ++ new)[k]? = some t' := by
          rw [hat, List.getElem?_set, if_pos rfl, if_pos hlt]
        rcases hup with rfl | rfl
        · cases hm with
          | addRefused _ _ hclosed => exact Or.inr ⟨⟨a, rfl⟩, Or.inl ⟨hu, hclosed⟩⟩
          | addLocked _ _ _ => exact Or.inl (Or.inr hself)
        · cases hm with
          | addExpired _ hexp => exact Or.inr ⟨⟨a, rfl⟩, Or.inr (Or.inl ⟨hu, hexp⟩)⟩
          | addAppended _ _ => exact Or.inr ⟨⟨a, rfl⟩, Or.inr (Or.inr ⟨hu, rfl⟩)⟩
      · refine Or.inl ?_
        show (b.threads.set k t' ++ new)[tid]? = _ ∨ (b.threads.set k t' ++ new)[tid]? = _
        rw [hat, List.getElem?_set, if_neg hk]
        exact ht
  | env e =>
      obtain ⟨σ', new, he, rfl⟩ := Machine.step_env h
      refine Or.inl ?_
      show (b.threads ++ new)[tid]? = _ ∨ (b.threads ++ new)[tid]? = _
      rw [List.getElem?_append_left hlt]
      exact ht

/-- Listing a path puts its admission on record. -/
theorem bondMoved_appended {σ : Server} {g : GroupRef} {grp : Group} {bond : Bond}
    {p : PathRef} {c : Conn}
    (hlog : bond.shared.log = grp.bond.shared.log ++ [.appended p])
    (hc : connOf bond p = some c) :
    ⟨c, g, get σ.groups grp.id⟩ ∈ (σ.bondMoved g grp bond).admissions := by
  rw [Server.bondMoved, hlog, List.drop_left, List.foldl_cons, List.foldl_nil]
  simp only [Server.bondEvent, hc]
  exact List.mem_append_right _ (List.mem_singleton_self _)

/-! ## Steps -/

theorem timely_run {s : ServerPool} {i : Nat} {a : VkTurnServer.Choice}
    {t : VkTurnServer.Pc} (h : timely s (.run i a) = true)
    (ht : s.threads[i]? = some t) :
    (∀ w, a = .write w → writeSucceeds t w = true) ∧ inTime s.shared t = true := by
  obtain ⟨h1, h2⟩ := Bool.and_eq_true_iff.mp h
  refine ⟨?_, ?_⟩
  · rintro w rfl
    simpa only [writesSucceed, ht] using h1
  · simpa only [ht] using h2

theorem timely_bond {s : ServerPool} {g : GroupRef} {tid : Nat}
    {x : VkTurnBond.Choice} {grp : Group}
    (h : timely s (.env (.bond g (.run tid x))) = true)
    (hg : s.shared.objs[g]? = some grp) : openFor grp tid = true := by
  obtain ⟨-, h2⟩ := Bool.and_eq_true_iff.mp h
  simpa only [hg] using h2

section Step

variable {cfg : Config} {i : Nat} {σ σ' : Server} {t t' : VkTurnServer.Pc}
variable {new : List VkTurnServer.Pc} {a : VkTurnServer.Choice}

theorem ack_succeeds {c : Conn} {hello : BondHello}
    (he : exec cfg i σ (.ack c hello) a = some (σ', t', new))
    (hw : ∀ w, a = .write w → writeSucceeds (.ack c hello) w = true) :
    σ' = σ.wrote c [bondHelloV2Ack] ∧ t' = .join c hello := by
  cases a with
  | write w =>
      have hnone : (writeBondHelloAck w).2 = none := Option.isNone_iff_eq_none.mp (hw w rfl)
      cases hwr : writeBondHelloAck w with
      | mk rs err =>
          rw [hwr] at hnone
          obtain rfl : err = none := hnone
          simp only [VkTurnServer.exec, hwr] at he
          cases he
          rw [writeBondControlLine_ok hwr]
          exact ⟨rfl, rfl⟩
  | _ => cases he

theorem reject_succeeds {c : Conn} {hello : BondHello} {code : Bytes} {cause : AddError}
    (he : exec cfg i σ (.reject c hello code cause) a = some (σ', t', new))
    (hw : ∀ w, a = .write w → writeSucceeds (.reject c hello code cause) w = true) :
    t' = .closing c (.rejected cause) := by
  cases a with
  | go =>
      simp only [VkTurnServer.exec] at he
      split at he <;> cases he
      rfl
  | write w =>
      have hnone : (writeBondHelloReject w code).2 = none :=
        Option.isNone_iff_eq_none.mp (hw w rfl)
      simp only [VkTurnServer.exec] at he
      split at he
      · split at he
        · rename_i hwr
          rw [hwr] at hnone
          cases hnone
        · cases he
          rfl
      · cases he
  | _ => cases he

/-- Whoever was admitted stays so, while admissions stay on record and groups
    keep their IDs. -/
theorem admitted_mono (hadm : σ.admissions ⊆ σ'.admissions)
    (hgroup : ∀ (g : GroupRef) (grp : Group), σ.objs[g]? = some grp →
      ∃ grp', σ'.objs[g]? = some grp' ∧ grp'.id = grp.id)
    {c : Conn} {id : Bytes} (h : Admitted σ c id) : Admitted σ' c id := by
  obtain ⟨g, grp, hin, hg, hid⟩ := h
  obtain ⟨grp', hg', hid'⟩ := hgroup g grp hg
  exact ⟨g, grp', hadm hin, hg', hid'.trans hid⟩

theorem admitted_step (h : VkTurnServer.Moves cfg i σ t σ' t' new) {c : Conn}
    {id : Bytes} (ha : Admitted σ c id) : Admitted σ' c id := by
  refine admitted_mono h.admissions_mono ?_ ha
  intro g grp hg
  obtain ⟨grp', hg', hm⟩ := h.group hg
  exact ⟨grp', hg', hm.id⟩

/-- What a handler knows survives where its connection is left alone, admissions
    stay, and its `AddConn` on its way stays on it or lists the path. -/
theorem answer_keep {j : Nat} {u : VkTurnServer.Pc} (hu : Answer j σ u)
    (hconn : ∀ c, u.conn = some c →
      σ'.hellos c = σ.hellos c ∧ σ'.records c = σ.records c)
    (hadm : ∀ c id, Admitted σ c id → Admitted σ' c id)
    (hway : ∀ c hello g tid, u = .adding c hello g tid →
      hello.version = bondProtocolV2 → OnItsWay σ c hello g tid →
      Admitted σ' c hello.bondID ∨ OnItsWay σ' c hello g tid) : Answer j σ' u := by
  have hun : ∀ c, u.conn = some c → Unheard σ c → Unheard σ' c := by
    intro c hc h
    obtain ⟨h1, h2⟩ := hconn c hc
    exact ⟨h1.trans h.1, h2.trans h.2⟩
  have hheard : ∀ c hello, u.conn = some c → Heard σ c hello → Heard σ' c hello := by
    intro c hello hc h
    obtain ⟨h1, h2⟩ := hconn c hc
    exact ⟨h1.trans h.1, h2.trans h.2⟩
  have hprom : ∀ c hello, u.conn = some c → Promised σ c hello → Promised σ' c hello := by
    intro c hello hc h
    obtain ⟨h1, h2⟩ := hconn c hc
    exact ⟨h1.trans h.1, fun hv => h2.trans (h.2 hv)⟩
  have hkept : ∀ c, u.conn = some c → Kept σ c → Kept σ' c := by
    intro c hc h hello hh hv
    obtain ⟨h1, h2⟩ := hconn c hc
    obtain ⟨hrec, had⟩ := h hello (h1.symm.trans hh) hv
    exact ⟨h2.trans hrec, hadm c _ had⟩
  have href : ∀ c, u.conn = some c → Refused σ c → Refused σ' c := by
    intro c hc h hello hh hv
    obtain ⟨h1, h2⟩ := hconn c hc
    obtain ⟨code, hvalid, hrec⟩ := h hello (h1.symm.trans hh) hv
    exact ⟨code, hvalid, h2.trans hrec⟩
  cases u with
  | typeCheck c => exact hun c rfl hu
  | handshake c => exact hun c rfl hu
  | auth c => exact hun c rfl hu
  | session c => exact hun c rfl hu
  | readHello c => exact hun c rfl hu
  | reject c hello _ _ | check c hello | ack c hello => exact hheard c hello rfl hu
  | join c hello | limit c hello _ | call c hello _ => exact hprom c hello rfl hu
  | adding c hello g tid =>
      refine ⟨hprom c hello rfl hu.1, ?_⟩
      intro hv
      rcases hu.2 hv with had | hon
      · exact Or.inl (hadm c _ had)
      · exact hway c hello g tid rfl hv hon
  | start c _ => exact hkept c rfl hu
  | accepted c => exact hkept c rfl hu
  | closing c _ => exact href c rfl hu
  | releasing c _ => exact href c rfl hu
  | done c _ => exact href c rfl hu
  | _ => trivial

/-- Another thread's section leaves an `AddConn` on its way. -/
theorem onItsWay_step (h : VkTurnServer.Moves cfg i σ t σ' t' new) {c : Conn}
    {hello : BondHello} {g : GroupRef} {tid : Nat} (hon : OnItsWay σ c hello g tid) :
    OnItsWay σ' c hello g tid := by
  obtain ⟨grp, p, hg, hh, hthread, hc⟩ := hon
  obtain ⟨grp', hg', hm⟩ := h.group hg
  rcases hm.bond with hb | ⟨d, k, -, hb⟩ | ⟨-, hb⟩
  · exact ⟨grp', p, hg', hm.hello.trans hh, by rw [hb]; exact hthread, by rw [hb]; exact hc⟩
  · obtain ⟨hc', hstill | ⟨⟨x, hx⟩, -⟩⟩ := addConn_step hb hc hthread
    · exact ⟨grp', p, hg', hm.hello.trans hh, hstill, hc'⟩
    · cases hx
  · obtain ⟨hc', hstill | ⟨⟨x, hx⟩, -⟩⟩ := addConn_step hb hc hthread
    · exact ⟨grp', p, hg', hm.hello.trans hh, hstill, hc'⟩
    · cases hx

/-- A handler's own section, where no late refusal is taken. -/
theorem answer_step (he : exec cfg i σ t a = some (σ', t', new))
    (hw : ∀ w, a = .write w → writeSucceeds t w = true) (hin : inTime σ t = true)
    (hL : Answer i σ t) (hE : Entering cfg i σ t) : Answer i σ' t' := by
  have hm := VkTurnServer.exec_moves he
  cases hm with
  | typed c => exact hL
  | shook c => exact hL
  | bonded c => exact hL
  | unbonded c => exact hL
  | wrongType c | notShook c | notAuthed c | sessionEnded c => exact refused_of_unheard hL
  | sessionClosed c => exact hL
  | helloFailed c e => exact refused_of_unheard hL
  | helloMistuned c hello e _ => exact ⟨Function.update_self .., hL.2⟩
  | helloRead c hello _ => exact ⟨Function.update_self .., hL.2⟩
  | rejectedV1 c hello code cause hv => exact refused_of_v1 hL.1 hv
  | rejectUnsent c hello code cause w rs e _ _ =>
      -- the cause of an unsent rejection is not the rejection itself
      have hsame := reject_succeeds he hw
      injection hsame with _ ho
      injection ho with hcause
      exact absurd (congrArg sizeOf hcause) (by simp +arith)
  | rejectSent c hello code cause w rs hv hwr =>
      obtain ⟨rfl, hvalid⟩ := writeBondHelloReject_ok hwr
      intro hello' _ _
      refine ⟨code, hvalid, ?_⟩
      show Function.update σ.records c (σ.records c ++ [rejectRecord code]) c = _
      rw [Function.update_self, hL.2]
      rfl
  | checked c hello =>
      rw [afterCheck]
      split
      · exact hL
      · rename_i hv
        exact ⟨hL.1, fun hv' => absurd hv' hv⟩
  | checkMismatch c hello grp _ _ => exact hL
  | ackUnsent c hello w rs e _ => cases (ack_succeeds he hw).2
  | ackSent c hello w rs hwr =>
      obtain rfl := writeBondControlLine_ok hwr
      refine ⟨hL.1, ?_⟩
      intro _
      show Function.update σ.records c (σ.records c ++ [bondHelloV2Ack]) c = _
      rw [Function.update_self, hL.2]
      rfl
  | created c hello _ => exact hL
  | joined c hello g grp _ _ _ => exact hL
  | joinMismatch c hello g grp hget hg hne =>
      -- a V2 path is in time for the profile, a V1 path needs no answer
      refine refused_of_v1 hL.1 ?_
      intro hv
      have hreg : σ.registered hello.bondID = some grp := by
        rw [Server.registered, hget]
        exact hg
      simp only [inTime, hreg, hv, ne_eq, not_true, decide_false, Bool.false_or,
        decide_eq_true_eq] at hin
      exact hne hin
  | limitFull c hello g grp hg hfull =>
      simp only [inTime, hg, hfull, Bool.not_true, Bool.false_eq_true] at hin
  | limitPassed c hello g grp hg _ _ => exact hL
  | called c hello g grp bond hg hb =>
      have hf := bondMoved_frame σ g grp bond
      refine ⟨⟨(congrFun hf.hellos c).trans hL.1,
        fun hv => (congrFun hf.records c).trans (hL.2 hv)⟩, fun _ => Or.inr ?_⟩
      obtain ⟨grp₀, hg₀, hsame⟩ := hE.found hello g rfl
      obtain rfl : grp₀ = grp := Option.some.inj (hg₀.symm.trans hg)
      obtain ⟨-, -, hthread, hheap⟩ := adders_addConn hb
      refine ⟨{ grp₀ with bond := bond }, grp₀.bond.shared.heap.length,
        bondMoved_self bond hg, hsame, Or.inl hthread, ?_⟩
      · show (bond.shared.heap[grp₀.bond.shared.heap.length]?).map BondedPath.conn = some c
        rw [hheap, List.getElem?_concat_length]
        rfl
  | added c hello g tid grp r hg hret =>
      intro hello' hh hv
      obtain rfl : hello = hello' := Option.some.inj (hL.1.1.symm.trans hh)
      refine ⟨hL.1.2 hv, ?_⟩
      rcases hL.2 hv with had | ⟨grp₀, p, hg₀, -, hthread, -⟩
      · exact admitted_step (VkTurnServer.exec_moves he) had
      · -- an `AddConn` that has returned is no longer on its way
        obtain rfl : grp₀ = grp := Option.some.inj (hg₀.symm.trans hg)
        rcases hthread with hthread | hthread <;> cases hret.symm.trans hthread
  | startedAlready c g grp _ _ => exact hL
  | startedNow c g grp hg _ =>
      intro hello hh hv
      obtain ⟨hrec, had⟩ := hL hello hh hv
      exact ⟨hrec, admitted_step (VkTurnServer.exec_moves he) had⟩
  | closed c o => exact hL
  | released c o =>
      have hf := releaseConnection_frame σ c
      intro hello hh hv
      obtain ⟨code, hvalid, hrec⟩ := hL hello ((congrFun hf.hellos c).symm.trans hh) hv
      exact ⟨code, hvalid, (congrFun hf.records c).trans hrec⟩
  | _ => trivial

end Step

/-- A bond's own step, where it does not turn a V2 path away, leaves an `AddConn`
    on its way or lists its path. -/
theorem onItsWay_bond {cfg : Config} {σ : Server} {g₀ : GroupRef} {grp₀ : Group}
    {a : Act VkTurnBond.Choice VkTurnBond.Op} {bond : Bond}
    (h₀ : σ.objs[g₀]? = some grp₀) (hb : bondStep cfg.arch grp₀.bond a = some bond)
    (hopen : ∀ tid x, a = .run tid x → openFor grp₀ tid = true)
    (hids : grp₀.id = grp₀.hello.bondID)
    (hreg : ∀ (tid : Nat) (p : PathRef), grp₀.bond.threads[tid]? = some (.addTest p) →
      get σ.groups grp₀.id = some g₀)
    {c : Conn} {hello : BondHello} {g : GroupRef} {tid : Nat}
    (hv : hello.version = bondProtocolV2) (hon : OnItsWay σ c hello g tid) :
    Admitted (σ.bondMoved g₀ grp₀ bond) c hello.bondID ∨
      OnItsWay (σ.bondMoved g₀ grp₀ bond) c hello g tid := by
  obtain ⟨grp, p, hg, rfl, hthread, hc⟩ := hon
  by_cases he : g₀ = g
  · subst he
    obtain rfl : grp₀ = grp := Option.some.inj (h₀.symm.trans hg)
    have hat := bondMoved_self bond h₀
    obtain ⟨hc', hstill | ⟨⟨x, rfl⟩, hlook⟩⟩ := addConn_step hb hc hthread
    · exact Or.inr ⟨_, p, hat, rfl, hstill, hc'⟩
    · have hok := hopen tid x rfl
      rcases hlook with ⟨hlock, hclosed⟩ | ⟨htest, hexp⟩ | ⟨htest, hlog⟩
      · simp [openFor, hv, hlock, hclosed] at hok
      · simp [openFor, hv, htest, hexp] at hok
      · have hmem := bondMoved_appended (σ := σ) (g := g₀) hlog hc'
        rw [hreg tid p htest] at hmem
        exact Or.inl ⟨g₀, _, hmem, hat, hids⟩
  · refine Or.inr ⟨grp, p, ?_, rfl, hthread, hc⟩
    rw [bondMoved_other grp₀ bond he]
    exact hg

/-- What happens outside leaves the connections to come untouched. -/
theorem untouched_happens {cfg : Config} {σ σ' : Server} {new : List VkTurnServer.Pc}
    (h : Happens cfg σ σ' new) (hI : Untouched σ) : Untouched σ' := by
  intro c hc
  have hle : σ.leases.length ≤ c := le_trans h.leases_le hc
  obtain ⟨hhel, hrec, -⟩ := h.frame
  exact ⟨(congrFun hhel c).trans (hI c hle).1, (congrFun hrec c).trans (hI c hle).2⟩

section Reached

variable {cfg : Config} {limiter : VkTurnLimiter.ConnectionLimiter} {s : ServerPool}

/-- The runs in which no late refusal is taken. -/
abbrev TimelyReach (cfg : Config) (limiter : VkTurnLimiter.ConnectionLimiter) :
    ServerPool → Prop :=
  Reach (serverStep cfg) (fun s a => timely s a = true) (newServer limiter)

/-- **ANSWERS**: throughout such a run every handler has given the answer that
    fits where it is. -/
theorem answers (h : TimelyReach cfg limiter s) : Annotated Untouched Answer s := by
  refine Machine.owickiGries (M := serverMachine cfg) (J := TimelyReach cfg limiter)
    (fun s hs => hs) Untouched Answer ?_ ?_ ?_ ?_ h
  · exact ⟨fun c _ => ⟨rfl, rfl⟩, fun i t ht => absurd ht (Option.some_ne_none t).symm⟩
  · intro s i t a σ' t' new hreach ht hok he hI hL
    obtain ⟨hw, hin⟩ := timely_run hok ht
    have hm := VkTurnServer.exec_moves he
    refine ⟨?_, answer_step he hw hin hL ((homogeneous hreach).2 i t ht), ?_⟩
    · intro c hc
      rw [hm.conn_eq.2.2] at hc
      have hne : t.conn ≠ some c :=
        fun heq => Nat.not_lt.mpr hc (conn_accepted hreach ht heq)
      obtain ⟨h1, h2, -⟩ := hm.conn_frame hne
      exact ⟨h1.trans (hI c hc).1, h2.trans (hI c hc).2⟩
    · intro n u hu
      cases hm with
      | startedNow c g grp _ _ =>
          rw [List.mem_singleton.mp hu]
          exact trivial
      | _ => cases hu
  · intro s i j t u a σ' t' new hreach hij ht hu he _ _ hLu
    have hm := VkTurnServer.exec_moves he
    refine answer_keep hLu ?_ (fun c id had => admitted_step hm had) ?_
    · intro c hc
      obtain ⟨h1, h2, -⟩ := hm.conn_frame (handler_unique hreach hij ht hu hc)
      exact ⟨h1, h2⟩
    · intro c hello g tid _ _ hon
      exact Or.inr (onItsWay_step hm hon)
  · intro s e σ' new hreach hok he hI
    have hh := outside_happens he
    obtain ⟨hhel, hrec, -, -, hadm⟩ := hh.frame
    refine ⟨untouched_happens hh hI, ?_, ?_⟩
    · intro n u hu
      cases hh with
      | accepted l lease _ =>
          rw [List.mem_singleton.mp hu]
          exact hI _ (le_refl _)
      | _ => cases hu
    · intro j u hu hLu
      refine answer_keep hLu (fun c _ => ⟨congrFun hhel c, congrFun hrec c⟩) ?_ ?_
      · intro c id had
        refine admitted_mono hadm ?_ had
        intro g grp hg
        obtain ⟨grp', hg', hid, -⟩ := happens_group hh hg
        exact ⟨grp', hg', hid⟩
      · intro c hello g tid _ hv hon
        cases e with
        | accept ip =>
            obtain ⟨grp, p, hg, hrest⟩ := hon
            have hobjs : σ'.objs = s.shared.objs := outside_accept cfg he
            exact Or.inr ⟨grp, p, by rw [hobjs]; exact hg, hrest⟩
        | bond g₀ a =>
            obtain ⟨grp₀, bond, h₀, -, hb, rfl, -⟩ := outside_bond he
            refine onItsWay_bond h₀ hb ?_ ((group_registered hreach).1.ids g₀ grp₀ h₀)
              (fun tid p htest => listing_registered hreach h₀ htest) hv hon
            rintro k x rfl
            exact timely_bond hok h₀

end Reached

/-! ## The results -/

theorem ack_ne_reject (code : Bytes) : bondHelloV2Ack ≠ rejectRecord code := by
  intro h
  -- the fourteenth bytes are the O of OK and the E of ERR
  have hbyte : some (79 : UInt8) = some 69 := congrArg (·[13]?) h
  exact absurd hbyte (by decide)

/-- The answer that fits where a handler is makes its connection sound. -/
theorem answer_sound {i : Nat} {σ : Server} {t : VkTurnServer.Pc} (h : Answer i σ t)
    {c : Conn} (hc : t.conn = some c) {hello : BondHello}
    (hh : σ.hellos c = some hello) (hv : hello.version = bondProtocolV2) :
    (bondHelloV2Ack ∈ σ.records c → Admitted σ c hello.bondID ∨ joining t = true) ∧
      (returned t = true → ¬ Admitted σ c hello.bondID →
        ∃ code, isValidBondRejectionCode code = true ∧
          σ.records c = [rejectRecord code]) := by
  have silent : σ.records c = [] → bondHelloV2Ack ∉ σ.records c := by
    intro hnil hmem
    rw [hnil] at hmem
    cases hmem
  have refused : Refused σ c → bondHelloV2Ack ∉ σ.records c := by
    intro href hmem
    obtain ⟨code, -, hrec⟩ := href hello hh hv
    rw [hrec] at hmem
    exact ack_ne_reject code (List.mem_singleton.mp hmem)
  cases t with
  | typeCheck d | handshake d | auth d | session d | readHello d =>
      obtain rfl : d = c := Option.some.inj hc
      cases hh.symm.trans h.1
  | reject d _ _ _ | check d _ | ack d _ =>
      obtain rfl : d = c := Option.some.inj hc
      exact ⟨fun hmem => absurd hmem (silent h.2), fun hret => (by cases hret)⟩
  | join d _ | limit d _ _ | call d _ _ | adding d _ _ _ =>
      exact ⟨fun _ => Or.inr rfl, fun hret => (by cases hret)⟩
  | start d _ | accepted d =>
      obtain rfl : d = c := Option.some.inj hc
      obtain ⟨-, had⟩ := h hello hh hv
      exact ⟨fun _ => Or.inl had, fun _ hnot => absurd had hnot⟩
  | closing d _ | releasing d _ | done d _ =>
      obtain rfl : d = c := Option.some.inj hc
      exact ⟨fun hmem => absurd hmem (refused h), fun _ _ => h hello hh hv⟩
  | _ => cases hc

/-- **WHAT IS ACKNOWLEDGED IS ADMITTED**: in every run in which writes succeed and
    no late refusal is taken, a V2 path that was acknowledged joins the group
    registered under its ID, and a V2 path that does not join has got exactly
    one rejection. -/
theorem acknowledged_is_admitted (cfg : Config)
    (limiter : VkTurnLimiter.ConnectionLimiter) (s : ServerPool)
    (h : Reach (serverStep cfg) (fun s a => timely s a = true) (newServer limiter) s) :
    AckSound s := by
  obtain ⟨hI, hL⟩ := answers h
  intro c hello hh hv
  refine ⟨?_, ?_⟩
  · intro hack
    have hlt : c < s.shared.leases.length := by
      by_contra hge
      cases hh.symm.trans (hI c (Nat.le_of_not_lt hge)).1
    obtain ⟨i, t, ht, hc⟩ := handler_exists h hlt
    rcases (answer_sound (hL i t ht) hc hh hv).1 hack with had | hjoin
    · exact Or.inl had
    · exact Or.inr ⟨t, List.mem_of_getElem? ht, hc, hjoin⟩
  · intro t ht hc
    obtain ⟨i, hi⟩ := List.getElem?_of_mem ht
    exact (answer_sound (hL i t hi) hc hh hv).2

/-- A path is acknowledged and admitted. -/
theorem acknowledged_is_admitted_once :
    ∃ s, Reach (serverStep bondConfig) (fun s a => timely s a = true)
      (newServer fourConnections) s ∧
      s.shared.records 0 = [bondHelloV2Ack] ∧ AckSound s := by
  obtain ⟨s, hr, hp⟩ := Reach.of_follow (serverStep bondConfig)
    (fun s a => timely s a = true) (newServer fourConnections)
    (enterBond 0 (helloRecord "1") ++ joinBond 0 0)
    (fun s : ServerPool => decide (s.shared.records 0 = [bondHelloV2Ack])) (by decide)
  exact ⟨s, hr, of_decide_eq_true hp, acknowledged_is_admitted _ _ s hr⟩

/-- The second path of a bond of one: acknowledged, then refused at the limit. -/
def overLimit : List (Act VkTurnServer.Choice VkTurnServer.Op) :=
  enterBond 0 (helloRecord "1") ++ joinBond 0 0 ++ (enterBond 2 (helloRecord "1")).dropLast

/-- **A LATE REFUSAL IS UNANSWERED**: with every write succeeding, a path can be
    told `OK` and then be refused, without an `ERR`. -/
theorem late_refusal_unanswered :
    ¬ ∀ s, Reach (serverStep bondConfig) (fun s a => writesSucceed s a = true)
      (newServer fourConnections) s → AckSound s := by
  intro hall
  obtain ⟨s, hr, hp⟩ := Reach.of_follow (serverStep bondConfig)
    (fun s a => writesSucceed s a = true) (newServer fourConnections) overLimit
    (fun s : ServerPool => decide (s.shared.records 1 = [bondHelloV2Ack]) &&
      (s.shared.admissions.all fun adm => adm.conn ≠ 1) &&
      (s.threads.all fun t => !(t.conn = some 1 && joining t)) &&
      (s.shared.hellos 1).any fun hello => hello.version = bondProtocolV2) (by decide)
  simp only [Bool.and_eq_true, decide_eq_true_eq, List.all_eq_true, Option.any_eq_true] at hp
  obtain ⟨⟨⟨hrec, hadm⟩, hjoin⟩, hello, hh, hv⟩ := hp
  have hack : bondHelloV2Ack ∈ s.shared.records 1 := by
    rw [hrec]
    exact List.mem_singleton_self _
  rcases (hall s hr 1 hello hh hv).1 hack with ⟨g, grp, hin, -⟩ | ⟨t, ht, hc, hj⟩
  · exact hadm _ hin rfl
  · have := hjoin t ht
    rw [hj, Bool.and_true, decide_eq_true hc] at this
    cases this

end VkTurnAcknowledgement
