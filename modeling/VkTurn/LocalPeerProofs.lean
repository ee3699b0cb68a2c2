import VkTurn.GoNetProofs
import VkTurn.GoTimeProofs
import VkTurn.ThreadPoolProofs

/-! # The local peer and its lease

    The client listens on a local UDP port and sends the return traffic to ONE peer.
    `localPeerPin` decides which: the first sender is pinned, every packet it
    sends renews its lease, and another sender gets in only when the lease has run out.

    Only accepted packets change the pin (`accept_rejected`), so the pin is what the
    accepted packets make of it (`run_accepted`), and it says of them only who sent the
    last one and when (`Tracks`).  Everything else about a history is read off that. -/

namespace VkTurnLocalPeer

open ThreadPool GoText GoNet GoTime

/-! ## Addresses -/

/-- A `net.Addr` that is not nil, by its dynamic type. -/
inductive Addr where
  | udp (ip : Bytes) (port : Int) (zone : Bytes)
  | tcp (ip : Bytes) (port : Int) (zone : Bytes)
  | other (network text : Bytes)
  deriving DecidableEq, Repr

/-- `addr.Network()`. -/
def Addr.network : Addr → Bytes
  | .udp _ _ _ => ascii "udp"
  | .tcp _ _ _ => ascii "tcp"
  | .other network _ => network

/-- `addr.String()`. -/
def Addr.string : Addr → Bytes
  | .udp ip port zone => endpointString ip port zone
  | .tcp ip port zone => endpointString ip port zone
  | .other _ text => text

/-- `cloneNetAddr`: the bytes of the IP are copied, everything else is immutable. -/
def cloneNetAddr : Addr → Addr
  | .udp ip port zone => .udp ([] ++ ip) port zone
  | .tcp ip port zone => .tcp ([] ++ ip) port zone
  | .other network text => .other network text

/-- Two addresses of one sender, as `Accept` compares them. -/
def Addr.Same (a b : Addr) : Prop := a.network = b.network ∧ a.string = b.string

instance (a b : Addr) : Decidable (a.Same b) := inferInstanceAs (Decidable (_ ∧ _))

theorem Addr.Same.refl (a : Addr) : a.Same a := ⟨rfl, rfl⟩

theorem cloneNetAddr_eq (a : Addr) : cloneNetAddr a = a := by
  cases a <;> rfl

/-! ## The pin -/

/-- `defaultLocalPeerRebindIdle`. -/
def defaultLocalPeerRebindIdle : Duration := minute

/-- `localPeerPin`. -/
structure LocalPeerPin where
  addr : Option Addr := none
  lastSeen : Int := 0
  rebindAfter : Duration
  deriving DecidableEq

/-- `newLocalPeerPin`. -/
def newLocalPeerPin (rebindAfter : Duration) : LocalPeerPin where
  rebindAfter := if rebindAfter ≤ 0 then defaultLocalPeerRebindIdle else rebindAfter

/-- `Accept`. -/
def LocalPeerPin.accept (pin : LocalPeerPin) (addr : Option Addr) (now : Int) :
    LocalPeerPin × Bool :=
  match addr, pin.addr with
  | none, _ => (pin, false)
  | some a, none => ({ pin with addr := some (cloneNetAddr a), lastSeen := now }, true)
  | some a, some current =>
      if current.network = a.network ∧ current.string = a.string then
        ({ pin with lastSeen := now }, true)
      else if pin.rebindAfter ≤ sub now pin.lastSeen then
        ({ pin with addr := some (cloneNetAddr a), lastSeen := now }, true)
      else (pin, false)

/-- `Current`. -/
def LocalPeerPin.current (pin : LocalPeerPin) : Option Addr := pin.addr

/-- A packet from the local port: who sent it, and when it was read. -/
structure Packet where
  sender : Option Addr
  time : Int
  data : Bytes := []
  deriving DecidableEq

/-- The packet is from this sender. -/
def Packet.isFrom (p : Packet) (a : Addr) : Bool :=
  match p.sender with
  | none => false
  | some b => decide (a.Same b)

/-- `Current` is the sender of this packet; nobody, if there is none. -/
def IsSender : Option Addr → Option Packet → Prop
  | none, none => True
  | some a, some p => p.isFrom a = true
  | _, _ => False

/-- The pin after a history. -/
def LocalPeerPin.run : LocalPeerPin → List Packet → LocalPeerPin
  | pin, [] => pin
  | pin, p :: rest => (pin.accept p.sender p.time).1.run rest

/-- The accepted packets of a history. -/
def LocalPeerPin.accepted : LocalPeerPin → List Packet → List Packet
  | _, [] => []
  | pin, p :: rest =>
      if (pin.accept p.sender p.time).2 then
        p :: (pin.accept p.sender p.time).1.accepted rest
      else (pin.accept p.sender p.time).1.accepted rest

/-- What the pin decides, packet by packet. -/
def LocalPeerPin.decisions : LocalPeerPin → List Packet → List Bool
  | _, [] => []
  | pin, p :: rest =>
      (pin.accept p.sender p.time).2 :: (pin.accept p.sender p.time).1.decisions rest

/-! ## The reader of the local port -/

/-- The capacity of `inboundChan`. -/
def inboundCapacity : Nat := 2000

/-- The goroutine that reads the local port, with the queue it feeds.  Two history
    variables: what it has read, and what it has put on the queue. -/
structure Reader where
  localPeer : LocalPeerPin
  inbound : List Packet := []
  queueDrops : Nat := 0
  returned : Bool := false
  read : List Packet := []
  forwarded : List Packet := []

/-- A packet is read, reading fails, or a worker takes a packet from the queue. -/
inductive ReaderEvent where
  | packet (p : Packet)
  | failed
  | taken

/-- One round of the reader's loop, or one packet taken by a worker. -/
def readerStep (r : Reader) : ReaderEvent → Option Reader
  | .packet p =>
      if r.returned then none
      else
        let (pin, ok) := r.localPeer.accept p.sender p.time
        let r := { r with localPeer := pin, read := r.read ++ [p] }
        if ok then
          if r.inbound.length < inboundCapacity then
            some { r with inbound := r.inbound ++ [p], forwarded := r.forwarded ++ [p] }
          else some { r with queueDrops := r.queueDrops + 1 }
        else some r
  | .failed => if r.returned then none else some { r with returned := true }
  | .taken =>
      match r.inbound with
      | [] => none
      | _ :: rest => some { r with inbound := rest }

/-! ## One packet -/

section OnePacket

variable {pin : LocalPeerPin} {t : Int}

theorem accept_iff (a : Addr) :
    (pin.accept (some a) t).2 = true ↔
      pin.addr = none ∨
        ∃ c, pin.addr = some c ∧ (c.Same a ∨ pin.rebindAfter ≤ sub t pin.lastSeen) := by
  cases hc : pin.addr with
  | none => simp only [LocalPeerPin.accept, hc, true_or]
  | some c =>
      simp only [LocalPeerPin.accept, hc]
      by_cases hsame : c.network = a.network ∧ c.string = a.string
      · rw [if_pos hsame]
        exact ⟨fun _ => Or.inr ⟨c, rfl, Or.inl hsame⟩, fun _ => rfl⟩
      · rw [if_neg hsame]
        by_cases hidle : pin.rebindAfter ≤ sub t pin.lastSeen
        · rw [if_pos hidle]
          exact ⟨fun _ => Or.inr ⟨c, rfl, Or.inr hidle⟩, fun _ => rfl⟩
        · rw [if_neg hidle]
          constructor
          · intro h
            cases h
          · rintro (h | ⟨c', h, hsame' | hidle'⟩)
            · cases h
            · obtain rfl := Option.some.inj h
              exact absurd hsame' hsame
            · exact absurd hidle' hidle

/-- A rejected packet leaves the pin as it is. -/
theorem accept_rejected {s : Option Addr} (h : (pin.accept s t).2 = false) :
    (pin.accept s t).1 = pin := by
  unfold LocalPeerPin.accept at h ⊢
  split at h
  · rfl
  · cases h
  · split at h
    · cases h
    · split at h
      · cases h
      · rw [if_neg ‹_›, if_neg ‹_›]

/-- An accepted packet renews the lease, for the sender pinned or for its own. -/
theorem accept_accepted {s : Option Addr} (h : (pin.accept s t).2 = true) :
    ∃ a c, s = some a ∧ (pin.accept s t).1 = { pin with addr := some c, lastSeen := t } ∧
      c.Same a ∧ ∀ d, pin.addr = some d → d.Same a → c = d := by
  unfold LocalPeerPin.accept at h ⊢
  split at h
  · cases h
  · rename_i a hnone
    refine ⟨a, a, rfl, by rw [cloneNetAddr_eq], Addr.Same.refl a, ?_⟩
    intro d hd
    rw [hnone] at hd
    cases hd
  · rename_i a c hsome
    by_cases hsame : c.network = a.network ∧ c.string = a.string
    · rw [if_pos hsame]
      refine ⟨a, c, rfl, by rw [hsome], hsame, ?_⟩
      intro d hd _
      exact Option.some.inj (hsome.symm.trans hd)
    · rw [if_neg hsame] at h ⊢
      split at h
      · rw [if_pos ‹_›]
        refine ⟨a, a, rfl, by rw [cloneNetAddr_eq], Addr.Same.refl a, ?_⟩
        intro d hd hda
        obtain rfl := Option.some.inj (hsome.symm.trans hd)
        exact absurd hda hsame
      · cases h

theorem accept_rebindAfter (s : Option Addr) :
    (pin.accept s t).1.rebindAfter = pin.rebindAfter := by
  cases h : (pin.accept s t).2 with
  | false => rw [accept_rejected h]
  | true =>
      obtain ⟨a, c, -, hpin, -⟩ := accept_accepted h
      rw [hpin]

end OnePacket

/-! ## Histories -/

section Histories

variable {pin : LocalPeerPin}

theorem run_append (h k : List Packet) : pin.run (h ++ k) = (pin.run h).run k := by
  induction h generalizing pin with
  | nil => rfl
  | cons p h ih => exact ih

theorem accepted_append (h k : List Packet) :
    pin.accepted (h ++ k) = pin.accepted h ++ (pin.run h).accepted k := by
  induction h generalizing pin with
  | nil => rfl
  | cons p h ih =>
      rw [List.cons_append, LocalPeerPin.accepted, LocalPeerPin.accepted, ih]
      split <;> rfl

theorem accepted_cons_rejected {p : Packet} (h : (pin.accept p.sender p.time).2 = false)
    (rest : List Packet) : pin.accepted (p :: rest) = pin.accepted rest := by
  rw [LocalPeerPin.accepted, if_neg (by rw [h]; exact Bool.false_ne_true), accept_rejected h]

theorem accepted_cons_accepted {p : Packet} (h : (pin.accept p.sender p.time).2 = true)
    (rest : List Packet) :
    pin.accepted (p :: rest) = p :: (pin.accept p.sender p.time).1.accepted rest := by
  rw [LocalPeerPin.accepted, if_pos h]

theorem run_rebindAfter (h : List Packet) : (pin.run h).rebindAfter = pin.rebindAfter := by
  induction h generalizing pin with
  | nil => rfl
  | cons p h ih => exact ih.trans (accept_rebindAfter p.sender)

/-- **REJECTED PACKETS DO NOT COUNT**: the accepted packets alone make the same pin, and
    are all accepted again. -/
theorem run_accepted (h : List Packet) :
    pin.run (pin.accepted h) = pin.run h ∧
      pin.accepted (pin.accepted h) = pin.accepted h := by
  induction h generalizing pin with
  | nil => exact ⟨rfl, rfl⟩
  | cons p h ih =>
      cases hd : (pin.accept p.sender p.time).2 with
      | false =>
          rw [accepted_cons_rejected hd, LocalPeerPin.run, accept_rejected hd]
          exact ih
      | true =>
          rw [accepted_cons_accepted hd, accepted_cons_accepted hd]
          exact ⟨ih.1, congrArg (p :: ·) ih.2⟩

theorem isFrom_iff {p : Packet} {peer : Addr} :
    p.isFrom peer = true ↔ ∃ a, p.sender = some a ∧ peer.Same a := by
  unfold Packet.isFrom
  cases hs : p.sender with
  | none =>
      constructor
      · intro h
        cases h
      · rintro ⟨a, ha, -⟩
        cases ha
  | some a =>
      constructor
      · intro h
        exact ⟨a, rfl, of_decide_eq_true h⟩
      · rintro ⟨a', ha, hsame⟩
        obtain rfl := Option.some.inj ha
        exact decide_eq_true hsame

/-- What a pin says of the last packet accepted. -/
def Tracks (pin : LocalPeerPin) : Option Packet → Prop
  | none => pin.addr = none
  | some q => ∃ a c, q.sender = some a ∧ pin.addr = some c ∧ c.Same a ∧ pin.lastSeen = q.time

theorem Tracks.isSender {q : Option Packet} (h : Tracks pin q) : IsSender pin.current q := by
  cases q with
  | none =>
      have hnone : pin.addr = none := h
      rw [LocalPeerPin.current, hnone]
      trivial
  | some q =>
      obtain ⟨a, c, hs, hc, hsame, -⟩ := h
      rw [LocalPeerPin.current, hc]
      exact isFrom_iff.mpr ⟨a, hs, hsame⟩

/-- **THE PIN TRACKS THE LAST ACCEPTED PACKET**, and nothing else. -/
theorem tracks (h0 : pin.addr = none) (h : List Packet) :
    Tracks (pin.run h) (pin.accepted h).getLast? := by
  induction h using List.reverseRecOn with
  | nil => exact h0
  | append_singleton h p ih =>
      rw [run_append, accepted_append]
      show Tracks ((pin.run h).accept p.sender p.time).1 _
      cases hd : ((pin.run h).accept p.sender p.time).2 with
      | false =>
          rw [accepted_cons_rejected hd, accept_rejected hd]
          show Tracks _ (pin.accepted h ++ []).getLast?
          rwa [List.append_nil]
      | true =>
          rw [accepted_cons_accepted hd]
          show Tracks _ (pin.accepted h ++ [p]).getLast?
          rw [List.getLast?_concat]
          obtain ⟨a, c, hs, hpin, hsame, -⟩ := accept_accepted hd
          rw [hpin]
          exact ⟨a, c, hs, rfl, hsame, rfl⟩

/-- A packet of the pinned sender is accepted, and the next gap starts with it. -/
theorem accept_own {peer : Addr} {p : Packet} (hpeer : pin.addr = some peer)
    (hfrom : p.isFrom peer = true) :
    (pin.accept p.sender p.time).2 = true ∧
      (pin.accept p.sender p.time).1 = { pin with addr := some peer, lastSeen := p.time } := by
  obtain ⟨a, hs, hsame⟩ := isFrom_iff.mp hfrom
  have hok : (pin.accept p.sender p.time).2 = true := by
    rw [hs, accept_iff]
    exact Or.inr ⟨peer, hpeer, Or.inl hsame⟩
  obtain ⟨a', c, hs', hpin, -, hkeep⟩ := accept_accepted hok
  obtain rfl : a = a' := Option.some.inj (hs.symm.trans hs')
  obtain rfl : peer = c := (hkeep peer hpeer hsame).symm
  exact ⟨hok, hpin⟩

/-- A packet of another sender is not, less than `rebindAfter` after the last one. -/
theorem accept_other {peer : Addr} {p : Packet} (hpos : 0 < pin.rebindAfter.toInt)
    (hpeer : pin.addr = some peer) (hfrom : p.isFrom peer = false)
    (hsoon : p.time - pin.lastSeen < pin.rebindAfter.toInt) :
    (pin.accept p.sender p.time).2 = false := by
  cases hs : p.sender with
  | none => rfl
  | some a =>
      rw [← Bool.not_eq_true, accept_iff]
      rintro (hnone | ⟨c, hc, hsame | hidle⟩)
      · rw [hpeer] at hnone
        cases hnone
      · obtain rfl := Option.some.inj (hpeer.symm.trans hc)
        rw [isFrom_iff.mpr ⟨a, hs, hsame⟩] at hfrom
        cases hfrom
      · rw [le_sub_iff hpos] at hidle
        omega

/-- Whatever is not later than all that follows is in the first gap. -/
theorem in_first_gap {gap start t horizon : Int} {later : List Int}
    (hgaps : List.IsChain (fun t u => u - t < gap) (start :: (later ++ [horizon])))
    (hlater : ∀ u ∈ later, t ≤ u) (hend : t ≤ horizon) : t - start < gap := by
  cases later with
  | nil =>
      have hgap := (List.isChain_cons_cons.mp hgaps).1
      omega
  | cons u rest =>
      have hgap := (List.isChain_cons_cons.mp hgaps).1
      have := hlater u List.mem_cons_self
      omega

/-- **NO TAKEOVER**: while the pinned sender's packets are less than `rebindAfter`
    apart, up to the time looked at, exactly its own packets are accepted. -/
theorem steady_accepted {peer : Addr} {horizon : Int} (hpos : 0 < pin.rebindAfter.toInt)
    (hpeer : pin.addr = some peer) (mid : List Packet)
    (hmono : mid.Pairwise fun p q => p.time ≤ q.time) (hend : ∀ p ∈ mid, p.time ≤ horizon)
    (hgaps : List.IsChain (fun t u => u - t < pin.rebindAfter.toInt)
      (pin.lastSeen :: ((mid.filter (·.isFrom peer)).map Packet.time ++ [horizon]))) :
    pin.accepted mid = mid.filter (·.isFrom peer) ∧
      ∀ m, m <+: mid → (pin.run m).addr = some peer := by
  induction mid generalizing pin with
  | nil =>
      refine ⟨rfl, ?_⟩
      intro m hm
      rw [List.prefix_nil.mp hm]
      exact hpeer
  | cons p mid ih =>
      obtain ⟨hfirst, hmono⟩ := List.pairwise_cons.mp hmono
      have hend' : ∀ q ∈ mid, q.time ≤ horizon := fun q hq => hend q (List.mem_cons_of_mem _ hq)
      cases hfrom : p.isFrom peer with
      | true =>
          obtain ⟨hok, hpin⟩ := accept_own hpeer hfrom
          rw [List.filter_cons, if_pos hfrom] at hgaps ⊢
          have hrest := @ih { pin with addr := some peer, lastSeen := p.time } hpos rfl hmono
            hend' (List.isChain_cons_cons.mp hgaps).2
          rw [accepted_cons_accepted hok, hpin]
          refine ⟨congrArg (p :: ·) hrest.1, ?_⟩
          intro m hm
          rcases List.prefix_cons_iff.mp hm with rfl | ⟨m', rfl, hm'⟩
          · exact hpeer
          · rw [LocalPeerPin.run, hpin]
            exact hrest.2 m' hm'
      | false =>
          rw [List.filter_cons, if_neg (by rw [hfrom]; exact Bool.false_ne_true)] at hgaps ⊢
          -- the peer's next packet, or the end, is not earlier than this one
          have hlater : ∀ u ∈ (mid.filter (·.isFrom peer)).map Packet.time, p.time ≤ u := by
            intro u hu
            obtain ⟨q, hq, rfl⟩ := List.mem_map.mp hu
            exact hfirst q (List.mem_of_mem_filter hq)
          have hno := accept_other hpos hpeer hfrom
            (in_first_gap hgaps hlater (hend p List.mem_cons_self))
          have hrest := ih hpos hpeer hmono hend' hgaps
          rw [accepted_cons_rejected hno]
          refine ⟨hrest.1, ?_⟩
          intro m hm
          rcases List.prefix_cons_iff.mp hm with rfl | ⟨m', rfl, hm'⟩
          · exact hpeer
          · rw [LocalPeerPin.run, accept_rejected hno]
            exact hrest.2 m' hm'

/-- **WHO GETS IN**: a packet of a sender that is not the current one. -/
theorem other_accepted_iff {h : List Packet} {a : Addr} {now : Int}
    (hpos : 0 < pin.rebindAfter.toInt) (h0 : pin.addr = none)
    (hother : ∀ c, (pin.run h).current = some c → ¬ c.Same a) :
    ((pin.run h).accept (some a) now).2 = true ↔
      pin.accepted h = [] ∨
        ∃ q, (pin.accepted h).getLast? = some q ∧ pin.rebindAfter.toInt ≤ now - q.time := by
  rw [accept_iff, run_rebindAfter]
  have ht := tracks h0 h
  cases hl : (pin.accepted h).getLast? with
  | none =>
      rw [hl] at ht
      exact ⟨fun _ => Or.inl (List.getLast?_eq_none_iff.mp hl), fun _ => Or.inl ht⟩
  | some q =>
      rw [hl] at ht
      obtain ⟨-, c, -, hc, -, hseen⟩ := ht
      rw [hc, hseen, le_sub_iff hpos]
      constructor
      · rintro (hnone | ⟨c', hc', hsame | hidle⟩)
        · cases hnone
        · obtain rfl := Option.some.inj hc'
          exact absurd hsame (hother c hc)
        · exact Or.inr ⟨q, rfl, hidle⟩
      · rintro (hnil | ⟨q', hq, hidle⟩)
        · rw [hnil] at hl
          cases hl
        · obtain rfl := Option.some.inj hq
          exact Or.inr ⟨c, rfl, Or.inr hidle⟩

end Histories

/-! ## The reader -/

/-- The reader's pin is that of the packets it has read, and what it has put on the
    queue was accepted. -/
theorem reader_forwards {pin : LocalPeerPin} {r : Reader}
    (h : Reach readerStep anyStep { localPeer := pin } r) :
    r.localPeer = pin.run r.read ∧ r.forwarded.Sublist (pin.accepted r.read) := by
  refine Reach.invariant (I := fun r : Reader => r.localPeer = pin.run r.read ∧
    r.forwarded.Sublist (pin.accepted r.read)) ⟨rfl, List.Sublist.refl _⟩ ?_ h
  intro r e r' _ hI _ hs
  obtain ⟨hpin, hsub⟩ := hI
  cases e with
  | packet p =>
      have hrun : pin.run (r.read ++ [p]) = (r.localPeer.accept p.sender p.time).1 := by
        rw [run_append, ← hpin]
        rfl
      have hacc : pin.accepted (r.read ++ [p])
          = pin.accepted r.read ++ r.localPeer.accepted [p] := by
        rw [accepted_append, ← hpin]
      simp only [readerStep] at hs
      split at hs
      · cases hs
      · split at hs
        · rename_i hok
          rw [accepted_cons_accepted hok] at hacc
          split at hs
          · obtain rfl := Option.some.inj hs
            refine ⟨hrun.symm, ?_⟩
            rw [hacc]
            exact hsub.append (List.Sublist.refl [p])
          · obtain rfl := Option.some.inj hs
            refine ⟨hrun.symm, ?_⟩
            rw [hacc]
            exact hsub.trans (List.sublist_append_left ..)
        · obtain rfl := Option.some.inj hs
          refine ⟨hrun.symm, ?_⟩
          rw [hacc]
          exact hsub.trans (List.sublist_append_left ..)
  | failed =>
      simp only [readerStep] at hs
      split at hs
      · cases hs
      · obtain rfl := Option.some.inj hs
        exact ⟨hpin, hsub⟩
  | taken =>
      simp only [readerStep] at hs
      split at hs
      · cases hs
      · obtain rfl := Option.some.inj hs
        exact ⟨hpin, hsub⟩

theorem newLocalPeerPin_pos (d : Duration) : 0 < (newLocalPeerPin d).rebindAfter.toInt := by
  have hzero : (0 : Int64).toInt = 0 := by decide
  rw [newLocalPeerPin]
  split
  · decide
  · rename_i hpos
    rw [Int64.le_iff_toInt_le, hzero] at hpos
    exact Int.not_le.mp hpos

/-- **LOCAL PEER PINNING**: for every history of packets in the order of their times,
    and a new pin.

    After each packet `Current` is the sender of the last packet accepted (none, if there
    is none).  A packet of another sender is accepted exactly if none has been accepted
    or the last accepted one is at least `rebindAfter` old; a packet without a sender
    never is.  While the pinned sender keeps sending with gaps shorter than
    `rebindAfter`, its own packets are the accepted ones and `Current` does not change.
    The accepted packets alone are accepted again and make the same pin, so that
    whatever comes later is decided the same way.  And what the reader of the local port
    puts on its queue is accepted. -/
theorem local_peer_pinned (d : Duration) (h : List Packet)
    (hmono : h.Pairwise fun p q => p.time ≤ q.time) :
    let pin := newLocalPeerPin d
    let after := pin.rebindAfter.toInt
    (∀ pre, pre <+: h → IsSender (pin.run pre).current (pin.accepted pre).getLast?) ∧
    (∀ pre p post, h = pre ++ p :: post →
      (p.sender = none → ((pin.run pre).accept p.sender p.time).2 = false) ∧
      ∀ a, p.sender = some a → (∀ c, (pin.run pre).current = some c → ¬ c.Same a) →
        (((pin.run pre).accept p.sender p.time).2 = true ↔
          pin.accepted pre = [] ∨
            ∃ q, (pin.accepted pre).getLast? = some q ∧ after ≤ p.time - q.time)) ∧
    (∀ pre mid, h = pre ++ mid → ∀ peer q horizon,
      (pin.run pre).current = some peer → (pin.accepted pre).getLast? = some q →
      (∀ p ∈ mid, p.time ≤ horizon) →
      List.IsChain (fun t u => u - t < after)
        (q.time :: ((mid.filter (·.isFrom peer)).map Packet.time ++ [horizon])) →
      (pin.run pre).accepted mid = mid.filter (·.isFrom peer) ∧
        ∀ m, m <+: mid → (pin.run (pre ++ m)).current = some peer) ∧
    (pin.accepted (pin.accepted h) = pin.accepted h ∧
      ∀ later, (pin.run h).decisions later = (pin.run (pin.accepted h)).decisions later ∧
        (pin.run (h ++ later)).current = (pin.run (pin.accepted h ++ later)).current) ∧
    ∀ r, Reach readerStep anyStep { localPeer := pin } r → r.read = h →
      r.localPeer = pin.run h ∧ r.forwarded.Sublist (pin.accepted h) := by
  intro pin after
  have hpos : 0 < after := newLocalPeerPin_pos d
  have htracks : ∀ pre, Tracks (pin.run pre) (pin.accepted pre).getLast? := tracks rfl
  refine ⟨?_, ?_, ?_, ?_, ?_⟩
  · intro pre _
    exact (htracks pre).isSender
  · intro pre p post hh
    refine ⟨fun hs => by rw [hs]; rfl, ?_⟩
    intro a hs hother
    rw [hs]
    exact other_accepted_iff hpos rfl hother
  · intro pre mid hh peer q horizon hpeer hq hend hgaps
    have hseen : (pin.run pre).lastSeen = q.time := by
      have ht := htracks pre
      rw [hq] at ht
      obtain ⟨-, -, -, -, -, hseen⟩ := ht
      exact hseen
    have hmid : mid.Pairwise fun p q => p.time ≤ q.time := by
      rw [hh] at hmono
      exact (List.pairwise_append.mp hmono).2.1
    have hsteady := steady_accepted (by rw [run_rebindAfter]; exact hpos) hpeer mid hmid hend
      (by rw [run_rebindAfter, hseen]; exact hgaps)
    refine ⟨hsteady.1, ?_⟩
    intro m hm
    rw [run_append]
    exact hsteady.2 m hm
  · refine ⟨(run_accepted h).2, ?_⟩
    intro later
    rw [(run_accepted h).1, run_append, run_append, (run_accepted h).1]
    exact ⟨rfl, rfl⟩
  · intro r hr hread
    have hfwd := reader_forwards hr
    rwa [hread] at hfwd

/-- Two senders on the loopback interface. -/
def sender (port : Int) : Addr := .udp [127, 0, 0, 1] port []

/-- The second sender tries 59 s and 60 s after the first one's only packet. -/
def takeover : List Packet :=
  [⟨some (sender 10001), 0, []⟩, ⟨some (sender 10002), 59000000000, []⟩,
    ⟨some (sender 10002), 60000000000, []⟩]

/-- The first attempt comes too early, the second one gets in. -/
theorem takeover_when_idle :
    ((newLocalPeerPin minute).decisions takeover = [true, false, true]) ∧
      (∀ pre, pre <+: takeover → IsSender ((newLocalPeerPin minute).run pre).current
        ((newLocalPeerPin minute).accepted pre).getLast?) :=
  ⟨by decide, (local_peer_pinned minute takeover (by decide)).1⟩

end VkTurnLocalPeer
