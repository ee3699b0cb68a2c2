import VkTurn.ReceiveProofs
import VkTurn.WireProfileProofs

/-! # Records and the buffer of KCP

    The KCP library reads packets into a buffer of `kcpXmitBufferSize` bytes, and
    `ReadFrom` cuts what does not fit.  Two bounds stand before it: `validateTuning`
    keeps the MTU with its headers within the buffer, and `readLoop` drops records of more
    than `KCPMtu+128` bytes.  The second bound is the wider one, so the two do not
    meet: with an MTU near its maximum a record that is too long for the buffer is
    queued and cut.

    * `own_packets_whole` — what a peer with the same tuning sends is never cut;
    * `record_returned` — a run that hands a record to `ReadFrom`. -/

namespace VkTurnTruncation

open ThreadPool GoText VkTurnStripe VkTurnBondHello VkTurnWireProfile VkTurnReceive

/-- The bond of a process with these settings. -/
def receiving (arch : Arch) (remoteAddr : Bytes) (v : TuningValues) : VkTurnReceive.Config where
  arch := arch
  kcpMtu := v.mtu
  remoteAddr := remoteAddr

/-- The longest packet of KCP: the MTU and the headers around it. -/
def largestPacket (v : TuningValues) : Int :=
  v.mtu + kcpCryptHeaderSize
    + if v.dataShards > 0 ∧ v.parityShards > 0 then kcpFECHeaderSize else 0

/-- An accepted MTU leaves room for the headers. -/
theorem largest_packet_fits {v : TuningValues} (hv : validateTuning v = []) :
    largestPacket v ≤ kcpXmitBufferSize := by
  have hmtu := (validateTuning_wire hv).2
  rw [not_or, not_lt, not_lt, maxKCPMTU] at hmtu
  rw [largestPacket]
  split at hmtu
  · rename_i hfec
    rw [if_pos hfec]
    omega
  · rename_i hfec
    rw [if_neg hfec]
    omega

/-- The headers are within the bound of `readLoop`. -/
theorem largest_packet_delivered (v : TuningValues) : largestPacket v ≤ v.mtu + 128 := by
  have hsizes : kcpCryptHeaderSize = 20 ∧ kcpFECHeaderSize = 8 := ⟨rfl, rfl⟩
  rw [largestPacket, hsizes.1, hsizes.2]
  split
  · omega
  · omega

/-! ## A record on its way -/

variable {cfg : VkTurnReceive.Config}

/-- A bond with one path, whose loop reads. -/
theorem path_reads (cfg : VkTurnReceive.Config) :
    ∃ conn, ReceiveReach cfg ⟨{ conn := conn }, [.bond (.returned (.done 0)), .bond (.reading 0)]⟩ := by
  have hstart : ReceiveReach cfg newReceivers := Reach.start
  have hadded := hstart.tail (.env (.bond (.addConn (some 0) false))) trivial rfl
  have hlocked := hadded.tail (.run 0 (.bond .go)) trivial rfl
  have happended := hlocked.tail (.run 0 (.bond .go)) trivial rfl
  have hnotified := happended.tail (.run 0 (.bond .go)) trivial rfl
  exact ⟨_, hnotified.tail (.run 0 (.bond .go)) trivial rfl⟩

/-- Any record that can be delivered is read, queued and returned, to a call with any
    buffer. -/
theorem record_returned (cfg : VkTurnReceive.Config) {r : Bytes} (hlen : r.length ≤ readBufferSize)
    (hd : deliverable cfg r = true) (size : Nat) :
    ∃ s d, ReceiveReach cfg s ∧ s.shared.returned = [d] ∧ d.size = size ∧
      s.shared.mem.load d.pkt.data = r := by
  obtain ⟨conn, hr⟩ := path_reads cfg
  have hexec : exec cfg 1 { conn := conn } (.bond (.reading 0)) (.record r)
      = some ((Receiver.read { conn := conn } 0 r).copy 0 r.length, .sending 0 (.made 0), []) := by
    simp only [exec, if_pos hlen, if_pos hd]
    rfl
  have hstep : receiveStep cfg ⟨{ conn := conn }, [.bond (.returned (.done 0)), .bond (.reading 0)]⟩
      (.run 1 (.record r)) = some _ := Machine.step_of_exec (M := receiveMachine cfg) rfl hexec
  have hread := hr.tail (.run 1 (.record r)) trivial hstep
  have hsent := hread.tail (.run 1 .send) trivial rfl
  have hreturned := hsent.tail (.env (.readFrom size)) trivial rfl
  exact ⟨_, _, hreturned, rfl, rfl, (Memory.load_copyOf_fill {} 0 r).2⟩

/-! ## The buffer -/

/-- What the two bounds are to ensure, in every run: records in the channel fit into the
    buffer of KCP, so that no call with that buffer returns a part of one; and, while the
    bond is open, no packet of KCP is dropped. -/
def NoTruncation (arch : Arch) (remoteAddr : Bytes) (v : TuningValues) : Prop :=
  ∀ s, ReceiveReach (receiving arch remoteAddr v) s →
    (∀ pkt ∈ s.shared.channel,
      ((s.shared.mem.load pkt.data).length : Int) ≤ kcpXmitBufferSize) ∧
    (∀ d ∈ s.shared.returned, d.size = kcpXmitBufferSize →
      d.bytes = s.shared.mem.load d.pkt.data) ∧
    (s.shared.conn.bond.closed = false → ∀ p r, (p, r) ∈ s.shared.reads →
      1 ≤ r.length → (r.length : Int) ≤ largestPacket v →
      (p, r) ∈ (merged (receiving arch remoteAddr v) s).map (contents s.shared.mem))

/-- A record in the channel passed the test of `readLoop`. -/
theorem channel_bounded {s : Receivers} (h : ReceiveReach cfg s) {pkt : BondedPacket}
    (hpkt : pkt ∈ s.shared.channel) :
    ((s.shared.mem.load pkt.data).length : Int) ≤ cfg.kcpMtu + 128 :=
  (deliverable_iff.mp ((kept h).made pkt hpkt).2).2

/-- What a call returned is the start of the record. -/
theorem returned_bytes {s : Receivers} (h : ReceiveReach cfg s) {d : Datagram}
    (hd : d ∈ s.shared.returned) : d.bytes = (s.shared.mem.load d.pkt.data).take d.size :=
  congrArg Datagram.bytes ((kept h).whole d hd)

/-- A record that fits into the buffer is returned whole. -/
theorem returned_whole {s : Receivers} (h : ReceiveReach cfg s) {d : Datagram}
    (hd : d ∈ s.shared.returned) (hsize : d.size = kcpXmitBufferSize)
    (hfits : ((s.shared.mem.load d.pkt.data).length : Int) ≤ kcpXmitBufferSize) :
    d.bytes = s.shared.mem.load d.pkt.data := by
  rw [returned_bytes h hd, List.take_of_length_le (by omega)]

/-- **PACKETS OF A PEER**: with an accepted tuning no packet of a peer that has the same one
    is cut, whatever else was received. -/
theorem own_packets_whole {arch : Arch} {remoteAddr : Bytes} {v : TuningValues}
    (hv : validateTuning v = []) {s : Receivers} (h : ReceiveReach (receiving arch remoteAddr v) s)
    {d : Datagram} (hd : d ∈ s.shared.returned) (hsize : d.size = kcpXmitBufferSize)
    (hlen : ((s.shared.mem.load d.pkt.data).length : Int) ≤ largestPacket v) :
    d.bytes = s.shared.mem.load d.pkt.data :=
  returned_whole h hd hsize (hlen.trans (largest_packet_fits hv))

/-- A packet of KCP that was read is on its way or returned. -/
theorem packet_kept {s : Receivers} (h : ReceiveReach cfg s)
    (hopen : s.shared.conn.bond.closed = false) {p : VkTurnBond.PathRef} {r : Bytes}
    (hread : (p, r) ∈ s.shared.reads) (hd : deliverable cfg r = true) :
    (p, r) ∈ (merged cfg s).map (contents s.shared.mem) := by
  have hin : (p, r) ∈ (s.shared.reads.filter fun r => deliverable cfg r.2).filter (·.1 = p) :=
    List.mem_filter.mpr ⟨List.mem_filter.mpr ⟨hread, hd⟩, decide_eq_true rfl⟩
  rw [← (kept h).reads hopen p, ← held_waits cfg] at hin
  rw [merged, List.map_append]
  rcases List.mem_append.mp hin with hchannel | hheld
  · exact List.mem_append_left _ (List.mem_filter.mp hchannel).1
  · exact List.mem_append_right _ (List.mem_filter.mp hheld).1

/-- **EXACTLY WHEN NOTHING IS CUT**: for every tuning, and so for every accepted one, the two
    bounds do their work if and only if the bound of `readLoop` is within the buffer. -/
theorem no_truncation_iff (arch : Arch) (remoteAddr : Bytes) (v : TuningValues) :
    NoTruncation arch remoteAddr v ↔ v.mtu + 128 ≤ kcpXmitBufferSize := by
  have hsize : kcpXmitBufferSize = 1500 := rfl
  constructor
  · intro hno
    by_contra hwide
    -- a record of one byte more than the buffer
    have hlen : (List.replicate 1501 (0 : UInt8)).length = 1501 := List.length_replicate
    have hd : deliverable (receiving arch remoteAddr v) (List.replicate 1501 0) = true := by
      have hmtu : (receiving arch remoteAddr v).kcpMtu = v.mtu := rfl
      rw [deliverable_iff, hlen, hmtu]
      omega
    obtain ⟨s, d, hr, hreturned, -, hload⟩ :=
      record_returned _ (hlen.le.trans (by decide)) hd 1500
    have hin : d.pkt ∈ s.shared.channel := by
      rw [Receiver.channel, hreturned]
      exact List.mem_append_left _ (List.mem_singleton.mpr rfl)
    have hfits := (hno s hr).1 d.pkt hin
    rw [hload, hlen] at hfits
    omega
  · intro hwide s hr
    have hbound : ∀ pkt ∈ s.shared.channel,
        ((s.shared.mem.load pkt.data).length : Int) ≤ kcpXmitBufferSize :=
      fun pkt hpkt => (channel_bounded hr hpkt).trans hwide
    refine ⟨hbound, ?_, ?_⟩
    · intro d hd hbuf
      have hin : d.pkt ∈ s.shared.channel := List.mem_append_left _ (List.mem_map_of_mem hd)
      exact returned_whole hr hd hbuf (hbound d.pkt hin)
    · intro hopen p r hread hpos hle
      refine packet_kept hr hopen hread (deliverable_iff.mpr ⟨hpos, ?_⟩)
      exact hle.trans (largest_packet_delivered v)

/-- The defaults are within it. -/
theorem default_mtu_whole : validateTuning defaultTuning = [] ∧
    NoTruncation .bits64 (ascii "vless-bond/remote") defaultTuning :=
  ⟨by decide, (no_truncation_iff .bits64 _ defaultTuning).mpr (by decide)⟩

/-- The largest MTU without FEC. -/
def largestMtu : TuningValues := { defaultTuning with mtu := 1480 }

/-- **A RECORD THAT IS CUT**: `validateTuning` accepts the largest MTU, a record of 1608
    bytes is queued, and a call with the buffer of KCP returns 1500 of them. -/
theorem largest_mtu_truncates : validateTuning largestMtu = [] ∧
    ¬ NoTruncation .bits64 (ascii "vless-bond/remote") largestMtu := by
  refine ⟨by decide, ?_⟩
  intro hno
  have hlen : (List.replicate 1608 (0 : UInt8)).length = 1608 := List.length_replicate
  have hd : deliverable (receiving .bits64 (ascii "vless-bond/remote") largestMtu)
      (List.replicate 1608 0) = true := by
    rw [deliverable_iff, hlen]
    decide
  obtain ⟨s, d, hr, hreturned, hsize, hload⟩ := record_returned _ (hlen.le.trans (by decide)) hd 1500
  have hmem : d ∈ s.shared.returned := hreturned ▸ List.mem_singleton.mpr rfl
  have hwhole := (hno s hr).2.1 d hmem (by rw [hsize]; rfl)
  have hcut := congrArg List.length ((returned_bytes hr hmem).symm.trans hwhole)
  rw [hload, hsize, List.length_take, hlen] at hcut
  cases hcut

end VkTurnTruncation
