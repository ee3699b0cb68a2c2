import VkTurn.GoScopeProofs
import VkTurn.GoTextProofs

/-! # Bridging a DTLS pipe and a TURN allocation

    A DTLS connection of the client lives on a packet pipe that outlasts the TURN
    allocation under it.  `bridgeTURNPackets` forwards between the pipe and ONE allocation;
    when the allocation breaks, the next one is bridged to the same pipe.  A reader of the
    old bridge that was still there would take packets and drop them, and a deadline that
    was still set would end the new bridge at once.

    The state has the bridge in progress, if there is one; `start` is the next call of
    `bridgeTURNPackets` by the loop over the allocations, with a new relay.  What the
    connections answer and when the context ends is not up to the code: the pipe is one of
    them, and nothing is assumed of the packets that its reads return.

    * A bridge is a scope over the two connections (`bridge_scopes`), so it leaves nothing
      behind;
    * over all allocations the relays are sent, in their order, packets that the reads of the
      pipe returned, and a bridge sends all that its reads returned but perhaps the last
      (`orderly`). -/

namespace VkTurnBridge

open ThreadPool GoText GoScope

/-! ## State -/

def udpPacketBufferSize : Nat := 2048

/-- The part of a packet that a read returns. -/
def received (packet : Bytes) : Bytes := packet.take udpPacketBufferSize

/-- The two connections of a bridge. -/
inductive Conn where
  | relay
  | pipe
  deriving DecidableEq, Repr

/-- An address of the pipe. -/
abbrev Addr := Nat

/-- The goroutine that reads from the pipe, by where it is. -/
inductive Up where
  | checking
  | reading
  | got (data : Bytes) (addr : Option Addr)
  | storing (data : Bytes) (addr : Option Addr)
  | sending (data : Bytes)
  | cancelling
  | finishing
  | ended
  deriving DecidableEq, Repr

/-- The goroutine that reads from the relay. -/
inductive Down where
  | checking
  | reading
  | got (data : Bytes)
  | loading (data : Bytes)
  | sending (data : Bytes) (addr : Addr)
  | cancelling
  | finishing
  | ended
  deriving DecidableEq, Repr

/-- The call of `bridgeTURNPackets`: in `wg.Wait`, and what follows. -/
inductive Main where
  | waiting
  | cancelling
  | stopping
  | awaiting
  | clearing (todo : List Conn)
  | returned
  deriving DecidableEq, Repr

/-- A packet from the pipe, with the allocation whose bridge has read it. -/
structure Packet where
  allocation : Nat
  data : Bytes
  deriving DecidableEq, Repr

/-- The bridge.  Histories: the number of allocations, the packets that the reads of the pipe
    returned, those that were written to a relay, and the deadlines that the last call failed to
    clear. -/
structure Bridge where
  ctx : Bool := false
  bridgeCtx : Bool := false
  main : Main := .returned
  up : Up := .ended
  down : Down := .ended
  hook : Hook Conn := .stopped
  deadlines : Conn → Bool := fun _ => false
  internalPipeAddr : Option Addr := none
  allocation : Nat := 0
  read : List Packet := []
  sent : List Packet := []
  uncleared : List Conn := []

/-- Before the first allocation. -/
def newBridge : Bridge := {}

/-- What the hook sets and the call clears, in this order. -/
def conns : List Conn := [.relay, .pipe]

/-! ## Sections -/

/-- What a read or a write returns; `go` is every other section. -/
inductive UpChoice where
  | go
  | packet (data : Bytes) (addr : Option Addr)
  | fails
  | sent (ok : Bool)
  deriving DecidableEq, Repr

inductive DownChoice where
  | go
  | packet (data : Bytes)
  | fails
  | sent (ok : Bool)
  deriving DecidableEq, Repr

/-- One scheduling choice; `ok` is what a `SetDeadline` answers.  `cancel` is the caller's
    context, `propagate` its effect on `bridgeCtx`. -/
inductive Choice where
  | main (ok : Bool)
  | up (c : UpChoice)
  | down (c : DownChoice)
  | hook (ok : Bool)
  | cancel
  | propagate
  | start
  deriving DecidableEq, Repr

/-- One section of the reader of the pipe. -/
def upStep (b : Bridge) : UpChoice → Up → Option Bridge
  | .go, .checking =>
      if b.bridgeCtx then some { b with up := .cancelling } else some { b with up := .reading }
  | .packet packet addr, .reading =>
      some { b with read := b.read ++ [⟨b.allocation, received packet⟩]
                    up := .got (received packet) addr }
  | .fails, .reading => some { b with up := .cancelling }
  | .go, .got data addr =>
      if b.bridgeCtx then some { b with up := .cancelling }
      else some { b with up := .storing data addr }
  | .go, .storing data addr =>
      some { b with internalPipeAddr := addr.or b.internalPipeAddr, up := .sending data }
  | .sent true, .sending data =>
      some { b with sent := b.sent ++ [⟨b.allocation, data⟩], up := .checking }
  | .sent false, .sending _ => some { b with up := .cancelling }
  | .go, .cancelling => some { b with bridgeCtx := true, up := .finishing }
  | .go, .finishing => some { b with up := .ended }
  | _, _ => none

/-- One section of the reader of the relay. -/
def downStep (b : Bridge) : DownChoice → Down → Option Bridge
  | .go, .checking =>
      if b.bridgeCtx then some { b with down := .cancelling }
      else some { b with down := .reading }
  | .packet packet, .reading => some { b with down := .got (received packet) }
  | .fails, .reading => some { b with down := .cancelling }
  | .go, .got data =>
      if b.bridgeCtx then some { b with down := .cancelling }
      else some { b with down := .loading data }
  | .go, .loading data =>
      match b.internalPipeAddr with
      | none => some { b with down := .checking }
      | some addr => some { b with down := .sending data addr }
  | .sent true, .sending _ _ => some { b with down := .checking }
  | .sent false, .sending _ _ => some { b with down := .cancelling }
  | .go, .cancelling => some { b with bridgeCtx := true, down := .finishing }
  | .go, .finishing => some { b with down := .ended }
  | _, _ => none

/-- One section of the call. -/
def mainStep (b : Bridge) (ok : Bool) : Main → Option Bridge
  | .waiting =>
      if b.up = .ended ∧ b.down = .ended then some { b with main := .cancelling } else none
  | .cancelling => some { b with bridgeCtx := true, main := .stopping }
  | .stopping =>
      if b.hook = .armed then some { b with hook := .stopped, main := .clearing conns }
      else some { b with main := .awaiting }
  | .awaiting => if b.hook = .done then some { b with main := .clearing conns } else none
  | .clearing (c :: todo) =>
      some { b with deadlines := mark b.deadlines c false ok, main := .clearing todo
                    uncleared := if ok then b.uncleared else c :: b.uncleared }
  | .clearing [] => some { b with main := .returned }
  | .returned => none

/-- One section of the function given to `AfterFunc`, or its start. -/
def hookStep (b : Bridge) (ok : Bool) : Option Bridge :=
  (b.hook.step conns b.bridgeCtx b.deadlines ok).map fun x =>
    { b with hook := x.1, deadlines := x.2 }

/-- The next allocation is bridged; `WithCancel` of a context that is done is done. -/
def Bridge.start (b : Bridge) : Bridge :=
  { b with bridgeCtx := b.ctx, main := .waiting, up := .checking, down := .checking
           hook := .armed, deadlines := fun c => b.deadlines c && !decide (c = .relay)
           internalPipeAddr := none, allocation := b.allocation + 1, uncleared := [] }

/-- One step. -/
def bridgeStep (b : Bridge) : Choice → Option Bridge
  | .main ok => mainStep b ok b.main
  | .up c => upStep b c b.up
  | .down c => downStep b c b.down
  | .hook ok => hookStep b ok
  | .cancel => some { b with ctx := true }
  | .propagate => if b.ctx then some { b with bridgeCtx := true } else none
  | .start => if b.main = .returned then some b.start else none

/-- Every state, whatever happens. -/
abbrev BridgeReach : Bridge → Prop := Reach bridgeStep anyStep newBridge

/-! ## A bridge is a scope -/

/-- One for a goroutine that has not called `wg.Done`. -/
def Up.count : Up → Nat
  | .ended => 0
  | _ => 1

def Down.count : Down → Nat
  | .ended => 0
  | _ => 1

/-- A goroutine counts until it has ended. -/
theorem Up.count_eq_zero {up : Up} : up.count = 0 ↔ up = .ended := by
  cases up <;> simp [Up.count]

theorem Down.count_eq_zero {down : Down} : down.count = 0 ↔ down = .ended := by
  cases down <;> simp [Down.count]

/-- The goroutines of a bridge that are still there. -/
def Bridge.workers (b : Bridge) : Nat := b.up.count + b.down.count

def Main.owner : Main → Owner Conn
  | .waiting => .working
  | .cancelling => .joined
  | .stopping => .joined
  | .awaiting => .awaiting
  | .clearing todo => .clearing todo
  | .returned => .away

/-- The bridge without its packets. -/
def Bridge.scope (b : Bridge) : Scope Conn where
  cancelled := b.bridgeCtx
  workers := b.workers
  hook := b.hook
  owner := b.main.owner
  marks := b.deadlines
  uncleared := b.uncleared

/-- A step of the scope, or none. -/
def Scopes (b : Bridge) (c : Choice) (b' : Bridge) : Prop :=
  Scope.Follows conns conns (c = .hook false) b.scope b'.scope

/-! ## Inversion -/

/-- What a section of the reader of the pipe does. -/
inductive UpMoves (b : Bridge) : UpChoice → Bridge → Prop where
  | stops (hup : b.up = .checking) (hctx : b.bridgeCtx = true) :
      UpMoves b .go { b with up := .cancelling }
  | reads (hup : b.up = .checking) (hctx : b.bridgeCtx = false) :
      UpMoves b .go { b with up := .reading }
  | receives {packet : Bytes} {addr : Option Addr} (hup : b.up = .reading) :
      UpMoves b (.packet packet addr)
        { b with read := b.read ++ [⟨b.allocation, received packet⟩]
                 up := .got (received packet) addr }
  | fails (hup : b.up = .reading) : UpMoves b .fails { b with up := .cancelling }
  | drops {data : Bytes} {addr : Option Addr} (hup : b.up = .got data addr)
      (hctx : b.bridgeCtx = true) : UpMoves b .go { b with up := .cancelling }
  | keeps {data : Bytes} {addr : Option Addr} (hup : b.up = .got data addr)
      (hctx : b.bridgeCtx = false) : UpMoves b .go { b with up := .storing data addr }
  | stores {data : Bytes} {addr : Option Addr} (hup : b.up = .storing data addr) :
      UpMoves b .go
        { b with internalPipeAddr := addr.or b.internalPipeAddr, up := .sending data }
  | sends {data : Bytes} (hup : b.up = .sending data) :
      UpMoves b (.sent true) { b with sent := b.sent ++ [⟨b.allocation, data⟩], up := .checking }
  | breaks {data : Bytes} (hup : b.up = .sending data) :
      UpMoves b (.sent false) { b with up := .cancelling }
  | cancels (hup : b.up = .cancelling) :
      UpMoves b .go { b with bridgeCtx := true, up := .finishing }
  | finishes (hup : b.up = .finishing) : UpMoves b .go { b with up := .ended }

/-- What a section of the reader of the relay does. -/
inductive DownMoves (b : Bridge) : DownChoice → Bridge → Prop where
  | stops (hdown : b.down = .checking) (hctx : b.bridgeCtx = true) :
      DownMoves b .go { b with down := .cancelling }
  | reads (hdown : b.down = .checking) (hctx : b.bridgeCtx = false) :
      DownMoves b .go { b with down := .reading }
  | receives {packet : Bytes} (hdown : b.down = .reading) :
      DownMoves b (.packet packet) { b with down := .got (received packet) }
  | fails (hdown : b.down = .reading) : DownMoves b .fails { b with down := .cancelling }
  | drops {data : Bytes} (hdown : b.down = .got data) (hctx : b.bridgeCtx = true) :
      DownMoves b .go { b with down := .cancelling }
  | keeps {data : Bytes} (hdown : b.down = .got data) (hctx : b.bridgeCtx = false) :
      DownMoves b .go { b with down := .loading data }
  | skips {data : Bytes} (hdown : b.down = .loading data) (haddr : b.internalPipeAddr = none) :
      DownMoves b .go { b with down := .checking }
  | loads {data : Bytes} {addr : Addr} (hdown : b.down = .loading data)
      (haddr : b.internalPipeAddr = some addr) :
      DownMoves b .go { b with down := .sending data addr }
  | sends {data : Bytes} {addr : Addr} (hdown : b.down = .sending data addr) :
      DownMoves b (.sent true) { b with down := .checking }
  | breaks {data : Bytes} {addr : Addr} (hdown : b.down = .sending data addr) :
      DownMoves b (.sent false) { b with down := .cancelling }
  | cancels (hdown : b.down = .cancelling) :
      DownMoves b .go { b with bridgeCtx := true, down := .finishing }
  | finishes (hdown : b.down = .finishing) : DownMoves b .go { b with down := .ended }

section Inversion

variable {b b' : Bridge}

/-- A step of the reader of the pipe is one of the listed ones. -/
theorem upStep_moves {c : UpChoice} (h : upStep b c b.up = some b') : UpMoves b c b' := by
  generalize hup : b.up = up at h
  unfold upStep at h
  split at h
  case h_1 =>
    split at h
    · cases h; exact .stops hup ‹_›
    · cases h; exact .reads hup (Bool.eq_false_iff.mpr ‹_›)
  case h_2 => cases h; exact .receives hup
  case h_3 => cases h; exact .fails hup
  case h_4 =>
    split at h
    · cases h; exact .drops hup ‹_›
    · cases h; exact .keeps hup (Bool.eq_false_iff.mpr ‹_›)
  case h_5 => cases h; exact .stores hup
  case h_6 => cases h; exact .sends hup
  case h_7 => cases h; exact .breaks hup
  case h_8 => cases h; exact .cancels hup
  case h_9 => cases h; exact .finishes hup
  case h_10 => cases h

theorem downStep_moves {c : DownChoice} (h : downStep b c b.down = some b') :
    DownMoves b c b' := by
  generalize hdown : b.down = down at h
  unfold downStep at h
  split at h
  case h_1 =>
    split at h
    · cases h; exact .stops hdown ‹_›
    · cases h; exact .reads hdown (Bool.eq_false_iff.mpr ‹_›)
  case h_2 => cases h; exact .receives hdown
  case h_3 => cases h; exact .fails hdown
  case h_4 =>
    split at h
    · cases h; exact .drops hdown ‹_›
    · cases h; exact .keeps hdown (Bool.eq_false_iff.mpr ‹_›)
  case h_5 =>
    split at h
    · cases h; exact .skips hdown ‹_›
    · cases h; exact .loads hdown ‹_›
  case h_6 => cases h; exact .sends hdown
  case h_7 => cases h; exact .breaks hdown
  case h_8 => cases h; exact .cancels hdown
  case h_9 => cases h; exact .finishes hdown
  case h_10 => cases h

end Inversion

/-! ## A bridge takes the steps of a scope -/

section Scope

variable {b b' : Bridge}

/-- What each step is to the scope. -/
theorem upStep_scopes {c : UpChoice} (h : upStep b c b.up = some b') :
    Scopes b (.up c) b' := by
  cases upStep_moves h with
  | cancels hup =>
      refine Or.inr (Scope.Step.cancel.of_eq ?_)
      simp [Bridge.scope, Bridge.workers, Up.count, hup]
  | finishes hup =>
      refine Or.inr (.finish ?_)
      simp [Bridge.scope, Bridge.workers, Up.count, hup, Nat.add_comm]
  | _ hup => exact Or.inl (by simp [Bridge.scope, Bridge.workers, Up.count, hup])

theorem downStep_scopes {c : DownChoice} (h : downStep b c b.down = some b') :
    Scopes b (.down c) b' := by
  cases downStep_moves h with
  | cancels hdown =>
      refine Or.inr (Scope.Step.cancel.of_eq ?_)
      simp [Bridge.scope, Bridge.workers, Down.count, hdown]
  | finishes hdown =>
      refine Or.inr (.finish ?_)
      simp [Bridge.scope, Bridge.workers, Down.count, hdown]
  | _ hdown => exact Or.inl (by simp [Bridge.scope, Bridge.workers, Down.count, hdown])

theorem hookStep_scopes {ok : Bool} (h : hookStep b ok = some b') : Scopes b (.hook ok) b' := by
  obtain ⟨x, hx, rfl⟩ := Option.map_eq_some_iff.mp h
  exact Or.inr (.hook (congrArg Choice.hook) hx)

theorem mainStep_scopes {ok : Bool} (h : mainStep b ok b.main = some b') :
    Scopes b (.main ok) b' := by
  generalize hmain : b.main = main at h
  unfold mainStep at h
  split at h
  case h_1 =>
    split at h
    case isTrue hends =>
      cases h
      refine Or.inr (.join (congrArg Main.owner hmain) ?_)
      simp [Bridge.scope, Bridge.workers, Up.count, Down.count, hends]
    case isFalse => cases h
  case h_2 =>
    cases h
    refine Or.inr (Scope.Step.cancel.of_eq ?_)
    simp [Bridge.scope, Bridge.workers, Main.owner, hmain]
  case h_3 =>
    split at h
    · cases h; exact Or.inr (.stop (congrArg Main.owner hmain) ‹_›)
    · cases h; exact Or.inr (.miss (congrArg Main.owner hmain) ‹_›)
  case h_4 =>
    split at h
    · cases h; exact Or.inr (.await (congrArg Main.owner hmain) ‹_›)
    · cases h
  case h_5 => cases h; exact Or.inr (.clear ok (congrArg Main.owner hmain))
  case h_6 => cases h; exact Or.inr (.leave (congrArg Main.owner hmain))
  case h_7 => cases h

/-- **A BRIDGE IS A SCOPE**: every step is one of the scope over the two connections, or none of
    it. -/
theorem bridge_scopes {c : Choice} (h : bridgeStep b c = some b') : Scopes b c b' := by
  cases c with
  | main ok => exact mainStep_scopes h
  | up c => exact upStep_scopes h
  | down c => exact downStep_scopes h
  | hook ok => exact hookStep_scopes h
  | cancel => cases h; exact Or.inl rfl
  | propagate =>
      simp only [bridgeStep, Option.ite_none_right_eq_some, Option.some.injEq] at h
      obtain ⟨-, rfl⟩ := h
      exact Or.inr .cancel
  | start =>
      simp only [bridgeStep, Option.ite_none_right_eq_some, Option.some.injEq] at h
      obtain ⟨hmain, rfl⟩ := h
      refine Or.inr ?_
      exact .enter b.ctx 2 (fun c => decide (c = Conn.relay)) (congrArg Main.owner hmain)

/-- **THE SCOPE IS TIDY** on every run. -/
theorem bridge_tidy (h : BridgeReach b) : b.scope.Tidy conns conns :=
  Scope.tidy (fun _ ha => ha) (by rfl) (fun _ _ _ _ hstep => bridge_scopes hstep) h

/-- The call returns after its goroutines. -/
theorem returned_ends (h : BridgeReach b) (hmain : b.main = .returned) :
    b.up = .ended ∧ b.down = .ended := by
  have hzero : b.up.count + b.down.count = 0 := by
    refine (bridge_tidy h).joined ?_
    show b.main.owner ≠ .working
    rw [hmain]
    intro he
    cases he
  exact ⟨Up.count_eq_zero.mp (by omega), Down.count_eq_zero.mp (by omega)⟩

/-- The calls of the hook succeed. -/
def interrupts (_ : Bridge) (c : Choice) : Prop := c ≠ .hook false

instance (b : Bridge) (c : Choice) : Decidable (interrupts b c) :=
  inferInstanceAs (Decidable (c ≠ .hook false))

/-- A hook that has run has struck both connections, until the function is done with it. -/
theorem bridge_struck (h : Reach bridgeStep interrupts newBridge b) :
    b.main.owner.closing = false → b.scope.Struck conns :=
  Scope.struck (by rfl) (fun _ _ _ _ hstep => bridge_scopes hstep) (fun _ _ hok => hok) h

end Scope

/-! ## Packets -/

/-- The packet that the reader of the pipe holds. -/
def Up.inHand : Up → List Bytes
  | .got data _ => [data]
  | .storing data _ => [data]
  | .sending data => [data]
  | _ => []

/-- The reader of the pipe has not met an error, nor the end of the context. -/
def Up.live : Up → Bool
  | .cancelling => false
  | .finishing => false
  | .ended => false
  | _ => true

/-- The packets of one allocation. -/
def packetsOf (a : Nat) (packets : List Packet) : List Packet :=
  packets.filter fun p => p.allocation = a

/-- The packet that was read and not yet sent or dropped. -/
def Bridge.held (b : Bridge) : List Packet := b.up.inHand.map (Packet.mk b.allocation)

/-- What is sent and what is in hand was read, in this order.  Bridges read one after the other,
    and each sends all that it read but perhaps the last; one that has met no error has the
    packet that is missing in hand. -/
structure Orderly (b : Bridge) : Prop where
  known : ∀ x ∈ b.read, x.allocation ≤ b.allocation
  order : b.read.Pairwise fun x y => x.allocation ≤ y.allocation
  among : (b.sent ++ b.held).Sublist b.read
  past : ∀ a, ∃ lost, packetsOf a b.read = packetsOf a b.sent ++ lost ∧ lost.length ≤ 1
  present : b.up.live = true →
    packetsOf b.allocation b.read = packetsOf b.allocation b.sent ++ b.held

/-- What concerns the packets from the pipe is the same. -/
structure SamePackets (b b' : Bridge) : Prop where
  up : b'.up = b.up
  read : b'.read = b.read
  sent : b'.sent = b.sent
  allocation : b'.allocation = b.allocation

section Packets

variable {b b' : Bridge} {a : Nat}

/-- One packet more: of its own allocation, and of no other. -/
theorem packetsOf_snoc (a : Nat) (packets : List Packet) (p : Packet) :
    packetsOf a (packets ++ [p])
      = packetsOf a packets ++ if p.allocation = a then [p] else [] := by
  rw [packetsOf, List.filter_append]
  refine congrArg (packetsOf a packets ++ ·) ?_
  by_cases ha : p.allocation = a
  · rw [if_pos ha, List.filter_singleton, decide_eq_true ha]
    rfl
  · rw [if_neg ha, List.filter_singleton, decide_eq_false ha]
    rfl

/-- A step that has nothing to do with the packets. -/
theorem SamePackets.orderly (h : SamePackets b b') (hb : Orderly b) : Orderly b' := by
  have hheld : b'.held = b.held := by rw [Bridge.held, h.up, h.allocation]; rfl
  refine ⟨?_, ?_, ?_, ?_, ?_⟩
  · rw [h.read, h.allocation]
    exact hb.known
  · rw [h.read]
    exact hb.order
  · rw [h.read, h.sent, hheld]
    exact hb.among
  · rw [h.read, h.sent]
    exact hb.past
  · rw [h.up, h.read, h.sent, h.allocation, hheld]
    exact hb.present

/-- Only the reader of the pipe moves packets. -/
theorem downStep_packets {c : DownChoice} (h : downStep b c b.down = some b') :
    SamePackets b b' := by
  cases downStep_moves h <;> exact ⟨rfl, rfl, rfl, rfl⟩

theorem hookStep_packets {ok : Bool} (h : hookStep b ok = some b') : SamePackets b b' := by
  obtain ⟨x, -, rfl⟩ := Option.map_eq_some_iff.mp h
  exact ⟨rfl, rfl, rfl, rfl⟩

theorem mainStep_packets {ok : Bool} (h : mainStep b ok b.main = some b') :
    SamePackets b b' := by
  unfold mainStep at h
  split at h
  case h_7 => cases h
  case h_1 | h_3 | h_4 =>
    split at h <;> cases h <;> exact ⟨rfl, rfl, rfl, rfl⟩
  all_goals cases h; exact ⟨rfl, rfl, rfl, rfl⟩

/-- **A READ**: the bridge has sent all that it read before, and the packet comes last. -/
theorem Orderly.receives (hb : Orderly b) (hup : b.up = .reading) (data : Bytes)
    (addr : Option Addr) :
    Orderly { b with read := b.read ++ [⟨b.allocation, data⟩], up := .got data addr } := by
  have hheld : b.held = [] := by rw [Bridge.held, hup]; rfl
  have hall := hb.present (by rw [hup]; rfl)
  rw [hheld, List.append_nil] at hall
  have hown : packetsOf b.allocation (b.read ++ [⟨b.allocation, data⟩])
      = packetsOf b.allocation b.sent ++ [⟨b.allocation, data⟩] := by
    rw [packetsOf_snoc, if_pos rfl, hall]
  refine ⟨?_, ?_, ?_, ?_, fun _ => hown⟩
  · intro x hx
    rcases List.mem_append.mp hx with hx | hx
    · exact hb.known x hx
    · obtain rfl := List.mem_singleton.mp hx
      exact le_rfl
  · refine List.pairwise_append.mpr ⟨hb.order, List.pairwise_singleton _ _, ?_⟩
    intro x hx y hy
    obtain rfl := List.mem_singleton.mp hy
    exact hb.known x hx
  · have hold := hb.among
    rw [hheld, List.append_nil] at hold
    exact hold.append (List.Sublist.refl [Packet.mk b.allocation data])
  · intro a
    by_cases ha : b.allocation = a
    · subst ha
      exact ⟨[⟨b.allocation, data⟩], hown, le_rfl⟩
    · obtain ⟨lost, hlost, hone⟩ := hb.past a
      refine ⟨lost, ?_, hone⟩
      rw [packetsOf_snoc, if_neg ha, List.append_nil]
      exact hlost

/-- **A WRITE**: the packet in hand goes out. -/
theorem Orderly.sends (hb : Orderly b) {data : Bytes} (hup : b.up = .sending data) :
    Orderly { b with sent := b.sent ++ [⟨b.allocation, data⟩], up := .checking } := by
  have hheld : b.held = [⟨b.allocation, data⟩] := by rw [Bridge.held, hup]; rfl
  have hall := hb.present (by rw [hup]; rfl)
  have hown : packetsOf b.allocation b.read
      = packetsOf b.allocation (b.sent ++ [⟨b.allocation, data⟩]) ++ [] := by
    rw [packetsOf_snoc, if_pos rfl, List.append_nil, ← hheld]
    exact hall
  refine ⟨hb.known, hb.order, ?_, ?_, fun _ => hown⟩
  · have hold := hb.among
    rw [hheld] at hold
    exact (List.append_nil (b.sent ++ [⟨b.allocation, data⟩])).symm ▸ hold
  · intro a
    by_cases ha : b.allocation = a
    · subst ha
      exact ⟨[], hown, Nat.zero_le 1⟩
    · obtain ⟨lost, hlost, hone⟩ := hb.past a
      refine ⟨lost, ?_, hone⟩
      rw [packetsOf_snoc, if_neg ha, List.append_nil]
      exact hlost

/-- The packet in hand is kept. -/
theorem Orderly.keeps (hb : Orderly b) {up : Up} (hlive : b.up.live = true)
    (hhand : up.inHand = b.up.inHand) (ctx : Bool) (addr : Option Addr) :
    Orderly { b with bridgeCtx := ctx, internalPipeAddr := addr, up := up } := by
  have hheld : up.inHand.map (Packet.mk b.allocation) = b.held := by rw [hhand]; rfl
  refine ⟨hb.known, hb.order, ?_, hb.past, fun _ => ?_⟩
  · show (b.sent ++ up.inHand.map (Packet.mk b.allocation)).Sublist b.read
    rw [hheld]
    exact hb.among
  · show _ = packetsOf b.allocation b.sent ++ up.inHand.map (Packet.mk b.allocation)
    rw [hheld]
    exact hb.present hlive

/-- The reader stops, and drops what it has in hand. -/
theorem Orderly.stops (hb : Orderly b) {up : Up} (hlive : up.live = false)
    (hhand : up.inHand = []) (ctx : Bool) : Orderly { b with bridgeCtx := ctx, up := up } := by
  refine ⟨hb.known, hb.order, ?_, hb.past, fun h => absurd (h.symm.trans hlive) (by decide)⟩
  show (b.sent ++ up.inHand.map (Packet.mk b.allocation)).Sublist b.read
  rw [hhand]
  exact (List.append_nil b.sent).symm ▸ (List.sublist_append_left _ _).trans hb.among

/-- **ONE SECTION OF THE READER OF THE PIPE** keeps the order. -/
theorem upStep_orderly {c : UpChoice} (hb : Orderly b) (h : upStep b c b.up = some b') :
    Orderly b' := by
  cases upStep_moves h with
  | receives hup => exact hb.receives hup _ _
  | sends hup => exact hb.sends hup
  | reads hup | keeps hup | stores hup =>
      exact hb.keeps (by rw [hup]; rfl) (by rw [hup]; rfl) _ _
  | _ => exact hb.stops rfl rfl _

/-- The bridge of a new allocation has read nothing. -/
theorem Orderly.start (hb : Orderly b) : Orderly b.start := by
  have hsent : b.sent.Sublist b.read := (List.sublist_append_left _ _).trans hb.among
  have hnone : ∀ packets : List Packet, packets.Sublist b.read →
      packetsOf (b.allocation + 1) packets = [] := by
    intro packets hsub
    rw [packetsOf, List.filter_eq_nil_iff]
    intro x hx hnew
    have hle := hb.known x (hsub.subset hx)
    have heq := of_decide_eq_true hnew
    omega
  refine ⟨fun x hx => Nat.le_succ_of_le (hb.known x hx), hb.order, ?_, hb.past, fun _ => ?_⟩
  · exact (List.append_nil b.sent).symm ▸ hsent
  · exact (hnone b.read (List.Sublist.refl _)).trans
      ((congrArg (· ++ []) (hnone b.sent hsent)).symm)

/-- **ORDER** throughout every run. -/
theorem orderly (h : BridgeReach b) : Orderly b := by
  have h0 : Orderly newBridge :=
    ⟨fun x hx => (by cases hx), List.Pairwise.nil, List.Sublist.refl [],
      fun a => ⟨[], rfl, Nat.zero_le 1⟩, fun _ => rfl⟩
  refine Reach.invariant (I := Orderly) h0 ?_ h
  intro b c b' _ hb _ hstep
  cases c with
  | main ok => exact (mainStep_packets hstep).orderly hb
  | up c => exact upStep_orderly hb hstep
  | down c => exact (downStep_packets hstep).orderly hb
  | hook ok => exact (hookStep_packets hstep).orderly hb
  | cancel => cases hstep; exact SamePackets.orderly (b := b) ⟨rfl, rfl, rfl, rfl⟩ hb
  | propagate =>
      simp only [bridgeStep, Option.ite_none_right_eq_some, Option.some.injEq] at hstep
      obtain ⟨-, rfl⟩ := hstep
      exact SamePackets.orderly (b := b) ⟨rfl, rfl, rfl, rfl⟩ hb
  | start =>
      simp only [bridgeStep, Option.ite_none_right_eq_some, Option.some.injEq] at hstep
      obtain ⟨-, rfl⟩ := hstep
      exact hb.start

end Packets

/-! ## After the end of the context -/

/-- A step of the call, of its goroutines or of its hook. -/
def Choice.ofCode : Choice → Bool
  | .main _ => true
  | .up _ => true
  | .down _ => true
  | .hook _ => true
  | _ => false

/-- A step that does not wait for a packet: a read returns, or a write to the relay, because the
    deadline of its connection has passed.  A write to the pipe does not block. -/
def due (b : Bridge) : Choice → Prop
  | .main _ => True
  | .hook _ => True
  | .up .go => True
  | .up .fails => b.deadlines .pipe = true
  | .up (.sent false) => b.deadlines .relay = true
  | .down .go => True
  | .down .fails => b.deadlines .relay = true
  | .down (.sent _) => True
  | _ => False

def Up.rank : Up → Nat
  | .reading => 7
  | .got _ _ => 6
  | .storing _ _ => 5
  | .sending _ => 4
  | .checking => 3
  | .cancelling => 2
  | .finishing => 1
  | .ended => 0

def Down.rank : Down → Nat
  | .reading => 7
  | .got _ => 6
  | .loading _ => 5
  | .sending _ _ => 4
  | .checking => 3
  | .cancelling => 2
  | .finishing => 1
  | .ended => 0

def Main.rank : Main → Nat
  | .waiting => 7
  | .cancelling => 6
  | .stopping => 5
  | .awaiting => 4
  | .clearing todo => todo.length + 1
  | .returned => 0

/-- How many steps a bridge has left once its context has ended. -/
def Bridge.rank (b : Bridge) : Nat := b.main.rank + b.up.rank + b.down.rank + b.hook.rank conns

section Return

variable {b b' : Bridge}

/-- Once the context has ended, each step of a goroutine counts down. -/
theorem upStep_rank {c : UpChoice} (hctx : b.bridgeCtx = true) (h : upStep b c b.up = some b') :
    b'.rank < b.rank ∧ b'.bridgeCtx = true := by
  cases upStep_moves h with
  | reads hup hlive => rw [hctx] at hlive; cases hlive
  | keeps hup hlive => rw [hctx] at hlive; cases hlive
  | _ hup => simp [Bridge.rank, Up.rank, hup, hctx]

theorem downStep_rank {c : DownChoice} (hctx : b.bridgeCtx = true)
    (h : downStep b c b.down = some b') : b'.rank < b.rank ∧ b'.bridgeCtx = true := by
  cases downStep_moves h with
  | reads hdown hlive => rw [hctx] at hlive; cases hlive
  | keeps hdown hlive => rw [hctx] at hlive; cases hlive
  | _ hdown => simp [Bridge.rank, Down.rank, hdown, hctx]

theorem hookStep_rank {ok : Bool} (hctx : b.bridgeCtx = true) (h : hookStep b ok = some b') :
    b'.rank < b.rank ∧ b'.bridgeCtx = true := by
  obtain ⟨x, hx, rfl⟩ := Option.map_eq_some_iff.mp h
  exact ⟨Nat.add_lt_add_left (Hook.step_rank hx) _, hctx⟩

theorem mainStep_rank {ok : Bool} (hctx : b.bridgeCtx = true)
    (h : mainStep b ok b.main = some b') : b'.rank < b.rank ∧ b'.bridgeCtx = true := by
  generalize hmain : b.main = main at h
  unfold mainStep at h
  split at h
  case h_3 =>
    split at h
    · cases h
      simp [Bridge.rank, Main.rank, Hook.rank, hmain, hctx, conns]
      omega
    · cases h
      simp [Bridge.rank, Main.rank, hmain, hctx]
  case h_1 | h_4 =>
    split at h <;> cases h
    simp [Bridge.rank, Main.rank, hmain, hctx, conns]
  case h_7 => cases h
  all_goals cases h; simp [Bridge.rank, Main.rank, hmain, hctx]

/-- **EVERY STEP OF THE CODE COUNTS DOWN** once the context has ended. -/
theorem code_rank {c : Choice} (hctx : b.bridgeCtx = true) (hcode : c.ofCode = true)
    (h : bridgeStep b c = some b') : b'.rank < b.rank ∧ b'.bridgeCtx = true := by
  cases c with
  | main ok => exact mainStep_rank hctx h
  | up c => exact upStep_rank hctx h
  | down c => exact downStep_rank hctx h
  | hook ok => exact hookStep_rank hctx h
  | _ => cases hcode

/-- The two lists are ends of the list of the connections. -/
theorem rank_le (h : BridgeReach b) : b.rank ≤ 25 := by
  have htidy := bridge_tidy h
  have hup : b.up.rank ≤ 7 := by cases b.up <;> simp [Up.rank]
  have hdown : b.down.rank ≤ 7 := by cases b.down <;> simp [Down.rank]
  have hmain : b.main.rank ≤ 7 := by
    cases hm : b.main with
    | clearing todo =>
        have hle := (htidy.rest todo (by
          show b.main.owner = .clearing todo
          rw [hm]
          rfl)).length_le
        have htwo : conns.length = 2 := rfl
        show todo.length + 1 ≤ 7
        omega
    | _ => simp [Main.rank]
  have hhook : b.hook.rank conns ≤ 4 := by
    cases hh : b.hook with
    | running todo =>
        have hle := (htidy.planned todo hh).length_le
        have htwo : conns.length = 2 := rfl
        show todo.length + 1 ≤ 4
        omega
    | _ => simp [Hook.rank, conns]
  have hsum : b.rank = b.main.rank + b.up.rank + b.down.rank + b.hook.rank conns := rfl
  omega

/-- A hook that is not over can move once the context has ended. -/
theorem hook_due (hctx : b.bridgeCtx = true) (hloud : b.hook.quiet = false) :
    ∃ c, due b c ∧ (bridgeStep b c).isSome = true := by
  refine ⟨.hook true, trivial, ?_⟩
  cases hhook : b.hook with
  | armed => simp [bridgeStep, hookStep, Hook.step, hhook, hctx]
  | running todo => cases todo <;> simp [bridgeStep, hookStep, Hook.step, hhook]
  | done | stopped => rw [hhook] at hloud; cases hloud

/-- Until the function returns, somebody who is due can move. -/
theorem due_moves (h : Reach bridgeStep interrupts newBridge b) (hctx : b.bridgeCtx = true) :
    b.main = .returned ∨ ∃ c, due b c ∧ (bridgeStep b c).isSome = true := by
  cases hmain : b.main with
  | returned => exact Or.inl rfl
  | cancelling => exact Or.inr ⟨.main true, trivial, by simp [bridgeStep, mainStep, hmain]⟩
  | stopping =>
      refine Or.inr ⟨.main true, trivial, ?_⟩
      by_cases harmed : b.hook = .armed <;> simp [bridgeStep, mainStep, hmain, harmed]
  | clearing todo =>
      refine Or.inr ⟨.main true, trivial, ?_⟩
      cases todo <;> simp [bridgeStep, mainStep, hmain]
  | awaiting =>
      -- the hook has started: it goes on, or it is done
      have hstruck := bridge_struck h (by rw [hmain]; rfl)
      cases hhook : b.hook with
      | armed | running todo => exact Or.inr (hook_due hctx (by rw [hhook]; rfl))
      | done => exact Or.inr ⟨.main true, trivial, by simp [bridgeStep, mainStep, hmain, hhook]⟩
      | stopped => exact absurd hhook hstruck.live
  | waiting =>
      refine Or.inr ?_
      have hstruck := bridge_struck h (by rw [hmain]; rfl)
      cases hhook : b.hook with
      | armed | running todo => exact hook_due hctx (by rw [hhook]; rfl)
      | stopped => exact absurd hhook hstruck.live
      | done =>
          -- the hook has interrupted both connections
          have hset : ∀ c, b.deadlines c = true := by
            intro c
            exact hstruck.ended hhook c (by cases c <;> simp [conns])
          cases hup : b.up with
          | reading => exact ⟨.up .fails, hset .pipe, by simp [bridgeStep, upStep, hup]⟩
          | sending data =>
              exact ⟨.up (.sent false), hset .relay, by simp [bridgeStep, upStep, hup]⟩
          | ended =>
              cases hdown : b.down with
              | reading => exact ⟨.down .fails, hset .relay, by simp [bridgeStep, downStep, hdown]⟩
              | sending data addr =>
                  exact ⟨.down (.sent true), trivial, by simp [bridgeStep, downStep, hdown]⟩
              | ended =>
                  exact ⟨.main true, trivial, by simp [bridgeStep, mainStep, hmain, hup, hdown]⟩
              | loading data =>
                  refine ⟨.down .go, trivial, ?_⟩
                  cases haddr : b.internalPipeAddr <;> simp [bridgeStep, downStep, hdown, haddr]
              | _ => exact ⟨.down .go, trivial, by simp [bridgeStep, downStep, hdown, hctx]⟩
          | _ => exact ⟨.up .go, trivial, by simp [bridgeStep, upStep, hup, hctx]⟩

end Return

/-! ## Main results -/

/-- **NOTHING IS LEFT BEHIND**: when a call has returned, both readers have ended, the function
    given to `AfterFunc` has ended or will not start, and a deadline that is still set is one
    that the call failed to clear.  So the next allocation has the pipe for itself. -/
theorem returned_leaves_nothing {b : Bridge} (h : BridgeReach b) (hmain : b.main = .returned) :
    b.up = .ended ∧ b.down = .ended ∧ b.hook.quiet = true ∧
      ∀ c, b.deadlines c = true → c ∈ b.uncleared := by
  have htidy := bridge_tidy h
  have hends := returned_ends h hmain
  have haway : b.scope.owner = .away := by
    show b.main.owner = .away
    rw [hmain]
    rfl
  refine ⟨hends.1, hends.2, htidy.quiet (by rw [haway]; rfl), ?_⟩
  intro c hc
  have hin := htidy.left c hc
  rwa [Scope.owing, haway] at hin

/-- An allocation that forwards a packet and then breaks, with a packet in the hand of the reader
    of the pipe. -/
def breaksDown : List Choice :=
  [.start, .up .go, .up (.packet [1, 2] (some 7)), .up .go, .up .go, .up (.sent true),
   .down .go, .down .fails, .up .go, .up (.packet [3] none), .down .go]

/-- The call returns: the hook runs, the readers end, the deadlines are cleared. -/
def comesBack : List Choice :=
  [.hook true, .hook true, .hook true, .hook true, .up .go, .up .go, .up .go, .down .go] ++
    List.replicate 7 (.main true)

/-- The allocation breaks, and its call leaves nothing behind. -/
theorem breakdown_leaves_nothing :
    ∃ b, BridgeReach b ∧ b.allocation = 1 ∧ b.up = .ended ∧ b.down = .ended ∧
      b.hook.quiet = true ∧ ∀ c, b.deadlines c = true → c ∈ b.uncleared := by
  obtain ⟨b, hr, hp⟩ := Reach.of_follow bridgeStep anyStep newBridge (breaksDown ++ comesBack)
    (fun b => decide (b.main = .returned ∧ b.allocation = 1)) (by decide)
  obtain ⟨hmain, hone⟩ := of_decide_eq_true hp
  exact ⟨b, hr, hone, returned_leaves_nothing hr hmain⟩

/-- **PACKETS STAY IN ORDER**: over all allocations, the packets written to the relays are, in
    this order and none twice, among those that the reads of the pipe returned.  A bridge starts
    when the readers of the last one have ended, so none reads after a later one; each writes all
    that its reads returned but perhaps the last, and as long as it has met no error it has that
    one in hand. -/
theorem packets_stay_in_order {b : Bridge} (h : BridgeReach b) :
    b.sent.Sublist b.read ∧
    ((bridgeStep b .start).isSome = true → b.up = .ended ∧ b.down = .ended) ∧
    b.read.Pairwise (fun x y => x.allocation ≤ y.allocation) ∧
    (∀ a, ∃ lost, packetsOf a b.read = packetsOf a b.sent ++ lost ∧ lost.length ≤ 1) ∧
    (b.up.live = true → packetsOf b.allocation b.read
      = packetsOf b.allocation b.sent ++ b.up.inHand.map (Packet.mk b.allocation)) := by
  have hb := orderly h
  refine ⟨(List.sublist_append_left _ _).trans hb.among, ?_, hb.order, hb.past, hb.present⟩
  intro hstart
  refine returned_ends h ?_
  simp only [bridgeStep, Option.isSome_ite] at hstart
  exact hstart

/-- The packet that the broken allocation held is lost; the next allocation sends the one after
    it. -/
theorem breakdown_stays_in_order :
    ∃ b, BridgeReach b ∧ b.read = [⟨1, [1, 2]⟩, ⟨1, [3]⟩, ⟨2, [4]⟩] ∧
      b.sent = [⟨1, [1, 2]⟩, ⟨2, [4]⟩] ∧ b.sent.Sublist b.read := by
  obtain ⟨b, hr, hp⟩ := Reach.of_follow bridgeStep anyStep newBridge
    (breaksDown ++ comesBack ++ [.start, .up .go, .up (.packet [4] none), .up .go, .up .go,
      .up (.sent true)])
    (fun b => decide (b.read = [⟨1, [1, 2]⟩, ⟨1, [3]⟩, ⟨2, [4]⟩] ∧
      b.sent = [⟨1, [1, 2]⟩, ⟨2, [4]⟩])) (by decide)
  obtain ⟨hread, hsent⟩ := of_decide_eq_true hp
  exact ⟨b, hr, hread, hsent, (packets_stay_in_order hr).1⟩

/-- **A CANCELLED BRIDGE RETURNS**: if the hook's calls succeed, then once the context of the
    bridge has ended at most 25 steps of the code are left, in any order, and until the call
    has returned one of them can be taken that waits for no packet. -/
theorem cancelled_bridge_returns {b : Bridge} (h : Reach bridgeStep interrupts newBridge b)
    (hctx : b.bridgeCtx = true) :
    (∀ as b', follow bridgeStep (fun _ c => c.ofCode = true) b as = some b' → as.length ≤ 25) ∧
    (b.main = .returned ∨ ∃ c, due b c ∧ (bridgeStep b c).isSome = true) := by
  refine ⟨?_, due_moves h hctx⟩
  intro as b' hf
  have hlive : ∀ {s}, Reach bridgeStep (fun _ c => c.ofCode = true) b s → s.bridgeCtx = true := by
    intro s hs
    refine Reach.invariant (I := fun s => s.bridgeCtx = true) hctx ?_ hs
    intro s c s' _ hs hcode hstep
    exact (code_rank hs hcode hstep).2
  have hle := follow_length_le Bridge.rank
    (fun s c s' hr hcode hstep => (code_rank (hlive hr) hcode hstep).1) as Reach.start hf
  have hmax := rank_le h.any
  omega

/-- The same run, on its way. -/
theorem breakdown_returns :
    ∃ b, Reach bridgeStep interrupts newBridge b ∧ b.main = .waiting ∧ (b.main = .returned ∨
      ∃ c, due b c ∧ (bridgeStep b c).isSome = true) := by
  obtain ⟨b, hr, hp⟩ := Reach.of_follow bridgeStep interrupts newBridge breaksDown
    (fun b => decide (b.main = .waiting ∧ b.bridgeCtx = true)) (by decide)
  obtain ⟨hmain, hctx⟩ := of_decide_eq_true hp
  exact ⟨b, hr, hmain, (cancelled_bridge_returns hr hctx).2⟩

end VkTurnBridge
