import VkTurn.BondProofs
import VkTurn.GoMapProofs
import VkTurn.GoTextProofs

/-! # What the paths receive

    Every path of a bond has a `readLoop`: it reads records into one buffer, which it
    uses again and again, makes a copy of each record that can be a KCP packet, and
    sends the copy on `readCh`; `ReadFrom` takes the packets from there.  The model
    extends the bond: a loop that waits for room in the channel is a control point of
    its own, packets point into memory, and the rest is the machine of the bond, so that
    paths come and go and calls of `WriteTo` and `Close` run at any time.

    * `reach_bond` — without what was received, a run is a run of the bond;
    * `one_loop` — a path has one read loop;
    * `kept_run`, `kept` — path by path, what was returned, is queued and is held
      is what was read. -/

namespace VkTurnReceive

open ThreadPool GoMap GoText VkTurnStripe
open VkTurnBond (PathRef Shared bondMachine bondStep BondReach newBond)

/-! ## State -/

/-- `64*1024`, the buffer of a read loop. -/
def readBufferSize : Nat := 64 * 1024

/-- The capacity of `readCh`. -/
def readChCap : Nat := 1024

/-- The settings of the process and the bond. -/
structure Config where
  arch : Arch
  kcpMtu : Int
  remoteAddr : Bytes

/-- A byte slice: the buffer of the read loop of a path, or an array made later. -/
inductive Slice where
  | buf (p : PathRef)
  | made (n : Nat)
  deriving DecidableEq

/-- The memory behind the slices. -/
structure Memory where
  bufs : Map PathRef Bytes := []
  made : List Bytes := []

/-- The buffer of a path, of zeros at first. -/
def Memory.buf (m : Memory) (p : PathRef) : Bytes :=
  (get m.bufs p).getD (List.replicate readBufferSize 0)

def Memory.load (m : Memory) : Slice → Bytes
  | .buf p => m.buf p
  | .made n => m.made.getD n []

/-- `path.conn.Read(buf)` returned this record. -/
def Memory.fill (m : Memory) (p : PathRef) (record : Bytes) : Memory :=
  { m with bufs := insert m.bufs p (record ++ (m.buf p).drop record.length) }

/-- `data := make([]byte, n)` with `copy(data, buf[:n])`. -/
def Memory.copyOf (m : Memory) (p : PathRef) (n : Nat) : Memory :=
  { m with made := m.made ++ [(m.load (.buf p)).take n] }

/-- `bondedPacket`, with the path it came by for the history. -/
structure BondedPacket where
  data : Slice
  addr : Bytes
  path : PathRef
  deriving DecidableEq

/-- What a call of `ReadFrom` with a buffer of `size` bytes returned; `pkt` is for the
    history. -/
structure Datagram where
  pkt : BondedPacket
  size : Nat
  n : Nat
  bytes : Bytes
  addr : Bytes
  deriving DecidableEq

/-- The bond, the memory and `readCh`.  Histories: the records the loops have read, and
    what `ReadFrom` returned. -/
structure Receiver where
  conn : Shared := {}
  mem : Memory := {}
  readCh : List BondedPacket := []
  reads : List (PathRef × Bytes) := []
  returned : List Datagram := []

/-! ## Sections -/

/-- A place of the bond, or a read loop that sends a packet. -/
inductive Pc where
  | bond (t : VkTurnBond.Pc)
  | sending (p : PathRef) (data : Slice)
  deriving DecidableEq

/-- A choice of the bond; a record that `Read` returned; room in the channel. -/
inductive Choice where
  | bond (a : VkTurnBond.Choice)
  | record (r : Bytes)
  | send
  deriving DecidableEq

/-- What happens to the bond; a call of `ReadFrom`, which takes a packet or sees that the
    bond is closed. -/
inductive Op where
  | bond (e : VkTurnBond.Op)
  | readFrom (size : Nat)
  | readClosed
  deriving DecidableEq

/-- The record goes to KCP: `n != 0` and not `n > KCPMtu+128`. -/
def deliverable (cfg : Config) (record : Bytes) : Bool :=
  record.length ≠ 0 && !decide ((record.length : Int) > cfg.kcpMtu + 128)

/-- The packet that a read loop sends. -/
def Config.packet (cfg : Config) (p : PathRef) (data : Slice) : BondedPacket where
  data := data
  addr := cfg.remoteAddr
  path := p

/-- `Read` returned a record. -/
def Receiver.read (σ : Receiver) (p : PathRef) (record : Bytes) : Receiver :=
  { σ with mem := σ.mem.fill p record, reads := σ.reads ++ [(p, record)] }

/-- The copy of it. -/
def Receiver.copy (σ : Receiver) (p : PathRef) (n : Nat) : Receiver :=
  { σ with mem := σ.mem.copyOf p n }

/-- One section of thread `i`. -/
def exec (cfg : Config) (i : Nat) (σ : Receiver) :
    Pc → Choice → Option (Receiver × Pc × List Pc)
  | .bond (.reading p), .record r =>
      if r.length ≤ readBufferSize then
        if deliverable cfg r then
          some ((σ.read p r).copy p r.length, .sending p (.made σ.mem.made.length), [])
        else some (σ.read p r, .bond (.reading p), [])
      else none
  | .bond t, .bond a =>
      match VkTurnBond.exec cfg.arch i σ.conn t a with
      | some (conn, t', new) => some ({ σ with conn := conn }, .bond t', new.map .bond)
      | none => none
  | .sending p data, .send =>
      if σ.readCh.length < readChCap then
        some ({ σ with readCh := σ.readCh ++ [cfg.packet p data] }, .bond (.reading p), [])
      else none
  | .sending p _, .bond .go =>
      if σ.conn.bond.closed then some (σ, .bond (.rmLock p .readLoop), []) else none
  | _, _ => none

/-- `ReadFrom` with a buffer of `size` bytes took the packet. -/
def Receiver.readFrom (σ : Receiver) (pkt : BondedPacket) (size : Nat) : Datagram where
  pkt := pkt
  size := size
  n := min size (σ.mem.load pkt.data).length
  bytes := (σ.mem.load pkt.data).take size
  addr := pkt.addr

/-- The outside world. -/
def outside (σ : Receiver) : Op → Option (Receiver × List Pc)
  | .bond e =>
      match VkTurnBond.outside σ.conn e with
      | some (conn, new) => some ({ σ with conn := conn }, new.map .bond)
      | none => none
  | .readFrom size =>
      match σ.readCh with
      | pkt :: rest =>
          some ({ σ with readCh := rest, returned := σ.returned ++ [σ.readFrom pkt size] }, [])
      | [] => none
  | .readClosed => if σ.conn.bond.closed then some (σ, []) else none

def receiveMachine (cfg : Config) : Machine Receiver Pc Choice Op where
  exec := exec cfg
  env := outside

/-- A bond, what it received, and its goroutines. -/
abbrev Receivers := Pool Receiver Pc

def newReceivers : Receivers := ⟨{}, []⟩

def receiveStep (cfg : Config) : Receivers → Act Choice Op → Option Receivers :=
  (receiveMachine cfg).step

/-- Every state, under every interleaving. -/
abbrev ReceiveReach (cfg : Config) : Receivers → Prop :=
  Reach (receiveStep cfg) anyStep newReceivers

/-! ## What a section can do -/

variable {cfg : Config} {i : Nat} {σ σ' : Receiver} {t t' : Pc} {new : List Pc}

/-- `Moves i σ t σ' t' new`: a section of thread `i`. -/
inductive Moves (cfg : Config) (i : Nat) (σ : Receiver) :
    Pc → Receiver → Pc → List Pc → Prop where
  | bond (t t' : VkTurnBond.Pc) (a : VkTurnBond.Choice) (conn : Shared)
      (new : List VkTurnBond.Pc) : VkTurnBond.exec cfg.arch i σ.conn t a = some (conn, t', new) →
      Moves cfg i σ (.bond t) { σ with conn := conn } (.bond t') (new.map .bond)
  | kept (p : PathRef) (r : Bytes) : r.length ≤ readBufferSize → deliverable cfg r = true →
      Moves cfg i σ (.bond (.reading p)) ((σ.read p r).copy p r.length)
        (.sending p (.made σ.mem.made.length)) []
  | dropped (p : PathRef) (r : Bytes) : deliverable cfg r = false →
      Moves cfg i σ (.bond (.reading p)) (σ.read p r) (.bond (.reading p)) []
  | sent (p : PathRef) (data : Slice) : σ.readCh.length < readChCap →
      Moves cfg i σ (.sending p data) { σ with readCh := σ.readCh ++ [cfg.packet p data] }
        (.bond (.reading p)) []
  | stopped (p : PathRef) (data : Slice) : σ.conn.bond.closed = true →
      Moves cfg i σ (.sending p data) σ (.bond (.rmLock p .readLoop)) []

theorem exec_moves {a : Choice} (h : exec cfg i σ t a = some (σ', t', new)) :
    Moves cfg i σ t σ' t' new := by
  unfold exec at h
  split at h
  · split at h
    · split at h
      · cases h
        exact .kept _ _ ‹_› ‹_›
      · cases h
        exact .dropped _ _ (Bool.eq_false_iff.mpr ‹_›)
    · cases h
  · split at h
    · cases h
      exact .bond _ _ _ _ _ ‹_›
    · cases h
  · split at h
    · cases h
      exact .sent _ _ ‹_›
    · cases h
  · split at h
    · cases h
      exact .stopped _ _ ‹_›
    · cases h
  · cases h

/-- What the outside world can do. -/
inductive Happens (σ : Receiver) : Receiver → List Pc → Prop where
  | bond (e : VkTurnBond.Op) (conn : Shared) (new : List VkTurnBond.Pc) :
      VkTurnBond.outside σ.conn e = some (conn, new) →
      Happens σ { σ with conn := conn } (new.map .bond)
  | returned (pkt : BondedPacket) (rest : List BondedPacket) (size : Nat) :
      σ.readCh = pkt :: rest →
      Happens σ { σ with readCh := rest, returned := σ.returned ++ [σ.readFrom pkt size] } []
  | closed : σ.conn.bond.closed = true → Happens σ σ []

theorem outside_happens {e : Op} (h : outside σ e = some (σ', new)) : Happens σ σ' new := by
  cases e with
  | bond e =>
      simp only [outside] at h
      split at h
      · cases h
        exact .bond e _ _ ‹_›
      · cases h
  | readFrom size =>
      simp only [outside] at h
      split at h
      · cases h
        exact .returned _ _ size ‹_›
      · cases h
  | readClosed =>
      simp only [outside] at h
      split at h
      · cases h
        exact .closed ‹_›
      · cases h

/-! ## The bond below -/

/-- A loop that sends is, for the bond, a loop that reads. -/
def Pc.below : Pc → VkTurnBond.Pc
  | .bond t => t
  | .sending p _ => .reading p

/-- The bond without what it received. -/
def below (s : Receivers) : VkTurnBond.Bond := ⟨s.shared.conn, s.threads.map Pc.below⟩

theorem map_below (new : List VkTurnBond.Pc) : (new.map Pc.bond).map Pc.below = new := by
  rw [List.map_map]
  exact List.map_id new

/-- A section that the bond does not see. -/
theorem below_same {s : Receivers} (ht : s.threads[i]? = some t) (hconn : σ'.conn = s.shared.conn)
    (hpc : t'.below = t.below) : below ⟨σ', s.threads.set i t' ++ []⟩ = below s := by
  have hget : (s.threads.map Pc.below)[i]? = some t.below := by
    rw [List.getElem?_map, ht, Option.map_some]
  obtain ⟨hlt, hget⟩ := List.getElem?_eq_some_iff.mp hget
  rw [below, below, hconn, List.append_nil, List.map_set, hpc, ← hget, List.set_getElem_self]

/-- A section of the bond. -/
theorem below_step {s : Receivers} {a : VkTurnBond.Choice} {conn : Shared}
    {new : List VkTurnBond.Pc} (ht : s.threads[i]? = some t) (hconn : σ'.conn = conn)
    (he : VkTurnBond.exec cfg.arch i s.shared.conn t.below a = some (conn, t'.below, new)) :
    bondStep cfg.arch (below s) (.run i a)
      = some (below ⟨σ', s.threads.set i t' ++ new.map .bond⟩) := by
  have hget : (below s).threads[i]? = some t.below := by
    rw [below, List.getElem?_map, ht, Option.map_some]
  have hafter : below ⟨σ', s.threads.set i t' ++ new.map .bond⟩
      = ⟨conn, (below s).threads.set i t'.below ++ new⟩ := by
    rw [below, below, hconn, List.map_append, List.map_set, map_below]
  rw [hafter]
  exact Machine.step_of_exec (M := bondMachine cfg.arch) hget he

/-- **REFINEMENT**: every run is a run of the bond. -/
theorem reach_bond {s : Receivers} (h : ReceiveReach cfg s) : BondReach cfg.arch (below s) := by
  refine @Reach.simulates _ _ _ _ _ _ _ (bondStep cfg.arch) anyStep below ?_ _ h
  intro s a s' _ _ hs
  cases a with
  | run i a =>
      obtain ⟨t, σ', t', new, ht, he, rfl⟩ := Machine.step_run hs
      cases exec_moves he with
      | bond t t' a conn new hbond =>
          exact Or.inr ⟨.run i a, trivial, below_step ht rfl hbond⟩
      | kept p r _ _ | dropped p r _ | sent p data _ => exact Or.inl (below_same ht rfl rfl)
      | stopped p data _ =>
          have hread : VkTurnBond.exec cfg.arch i s.shared.conn (.reading p) .go
              = some (s.shared.conn, .rmLock p .readLoop, []) := rfl
          have hstep : bondStep cfg.arch (below s) (.run i .go) = some (below ⟨s.shared,
              s.threads.set i (.bond (.rmLock p .readLoop)) ++ [].map .bond⟩) :=
            below_step ht rfl hread
          exact Or.inr ⟨.run i .go, trivial, hstep⟩
  | env e =>
      obtain ⟨σ', new, he, rfl⟩ := Machine.step_env hs
      cases outside_happens he with
      | bond e conn new hbond =>
          have hafter : below ⟨{ s.shared with conn := conn }, s.threads ++ new.map .bond⟩
              = ⟨conn, (below s).threads ++ new⟩ := by
            rw [below, below, List.map_append, map_below]
          refine Or.inr ⟨.env e, trivial, ?_⟩
          rw [hafter]
          exact Machine.step_of_env (M := bondMachine cfg.arch) (s := below s) hbond
      | returned pkt rest size _ => exact Or.inl (by rw [below, below, List.append_nil])
      | closed _ => exact Or.inl (by rw [below, below, List.append_nil])

/-! ## One read loop for each path -/

/-- The thread of `AddConn` or of the read loop of path `p`. -/
def serves (p : PathRef) : VkTurnBond.Pc → Bool
  | .addLock q => q == p
  | .addTest q => q == p
  | .addNotify q => q == p
  | .addSpawn q => q == p
  | .reading q => q == p
  | _ => false

theorem serves_resume (p : PathRef) (k : VkTurnBond.Caller) : serves p k.resume = false := by
  cases k <;> rfl

theorem serves_graceResume (p : PathRef) (g : VkTurnBond.GraceCaller) :
    serves p g.resume = false := by
  cases g <;> rfl

/-- A section hands the path on, to its own thread or to the one it starts. -/
theorem serves_step {arch : Arch} {σ σ' : Shared} {t t' : VkTurnBond.Pc}
    {new : List VkTurnBond.Pc} (p : PathRef) (h : VkTurnBond.Moves arch i σ t σ' t' new) :
    one (serves p) t' + load (one (serves p)) new ≤ one (serves p) t := by
  cases h with
  | addSpawned q =>
      have hsame : one (serves p) (.reading q) = one (serves p) (.addSpawn q) := one_congr rfl
      rw [one_false rfl, load_cons, load_nil, hsame]
      omega
  | addLocked q _ _ =>
      rw [load_nil]
      exact (one_congr rfl).le
  | addAppended q _ =>
      rw [load_nil]
      exact (one_congr rfl).le
  | addNotified q =>
      rw [load_nil]
      exact (one_congr rfl).le
  | notListed q k _ _ =>
      rw [load_nil, one_false (serves_resume p k)]
      exact Nat.zero_le _
  | rmFinished q k =>
      rw [load_nil, one_false (serves_resume p k)]
      exact Nat.zero_le _
  | graceSkipped g _ _ =>
      rw [load_nil, one_false (serves_graceResume p g)]
      exact Nat.zero_le _
  | graceArmed g =>
      rw [load_nil, one_false (serves_graceResume p g)]
      exact Nat.zero_le _
  | _ =>
      rw [load_nil, one_false rfl]
      exact Nat.zero_le _

/-- **ONE LOOP**: at most one thread serves a path. -/
theorem one_loop {arch : Arch} {b : VkTurnBond.Bond} (h : BondReach arch b) (p : PathRef) :
    load (one (serves p)) b.threads ≤ if p < b.shared.heap.length then 1 else 0 := by
  refine Machine.reach_tallies (M := bondMachine arch) (J := fun _ => True) (fun _ _ => trivial)
    (one (serves p)) (fun σ total => total ≤ if p < σ.heap.length then 1 else 0)
    (Nat.zero_le _) ?_ ?_ h
  · intro s i t a σ' t' new rest _ _ _ hle he
    have hm := VkTurnBond.exec_moves he
    have hserves := serves_step p hm
    rw [hm.heap_eq]
    omega
  · intro s e σ' new total _ hle he
    cases e with
    | addConn conn cleanup =>
        cases conn with
        | none =>
            cases he
            exact hle
        | some conn =>
            cases he
            rw [load_cons, load_nil, List.length_append, List.length_singleton]
            by_cases hp : s.shared.heap.length = p
            · subst hp
              have hone : one (serves s.shared.heap.length) (.addLock s.shared.heap.length) = 1 :=
                one_true (beq_self_eq_true _)
              rw [if_neg (Nat.lt_irrefl _)] at hle
              rw [hone, if_pos (Nat.lt_succ_self _)]
              exact Nat.succ_le_succ hle
            · have hzero : one (serves p) (.addLock s.shared.heap.length) = 0 :=
                one_false (beq_eq_false_iff_ne.mpr hp)
              rw [hzero]
              split at hle
              · rename_i hlt
                rw [if_pos (Nat.lt_succ_of_lt hlt)]
                exact hle
              · rw [Nat.le_zero.mp hle]
                exact Nat.zero_le _
    | writeTo n =>
        cases n with
        | zero =>
            cases he
            exact hle
        | succ n =>
            cases he
            exact hle
    | close =>
        cases he
        exact hle
    | fire t =>
        simp only [bondMachine, VkTurnBond.outside] at he
        split at he
        · cases he
          exact hle
        · cases he
    | recvState =>
        simp only [bondMachine, VkTurnBond.outside] at he
        split at he
        · cases he
          exact hle
        · cases he

/-- Two threads do not serve one path. -/
theorem other_serves {s : Receivers} {j : Nat} {u : Pc} {p : PathRef} (h : ReceiveReach cfg s)
    (ht : s.threads[i]? = some t) (hp : serves p t.below = true) (hij : j ≠ i)
    (hu : s.threads[j]? = some u) : serves p u.below = false := by
  have hload := one_loop (reach_bond h) p
  have hget : (below s).threads[i]? = some t.below := by
    rw [below, List.getElem?_map, ht, Option.map_some]
  have hget' : (below s).threads[j]? = some u.below := by
    rw [below, List.getElem?_map, hu, Option.map_some]
  have hsum := add_le_load (one (serves p)) hij.symm hget hget'
  rw [one_true hp] at hsum
  by_contra hserves
  rw [one_true (Bool.eq_true_of_not_eq_false hserves)] at hsum
  split at hload
  · omega
  · omega

/-! ## Memory -/

/-- The slice is an array that was made, not a buffer that is read into again. -/
def Memory.Has (m : Memory) (d : Slice) : Prop := ∃ n, d = .made n ∧ n < m.made.length

/-- Arrays that were made stay as they are. -/
def Memory.Grows (m m' : Memory) : Prop := ∀ d, m.Has d → m'.Has d ∧ m'.load d = m.load d

theorem Memory.grows_refl (m : Memory) : m.Grows m := fun _ hd => ⟨hd, rfl⟩

theorem Memory.grows_fill (m : Memory) (p : PathRef) (r : Bytes) : m.Grows (m.fill p r) := by
  rintro d ⟨n, rfl, hn⟩
  exact ⟨⟨n, rfl, hn⟩, rfl⟩

theorem Memory.grows_copyOf (m : Memory) (p : PathRef) (k : Nat) : m.Grows (m.copyOf p k) := by
  rintro d ⟨n, rfl, hn⟩
  refine ⟨⟨n, rfl, ?_⟩, ?_⟩
  · rw [copyOf, List.length_append]
    exact Nat.lt_add_right _ hn
  · rw [load, load, copyOf, List.getD_eq_getElem?_getD, List.getD_eq_getElem?_getD,
      List.getElem?_append_left hn]

theorem Memory.Grows.trans {m m' m'' : Memory} (h : m.Grows m') (h' : m'.Grows m'') :
    m.Grows m'' := by
  intro d hd
  obtain ⟨hd', hload⟩ := h d hd
  obtain ⟨hd'', hload'⟩ := h' d hd'
  exact ⟨hd'', hload'.trans hload⟩

/-- What was read is what is copied. -/
theorem Memory.load_copyOf_fill (m : Memory) (p : PathRef) (r : Bytes) :
    ((m.fill p r).copyOf p r.length).Has (.made m.made.length) ∧
      ((m.fill p r).copyOf p r.length).load (.made m.made.length) = r := by
  have hbuf : (m.fill p r).load (.buf p) = r ++ (m.buf p).drop r.length := by
    rw [load, buf, fill, get_insert, if_pos rfl, Option.getD_some]
  have hmade : ((m.fill p r).copyOf p r.length).made = m.made ++ [r] := by
    rw [copyOf, hbuf, List.take_left]
    rfl
  refine ⟨⟨m.made.length, rfl, ?_⟩, ?_⟩
  · rw [hmade, List.length_append, List.length_singleton]
    exact Nat.lt_succ_self _
  · rw [load, hmade, List.getD_eq_getElem?_getD, List.getElem?_concat_length, Option.getD_some]

/-! ## What was read is returned, queued or held -/

/-- The slice is the copy of a record that can be delivered. -/
def Holds (cfg : Config) (m : Memory) (d : Slice) : Prop :=
  m.Has d ∧ deliverable cfg (m.load d) = true

theorem Holds.grow {m m' : Memory} {d : Slice} (h : Holds cfg m d) (hg : m.Grows m') :
    Holds cfg m' d := by
  obtain ⟨hhas, hload⟩ := hg d h.1
  exact ⟨hhas, by rw [hload]; exact h.2⟩

/-- The packets that went into the channel: those that `ReadFrom` took, and those that
    are still in it. -/
def Receiver.channel (σ : Receiver) : List BondedPacket := σ.returned.map (·.pkt) ++ σ.readCh

/-- The path and the bytes of a packet. -/
def contents (m : Memory) (pkt : BondedPacket) : PathRef × Bytes := (pkt.path, m.load pkt.data)

/-- What a read loop of path `p` holds. -/
def waits (m : Memory) (p : PathRef) : Pc → Option (PathRef × Bytes)
  | .sending q data => if q = p then some (p, m.load data) else none
  | .bond _ => none

theorem contents_grow {m m' : Memory} (hg : m.Grows m') {l : List BondedPacket}
    (hl : ∀ pkt ∈ l, Holds cfg m pkt.data) : l.map (contents m') = l.map (contents m) := by
  refine List.map_congr_left ?_
  intro pkt hpkt
  rw [contents, contents, (hg _ (hl pkt hpkt).1).2]

theorem waits_grow {m m' : Memory} (hg : m.Grows m') (p : PathRef) {ts : List Pc}
    (hts : ∀ q data, Pc.sending q data ∈ ts → Holds cfg m data) :
    ts.filterMap (waits m' p) = ts.filterMap (waits m p) := by
  refine List.filterMap_congr ?_
  intro t ht
  cases t with
  | bond t => rfl
  | sending q data => rw [waits, waits, (hg _ (hts q data ht).1).2]

theorem waits_new (m : Memory) (p : PathRef) (new : List VkTurnBond.Pc) :
    (new.map Pc.bond).filterMap (waits m p) = [] := by
  refine List.filterMap_eq_nil_iff.mpr ?_
  intro u hu
  obtain ⟨t, -, rfl⟩ := List.mem_map.mp hu
  rfl

/-- Who does not serve a path holds nothing for it. -/
theorem waits_none {m : Memory} {p : PathRef} (h : serves p t.below = false) :
    waits m p t = none := by
  cases t with
  | bond t => rfl
  | sending q data => exact if_neg (beq_eq_false_iff_ne.mp h)

/-- The invariant.  Packets point to copies that stay; what was returned is what memory
    still has; and, while the bond is open, path by path, everything that was read and can be
    delivered is where it should be, in order. -/
structure Kept (cfg : Config) (s : Receivers) : Prop where
  made : ∀ pkt ∈ s.shared.channel, Holds cfg s.shared.mem pkt.data
  held : ∀ p data, Pc.sending p data ∈ s.threads → Holds cfg s.shared.mem data
  addr : ∀ pkt ∈ s.shared.channel, pkt.addr = cfg.remoteAddr
  whole : ∀ d ∈ s.shared.returned, d = s.shared.readFrom d.pkt d.size
  reads : s.shared.conn.bond.closed = false → ∀ p,
    (s.shared.channel.map (contents s.shared.mem)).filter (·.1 = p)
        ++ s.threads.filterMap (waits s.shared.mem p)
      = (s.shared.reads.filter fun r => deliverable cfg r.2).filter (·.1 = p)

theorem readFrom_grow (hg : σ.mem.Grows σ'.mem) {pkt : BondedPacket}
    (hpkt : Holds cfg σ.mem pkt.data) (size : Nat) : σ'.readFrom pkt size = σ.readFrom pkt size := by
  rw [Receiver.readFrom, Receiver.readFrom, (hg _ hpkt.1).2]

section Steps

variable {s : Receivers} {p : PathRef}

theorem waits_moved (m : Memory) (ht : s.threads[i]? = some t) (hsame : waits m p t' = waits m p t)
    (new : List VkTurnBond.Pc) :
    (s.threads.set i t' ++ new.map Pc.bond).filterMap (waits m p)
      = s.threads.filterMap (waits m p) := by
  rw [List.filterMap_append, filterMap_set_same (waits m p) hsame ht, waits_new, List.append_nil]

/-- Only the thread that serves a path holds anything for it. -/
theorem waits_serving (h : ReceiveReach cfg s) (ht : s.threads[i]? = some t)
    (hp : serves p t.below = true) (m : Memory) :
    s.threads.filterMap (waits m p) = (waits m p t).toList ∧
      ∀ t', (s.threads.set i t' ++ []).filterMap (waits m p) = (waits m p t').toList := by
  have hother : ∀ (j : Nat) u, j ≠ i → s.threads[j]? = some u → waits m p u = none :=
    fun j u hj hu => waits_none (other_serves h ht hp hj hu)
  refine ⟨filterMap_only _ ht hother, ?_⟩
  intro t'
  rw [List.append_nil]
  refine filterMap_only _ (List.getElem?_set_self (List.getElem?_eq_some_iff.mp ht).1) ?_
  intro j u hj hu
  rw [List.getElem?_set_ne (Ne.symm hj)] at hu
  exact hother j u hj hu

theorem held_moved {m m' : Memory}
    (hheld : ∀ q data, Pc.sending q data ∈ s.threads → Holds cfg m data) (hg : m.Grows m')
    (ht' : ∀ q data, t' = .sending q data → Holds cfg m' data) (new : List VkTurnBond.Pc)
    (q : PathRef) (data : Slice)
    (hmem : Pc.sending q data ∈ s.threads.set i t' ++ new.map Pc.bond) : Holds cfg m' data := by
  rcases List.mem_append.mp hmem with hold | hnew
  · rcases List.mem_or_eq_of_mem_set hold with hold | heq
    · exact (hheld q data hold).grow hg
    · exact ht' q data heq.symm
  · obtain ⟨u, -, hu⟩ := List.mem_map.mp hnew
    cases hu

/-- The records that can be delivered, after one more. -/
theorem reads_snoc (reads : List (PathRef × Bytes)) (p q : PathRef) (r : Bytes) :
    ((reads ++ [(p, r)]).filter fun r => deliverable cfg r.2).filter (·.1 = q)
      = (reads.filter fun r => deliverable cfg r.2).filter (·.1 = q)
        ++ if deliverable cfg r = true ∧ p = q then [(p, r)] else [] := by
  rw [List.filter_append, List.filter_append]
  refine congrArg _ ?_
  by_cases hd : deliverable cfg r = true
  · by_cases hp : p = q
    · simp [hd, hp]
    · simp [hd, hp]
  · simp [hd]

/-- What was returned is what memory has, also when it has grown. -/
theorem Kept.whole_grow (hK : Kept cfg s) (hg : s.shared.mem.Grows σ'.mem)
    (hreturned : σ'.returned = s.shared.returned) :
    ∀ d ∈ σ'.returned, d = σ'.readFrom d.pkt d.size := by
  intro d hd
  rw [hreturned] at hd
  have hin : d.pkt ∈ s.shared.channel := List.mem_append_left _ (List.mem_map_of_mem hd)
  rw [readFrom_grow hg (hK.made _ hin)]
  exact hK.whole d hd

/-- A record is read that can be delivered: its loop holds the copy. -/
theorem kept_read (h : ReceiveReach cfg s) (hK : Kept cfg s)
    (ht : s.threads[i]? = some (.bond (.reading p))) {r : Bytes} (hd : deliverable cfg r = true) :
    Kept cfg ⟨(s.shared.read p r).copy p r.length,
      s.threads.set i (.sending p (.made s.shared.mem.made.length)) ++ []⟩ := by
  have hg : s.shared.mem.Grows ((s.shared.mem.fill p r).copyOf p r.length) :=
    (s.shared.mem.grows_fill p r).trans (Memory.grows_copyOf _ p r.length)
  obtain ⟨hhas, hload⟩ := s.shared.mem.load_copyOf_fill p r
  refine ⟨?_, ?_, hK.addr, ?_, ?_⟩
  · intro pkt hpkt
    exact (hK.made pkt hpkt).grow hg
  · refine held_moved hK.held hg ?_ []
    intro q data heq
    cases heq
    exact ⟨hhas, by rw [hload]; exact hd⟩
  · exact hK.whole_grow hg rfl
  · intro hopen q
    have hold := hK.reads hopen q
    show ((s.shared.channel.map (contents ((s.shared.mem.fill p r).copyOf p r.length))).filter _
        ++ (s.threads.set i (.sending p (.made s.shared.mem.made.length)) ++ []).filterMap
          (waits ((s.shared.mem.fill p r).copyOf p r.length) q))
      = ((s.shared.reads ++ [(p, r)]).filter fun r => deliverable cfg r.2).filter _
    rw [contents_grow hg hK.made, reads_snoc, ← hold]
    by_cases hpq : p = q
    · subst hpq
      have hserves : serves p (Pc.bond (.reading p)).below = true := beq_self_eq_true p
      rw [(waits_serving h ht hserves s.shared.mem).1,
        (waits_serving h ht hserves ((s.shared.mem.fill p r).copyOf p r.length)).2,
        if_pos ⟨hd, rfl⟩, waits, waits, if_pos rfl, hload, Option.toList_none, List.append_nil,
        Option.toList_some]
    · have hnone : waits ((s.shared.mem.fill p r).copyOf p r.length) q
          (.sending p (.made s.shared.mem.made.length)) = none := if_neg hpq
      have hmoved : (s.threads.set i (.sending p (.made s.shared.mem.made.length)) ++ []).filterMap
          (waits ((s.shared.mem.fill p r).copyOf p r.length) q) = _ := waits_moved _ ht hnone []
      rw [hmoved, waits_grow hg q hK.held, if_neg (fun hc => hpq hc.2), List.append_nil]

/-- A record that is dropped. -/
theorem kept_dropped (hK : Kept cfg s) (ht : s.threads[i]? = some (.bond (.reading p))) {r : Bytes}
    (hd : deliverable cfg r = false) :
    Kept cfg ⟨s.shared.read p r, s.threads.set i (.bond (.reading p)) ++ []⟩ := by
  have hg := s.shared.mem.grows_fill p r
  refine ⟨?_, ?_, hK.addr, ?_, ?_⟩
  · intro pkt hpkt
    exact (hK.made pkt hpkt).grow hg
  · refine held_moved hK.held hg ?_ []
    intro q data heq
    cases heq
  · exact hK.whole_grow hg rfl
  · intro hopen q
    have hold := hK.reads hopen q
    show ((s.shared.channel.map (contents (s.shared.mem.fill p r))).filter _
        ++ (s.threads.set i (.bond (.reading p)) ++ []).filterMap (waits (s.shared.mem.fill p r) q))
      = ((s.shared.reads ++ [(p, r)]).filter fun r => deliverable cfg r.2).filter _
    have hnot : ¬ (deliverable cfg r = true ∧ p = q) := by
      rintro ⟨htrue, -⟩
      rw [hd] at htrue
      cases htrue
    have hmoved : (s.threads.set i (.bond (.reading p)) ++ []).filterMap
        (waits (s.shared.mem.fill p r) q) = _ := waits_moved _ ht rfl []
    rw [contents_grow hg hK.made, reads_snoc, ← hold, hmoved, waits_grow hg q hK.held, if_neg hnot,
      List.append_nil]

/-- A packet goes into the channel. -/
theorem kept_sent (h : ReceiveReach cfg s) (hK : Kept cfg s) {data : Slice}
    (ht : s.threads[i]? = some (.sending p data)) :
    Kept cfg ⟨{ s.shared with readCh := s.shared.readCh ++ [cfg.packet p data] },
      s.threads.set i (.bond (.reading p)) ++ []⟩ := by
  have hchannel : ∀ pkt, pkt ∈ s.shared.returned.map (·.pkt) ++ (s.shared.readCh ++ [cfg.packet p data])
      → pkt ∈ s.shared.channel ∨ pkt = cfg.packet p data := by
    intro pkt hpkt
    rw [← List.append_assoc] at hpkt
    exact (List.mem_append.mp hpkt).imp_right List.mem_singleton.mp
  refine ⟨?_, ?_, ?_, hK.whole, ?_⟩
  · intro pkt hpkt
    rcases hchannel pkt hpkt with hold | rfl
    · exact hK.made pkt hold
    · exact hK.held p data (List.mem_of_getElem? ht)
  · refine held_moved hK.held (Memory.grows_refl _) ?_ []
    intro q data heq
    cases heq
  · intro pkt hpkt
    rcases hchannel pkt hpkt with hold | rfl
    · exact hK.addr pkt hold
    · rfl
  · intro hopen q
    have hold := hK.reads hopen q
    show (((s.shared.returned.map (·.pkt) ++ (s.shared.readCh ++ [cfg.packet p data])).map
        (contents s.shared.mem)).filter _ ++ _) = _
    rw [← List.append_assoc, List.map_append, List.filter_append, List.append_assoc, ← hold]
    refine congrArg _ ?_
    by_cases hpq : p = q
    · subst hpq
      have hserves : serves p (Pc.sending p data).below = true := beq_self_eq_true p
      rw [(waits_serving h ht hserves s.shared.mem).1, (waits_serving h ht hserves s.shared.mem).2,
        waits, waits, if_pos rfl]
      simp [contents, Config.packet]
    · have hsame : waits s.shared.mem q (.bond (.reading p)) = waits s.shared.mem q (.sending p data) :=
        (if_neg hpq).symm
      have hnone : [contents s.shared.mem (cfg.packet p data)].filter (·.1 = q) = [] :=
        List.filter_cons_of_neg (fun hc => hpq (of_decide_eq_true hc))
      rw [List.map_cons, List.map_nil, hnone, List.nil_append]
      exact waits_moved _ ht hsame []

/-- A section of the bond, or the end of a loop that sends. -/
theorem kept_bond (hK : Kept cfg s) (conn : Shared) (ht : s.threads[i]? = some t)
    {u : VkTurnBond.Pc} (new : List VkTurnBond.Pc)
    (hopen : conn.bond.closed = false →
      s.shared.conn.bond.closed = false ∧ ∀ q, waits s.shared.mem q t = none) :
    Kept cfg ⟨{ s.shared with conn := conn }, s.threads.set i (.bond u) ++ new.map .bond⟩ := by
  refine ⟨hK.made, ?_, hK.addr, hK.whole, ?_⟩
  · refine held_moved hK.held (Memory.grows_refl _) ?_ new
    intro q data heq
    cases heq
  · intro hc q
    obtain ⟨hc, hnone⟩ := hopen hc
    have hsame : waits s.shared.mem q (.bond u) = waits s.shared.mem q t := (hnone q).symm
    rw [← hK.reads hc q]
    exact congrArg _ (waits_moved _ ht hsame new)

/-- **STEP**: a section. -/
theorem kept_run (h : ReceiveReach cfg s) (hK : Kept cfg s) (ht : s.threads[i]? = some t)
    (hm : Moves cfg i s.shared t σ' t' new) : Kept cfg ⟨σ', s.threads.set i t' ++ new⟩ := by
  cases hm with
  | bond t t' a conn new he =>
      refine kept_bond hK conn ht new ?_
      intro hopen
      refine ⟨?_, fun _ => rfl⟩
      by_contra hclosed
      have hc := (VkTurnBond.exec_moves he).closed_mono (Bool.eq_true_of_not_eq_false hclosed)
      rw [hopen] at hc
      cases hc
  | kept p r _ hd => exact kept_read h hK ht hd
  | dropped p r hd => exact kept_dropped hK ht hd
  | sent p data _ => exact kept_sent h hK ht
  | stopped p data hclosed =>
      refine kept_bond hK s.shared.conn ht [] ?_
      intro hopen
      rw [hopen] at hclosed
      cases hclosed

/-- A call of `ReadFrom`, or something that happens to the bond. -/
theorem kept_outside (hK : Kept cfg s) (he : Happens s.shared σ' new) :
    Kept cfg ⟨σ', s.threads ++ new⟩ := by
  cases he with
  | bond e conn new he =>
      have hmem : ∀ q data, Pc.sending q data ∈ s.threads ++ new.map .bond →
          Pc.sending q data ∈ s.threads := by
        intro q data hmem
        rcases List.mem_append.mp hmem with hold | hnew
        · exact hold
        · obtain ⟨u, -, hu⟩ := List.mem_map.mp hnew
          cases hu
      refine ⟨hK.made, fun q data hq => hK.held q data (hmem q data hq), hK.addr, hK.whole, ?_⟩
      intro hopen q
      have hclosed := (VkTurnBond.outside_frame he).closed
      rw [← hK.reads (hclosed ▸ hopen) q]
      refine congrArg _ ?_
      rw [List.filterMap_append, waits_new, List.append_nil]
  | returned pkt rest size hch =>
      have hchannel : Receiver.channel { s.shared with
          readCh := rest, returned := s.shared.returned ++ [s.shared.readFrom pkt size] }
            = s.shared.channel := by
        rw [Receiver.channel, Receiver.channel, hch, List.map_append, List.append_assoc]
        rfl
      rw [List.append_nil]
      refine ⟨?_, hK.held, ?_, ?_, ?_⟩
      · rw [hchannel]
        exact hK.made
      · rw [hchannel]
        exact hK.addr
      · intro d hd
        rcases List.mem_append.mp hd with hold | hnew
        · exact hK.whole d hold
        · rw [List.mem_singleton.mp hnew]
          rfl
      · rw [hchannel]
        exact hK.reads
  | closed _ =>
      rw [List.append_nil]
      exact hK

end Steps

/-- **RUN**: throughout every run. -/
theorem kept {s : Receivers} (h : ReceiveReach cfg s) : Kept cfg s := by
  refine Reach.invariant ?_ ?_ h
  · exact ⟨fun pkt hpkt => (by cases hpkt), fun p data hmem => (by cases hmem),
      fun pkt hpkt => (by cases hpkt), fun d hd => (by cases hd), fun _ _ => rfl⟩
  · intro s a s' hr hK _ hs
    cases a with
    | run i a =>
        obtain ⟨t, σ', t', new, ht, he, rfl⟩ := Machine.step_run hs
        exact kept_run hr hK ht (exec_moves he)
    | env e =>
        obtain ⟨σ', new, he, rfl⟩ := Machine.step_env hs
        exact kept_outside hK (outside_happens he)

/-! ## The merge -/

/-- The packet that a read loop holds. -/
def held (cfg : Config) : Pc → Option BondedPacket
  | .sending p data => some (cfg.packet p data)
  | .bond _ => none

/-- What `ReadFrom` returned, what is in `readCh`, and what the read loops hold. -/
def merged (cfg : Config) (s : Receivers) : List BondedPacket :=
  s.shared.returned.map (·.pkt) ++ s.shared.readCh ++ s.threads.filterMap (held cfg)

/-- What the loops hold for one path. -/
theorem held_waits (cfg : Config) (m : Memory) (p : PathRef) (ts : List Pc) :
    ((ts.filterMap (held cfg)).map (contents m)).filter (·.1 = p) = ts.filterMap (waits m p) := by
  induction ts with
  | nil => rfl
  | cons t ts ih =>
      cases t with
      | bond t => exact ih
      | sending q data =>
          have hcons : (Pc.sending q data :: ts).filterMap (held cfg)
              = cfg.packet q data :: ts.filterMap (held cfg) := rfl
          rw [hcons, List.map_cons, List.filter_cons, ih, List.filterMap_cons]
          by_cases hq : q = p
          · subst hq
            simp [contents, Config.packet, waits]
          · simp [contents, Config.packet, waits, hq]

/-- Lists that agree key by key have the same elements. -/
theorem perm_of_filter_key {α κ : Type} [DecidableEq α] [DecidableEq κ] (key : α → κ) {l l' : List α}
    (h : ∀ k, l.filter (fun a => key a = k) = l'.filter (fun a => key a = k)) : l.Perm l' := by
  refine List.perm_iff_count.mpr ?_
  intro a
  have hkey : decide (key a = key a) = true := decide_eq_true rfl
  rw [← List.count_filter (p := fun b => decide (key b = key a)) hkey,
    ← List.count_filter (p := fun b => decide (key b = key a)) (l := l') hkey, h]

theorem deliverable_iff {r : Bytes} :
    deliverable cfg r = true ↔ 1 ≤ r.length ∧ (r.length : Int) ≤ cfg.kcpMtu + 128 := by
  simp only [deliverable, Bool.and_eq_true, Bool.not_eq_true', decide_eq_false_iff_not,
    decide_eq_true_eq]
  omega

theorem deliverable_eq (cfg : Config) (r : Bytes) :
    deliverable cfg r = decide (1 ≤ r.length ∧ (r.length : Int) ≤ cfg.kcpMtu + 128) := by
  rw [Bool.eq_iff_iff, deliverable_iff, decide_eq_true_eq]

/-- **THE MERGE LOSES NOTHING**: any number of paths, any records on each and any
    interleaving, while the bond is open.  What `ReadFrom` returned, what is queued and what the
    read loops hold are the records of 1 to `KCPMtu+128` bytes that were read, each
    once, those of one path in the order in which they were read.  A datagram has the bytes
    of its record, all of them if the buffer of the caller has `KCPMtu+128`. -/
theorem merged_records (cfg : Config) (s : Receivers) (h : ReceiveReach cfg s)
    (hopen : s.shared.conn.bond.closed = false) :
    ((merged cfg s).map (contents s.shared.mem)).Perm
        (s.shared.reads.filter fun r => 1 ≤ r.2.length ∧ (r.2.length : Int) ≤ cfg.kcpMtu + 128) ∧
      (∀ p, ((merged cfg s).map (contents s.shared.mem)).filter (·.1 = p) =
        (s.shared.reads.filter fun r =>
          1 ≤ r.2.length ∧ (r.2.length : Int) ≤ cfg.kcpMtu + 128).filter (·.1 = p)) ∧
      ∀ d ∈ s.shared.returned,
        1 ≤ (s.shared.mem.load d.pkt.data).length ∧
          ((s.shared.mem.load d.pkt.data).length : Int) ≤ cfg.kcpMtu + 128 ∧
          d.bytes = (s.shared.mem.load d.pkt.data).take d.size ∧ d.n = d.bytes.length ∧
          d.addr = cfg.remoteAddr ∧
          (cfg.kcpMtu + 128 ≤ d.size → d.bytes = s.shared.mem.load d.pkt.data) := by
  have hK := kept h
  have hpaths : ∀ p, ((merged cfg s).map (contents s.shared.mem)).filter (·.1 = p) =
      (s.shared.reads.filter fun r =>
        1 ≤ r.2.length ∧ (r.2.length : Int) ≤ cfg.kcpMtu + 128).filter (·.1 = p) := by
    intro p
    have hreads := hK.reads hopen p
    simp only [deliverable_eq] at hreads
    rw [← hreads, merged, List.map_append, List.filter_append, held_waits]
    rfl
  refine ⟨perm_of_filter_key Prod.fst hpaths, hpaths, ?_⟩
  intro d hd
  have hmem : d.pkt ∈ s.shared.channel := List.mem_append_left _ (List.mem_map_of_mem hd)
  have hlen := deliverable_iff.mp (hK.made _ hmem).2
  have hwhole := hK.whole d hd
  have hbytes : d.bytes = (s.shared.mem.load d.pkt.data).take d.size := congrArg Datagram.bytes hwhole
  refine ⟨hlen.1, hlen.2, hbytes, ?_, ?_, ?_⟩
  · rw [hbytes, List.length_take]
    exact congrArg Datagram.n hwhole
  · exact (congrArg Datagram.addr hwhole).trans (hK.addr _ hmem)
  · intro hsize
    rw [hbytes, List.take_of_length_le (by omega)]

/-- The default MTU. -/
def defaultConfig : Config where
  arch := .bits64
  kcpMtu := 1200
  remoteAddr := ascii "vless-bond/remote"

/-- `AddConn` on thread `i`, which starts the read loop. -/
def addPath (i conn : Nat) : List (Act Choice Op) :=
  .env (.bond (.addConn (some conn) false)) :: List.replicate 4 (.run i (.bond .go))

/-- Two paths: one sends a record, an empty one and another record, the other one. -/
def twoPaths : List (Act Choice Op) :=
  List.flatten [addPath 0 0, addPath 2 1,
    [.run 1 (.record [1]), .run 1 .send, .run 1 (.record []), .run 3 (.record [2, 2]),
      .env (.readFrom 1328), .run 1 (.record [3]), .run 3 .send]]

/-- The first record is returned, the one of the other path queued, and the last one
    held. -/
theorem second_record_held : ∃ s : Receivers,
    ReceiveReach defaultConfig s ∧
      (s.shared.returned.map (·.bytes) = [[1]] ∧ s.shared.readCh.map (·.path) = [1] ∧
        (s.threads.filterMap (held defaultConfig)).map (·.data) = [.made 2]) ∧
      ((merged defaultConfig s).map (contents s.shared.mem)).Perm
        (s.shared.reads.filter fun r => 1 ≤ r.2.length ∧ (r.2.length : Int) ≤ 1200 + 128) := by
  obtain ⟨s, hr, hp⟩ := Reach.of_follow (receiveStep defaultConfig) anyStep newReceivers twoPaths
    (fun s : Receivers => decide (s.shared.conn.bond.closed = false ∧
      s.shared.returned.map (·.bytes) = [[1]] ∧ s.shared.readCh.map (·.path) = [1] ∧
      (s.threads.filterMap (held defaultConfig)).map (·.data) = [.made 2])) (by decide)
  obtain ⟨hopen, hp⟩ := of_decide_eq_true hp
  exact ⟨s, hr, hp, (merged_records defaultConfig s hr hopen).1⟩

end VkTurnReceive
