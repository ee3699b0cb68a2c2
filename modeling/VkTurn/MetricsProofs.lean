import Mathlib.Data.List.Sort
import VkTurn.GoMapProofs
import VkTurn.GoTextProofs
import VkTurn.ThreadPoolProofs

/-! # The path registry

    A `Registry` keeps the open paths in a map by their number and the paths closed last
    in a history of at most 128, which is shifted in place once it is full.

    What the registry should hold is said by a LEDGER of the calls: how many paths were
    opened, and which were closed, in order.  `Keeps` says that a store holds what a
    ledger says; every call keeps it (`keeps_openPath`, `keeps_close`), as long as
    the numbers of the paths are distinct.  They are the values of a `uint64` counter,
    so they are for 2^64 paths, and the next one gets the number of the first. -/

namespace VkTurnMetrics

open GoMap GoText

/-! ## State -/

/-- `recentPathLimit`. -/
def recentPathLimit : Nat := 128

/-- A pointer to a `Path`, by order of creation. -/
abbrev PathRef := Nat

/-- The traffic counters, which a `Path` and the `Registry` both have. -/
structure Counters where
  bytesRead : UInt64 := 0
  bytesWritten : UInt64 := 0
  readOperations : UInt64 := 0
  writeOperations : UInt64 := 0
  readErrors : UInt64 := 0
  writeErrors : UInt64 := 0
  writeLatencySamples : UInt64 := 0
  writeLatencyTotalNS : UInt64 := 0
  writeLatencyMaxNS : UInt64 := 0
  deriving DecidableEq, Repr

/-- `Path`, without the counter that picks the writes to be timed. -/
structure Path where
  id : UInt64
  label : Bytes
  closed : Bool := false
  counters : Counters := {}
  deriving DecidableEq, Repr

/-- `Registry`, the gauges of other components left out.  A map that is `nil` has no
    entries. -/
structure Registry where
  activePaths : Int64 := 0
  nextPathID : UInt64 := 0
  counters : Counters := {}
  activePathsByID : Map UInt64 PathRef := []
  recentPaths : List PathRef := []

/-- A registry and every path it has opened. -/
structure Store where
  reg : Registry := {}
  heap : List Path := []

/-! ## Opening and closing -/

/-- `r.nextPathID.Add(1)`. -/
def Store.drawID (σ : Store) : Store × UInt64 :=
  ({ σ with reg := { σ.reg with nextPathID := σ.reg.nextPathID + 1 } }, σ.reg.nextPathID + 1)

/-- The locked part of `OpenPath`. -/
def Store.enter (σ : Store) (id : UInt64) (label : Bytes) : Store :=
  { heap := σ.heap ++ [{ id, label }]
    reg := { σ.reg with activePathsByID := GoMap.insert σ.reg.activePathsByID id σ.heap.length
                        activePaths := σ.reg.activePaths + 1 } }

/-- `OpenPath`. -/
def Store.openPath (σ : Store) (label : Bytes) : Store :=
  let (σ, id) := σ.drawID
  σ.enter id label

/-- A path into the history.  A full one is shifted by `copy(recent, recent[1:])`, and
    the path takes the last place. -/
def remember (recent : List PathRef) (p : PathRef) : List PathRef :=
  if recent.length < recentPathLimit then recent ++ [p]
  else (recent.drop 1 ++ recent.drop (recent.length - 1)).set (recent.length - 1) p

/-- `p.closed.CompareAndSwap(false, true)`, when it succeeds. -/
def Store.markClosed (σ : Store) (p : PathRef) (path : Path) : Store :=
  { σ with heap := σ.heap.set p { path with closed := true } }

/-- The end of `Close`, for a path that is in the map. -/
def Store.retire (σ : Store) (p : PathRef) (id : UInt64) : Store :=
  { σ with reg := { σ.reg with activePathsByID := delete σ.reg.activePathsByID id
                               activePaths := σ.reg.activePaths - 1
                               recentPaths := remember σ.reg.recentPaths p } }

/-- `Path.Close`.  A nil path has no registry. -/
def Store.close (σ : Store) (p : Option PathRef) : Store :=
  match p with
  | none => σ
  | some p =>
      match σ.heap[p]? with
      | none => σ
      | some path =>
          if path.closed then σ
          else
            let σ := σ.markClosed p path
            match get σ.reg.activePathsByID path.id with
            | none => σ
            | some _ => σ.retire p path.id

/-! ## Snapshots -/

/-- `PathSnapshot`. -/
structure PathSnapshot where
  id : UInt64
  label : Bytes
  active : Bool
  counters : Counters
  deriving DecidableEq, Repr

/-- `Path.snapshot`. -/
def Path.snapshot (path : Path) : PathSnapshot where
  id := path.id
  label := path.label
  active := !path.closed
  counters := path.counters

/-- What `pathSnapshots` collects, when it meets the open paths in this order. -/
def Store.collected (σ : Store) (order : List PathRef) : List PathSnapshot :=
  (order ++ σ.reg.recentPaths).filterMap fun p => (σ.heap[p]?).map Path.snapshot

/-- `order` is one of the orders in which the map can be ranged over. -/
def Store.Ranges (σ : Store) (order : List PathRef) : Prop :=
  order.Perm (σ.reg.activePathsByID.map Prod.snd)

instance (σ : Store) (order : List PathRef) : Decidable (σ.Ranges order) :=
  inferInstanceAs (Decidable (List.Perm _ _))

/-- What `sort.Slice` promises: a permutation, and nothing stands before a smaller one. -/
structure Sorted (unsorted sorted : List PathSnapshot) : Prop where
  perm : sorted.Perm unsorted
  ordered : sorted.Pairwise fun a b => ¬ b.id < a.id

/-- One snapshot need not stand behind another. -/
def PathSnapshot.le (a b : PathSnapshot) : Prop := a.id ≤ b.id

instance : DecidableRel PathSnapshot.le := fun a b => inferInstanceAs (Decidable (a.id ≤ b.id))

instance : Std.Total PathSnapshot.le := ⟨fun a b => UInt64.le_total a.id b.id⟩

instance : IsTrans PathSnapshot PathSnapshot.le := ⟨fun _ _ _ hab hbc => UInt64.le_trans hab hbc⟩

/-- `pathSnapshots`, for one order of the map. -/
def Store.pathSnapshots (σ : Store) (order : List PathRef) : Int64 × List PathSnapshot :=
  (σ.reg.activePaths, (σ.collected order).insertionSort PathSnapshot.le)

/-! ## Calls -/

/-- A call on a registry or one of its paths. -/
inductive Call where
  | openPath (label : Bytes)
  | close (p : Option PathRef)
  deriving DecidableEq, Repr

def Store.call (σ : Store) : Call → Store
  | .openPath label => σ.openPath label
  | .close p => σ.close p

/-- The store after a sequence of calls. -/
def Store.run : Store → List Call → Store
  | σ, [] => σ
  | σ, c :: rest => (σ.call c).run rest

/-- The calls on the books: how many paths were opened, and which have been closed, in
    order of their first closing. -/
structure Ledger where
  opened : Nat := 0
  closed : List PathRef := []
  deriving DecidableEq, Repr

def Ledger.call (l : Ledger) : Call → Ledger
  | .openPath _ => { l with opened := l.opened + 1 }
  | .close none => l
  | .close (some p) =>
      if p < l.opened ∧ p ∉ l.closed then { l with closed := l.closed ++ [p] } else l

def Ledger.run : Ledger → List Call → Ledger
  | l, [] => l
  | l, c :: rest => (l.call c).run rest

/-- The paths opened and not closed. -/
def Ledger.unclosed (l : Ledger) : List PathRef :=
  (List.range l.opened).filter fun p => decide (p ∉ l.closed)

/-- The last of the closed paths, as many as the history has room for. -/
def Ledger.recent (l : Ledger) : List PathRef :=
  l.closed.drop (l.closed.length - recentPathLimit)

/-! ## The history -/

/-- **THE SHIFT** drops the oldest path and appends the new one. -/
theorem remember_recent (closed : List PathRef) (p : PathRef) :
    remember (closed.drop (closed.length - recentPathLimit)) p
      = (closed ++ [p]).drop ((closed ++ [p]).length - recentPathLimit) := by
  have hlen : (closed.drop (closed.length - recentPathLimit)).length
      = min closed.length recentPathLimit := by
    rw [List.length_drop]
    omega
  rw [remember, hlen, List.length_append, List.length_singleton]
  by_cases hfull : closed.length < recentPathLimit
  · rw [if_pos (by omega), Nat.sub_eq_zero_of_le hfull.le, Nat.sub_eq_zero_of_le hfull]
    rfl
  · have hlim : 0 < recentPathLimit := by decide
    have hk : closed.length + 1 - recentPathLimit = closed.length - recentPathLimit + 1 := by
      omega
    have hmin : min closed.length recentPathLimit = recentPathLimit := by omega
    have htail : ((closed.drop (closed.length - recentPathLimit)).drop 1).length
        = recentPathLimit - 1 := by
      rw [List.length_drop, hlen, hmin]
    have hlast : ((closed.drop (closed.length - recentPathLimit)).drop
        (recentPathLimit - 1)).length = 1 := by
      rw [List.length_drop, hlen, hmin]
      omega
    rw [if_neg (by omega), hmin, hk, List.drop_append_of_le_length (by omega), ← List.drop_drop,
      List.set_append_right (recentPathLimit - 1) p (by rw [htail]), htail, Nat.sub_self]
    obtain ⟨q, hq⟩ := List.length_eq_one_iff.mp hlast
    rw [hq]
    rfl

/-! ## Numbers -/

/-- The number of a path. -/
def idOf (p : PathRef) : UInt64 := UInt64.ofNat (p + 1)

theorem idOf_injective {p q : Nat} (hp : p < 2 ^ 64) (hq : q < 2 ^ 64) (h : idOf p = idOf q) :
    p = q := by
  have hmod : (p + 1) % 2 ^ 64 = (q + 1) % 2 ^ 64 := by
    have := congrArg UInt64.toNat h
    rwa [idOf, idOf, UInt64.toNat_ofNat', UInt64.toNat_ofNat'] at this
  omega

/-! ## What a store holds -/

/-- A store holds what a ledger says. -/
structure Keeps (l : Ledger) (σ : Store) : Prop where
  length : σ.heap.length = l.opened
  next : σ.reg.nextPathID = UInt64.ofNat l.opened
  ids : ∀ (p : Nat) path, σ.heap[p]? = some path → path.id = idOf p
  closed : ∀ (p : Nat) path, σ.heap[p]? = some path → (path.closed = true ↔ p ∈ l.closed)
  entries : σ.reg.activePathsByID.Perm (l.unclosed.map fun p => (idOf p, p))
  gauge : σ.reg.activePaths = Int64.ofNat l.unclosed.length
  recent : σ.reg.recentPaths = l.recent
  known : ∀ p ∈ l.closed, p < l.opened
  once : l.closed.Nodup

theorem keeps_nil : Keeps {} {} where
  length := rfl
  next := rfl
  ids := fun p path h => (by cases h)
  closed := fun p path h => (by cases h)
  entries := List.Perm.refl _
  gauge := rfl
  recent := rfl
  known := fun p h => (by cases h)
  once := List.nodup_nil

theorem mem_unclosed {l : Ledger} {p : PathRef} :
    p ∈ l.unclosed ↔ p < l.opened ∧ p ∉ l.closed := by
  rw [Ledger.unclosed, List.mem_filter, List.mem_range, decide_eq_true_eq]

theorem unclosed_nodup (l : Ledger) : l.unclosed.Nodup := List.nodup_range.filter _

/-- A new path is unclosed. -/
theorem unclosed_open {l : Ledger} (hknown : ∀ p ∈ l.closed, p < l.opened) :
    { l with opened := l.opened + 1 }.unclosed = l.unclosed ++ [l.opened] := by
  have hnew : l.opened ∉ l.closed := fun h => Nat.lt_irrefl _ (hknown _ h)
  show (List.range (l.opened + 1)).filter _ = _
  rw [List.range_succ, List.filter_append]
  congr 1
  rw [List.filter_cons, if_pos (decide_eq_true hnew)]
  rfl

/-- A path that is closed is unclosed no longer. -/
theorem unclosed_close (l : Ledger) (p : PathRef) :
    { l with closed := l.closed ++ [p] }.unclosed = l.unclosed.filter fun q => decide (q ≠ p) := by
  show (List.range l.opened).filter _ = ((List.range l.opened).filter _).filter _
  rw [List.filter_filter]
  refine List.filter_congr ?_
  intro q _
  rw [← Bool.decide_and, decide_eq_decide, List.mem_append, List.mem_singleton, not_or, and_comm]

section Calls

variable {l : Ledger} {σ : Store}

/-- The keys of the map. -/
theorem Keeps.keys (h : Keeps l σ) : (keys σ.reg.activePathsByID).Perm (l.unclosed.map idOf) := by
  have := h.entries.map Prod.fst
  rwa [List.map_map] at this

/-- The number of a path is one of the keys exactly as long as the path is not closed. -/
theorem Keeps.mem_keys (h : Keeps l σ) (hopened : l.opened ≤ 2 ^ 64) {p : PathRef}
    (hp : p < 2 ^ 64) : idOf p ∈ GoMap.keys σ.reg.activePathsByID ↔ p ∈ l.unclosed := by
  rw [h.keys.mem_iff, List.mem_map]
  constructor
  · rintro ⟨q, hq, hid⟩
    have hlt := (mem_unclosed.mp hq).1
    rw [← idOf_injective (hlt.trans_le hopened) hp hid]
    exact hq
  · intro hp
    exact ⟨p, hp, rfl⟩

/-- `OpenPath` keeps the books, as long as there is a number left. -/
theorem keeps_openPath (h : Keeps l σ) (hopened : l.opened < 2 ^ 64) (label : Bytes) :
    Keeps (l.call (.openPath label)) (σ.openPath label) := by
  have hid : σ.reg.nextPathID + 1 = idOf l.opened := by
    rw [h.next]
    exact (UInt64.ofNat_add l.opened 1).symm
  have hunclosed := unclosed_open h.known
  have hnew : idOf l.opened ∉ GoMap.keys σ.reg.activePathsByID := by
    rw [h.mem_keys hopened.le hopened, mem_unclosed]
    exact fun hlt => Nat.lt_irrefl _ hlt.1
  have hheap : ∀ (p : Nat) path,
      (σ.heap ++ [({ id := σ.reg.nextPathID + 1, label := label } : Path)])[p]? = some path →
      (p = l.opened ∧ path = { id := σ.reg.nextPathID + 1, label := label }) ∨
        (p < l.opened ∧ σ.heap[p]? = some path) := by
    intro p path hp
    rw [← h.length]
    exact ThreadPool.getElem?_snoc_cases hp
  refine ⟨?_, ?_, ?_, ?_, ?_, ?_, h.recent, ?_, h.once⟩
  · show (σ.heap ++ [_]).length = l.opened + 1
    rw [List.length_append, h.length]
    rfl
  · show σ.reg.nextPathID + 1 = UInt64.ofNat (l.opened + 1)
    exact hid
  · intro p path hp
    rcases hheap p path hp with ⟨rfl, rfl⟩ | ⟨-, hold⟩
    · exact hid
    · exact h.ids p path hold
  · intro p path hp
    rcases hheap p path hp with ⟨rfl, rfl⟩ | ⟨-, hold⟩
    · refine ⟨fun e => (by cases e), ?_⟩
      intro hmem
      exact absurd (h.known _ hmem) (Nat.lt_irrefl _)
    · exact h.closed p path hold
  · show (GoMap.insert σ.reg.activePathsByID (σ.reg.nextPathID + 1) σ.heap.length).Perm
      (({ l with opened := l.opened + 1 } : Ledger).unclosed.map fun p => (idOf p, p))
    rw [hunclosed, List.map_append, hid, h.length, GoMap.insert, delete_of_not_mem hnew]
    exact (h.entries.cons _).trans (List.perm_append_singleton _ _).symm
  · show σ.reg.activePaths + 1 =
      Int64.ofNat ({ l with opened := l.opened + 1 } : Ledger).unclosed.length
    rw [hunclosed, List.length_append, h.gauge]
    exact (Int64.ofNat_add _ 1).symm
  · intro p hp
    exact Nat.lt_succ_of_lt (h.known p hp)

/-- An unclosed path has an entry, and deleting it leaves the others. -/
theorem Keeps.delete_entry (h : Keeps l σ) (hopened : l.opened ≤ 2 ^ 64) {p : PathRef}
    (hp : p ∈ l.unclosed) :
    (delete σ.reg.activePathsByID (idOf p)).Perm
      ((l.unclosed.filter fun q => decide (q ≠ p)).map fun q => (idOf q, q)) := by
  have hfilter : ((l.unclosed.map fun q => (idOf q, q)).filter fun e => decide (e.1 ≠ idOf p))
      = (l.unclosed.filter fun q => decide (q ≠ p)).map fun q => (idOf q, q) := by
    rw [List.filter_map]
    refine congrArg _ (List.filter_congr ?_)
    intro q hq
    have hplt := (mem_unclosed.mp hp).1.trans_le hopened
    have hqlt := (mem_unclosed.mp hq).1.trans_le hopened
    show decide (idOf q ≠ idOf p) = decide (q ≠ p)
    rw [decide_eq_decide]
    exact not_congr ⟨fun hid => idOf_injective hqlt hplt hid, fun hqp => congrArg idOf hqp⟩
  rw [← hfilter]
  exact h.entries.filter _

theorem Keeps.keys_nodup (h : Keeps l σ) (hopened : l.opened ≤ 2 ^ 64) :
    (GoMap.keys σ.reg.activePathsByID).Nodup := by
  rw [h.keys.nodup_iff]
  refine (unclosed_nodup l).map_on ?_
  intro q hq q' hq' hid
  exact idOf_injective ((mem_unclosed.mp hq).1.trans_le hopened)
    ((mem_unclosed.mp hq').1.trans_le hopened) hid

/-- One unclosed path less. -/
theorem length_unclosed_close {p : PathRef} (hp : p ∈ l.unclosed) :
    { l with closed := l.closed ++ [p] }.unclosed.length + 1 = l.unclosed.length := by
  have herase : (l.unclosed.filter fun q => decide (q ≠ p)) = l.unclosed.erase p := by
    rw [(unclosed_nodup l).erase_eq_filter]
    refine List.filter_congr ?_
    intro q _
    exact decide_not
  rw [unclosed_close, herase, List.length_erase_of_mem hp,
    Nat.sub_add_cancel (List.length_pos_of_mem hp)]

/-- The first closing of a path. -/
theorem keeps_retire (h : Keeps l σ) (hopened : l.opened ≤ 2 ^ 64) {p : PathRef} {path : Path}
    (hpath : σ.heap[p]? = some path) (hp : p ∈ l.unclosed) :
    Keeps { l with closed := l.closed ++ [p] } ((σ.markClosed p path).retire p path.id) := by
  obtain ⟨hlt, hnew⟩ := mem_unclosed.mp hp
  have hheap : ∀ (r : Nat) x, (σ.heap.set p { path with closed := true })[r]? = some x →
      (r = p ∧ x = { path with closed := true }) ∨ (r ≠ p ∧ σ.heap[r]? = some x) := by
    intro r x hx
    rw [List.getElem?_set] at hx
    by_cases hr : p = r
    · rw [if_pos hr, if_pos (List.getElem?_eq_some_iff.mp hpath).1] at hx
      exact Or.inl ⟨hr.symm, (Option.some.inj hx).symm⟩
    · rw [if_neg hr] at hx
      exact Or.inr ⟨fun e => hr e.symm, hx⟩
  refine ⟨?_, h.next, ?_, ?_, ?_, ?_, ?_, ?_, ?_⟩
  · rw [← h.length]
    exact List.length_set
  · intro r x hx
    rcases hheap r x hx with ⟨rfl, rfl⟩ | ⟨-, hold⟩
    · exact h.ids r path hpath
    · exact h.ids r x hold
  · intro r x hx
    rw [List.mem_append, List.mem_singleton]
    rcases hheap r x hx with ⟨rfl, rfl⟩ | ⟨hne, hold⟩
    · exact ⟨fun _ => Or.inr rfl, fun _ => rfl⟩
    · rw [h.closed r x hold]
      exact ⟨Or.inl, fun hin => hin.resolve_right hne⟩
  · show (delete σ.reg.activePathsByID path.id).Perm _
    rw [unclosed_close, h.ids p path hpath]
    exact h.delete_entry hopened hp
  · show σ.reg.activePaths - 1 = Int64.ofNat _
    rw [h.gauge, ← length_unclosed_close hp, Int64.ofNat_add]
    exact Int64.add_sub_cancel _ 1
  · show remember σ.reg.recentPaths p = _
    rw [h.recent]
    exact remember_recent l.closed p
  · intro r hr
    rcases List.mem_append.mp hr with hr | hr
    · exact h.known r hr
    · rw [List.mem_singleton.mp hr]
      exact hlt
  · exact List.nodup_append_comm.mp (List.nodup_cons.mpr ⟨hnew, h.once⟩)

/-- `Close` keeps the books. -/
theorem keeps_close (h : Keeps l σ) (hopened : l.opened ≤ 2 ^ 64) (p : Option PathRef) :
    Keeps (l.call (.close p)) (σ.close p) := by
  cases p with
  | none => exact h
  | some p =>
      rw [Ledger.call, Store.close]
      cases hpath : σ.heap[p]? with
      | none =>
          have hout : ¬ (p < l.opened ∧ p ∉ l.closed) := by
            rw [← h.length]
            exact fun hin => Nat.not_lt.mpr (List.getElem?_eq_none_iff.mp hpath) hin.1
          rw [if_neg hout]
          exact h
      | some path =>
          have hlt : p < l.opened := h.length ▸ (List.getElem?_eq_some_iff.mp hpath).1
          simp only
          by_cases hclosed : path.closed = true
          · rw [if_pos hclosed, if_neg fun hin => hin.2 ((h.closed p path hpath).mp hclosed)]
            exact h
          · have hnew : p ∉ l.closed := fun hmem => hclosed ((h.closed p path hpath).mpr hmem)
            have hmem : p ∈ l.unclosed := mem_unclosed.mpr ⟨hlt, hnew⟩
            have hkeeps := keeps_retire h hopened hpath hmem
            -- the path is in the map
            have hkey := (h.mem_keys hopened (hlt.trans_le hopened)).mpr hmem
            obtain ⟨e, he, hek⟩ := List.mem_map.mp hkey
            have hget : get (σ.markClosed p path).reg.activePathsByID path.id = some e.2 := by
              rw [h.ids p path hpath]
              exact get_of_mem (h.keys_nodup hopened) (hek ▸ he)
            rw [if_neg hclosed, if_pos ⟨hlt, hnew⟩, hget]
            exact hkeeps

theorem opened_le_run (l : Ledger) (calls : List Call) : l.opened ≤ (l.run calls).opened := by
  induction calls generalizing l with
  | nil => exact le_rfl
  | cons c calls ih =>
      refine le_trans ?_ (ih (l.call c))
      cases c with
      | openPath label => exact Nat.le_succ _
      | close p =>
          cases p with
          | none => exact le_rfl
          | some p =>
              rw [Ledger.call]
              split <;> exact le_rfl

/-- **EVERY SEQUENCE OF CALLS KEEPS THE BOOKS**, until the numbers run out. -/
theorem keeps_run (h : Keeps l σ) (calls : List Call) (hopened : (l.run calls).opened ≤ 2 ^ 64) :
    Keeps (l.run calls) (σ.run calls) := by
  induction calls generalizing l σ with
  | nil => exact h
  | cons c calls ih =>
      refine ih ?_ hopened
      have hle := (opened_le_run (l.call c) calls).trans hopened
      cases c with
      | openPath label => exact keeps_openPath h hle label
      | close p =>
          refine keeps_close h (le_trans ?_ hle) p
          exact opened_le_run l [.close p]

/-! ## What a snapshot lists -/

/-- The history and the open paths have no path in common, and none twice. -/
theorem Keeps.listed_nodup (h : Keeps l σ) : (l.unclosed ++ l.recent).Nodup := by
  refine List.Nodup.append (unclosed_nodup l) (h.once.sublist (List.drop_sublist _ _)) ?_
  intro p hp hr
  exact (mem_unclosed.mp hp).2 (List.mem_of_mem_drop hr)

theorem Keeps.listed_lt (h : Keeps l σ) {p : PathRef} (hp : p ∈ l.unclosed ++ l.recent) :
    p < l.opened := by
  rcases List.mem_append.mp hp with hp | hp
  · exact (mem_unclosed.mp hp).1
  · exact h.known p (List.mem_of_mem_drop hp)

/-- The order in which the map is ranged over does not change which paths are
    collected. -/
theorem Keeps.order_perm (h : Keeps l σ) {order : List PathRef} (hr : σ.Ranges order) :
    (order ++ σ.reg.recentPaths).Perm (l.unclosed ++ l.recent) := by
  have horder : order.Perm l.unclosed := by
    refine hr.trans ?_
    have hrefs : (l.unclosed.map fun p => (idOf p, p)).map Prod.snd = l.unclosed := by
      rw [List.map_map]
      exact List.map_id l.unclosed
    exact hrefs ▸ h.entries.map Prod.snd
  rw [h.recent]
  exact horder.append_right _

/-- The numbers of the snapshots collected, which are those of their paths. -/
theorem Keeps.collected_ids (h : Keeps l σ) {order : List PathRef} (hr : σ.Ranges order) :
    (σ.collected order).map PathSnapshot.id = (order ++ σ.reg.recentPaths).map idOf := by
  rw [Store.collected, List.map_filterMap, ← List.filterMap_eq_map]
  refine List.filterMap_congr ?_
  intro p hp
  have hlt := h.listed_lt ((h.order_perm hr).mem_iff.mp hp)
  have hpath := List.getElem?_eq_getElem (h.length.symm ▸ hlt : p < σ.heap.length)
  rw [hpath]
  show some _ = some _
  rw [← h.ids p _ hpath]
  rfl

/-- **SNAPSHOTS** list the open paths and the history, by increasing number. -/
theorem Keeps.snapshot (h : Keeps l σ) (hopened : l.opened ≤ 2 ^ 64) {order : List PathRef}
    {paths : List PathSnapshot} (hr : σ.Ranges order) (hs : Sorted (σ.collected order) paths) :
    (paths.Pairwise fun a b => a.id < b.id) ∧
    (∀ snap, snap ∈ paths ↔ ∃ (p : Nat) (path : Path), σ.heap[p]? = some path ∧
      path.snapshot = snap ∧ (p ∈ l.unclosed ∨ p ∈ l.recent)) ∧
    ∀ (p : Nat) (path : Path), σ.heap[p]? = some path →
      (path.snapshot.active = true ↔ p ∈ l.unclosed) := by
  refine ⟨?_, ?_, ?_⟩
  · -- no number twice, and nothing before a smaller one
    have hnodup : (paths.map PathSnapshot.id).Nodup := by
      rw [(hs.perm.map _).nodup_iff, h.collected_ids hr]
      refine List.Nodup.map_on ?_ ((h.order_perm hr).nodup_iff.mpr h.listed_nodup)
      intro p hp q hq hid
      exact idOf_injective ((h.listed_lt ((h.order_perm hr).mem_iff.mp hp)).trans_le hopened)
        ((h.listed_lt ((h.order_perm hr).mem_iff.mp hq)).trans_le hopened) hid
    refine (hs.ordered.and (List.pairwise_map.mp hnodup)).imp ?_
    rintro a b ⟨hle, hne⟩
    rw [UInt64.not_lt, UInt64.le_iff_toNat_le] at hle
    rw [UInt64.lt_iff_toNat_lt]
    exact Nat.lt_of_le_of_ne hle fun e => hne (UInt64.toNat_inj.mp e)
  · intro snap
    rw [hs.perm.mem_iff, Store.collected, List.mem_filterMap]
    constructor
    · rintro ⟨p, hp, hsnap⟩
      obtain ⟨path, hpath, rfl⟩ := Option.map_eq_some_iff.mp hsnap
      exact ⟨p, path, hpath, rfl, List.mem_append.mp ((h.order_perm hr).mem_iff.mp hp)⟩
    · rintro ⟨p, path, hpath, rfl, hp⟩
      refine ⟨p, (h.order_perm hr).mem_iff.mpr (List.mem_append.mpr hp), ?_⟩
      rw [hpath]
      rfl
  · intro p path hpath
    have hlt : p < l.opened := h.length ▸ (List.getElem?_eq_some_iff.mp hpath).1
    rw [mem_unclosed, ← h.closed p path hpath, Path.snapshot, Bool.not_eq_true', Bool.not_eq_true]
    exact ⟨fun hopen => ⟨hlt, hopen⟩, fun hin => hin.2⟩

end Calls

/-- **THE REGISTRY'S STRUCTURE**: after every sequence of calls of `OpenPath` and
    `Close` that opens at most 2^64 paths.

    The gauge is the number of unclosed paths as an `int64` (so that number itself,
    below 2^63), and the map has that many entries.  The history is the last 128 of the
    closed paths (all, if there are fewer) in order of their closing, none twice.  A
    snapshot, in whatever order the map is ranged over and however its sort is made,
    lists exactly the unclosed paths and the history, by strictly increasing number, and its
    flags say which are unclosed. -/
theorem registry_structure (calls : List Call) (hopened : (Ledger.run {} calls).opened ≤ 2 ^ 64) :
    let l := Ledger.run {} calls
    let σ := Store.run {} calls
    (σ.reg.activePaths = Int64.ofNat l.unclosed.length ∧
      (l.unclosed.length < 2 ^ 63 → σ.reg.activePaths.toInt = l.unclosed.length) ∧
      σ.reg.activePathsByID.length = l.unclosed.length) ∧
    (σ.reg.recentPaths = l.closed.drop (l.closed.length - recentPathLimit) ∧
      σ.reg.recentPaths.length = min recentPathLimit l.closed.length ∧ l.closed.Nodup) ∧
    ∀ order paths, σ.Ranges order → Sorted (σ.collected order) paths →
      (paths.Pairwise fun a b => a.id < b.id) ∧
      (∀ snap, snap ∈ paths ↔ ∃ (p : Nat) (path : Path), σ.heap[p]? = some path ∧
        path.snapshot = snap ∧ (p ∈ l.unclosed ∨ p ∈ σ.reg.recentPaths)) ∧
      ∀ (p : Nat) (path : Path), σ.heap[p]? = some path →
        (path.snapshot.active = true ↔ p ∈ l.unclosed) := by
  intro l σ
  have h : Keeps l σ := keeps_run keeps_nil calls hopened
  refine ⟨⟨h.gauge, ?_, ?_⟩, ⟨h.recent, ?_, h.once⟩, ?_⟩
  · intro hsmall
    rw [h.gauge]
    exact Int64.toInt_ofNat_of_lt hsmall
  · rw [h.entries.length_eq, List.length_map]
  · rw [h.recent, Ledger.recent, List.length_drop]
    omega
  · intro order paths hr hs
    rw [h.recent]
    exact h.snapshot hopened hr hs

/-- The sort of `pathSnapshots` keeps the promise of `sort.Slice`. -/
theorem pathSnapshots_sorted (σ : Store) (order : List PathRef) :
    Sorted (σ.collected order) (σ.pathSnapshots order).2 := by
  refine ⟨List.perm_insertionSort _ _, ?_⟩
  refine (List.pairwise_insertionSort PathSnapshot.le _).imp ?_
  intro a b hle
  exact UInt64.not_lt.mpr hle

/-- Three paths are opened, the second is closed twice. -/
def reconnect : List Call :=
  [.openPath [], .openPath [], .close (some 1), .openPath [], .close (some 1)]

/-- The snapshot lists all three, the second one as closed. -/
theorem reconnect_listed :
    ((Store.run {} reconnect).pathSnapshots [2, 0]).2.map (fun s => (s.id, s.active))
        = [(1, true), (2, false), (3, true)] ∧
      (((Store.run {} reconnect).pathSnapshots [2, 0]).2.Pairwise fun a b => a.id < b.id) :=
  ⟨by decide, ((registry_structure reconnect (by decide)).2.2 [2, 0] _ (by decide)
    (pathSnapshots_sorted _ _)).1⟩

/-! ## When the numbers run out -/

/-- One path that stays open, then so many that are opened and closed. -/
def longRun : Nat → List Call
  | 0 => [.openPath []]
  | n + 1 => longRun n ++ [.openPath [], .close (some (n + 1))]

theorem ledger_run_append (l : Ledger) (a b : List Call) : l.run (a ++ b) = (l.run a).run b := by
  induction a generalizing l with
  | nil => rfl
  | cons c a ih => exact ih (l.call c)

theorem store_run_append (σ : Store) (a b : List Call) : σ.run (a ++ b) = (σ.run a).run b := by
  induction a generalizing σ with
  | nil => rfl
  | cons c a ih => exact ih (σ.call c)

/-- The long run on the books: the first path is the only one that is not closed. -/
theorem ledger_longRun (n : Nat) :
    Ledger.run {} (longRun n) = ⟨n + 1, (List.range n).map (· + 1)⟩ := by
  induction n with
  | zero => rfl
  | succ n ih =>
      have hnew : n + 1 ∉ (List.range n).map (· + 1) := by
        rw [List.mem_map]
        rintro ⟨k, hk, he⟩
        have := List.mem_range.mp hk
        omega
      rw [longRun, ledger_run_append, ih, Ledger.run, Ledger.call, Ledger.run, Ledger.call,
        if_pos ⟨Nat.lt_succ_self _, hnew⟩, Ledger.run, List.range_succ, List.map_append]
      rfl

theorem unclosed_longRun (n : Nat) : (Ledger.run {} (longRun n)).unclosed = [0] := by
  rw [ledger_longRun, Ledger.unclosed, List.range_succ_eq_map, List.filter_cons, if_pos,
    List.filter_map]
  · refine congrArg (0 :: ·) (List.map_eq_nil_iff.mpr (List.filter_eq_nil_iff.mpr ?_))
    intro p hp
    simpa using hp
  · simp

/-- Opening a path whose number another open path has. -/
theorem openPath_collides {l : Ledger} {σ : Store} (h : Keeps l σ) (hone : l.unclosed = [0])
    (hid : σ.reg.nextPathID + 1 = idOf 0) (label : Bytes) :
    (σ.openPath label).reg.activePathsByID.length = 1 ∧ (σ.openPath label).reg.activePaths = 2 := by
  have hentries : σ.reg.activePathsByID = [(idOf 0, 0)] := by
    have := h.entries
    rw [hone] at this
    exact List.perm_singleton.mp this
  constructor
  · show (GoMap.insert σ.reg.activePathsByID (σ.reg.nextPathID + 1) σ.heap.length).length = 1
    rw [hentries, hid]
    rfl
  · show σ.reg.activePaths + 1 = 2
    rw [h.gauge, hone]
    rfl

/-- The calls after which the number 1 is given out again. -/
def wrappedCalls : List Call := longRun (2 ^ 64 - 1) ++ [.openPath []]

/-- **NUMBERS ARE REUSED**: with 2^64 + 1 paths opened and all closed but the first and
    the last, the two share a number, and the map has one entry for both. -/
theorem wrapped_number_collides :
    (Ledger.run {} wrappedCalls).unclosed.length = 2 ∧
      (Store.run {} wrappedCalls).reg.activePathsByID.length = 1 ∧
      (Store.run {} wrappedCalls).reg.activePaths = 2 := by
  have hopened : (Ledger.run {} (longRun (2 ^ 64 - 1))).opened = 2 ^ 64 := by
    rw [ledger_longRun]
    exact Nat.sub_add_cancel (by norm_num)
  have h := keeps_run keeps_nil (longRun (2 ^ 64 - 1)) hopened.le
  have hone := unclosed_longRun (2 ^ 64 - 1)
  have hid : (Store.run {} (longRun (2 ^ 64 - 1))).reg.nextPathID + 1 = idOf 0 := by
    rw [h.next, hopened]
    decide
  rw [wrappedCalls, ledger_run_append, store_run_append]
  refine ⟨?_, openPath_collides h hone hid []⟩
  show ({ Ledger.run {} (longRun (2 ^ 64 - 1)) with
    opened := (Ledger.run {} (longRun (2 ^ 64 - 1))).opened + 1 } : Ledger).unclosed.length = 2
  rw [unclosed_open h.known, hone]
  rfl

end VkTurnMetrics
