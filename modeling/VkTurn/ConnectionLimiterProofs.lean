import VkTurn.GoMapProofs
import VkTurn.GoTextProofs
import VkTurn.ThreadPoolProofs

/-! # The connection limiter

    One global and one per-address bound on the transport connections of the
    server.  A connection that is let in holds a lease; giving the lease back is
    guarded by a `sync.Once`, so of all the calls of `Release` on one lease the
    first alone returns the slot.

    `Counted` is what the counters are for: they count the leases that have their
    slot.  `Acquire` and `release` keep it, whoever calls them. -/

namespace VkTurnLimiter

open GoText GoMap ThreadPool

def maximumConfiguredConnectionLimit : Int := 65535

/-- Why a connection is not let in: "remote address has no valid IP", "global
    transport connection limit reached", "per-IP transport connection limit
    reached". -/
inductive ConnectionRejection where
  | invalidIP
  | global
  | perIP
  deriving DecidableEq, Repr

/-- `connectionLimiter`. -/
structure ConnectionLimiter where
  maxTotal : Int
  maxPerIP : Int
  total : Int := 0
  perIP : Map Bytes Int := []
  deriving DecidableEq, Repr

/-- `connectionLease`: its address, and whether its `once` has run. -/
structure ConnectionLease where
  ip : Bytes
  released : Bool := false
  deriving DecidableEq, Repr

/-- `newConnectionLimiter`. -/
def newConnectionLimiter (maxTotal maxPerIP : Int) : Except Bytes ConnectionLimiter :=
  if maxTotal < 1 ∨ maxTotal > maximumConfiguredConnectionLimit then
    .error (ascii "maximum transport connections must be in 1.."
      ++ itoa maximumConfiguredConnectionLimit)
  else if maxPerIP < 1 ∨ maxPerIP > maxTotal then
    .error (ascii "maximum transport connections per IP must be in 1.." ++ itoa maxTotal)
  else .ok { maxTotal := maxTotal, maxPerIP := maxPerIP }

/-- `l.perIP[ip]`. -/
def ConnectionLimiter.count (l : ConnectionLimiter) (ip : Bytes) : Int :=
  (get l.perIP ip).getD 0

/-- `Acquire`, where `ip` is the key of the remote address when it has one. -/
def ConnectionLimiter.acquire (l : ConnectionLimiter) (ip : Option Bytes) :
    Except ConnectionRejection (ConnectionLimiter × ConnectionLease) :=
  match ip with
  | none => .error .invalidIP
  | some ip =>
      if l.total ≥ l.maxTotal then .error .global
      else if l.count ip ≥ l.maxPerIP then .error .perIP
      else .ok ({ l with total := l.total + 1
                         perIP := insert l.perIP ip (l.count ip + 1) }, { ip := ip })

/-- `release`. -/
def ConnectionLimiter.release (l : ConnectionLimiter) (ip : Bytes) :
    ConnectionLimiter :=
  { l with perIP := if l.count ip ≤ 1 then delete l.perIP ip
                    else insert l.perIP ip (l.count ip - 1)
           total := if l.total > 0 then l.total - 1 else l.total }

/-- What a successful `Acquire` does. -/
theorem acquire_ok {l l' : ConnectionLimiter} {key : Option Bytes} {lease : ConnectionLease}
    (h : l.acquire key = .ok (l', lease)) :
    ∃ ip, key = some ip ∧ lease = { ip := ip } ∧ l.total < l.maxTotal ∧
      l.count ip < l.maxPerIP ∧
      l' = { l with total := l.total + 1
                    perIP := insert l.perIP ip (l.count ip + 1) } := by
  unfold ConnectionLimiter.acquire at h
  split at h
  · cases h
  · rename_i ip
    split at h
    · cases h
    · rename_i htotal
      split at h
      · cases h
      · rename_i hcount
        cases h
        exact ⟨ip, rfl, rfl, not_le.mp htotal, not_le.mp hcount, rfl⟩

/-- A lease is handed out fresh. -/
theorem acquire_fresh {l l' : ConnectionLimiter} {ip : Option Bytes}
    {lease : ConnectionLease} (h : l.acquire ip = .ok (l', lease)) :
    lease.released = false := by
  obtain ⟨ip, -, rfl, -⟩ := acquire_ok h
  rfl

/-! ## The map of counts -/

/-- The map has one entry for each address, and none that is zero. -/
structure Tidy (l : ConnectionLimiter) : Prop where
  nodup : (keys l.perIP).Nodup
  positive : ∀ ip n, (ip, n) ∈ l.perIP → 1 ≤ n

/-- The sum of the map. -/
def ConnectionLimiter.entrySum (l : ConnectionLimiter) : Int := (l.perIP.map Prod.snd).sum

section Count

variable {l : ConnectionLimiter} {ip : Bytes} {n : Int}

theorem count_of_insert (k : Bytes) :
    ConnectionLimiter.count { l with perIP := insert l.perIP ip n } k
      = if k = ip then n else l.count k := by
  rw [ConnectionLimiter.count, get_insert]
  split <;> rfl

theorem count_of_delete (k : Bytes) :
    ConnectionLimiter.count { l with perIP := delete l.perIP ip } k
      = if k = ip then 0 else l.count k := by
  rw [ConnectionLimiter.count, get_delete]
  split <;> rfl

/-- An entry is the count of its address. -/
theorem Tidy.count_eq (h : Tidy l) (hm : (ip, n) ∈ l.perIP) : l.count ip = n := by
  rw [ConnectionLimiter.count, get_of_mem h.nodup hm]
  rfl

theorem Tidy.insert (h : Tidy l) (hn : 1 ≤ n) :
    Tidy { l with perIP := insert l.perIP ip n } where
  nodup := keys_nodup_insert h.nodup ip n
  positive := by
    intro k v hm
    rcases List.mem_cons.mp hm with he | hrest
    · cases he
      exact hn
    · exact h.positive k v (List.mem_filter.mp hrest).1

theorem Tidy.delete (h : Tidy l) : Tidy { l with perIP := delete l.perIP ip } where
  nodup := keys_nodup_delete h.nodup ip
  positive := fun k v hm => h.positive k v (List.mem_filter.mp hm).1

theorem Tidy.sum_delete (h : Tidy l) :
    ConnectionLimiter.entrySum { l with perIP := GoMap.delete l.perIP ip }
      = l.entrySum - l.count ip := by
  show ((GoMap.delete l.perIP ip).map Prod.snd).sum = (l.perIP.map Prod.snd).sum
    - (get l.perIP ip).getD 0
  have := GoMap.sum_delete h.nodup ip
  omega

theorem Tidy.sum_insert (h : Tidy l) :
    ConnectionLimiter.entrySum { l with perIP := GoMap.insert l.perIP ip n }
      = l.entrySum - l.count ip + n := by
  rw [← h.sum_delete]
  show (((ip, n) :: GoMap.delete l.perIP ip).map Prod.snd).sum
    = ((GoMap.delete l.perIP ip).map Prod.snd).sum + n
  rw [List.map_cons, List.sum_cons, add_comm]

/-- **ACQUIRE**: an address with one slot more adds one to its count, to the sum and
    to the total. -/
theorem taken_spec (h : Tidy l) (hcount : 0 ≤ l.count ip) {l' : ConnectionLimiter}
    (hl : l' = { l with total := l.total + 1
                        perIP := insert l.perIP ip (l.count ip + 1) }) :
    Tidy l' ∧ l'.total = l.total + 1 ∧ l'.entrySum = l.entrySum + 1 ∧
      ∀ k, l'.count k = l.count k + if k = ip then 1 else 0 := by
  subst hl
  have hins : Tidy { l with perIP := insert l.perIP ip (l.count ip + 1) } :=
    h.insert (by omega)
  refine ⟨⟨hins.nodup, hins.positive⟩, rfl, ?_, ?_⟩
  · exact h.sum_insert.trans (by omega)
  · intro k
    refine (count_of_insert k).trans ?_
    by_cases hk : k = ip
    · rw [if_pos hk, if_pos hk, hk]
    · rw [if_neg hk, if_neg hk, add_zero]

/-- **RELEASE**: where an address has a slot to give back, `release` takes one
    off its count, off the sum and off the total, whichever way it clamps. -/
theorem release_spec (h : Tidy l) (hcount : 1 ≤ l.count ip) (htotal : 1 ≤ l.total) :
    Tidy (l.release ip) ∧ (l.release ip).total = l.total - 1 ∧
      (l.release ip).entrySum = l.entrySum - 1 ∧
      ∀ k, (l.release ip).count k = l.count k - if k = ip then 1 else 0 := by
  have ht : (if l.total > 0 then l.total - 1 else l.total) = l.total - 1 := if_pos (by omega)
  unfold ConnectionLimiter.release
  rw [ht]
  by_cases hle : l.count ip ≤ 1
  · have hone : l.count ip = 1 := by omega
    rw [if_pos hle]
    refine ⟨⟨h.delete.nodup, h.delete.positive⟩, rfl, ?_, ?_⟩
    · exact h.sum_delete.trans (by rw [hone])
    · intro k
      refine (count_of_delete k).trans ?_
      by_cases hk : k = ip
      · rw [if_pos hk, if_pos hk, hk, hone]
        rfl
      · rw [if_neg hk, if_neg hk, sub_zero]
  · rw [if_neg hle]
    have hins : Tidy { l with perIP := insert l.perIP ip (l.count ip - 1) } :=
      h.insert (by omega)
    refine ⟨⟨hins.nodup, hins.positive⟩, rfl, ?_, ?_⟩
    · exact h.sum_insert.trans (by omega)
    · intro k
      refine (count_of_insert k).trans ?_
      by_cases hk : k = ip
      · rw [if_pos hk, if_pos hk, hk]
      · rw [if_neg hk, if_neg hk, sub_zero]

end Count

/-! ## The books -/

/-- The counters count the leases that have their slot, within the limits.  How the caller keeps
    the leases is up to it: `held` says that one has its slot, `key` which address it is for. -/
structure Counted {α : Type} (held : α → Bool) (key : α → Bytes) (l : ConnectionLimiter)
    (leases : List α) : Prop where
  tidy : Tidy l
  total : l.total = leases.countP held
  sum : l.entrySum = leases.countP held
  count : ∀ ip, l.count ip = leases.countP fun x => held x && decide (key x = ip)
  total_le : l.total ≤ l.maxTotal
  count_le : ∀ ip, l.count ip ≤ l.maxPerIP

section Books

variable {α : Type} {held : α → Bool} {key : α → Bytes} {l l' : ConnectionLimiter}
  {leases : List α} {c : Nat} {x y : α}

/-- The limits that are accepted, and a new limiter. -/
theorem newConnectionLimiter_ok {maxTotal maxPerIP : Int}
    (h : newConnectionLimiter maxTotal maxPerIP = .ok l) :
    0 ≤ maxTotal ∧ 0 ≤ maxPerIP ∧ l = { maxTotal := maxTotal, maxPerIP := maxPerIP } := by
  unfold newConnectionLimiter at h
  split at h
  · cases h
  · split at h
    · cases h
    · cases h
      exact ⟨by omega, by omega, rfl⟩

/-- A new limiter has given out nothing. -/
theorem Counted.new {maxTotal maxPerIP : Int}
    (h : newConnectionLimiter maxTotal maxPerIP = .ok l) : Counted held key l [] := by
  obtain ⟨htotal, hper, rfl⟩ := newConnectionLimiter_ok h
  exact ⟨⟨List.nodup_nil, fun ip n hm => (by cases hm)⟩, rfl, rfl, fun ip => rfl, htotal,
    fun ip => hper⟩

/-- A slot is taken. -/
theorem Counted.acquire (h : Counted held key l leases) {ip : Option Bytes}
    {lease : ConnectionLease} (hok : l.acquire ip = .ok (l', lease)) (hx : held x = true)
    (hkey : key x = lease.ip) : Counted held key l' (leases ++ [x]) := by
  obtain ⟨ip, -, rfl, hroom, hper, hl'⟩ := acquire_ok hok
  have hpos := h.count ip
  obtain ⟨htidy, htotal, hsum, hcount⟩ := taken_spec h.tidy (by omega) hl'
  have hall : ((leases ++ [x]).countP held : Int) = leases.countP held + 1 := by
    rw [List.countP_append, List.countP_singleton, if_pos hx]
    rfl
  have hmax : l'.maxTotal = l.maxTotal ∧ l'.maxPerIP = l.maxPerIP := by
    rw [hl']
    exact ⟨rfl, rfl⟩
  refine ⟨htidy, ?_, ?_, ?_, ?_, ?_⟩
  · rw [htotal, hall, h.total]
  · rw [hsum, hall, h.sum]
  · intro k
    rw [hcount, h.count, List.countP_append, List.countP_singleton, hx, hkey]
    by_cases hk : k = ip
    · simp [hk]
    · simp [hk, Ne.symm hk]
  · rw [htotal, hmax.1]
    omega
  · intro k
    have hle := h.count_le k
    rw [hcount, hmax.2]
    by_cases hk : k = ip
    · rw [hk, if_pos rfl]
      omega
    · rw [if_neg hk]
      omega

/-- A slot goes back.  Its lease is one of those that are counted, so the clamps of `release`
    hide nothing. -/
theorem Counted.release (h : Counted held key l leases) (hc : leases[c]? = some x)
    (hx : held x = true) (hy : held y = false) :
    Counted held key (l.release (key x)) (leases.set c y) := by
  have hall := countP_set_add held y hc
  have hof : ∀ ip, (leases.set c y).countP (fun z => held z && decide (key z = ip))
      + (if key x = ip then 1 else 0) = leases.countP fun z => held z && decide (key z = ip) := by
    intro ip
    have hset := countP_set_add (fun z => held z && decide (key z = ip)) y hc
    simpa [one, hx, hy] using hset
  rw [one_true hx, one_false hy] at hall
  have htotal := h.total
  have hsum := h.sum
  have hpos : 1 ≤ l.count (key x) := by
    have hself := hof (key x)
    rw [if_pos rfl] at hself
    have hcount := h.count (key x)
    omega
  obtain ⟨htidy, htotal', hsum', hcount'⟩ := release_spec h.tidy hpos (by omega)
  have hle : (l.release (key x)).total ≤ l.maxTotal := by
    have := h.total_le
    omega
  refine ⟨htidy, by omega, by omega, ?_, hle, ?_⟩
  · intro ip
    have hold := h.count ip
    have hnew := hof ip
    rw [hcount']
    by_cases hip : ip = key x
    · rw [if_pos hip.symm] at hnew
      rw [if_pos hip]
      omega
    · rw [if_neg (Ne.symm hip)] at hnew
      rw [if_neg hip]
      omega
  · intro ip
    have hle := h.count_le ip
    rw [hcount']
    show _ ≤ l.maxPerIP
    split <;> omega

/-- A lease is marked, and keeps its slot or its absence. -/
theorem Counted.keep (h : Counted held key l leases) (hc : leases[c]? = some x)
    (hy : held y = held x) (hkey : key y = key x) : Counted held key l (leases.set c y) := by
  have hsame : ∀ p : α → Bool, p y = p x → (leases.set c y).countP p = leases.countP p := by
    intro p hp
    have hset := countP_set_add p y hc
    rw [one_congr hp] at hset
    exact Nat.add_right_cancel hset
  refine ⟨h.tidy, ?_, ?_, ?_, h.total_le, h.count_le⟩
  · rw [hsame held hy]
    exact h.total
  · rw [hsame held hy]
    exact h.sum
  · intro ip
    rw [hsame (fun z => held z && decide (key z = ip)) (by simp only [hy, hkey])]
    exact h.count ip

end Books

end VkTurnLimiter
