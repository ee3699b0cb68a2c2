import VkTurn.BondProofs

/-! # Bonded paths are disposed of exactly once

    Three callers race to remove the same path, `Close` sweeps a snapshot while
    `AddConn` may be appending, and a refused path takes a road of its own
    (`closePath`).  The argument is OWNERSHIP: every allocated path is, at each
    moment, listed in the bond, or held by exactly one thread that still has to
    dispose of it, or finished.  `ownership` states it as one conservation law;
    everything done to a path is then done by its one owner, in order
    (`trails`), and a sweep that is over has left nothing listed
    (`sealed_sweep`). -/

namespace VkTurnDisposal

open ThreadPool VkTurnStripe VkTurnBond

/-! ## Owners -/

/-- The path a `startEmptyGrace` caller is disposing of. -/
def graceOwner : GraceCaller → Option PathRef
  | .removed p _ => some p
  | _ => none

/-- The path a thread has to list or to dispose of, and nobody else will. -/
def owner : Pc → Option PathRef
  | .addLock p => some p
  | .addTest p => some p
  | .closeConn p => some p
  | .closeCleanup p => some p
  | .closeDone p => some p
  | .rmCount p _ => some p
  | .rmNotify p _ => some p
  | .rmClose p _ => some p
  | .rmCleanup p _ => some p
  | .rmDone p _ => some p
  | .graceLock g => graceOwner g
  | .graceArm g => graceOwner g
  | _ => none

/-- One when the thread owns the path. -/
def held (p : PathRef) (t : Pc) : Nat := (owner t).toList.count p

theorem held_resume (p : PathRef) (k : Caller) : held p k.resume = 0 := by
  cases k <;> rfl

theorem held_grace_resume (p : PathRef) (g : GraceCaller) :
    held p g.resume = (graceOwner g).toList.count p := by
  cases g <;> rfl

theorem held_eq_one {p : PathRef} {t : Pc} (h : owner t = some p) :
    held p t = 1 := by
  rw [held, h]
  exact List.count_singleton_self

/-- One when the path was ever allocated. -/
def allocated (p : PathRef) (σ : Shared) : Nat := if p < σ.heap.length then 1 else 0

/-- How often the path is listed or finished. -/
def settled (p : PathRef) (σ : Shared) : Nat :=
  σ.bond.paths.count p + σ.log.count (.doneClosed p)

/-- The law of ownership, for one path. -/
def Owned (p : PathRef) (s : Bond) : Prop :=
  settled p s.shared + load (held p) s.threads = allocated p s.shared

theorem allocated_le (p : PathRef) (σ : Shared) : allocated p σ ≤ 1 := by
  rw [allocated]
  split <;> omega

/-- Only an allocated path is listed, owned or finished. -/
theorem Owned.lt {p : PathRef} {s : Bond} (h : Owned p s)
    (hpos : 0 < settled p s.shared + load (held p) s.threads) :
    p < s.shared.heap.length := by
  by_contra hge
  rw [Owned, allocated, if_neg hge] at h
  omega

/-- Recording anything but the end of a disposal settles nothing. -/
theorem settled_log (p : PathRef) {σ σ' : Shared} {es : List Event}
    (hl : σ'.log = σ.log ++ es) (hp : σ'.bond.paths = σ.bond.paths)
    (hes : .doneClosed p ∉ es) : settled p σ' = settled p σ := by
  rw [settled, settled, hp, hl, List.count_append, List.count_eq_zero_of_not_mem hes,
    Nat.add_zero]

theorem count_doneClosed (p q : PathRef) :
    [Event.doneClosed q].count (.doneClosed p) = [q].count p := by
  by_cases hq : q = p
  · rw [hq, List.count_singleton_self, List.count_singleton_self]
  · rw [List.count_eq_zero_of_not_mem (by simpa using fun e => hq e.symm),
      List.count_eq_zero_of_not_mem (by simpa using fun e => hq e.symm)]

/-- A path is cleaned up with one call, or it has none. -/
theorem cleanupEvents_cases (σ : Shared) (p : PathRef) :
    (σ.hasCleanup p = true ∧ σ.cleanupEvents p = [.cleanedUp p]) ∨
      (σ.hasCleanup p = false ∧ σ.cleanupEvents p = []) := by
  rw [Shared.cleanupEvents]
  cases σ.hasCleanup p with
  | true => exact Or.inl ⟨rfl, rfl⟩
  | false => exact Or.inr ⟨rfl, rfl⟩

theorem doneClosed_not_mem_cleanup (σ : Shared) (p q : PathRef) :
    .doneClosed p ∉ σ.cleanupEvents q := by
  rcases cleanupEvents_cases σ q with ⟨-, hc⟩ | ⟨-, hc⟩ <;> simp [hc]

/-- A section moves a path between list, owner and finish, and loses none. -/
theorem moves_conserve {arch : Arch} {i : Nat} {σ σ' : Shared} {t t' : Pc}
    {new : List Pc} (h : Moves arch i σ t σ' t' new) (p : PathRef) :
    settled p σ' + held p t' + load (held p) new = settled p σ + held p t := by
  have hlog := h.log_eq
  cases h with
  | addAppended q _ =>
      show (σ.bond.paths ++ [q]).count p + (σ.log ++ [Event.appended q]).count _
          + 0 + 0 = settled p σ + [q].count p
      rw [settled, List.count_append, List.count_append,
        List.count_eq_zero_of_not_mem (l := [Event.appended q]) (by simp)]
      omega
  | unlinked q k _ hmem =>
      have hpos : 0 < σ.bond.paths.count q := List.count_pos_iff.mpr hmem
      show (σ.bond.paths.erase q).count p + σ.log.count _ + [q].count p + 0
        = settled p σ + 0
      rw [settled]
      by_cases hq : q = p
      · subst hq
        rw [List.count_erase_self, List.count_singleton_self]
        omega
      · rw [List.count_erase_of_ne (fun e => hq e.symm),
          List.count_eq_zero_of_not_mem (l := [q]) (by simpa using fun e => hq e.symm)]
  | refusedDone q =>
      show σ.bond.paths.count p + (σ.log ++ [Event.doneClosed q]).count _ + 0 + 0
        = settled p σ + [q].count p
      rw [settled, List.count_append, count_doneClosed]
      omega
  | rmFinished q k =>
      rw [held_resume]
      show σ.bond.paths.count p + (σ.log ++ [Event.doneClosed q]).count _ + 0 + 0
        = settled p σ + [q].count p
      rw [settled, List.count_append, count_doneClosed]
      omega
  | notListed q k _ _ => rw [held_resume]; rfl
  | graceSkipped g _ _ => rw [held_grace_resume]; rfl
  | graceArmed g => rw [held_grace_resume]; rfl
  | refusedConn q =>
      rw [settled_log p hlog rfl (by simp [emits])]; rfl
  | rmClosed q k =>
      rw [settled_log p hlog rfl (by simp [emits])]; rfl
  | refusedCleanup q =>
      rw [settled_log p hlog rfl (doneClosed_not_mem_cleanup σ p q)]; rfl
  | rmCleaned q k =>
      rw [settled_log p hlog rfl (doneClosed_not_mem_cleanup σ p q)]; rfl
  | _ => rfl

theorem held_entry (p : PathRef) {t : Pc} (h : t.entry = true) : held p t = 0 := by
  cases t <;> first | rfl | cases h

/-- **OWNERSHIP**: in every state of every interleaving, an allocated path is
    listed, or owned by one thread, or finished, and only one of these, once. -/
theorem ownership {arch : Arch} {s : Bond} (h : BondReach arch s) (p : PathRef) :
    Owned p s := by
  refine Machine.reach_conserves (M := bondMachine arch) (settled p) (held p)
    (allocated p) rfl ?_ ?_ h
  · intro i σ t a σ' t' new he
    have hm := exec_moves he
    have := moves_conserve hm p
    rw [allocated, allocated, hm.heap_eq]
    omega
  · intro σ e σ' new he
    have hf := outside_frame he
    have hset : settled p σ' = settled p σ := by
      rw [settled, settled, hf.paths, hf.log]
    rw [hset]
    rcases outside_new he with ⟨hheap, hnew⟩ | ⟨path, hheap, hnew⟩
    · have hz : load (held p) new = 0 :=
        load_eq_zero fun t ht => held_entry p (hnew t ht)
      rw [hz, allocated, allocated, hheap]
      omega
    · subst hnew
      have hz : load (held p) [.addLock σ.heap.length]
          = [σ.heap.length].count p := rfl
      rw [hz, allocated, allocated, hheap, List.length_append, List.length_singleton,
        issued_succ]
      omega

/-- What has one owner has no other, is not listed and is not finished. -/
theorem owner_unique {s : Bond} {p : PathRef} (h : Owned p s) {i : Nat} {t : Pc}
    (ht : s.threads[i]? = some t) (ho : owner t = some p) :
    p ∉ s.shared.bond.paths ∧ Event.doneClosed p ∉ s.shared.log ∧
      p < s.shared.heap.length ∧
      ∀ j u, j ≠ i → s.threads[j]? = some u → owner u ≠ some p := by
  have h1 := le_load (held p) ht
  rw [held_eq_one ho] at h1
  have hal := allocated_le p s.shared
  have hlt := h.lt (by omega)
  rw [Owned, settled] at h
  refine ⟨?_, ?_, hlt, ?_⟩
  · intro hmem
    have := List.count_pos_iff.mpr hmem
    omega
  · intro hmem
    have := List.count_pos_iff.mpr hmem
    omega
  · intro j u hj hu hou
    have := add_le_load (held p) hj hu ht
    rw [held_eq_one ho, held_eq_one hou] at this
    omega

/-- An allocated path is finished, or listed, or some goroutine has it. -/
theorem finished_or_held {arch : Arch} {s : Bond} (h : BondReach arch s) {p : PathRef}
    (hp : p < s.shared.heap.length) : .doneClosed p ∈ s.shared.log ∨
      p ∈ s.shared.bond.paths ∨ ∃ (i : Nat) (t : Pc), s.threads[i]? = some t ∧
        owner t = some p := by
  have hown := ownership h p
  rw [Owned, settled, allocated, if_pos hp] at hown
  by_cases hd : Event.doneClosed p ∈ s.shared.log
  · exact Or.inl hd
  · by_cases hl : p ∈ s.shared.bond.paths
    · exact Or.inr (Or.inl hl)
    · rw [List.count_eq_zero_of_not_mem hd, List.count_eq_zero_of_not_mem hl] at hown
      obtain ⟨i, t, ht, hheld⟩ :=
        exists_of_load_pos (show 0 < load (held p) s.threads by omega)
      exact Or.inr (Or.inr ⟨i, t, ht, Option.mem_toList.mp (List.count_pos_iff.mp hheld)⟩)

/-! ## Trails -/

/-- The event is part of the path's disposal. -/
def disposes (p : PathRef) : Event → Bool
  | .appended _ => false
  | .connClosed q => q = p
  | .cleanedUp q => q = p
  | .doneClosed q => q = p

/-- What has been done to dispose of a path, in order. -/
def trail (log : List Event) (p : PathRef) : List Event := log.filter (disposes p)

/-- A whole disposal: `conn.Close`, then the cleanup, then `close(done)`. -/
def disposal (σ : Shared) (p : PathRef) : List Event :=
  [.connClosed p] ++ σ.cleanupEvents p ++ [.doneClosed p]

/-- What the owner of a path has done so far. -/
def due (σ : Shared) : Pc → List Event
  | .closeCleanup p => [.connClosed p]
  | .rmCleanup p _ => [.connClosed p]
  | .closeDone p => [.connClosed p] ++ σ.cleanupEvents p
  | .rmDone p _ => [.connClosed p] ++ σ.cleanupEvents p
  | _ => []

theorem trail_append (log es : List Event) (p : PathRef) :
    trail (log ++ es) p = trail log p ++ es.filter (disposes p) :=
  List.filter_append ..

theorem cleanup_filter (σ : Shared) (p : PathRef) :
    (σ.cleanupEvents p).filter (disposes p) = σ.cleanupEvents p := by
  rcases cleanupEvents_cases σ p with ⟨-, hc⟩ | ⟨-, hc⟩ <;> simp [hc, disposes]

/-- Only the owner of a path records anything of its disposal. -/
theorem emits_owner {σ : Shared} {t : Pc} {e : Event} {p : PathRef}
    (he : e ∈ emits σ t) (hd : disposes p e = true) : owner t = some p := by
  have hcl : ∀ q, e ∈ σ.cleanupEvents q → q = p := by
    intro q hq
    rcases cleanupEvents_cases σ q with ⟨-, hc⟩ | ⟨-, hc⟩ <;> rw [hc] at hq
    · rw [List.mem_singleton.mp hq] at hd
      exact of_decide_eq_true hd
    · cases hq
  cases t with
  | addTest q =>
      simp only [emits] at he
      split at he
      · cases he
      · rw [List.mem_singleton.mp he] at hd
        cases hd
  | closeConn q =>
      rw [List.mem_singleton.mp he] at hd
      exact congrArg some (of_decide_eq_true hd)
  | rmClose q k =>
      rw [List.mem_singleton.mp he] at hd
      exact congrArg some (of_decide_eq_true hd)
  | closeCleanup q => exact congrArg some (hcl q he)
  | rmCleanup q k => exact congrArg some (hcl q he)
  | closeDone q =>
      rw [List.mem_singleton.mp he] at hd
      exact congrArg some (of_decide_eq_true hd)
  | rmDone q k =>
      rw [List.mem_singleton.mp he] at hd
      exact congrArg some (of_decide_eq_true hd)
  | _ => cases he

/-- A section of somebody else adds nothing to a path's trail. -/
theorem emits_filter_of_not_owner {σ : Shared} {t : Pc} {p : PathRef}
    (h : owner t ≠ some p) : (emits σ t).filter (disposes p) = [] := by
  refine List.filter_eq_nil_iff.mpr ?_
  intro e he hd
  exact h (emits_owner he hd)

section Step

variable {arch : Arch} {i : Nat} {σ σ' : Shared} {t t' : Pc} {new : List Pc}
  {p : PathRef}

/-- What the owner does next extends the trail by what is due next. -/
theorem due_step (h : Moves arch i σ t σ' t' new) (ho : owner t = some p)
    (ho' : owner t' = some p) :
    due σ' t' = due σ t ++ (emits σ t).filter (disposes p) := by
  cases h with
  | addExpired q hx => simp [due, emits, hx]
  | refusedConn q =>
      obtain rfl : q = p := Option.some.inj ho
      simp [due, emits, disposes]
  | rmClosed q k =>
      obtain rfl : q = p := Option.some.inj ho
      simp [due, emits, disposes]
  | refusedCleanup q =>
      obtain rfl : q = p := Option.some.inj ho
      exact congrArg ([Event.connClosed q] ++ ·) (cleanup_filter σ q).symm
  | rmCleaned q k =>
      obtain rfl : q = p := Option.some.inj ho
      exact congrArg ([Event.connClosed q] ++ ·) (cleanup_filter σ q).symm
  | rmFinished q k => cases k <;> cases ho'
  | graceSkipped g _ _ => cases g <;> rfl
  | graceArmed g => cases g <;> rfl
  | addAppended q _ => cases ho'
  | refusedDone q => cases ho'
  | _ => first | rfl | cases ho

/-- A thread comes to own a path by unlinking it. -/
theorem owner_new (h : Moves arch i σ t σ' t' new) (ho : owner t ≠ some p)
    (ho' : owner t' = some p) :
    p ∈ σ.bond.paths ∧ due σ' t' = [] := by
  cases h with
  | unlinked q k _ hmem =>
      obtain rfl : q = p := Option.some.inj ho'
      exact ⟨hmem, rfl⟩
  | notListed q k _ _ => cases k <;> cases ho'
  | rmFinished q k => cases k <;> cases ho'
  | graceSkipped g _ _ => cases g <;> exact absurd ho' ho
  | graceArmed g => cases g <;> exact absurd ho' ho
  | _ => first | exact absurd ho' ho | cases ho'

/-- The last thing the owner does completes the disposal. -/
theorem due_finish (h : Moves arch i σ t σ' t' new)
    (hd : Event.doneClosed p ∈ emits σ t) :
    owner t = some p ∧
      disposal σ p = due σ t ++ (emits σ t).filter (disposes p) := by
  have ho : owner t = some p := emits_owner hd (by simp [disposes])
  refine ⟨ho, ?_⟩
  cases h with
  | refusedDone q =>
      obtain rfl : q = p := Option.some.inj ho
      simp [disposal, due, emits, disposes]
  | rmFinished q k =>
      obtain rfl : q = p := Option.some.inj ho
      simp [disposal, due, emits, disposes]
  | addAppended q hx => simp [emits, hx] at hd
  | addExpired q hx => simp [emits, hx] at hd
  | refusedConn q => simp [emits] at hd
  | rmClosed q k => simp [emits] at hd
  | refusedCleanup q => exact absurd hd (doneClosed_not_mem_cleanup σ p q)
  | rmCleaned q k => exact absurd hd (doneClosed_not_mem_cleanup σ p q)
  | _ => cases hd

end Step

/-- Listed and unallocated paths are untouched, finished ones disposed of. -/
def Tidy (σ : Shared) : Prop :=
  ∀ p, (p ∈ σ.bond.paths → trail σ.log p = []) ∧
    (σ.heap.length ≤ p → trail σ.log p = []) ∧
    (Event.doneClosed p ∈ σ.log → trail σ.log p = disposal σ p)

/-- The owner has done what is due, and nobody has done more. -/
def OnTrail (_ : Nat) (σ : Shared) (t : Pc) : Prop :=
  ∀ p, owner t = some p → trail σ.log p = due σ t

theorem hasCleanup_append {σ σ' : Shared} {path : BondedPath} {p : PathRef}
    (h : σ'.heap = σ.heap ++ [path]) (hp : p < σ.heap.length) :
    σ'.hasCleanup p = σ.hasCleanup p := by
  rw [Shared.hasCleanup, Shared.hasCleanup, h, List.getElem?_append_left hp]

theorem due_congr {σ σ' : Shared} {t : Pc} {p : PathRef} (ho : owner t = some p)
    (h : σ'.hasCleanup p = σ.hasCleanup p) : due σ' t = due σ t := by
  cases t with
  | closeDone q =>
      obtain rfl : q = p := Option.some.inj ho
      simp only [due, Shared.cleanupEvents, h]
  | rmDone q k =>
      obtain rfl : q = p := Option.some.inj ho
      simp only [due, Shared.cleanupEvents, h]
  | _ => rfl

theorem disposal_congr {σ σ' : Shared} {p : PathRef}
    (h : σ'.hasCleanup p = σ.hasCleanup p) : disposal σ' p = disposal σ p := by
  simp only [disposal, Shared.cleanupEvents, h]

/-- One section keeps the books of the path it works on. -/
theorem tidy_step {arch : Arch} {s : Bond} {i : Nat} {t t' : Pc} {σ' : Shared}
    {new : List Pc} (hJ : ∀ p, Owned p s) (ht : s.threads[i]? = some t)
    (h : Moves arch i s.shared t σ' t' new) (hI : Tidy s.shared)
    (hL : OnTrail i s.shared t) : Tidy σ' ∧ OnTrail i σ' t' := by
  have hclean : ∀ p, σ'.hasCleanup p = s.shared.hasCleanup p := by
    intro p
    rw [Shared.hasCleanup, Shared.hasCleanup, h.heap_eq]
  refine ⟨?_, ?_⟩
  · intro p
    rw [h.log_eq, h.heap_eq, trail_append, disposal_congr (hclean p)]
    by_cases ho : owner t = some p
    · obtain ⟨hnl, hnd, hlt, -⟩ := owner_unique (hJ p) ht ho
      refine ⟨?_, fun hle => absurd hlt (Nat.not_lt.mpr hle), ?_⟩
      · intro hmem
        rcases h.paths_sub with hsub | ⟨q, rfl, -, hpaths⟩
        · exact absurd (hsub p hmem) hnl
        · -- the owner lists its path: nothing has been done to it
          obtain rfl : q = p := Option.some.inj ho
          rw [hL q ho]
          simp only [due, emits, List.nil_append]
          split <;> simp [disposes]
      · intro hd
        rcases List.mem_append.mp hd with hold | hnew
        · exact absurd hold hnd
        · rw [hL p ho]
          exact (due_finish h hnew).2.symm
    · rw [emits_filter_of_not_owner ho, List.append_nil]
      refine ⟨?_, (hI p).2.1, ?_⟩
      · intro hmem
        rcases h.paths_sub with hsub | ⟨q, rfl, -, hpaths⟩
        · exact (hI p).1 (hsub p hmem)
        · rw [hpaths] at hmem
          rcases List.mem_append.mp hmem with hold | hq
          · exact (hI p).1 hold
          · exact absurd (congrArg some (List.mem_singleton.mp hq).symm) ho
      · intro hd
        rcases List.mem_append.mp hd with hold | hnew
        · exact (hI p).2.2 hold
        · exact absurd (due_finish h hnew).1 ho
  · intro p ho'
    rw [h.log_eq, trail_append]
    by_cases ho : owner t = some p
    · rw [hL p ho, due_step h ho ho']
    · obtain ⟨hmem, hdue⟩ := owner_new h ho ho'
      rw [emits_filter_of_not_owner ho, (hI p).1 hmem, hdue]
      rfl

/-- **TRAILS**: under every interleaving a path's disposal is exactly as far as
    its owner is. -/
theorem trails {arch : Arch} {s : Bond} (h : BondReach arch s) :
    Annotated Tidy OnTrail s := by
  refine Machine.owickiGries (M := bondMachine arch)
    (J := fun s => ∀ p, Owned p s) (fun s hs p => ownership hs p) Tidy OnTrail
    ?_ ?_ ?_ ?_ h
  · refine ⟨fun p => ⟨fun _ => rfl, fun _ => rfl, fun hd => (by cases hd)⟩, ?_⟩
    intro i t ht
    cases ht
  · intro s i t a σ' t' new hJ ht _ he hI hL
    have hm := exec_moves he
    obtain ⟨hI', hL'⟩ := tidy_step hJ ht hm hI hL
    refine ⟨hI', hL', ?_⟩
    intro n u hu p ho
    -- the only thread a section starts is a read loop, which owns nothing
    cases hm with
    | addSpawned q =>
        rw [List.mem_singleton.mp hu] at ho
        cases ho
    | _ => cases hu
  · intro s i j t u a σ' t' new hJ hij ht hu he _ _ hLj p ho
    have hm := exec_moves he
    have hne : owner t ≠ some p := by
      intro hot
      exact (owner_unique (hJ p) ht hot).2.2.2 j u (fun e => hij e.symm) hu ho
    have hclean : σ'.hasCleanup p = s.shared.hasCleanup p := by
      rw [Shared.hasCleanup, Shared.hasCleanup, hm.heap_eq]
    rw [hm.log_eq, trail_append, emits_filter_of_not_owner hne, List.append_nil,
      due_congr ho hclean]
    exact hLj p ho
  · intro s e σ' new hJ _ he hI
    have hf := outside_frame he
    have hclean : ∀ p, p < s.shared.heap.length →
        σ'.hasCleanup p = s.shared.hasCleanup p := by
      intro p hp
      rcases outside_new he with ⟨hheap, -⟩ | ⟨path, hheap, -⟩
      · rw [Shared.hasCleanup, Shared.hasCleanup, hheap]
      · exact hasCleanup_append hheap hp
    have hlen : s.shared.heap.length ≤ σ'.heap.length := by
      rcases outside_new he with ⟨hheap, -⟩ | ⟨path, hheap, -⟩
      · rw [hheap]
      · rw [hheap, List.length_append]
        exact Nat.le_add_right _ _
    refine ⟨?_, ?_, ?_⟩
    · intro p
      rw [hf.paths, hf.log]
      refine ⟨(hI p).1, fun hle => (hI p).2.1 (Nat.le_trans hlen hle), ?_⟩
      intro hd
      have hpos := List.count_pos_iff.mpr hd
      have hlt : p < s.shared.heap.length := (hJ p).lt (by rw [settled]; omega)
      rw [(hI p).2.2 hd, disposal_congr (hclean p hlt)]
    · intro n u hu p ho
      rw [hf.log]
      rcases outside_new he with ⟨-, hent⟩ | ⟨path, -, hnew⟩
      · have := held_entry p (hent u hu)
        rw [held_eq_one ho] at this
        cases this
      · subst hnew
        rw [List.mem_singleton.mp hu] at ho ⊢
        obtain rfl : s.shared.heap.length = p := Option.some.inj ho
        exact (hI _).2.1 (Nat.le_refl _)
    · intro j u hu hL p ho
      have hlt := (owner_unique (hJ p) hu ho).2.2.1
      rw [hf.log, due_congr ho (hclean p hlt)]
      exact hL p ho

/-! ## The sweep of `Close` -/

/-- What a sweep still has to remove. -/
def callerLeft : Caller → Option (List PathRef)
  | .close rest => some rest
  | _ => none

/-- What the sweep that a thread is part of still has to remove. -/
def sweepLeft : Pc → Option (List PathRef)
  | .clSweep rest => some rest
  | .rmLock p k => (callerLeft k).map (p :: ·)
  | .rmCount _ k => callerLeft k
  | .rmNotify _ k => callerLeft k
  | .rmClose _ k => callerLeft k
  | .rmCleanup _ k => callerLeft k
  | .rmDone _ k => callerLeft k
  | .graceLock (.removed _ k) => callerLeft k
  | .graceArm (.removed _ k) => callerLeft k
  | _ => none

theorem sweepLeft_resume (k : Caller) : sweepLeft k.resume = callerLeft k := by
  cases k <;> rfl

theorem sweepLeft_grace_resume (g : GraceCaller) :
    sweepLeft g.resume = sweepLeft (.graceLock g) ∧
      sweepLeft g.resume = sweepLeft (.graceArm g) := by
  cases g <;> exact ⟨rfl, rfl⟩

/-- Once `Close` has left its timer section the bond is closed, and once it is
    over nothing is listed. -/
structure Sealed (σ : Shared) : Prop where
  closed : σ.stopped = true → σ.bond.closed = true
  empty : σ.bond.closeOnce = .finished → σ.stopped = true ∧ σ.bond.paths = []

/-- What a thread may rely on: its mutex, that no `Close` overtakes an
    `AddConn` between its look at `closed` and its append, and that a sweep
    still has every listed path before it. -/
structure Guarded (i : Nat) (σ : Shared) (t : Pc) : Prop where
  mutex : t.locks = true → σ.mu = some i
  adding : ∀ p, t = .addTest p → σ.stopped = false
  chan : t = .clTimer → σ.bond.closed = true
  stop : t = .clNotify ∨ t = .clSnapshot → σ.stopped = true
  sweep : ∀ rest, sweepLeft t = some rest →
    σ.stopped = true ∧ ∀ p ∈ σ.bond.paths, p ∈ rest
  finish : t = .returned .closed → σ.bond.closeOnce = .finished

section Sweep

variable {arch : Arch} {i : Nat} {σ σ' : Shared} {t t' : Pc} {new : List Pc}

/-- A sealed bond lists nothing new. -/
theorem paths_shrink (h : Moves arch i σ t σ' t' new) (hL : Guarded i σ t)
    (hs : σ.stopped = true) : ∀ q ∈ σ'.bond.paths, q ∈ σ.bond.paths := by
  rcases h.paths_sub with hsub | ⟨p, ht, -, -⟩
  · exact hsub
  · exact absurd ((hL.adding p ht).symm.trans hs) Bool.false_ne_true

theorem sealed_step (h : Moves arch i σ t σ' t' new) (hI : Sealed σ)
    (hL : Guarded i σ t) : Sealed σ' where
  closed := by
    intro hs'
    cases hs : σ.stopped with
    | true => exact h.closed_mono (hI.closed hs)
    | false => exact h.closed_mono (hL.chan (h.stopped_new hs hs').1)
  empty := by
    intro hf'
    by_cases hf : σ.bond.closeOnce = .finished
    · obtain ⟨hs, hnil⟩ := hI.empty hf
      exact ⟨h.stopped_mono hs, List.subset_nil.mp (hnil ▸ paths_shrink h hL hs)⟩
    · obtain ⟨rfl, hpaths⟩ := h.finished_new hf hf'
      obtain ⟨hs, hsub⟩ := hL.sweep [] rfl
      refine ⟨h.stopped_mono hs, ?_⟩
      rw [hpaths]
      exact List.subset_nil.mp hsub

/-- A sweep's next step leaves what is listed before it. -/
theorem sweep_step (h : Moves arch i σ t σ' t' new) (hL : Guarded i σ t)
    (hnodup : σ.bond.paths.Nodup) (rest : List PathRef)
    (hr : sweepLeft t' = some rest) :
    σ'.stopped = true ∧ ∀ p ∈ σ'.bond.paths, p ∈ rest := by
  have keep : sweepLeft t = some rest →
      σ'.stopped = true ∧ ∀ p ∈ σ'.bond.paths, p ∈ rest := by
    intro hl
    obtain ⟨hs, hsub⟩ := hL.sweep rest hl
    exact ⟨h.stopped_mono hs, fun p hp => hsub p (paths_shrink h hL hs p hp)⟩
  cases h with
  | sweepTaken _ =>
      obtain rfl : σ.bond.paths = rest := Option.some.inj hr
      exact ⟨hL.stop (Or.inr rfl), fun p hp => hp⟩
  | unlinked p k _ hmem =>
      obtain ⟨hs, hsub⟩ := hL.sweep (p :: rest) (by
        show (callerLeft k).map (p :: ·) = some (p :: rest)
        rw [show callerLeft k = some rest from hr]
        rfl)
      refine ⟨hs, ?_⟩
      intro q hq
      -- one occurrence was erased and there was only one
      have hne : q ≠ p := by
        rintro rfl
        exact hnodup.not_mem_erase hq
      rcases List.mem_cons.mp (hsub q (List.mem_of_mem_erase hq)) with he | hin
      · exact absurd he hne
      · exact hin
  | notListed p k _ hmem =>
      rw [sweepLeft_resume] at hr
      obtain ⟨hs, hsub⟩ := hL.sweep (p :: rest) (by
        show (callerLeft k).map (p :: ·) = some (p :: rest)
        rw [hr]
        rfl)
      refine ⟨hs, ?_⟩
      intro q hq
      rcases List.mem_cons.mp (hsub q hq) with he | hin
      · exact absurd (he ▸ hq) hmem
      · exact hin
  | rmFinished p k => exact keep ((sweepLeft_resume k).symm.trans hr)
  | graceSkipped g _ _ => exact keep ((sweepLeft_grace_resume g).1.symm.trans hr)
  | graceArmed g => exact keep ((sweepLeft_grace_resume g).2.symm.trans hr)
  | graceLocked g _ _ _ => cases g <;> exact keep hr
  | _ => first | exact keep hr | cases hr

theorem guarded_step (h : Moves arch i σ t σ' t' new) (hI : Sealed σ)
    (hL : Guarded i σ t) (hnodup : σ.bond.paths.Nodup) : Guarded i σ' t' where
  mutex := h.mu_taken
  adding := by
    intro p ht
    obtain ⟨hc, hstop⟩ := h.arrives.1 p ht
    rw [hstop]
    by_contra hs
    have := hI.closed (Bool.eq_true_of_not_eq_false hs)
    exact absurd (hc.symm.trans this) Bool.false_ne_true
  chan := h.arrives.2.1
  stop := by
    rintro (ht | ht)
    · exact h.arrives.2.2.1 ht
    · obtain ⟨hfrom, hstop⟩ := h.arrives.2.2.2.1 ht
      rw [hstop]
      exact hL.stop (Or.inl hfrom)
  sweep := sweep_step h hL hnodup
  finish := h.arrives.2.2.2.2

/-- Somebody else's section keeps what a thread relies on. -/
theorem guarded_stable (h : Moves arch i σ t σ' t' new) (hL : Guarded i σ t)
    {j : Nat} {u : Pc} (hij : i ≠ j) (hu : Guarded j σ u) : Guarded j σ' u where
  mutex := fun hl => h.mu_frame hL.mutex hij (hu.mutex hl)
  adding := by
    rintro p rfl
    by_contra hs
    obtain ⟨-, hmu⟩ := h.stopped_new (hu.adding p rfl)
      (Bool.eq_true_of_not_eq_false hs)
    -- `Close` stops the timer under the mutex, which the adding thread holds
    exact absurd (hmu.symm.trans (hu.mutex rfl)) (Option.some_ne_none j).symm
  chan := fun ht => h.closed_mono (hu.chan ht)
  stop := fun ht => h.stopped_mono (hu.stop ht)
  sweep := by
    intro rest hr
    obtain ⟨hs, hsub⟩ := hu.sweep rest hr
    exact ⟨h.stopped_mono hs, fun p hp => hsub p (paths_shrink h hL hs p hp)⟩
  finish := fun ht => h.finished_mono (hu.finish ht)

end Sweep

/-- A thread that has just been started relies on nothing. -/
theorem guarded_fresh {i : Nat} {σ : Shared} {t : Pc}
    (h : t.entry = true ∨ (∃ p, t = .addLock p) ∨ ∃ p, t = .reading p) :
    Guarded i σ t := by
  have hne : t.locks = false ∧ (∀ p, t ≠ .addTest p) ∧ t ≠ .clTimer ∧
      t ≠ .clNotify ∧ t ≠ .clSnapshot ∧ sweepLeft t = none ∧
      t ≠ .returned .closed := by
    rcases h with h | ⟨p, rfl⟩ | ⟨p, rfl⟩
    · unfold Pc.entry at h
      split at h <;> first | (cases h; done) | simp [Pc.locks, sweepLeft]
    · simp [Pc.locks, sweepLeft]
    · simp [Pc.locks, sweepLeft]
  obtain ⟨h1, h2, h3, h4, h5, h6, h7⟩ := hne
  refine ⟨?_, ?_, ?_, ?_, ?_, ?_⟩
  · intro hl; exact absurd (h1.symm.trans hl) Bool.false_ne_true
  · intro p hp; exact absurd hp (h2 p)
  · intro ht; exact absurd ht h3
  · rintro (ht | ht)
    · exact absurd ht h4
    · exact absurd ht h5
  · intro rest hr; rw [h6] at hr; cases hr
  · intro ht; exact absurd ht h7

/-- No path is listed twice. -/
theorem paths_nodup {arch : Arch} {s : Bond} (h : BondReach arch s) :
    s.shared.bond.paths.Nodup := by
  refine List.nodup_iff_count_le_one.mpr ?_
  intro p
  have hown := ownership h p
  have hal := allocated_le p s.shared
  rw [Owned, settled] at hown
  omega

/-- A listed path was allocated. -/
theorem listed_allocated {arch : Arch} {s : Bond} (h : BondReach arch s) {p : PathRef}
    (hp : p ∈ s.shared.bond.paths) : p < s.shared.heap.length := by
  have hpos := List.count_pos_iff.mpr hp
  exact (ownership h p).lt (by rw [settled]; omega)

/-- **SEALED SWEEP**: under every interleaving no path joins a bond whose
    `Close` has left its timer section, and a finished `Close` has left none. -/
theorem sealed_sweep {arch : Arch} {s : Bond} (h : BondReach arch s) :
    Annotated Sealed Guarded s := by
  refine Machine.owickiGries (M := bondMachine arch)
    (J := fun s => s.shared.bond.paths.Nodup) (fun s hs => paths_nodup hs)
    Sealed Guarded ?_ ?_ ?_ ?_ h
  · exact ⟨⟨fun hs => (by cases hs), fun hf => (by cases hf)⟩, fun i t ht => (by cases ht)⟩
  · intro s i t a σ' t' new hJ _ _ he hI hL
    have hm := exec_moves he
    refine ⟨sealed_step hm hI hL, guarded_step hm hI hL hJ, ?_⟩
    intro n u hu
    cases hm with
    | addSpawned p => exact guarded_fresh (Or.inr (Or.inr ⟨p, List.mem_singleton.mp hu⟩))
    | _ => cases hu
  · intro s i j t u a σ' t' new _ hij _ _ he _ hL hLj
    exact guarded_stable (exec_moves he) hL hij hLj
  · intro s e σ' new _ _ he hI
    have hf := outside_frame he
    refine ⟨⟨?_, ?_⟩, ?_, ?_⟩
    · rw [hf.stopped, hf.closed]; exact hI.closed
    · rw [hf.closeOnce, hf.stopped, hf.paths]; exact hI.empty
    · intro n u hu
      rcases outside_new he with ⟨-, hent⟩ | ⟨path, -, hnew⟩
      · exact guarded_fresh (Or.inl (hent u hu))
      · subst hnew
        exact guarded_fresh (Or.inr (Or.inl ⟨_, List.mem_singleton.mp hu⟩))
    · intro j u _ hL
      exact ⟨by rw [hf.mu]; exact hL.mutex, by rw [hf.stopped]; exact hL.adding,
        by rw [hf.closed]; exact hL.chan, by rw [hf.stopped]; exact hL.stop,
        by rw [hf.stopped, hf.paths]; exact hL.sweep,
        by rw [hf.closeOnce]; exact hL.finish⟩

/-! ## Exactly once -/

/-- The thread is inside `AddConn`, `removePath` or `closePath`. -/
def inCall : Pc → Bool
  | .addLock _ => true
  | .addTest _ => true
  | .addNotify _ => true
  | .addSpawn _ => true
  | .closeConn _ => true
  | .closeCleanup _ => true
  | .closeDone _ => true
  | .rmLock _ _ => true
  | .rmCount _ _ => true
  | .rmNotify _ _ => true
  | .rmClose _ _ => true
  | .rmCleanup _ _ => true
  | .rmDone _ _ => true
  | .graceLock (.removed _ _) => true
  | .graceArm (.removed _ _) => true
  | _ => false

/-- Only those calls own paths. -/
theorem inCall_of_owner {t : Pc} {p : PathRef} (h : owner t = some p) :
    inCall t = true := by
  cases t with
  | graceLock g => cases g <;> first | rfl | cases h
  | graceArm g => cases g <;> first | rfl | cases h
  | _ => first | rfl | cases h

/-- A trail of a whole disposal has each of its events once. -/
theorem count_of_trail {log : List Event} {p : PathRef} {e : Event}
    (he : disposes p e = true) : log.count e = (trail log p).count e :=
  (List.count_filter he).symm

/-- A disposal is as far as its owner, so its trail never leaves the order. -/
theorem trail_order {arch : Arch} {s : Bond} (h : BondReach arch s) (p : PathRef) :
    trail s.shared.log p <+: disposal s.shared p := by
  obtain ⟨hI, hL⟩ := trails h
  by_cases hfree : trail s.shared.log p = []
  · rw [hfree]; exact List.nil_prefix
  have hlt : p < s.shared.heap.length := by
    by_contra hge
    exact hfree ((hI p).2.1 (Nat.le_of_not_lt hge))
  rcases finished_or_held h hlt with hd | hmem | ⟨i, t, ht, ho⟩
  · rw [(hI p).2.2 hd]
  · exact absurd ((hI p).1 hmem) hfree
  rw [hL i t ht p ho]
  cases t with
  | closeCleanup q =>
      obtain rfl : q = p := Option.some.inj ho
      exact ⟨_, (List.append_assoc ..).symm⟩
  | rmCleanup q k =>
      obtain rfl : q = p := Option.some.inj ho
      exact ⟨_, (List.append_assoc ..).symm⟩
  | closeDone q =>
      obtain rfl : q = p := Option.some.inj ho
      exact ⟨_, rfl⟩
  | rmDone q k =>
      obtain rfl : q = p := Option.some.inj ho
      exact ⟨_, rfl⟩
  | _ => exact List.nil_prefix

theorem disposal_nodup (σ : Shared) (p : PathRef) : (disposal σ p).Nodup := by
  rcases cleanupEvents_cases σ p with ⟨-, hc⟩ | ⟨-, hc⟩ <;> simp [disposal, hc]

/-- A whole disposal closes the conn, and cleans up if it can. -/
theorem count_disposal (σ : Shared) (p : PathRef) :
    (disposal σ p).count (.connClosed p) = 1 ∧
      (disposal σ p).count (.cleanedUp p) = if σ.hasCleanup p then 1 else 0 := by
  rcases cleanupEvents_cases σ p with ⟨hh, hc⟩ | ⟨hh, hc⟩ <;> simp [disposal, hc, hh]

/-- **EXACTLY ONCE**: for every interleaving, each conn passed to `AddConn` has
    its `Close`, its cleanup and the close of its done channel performed at most
    once each and in that order; and when a `Close` of the bond has returned and
    no `AddConn`, `removePath` or `closePath` is in progress, each has been
    performed exactly once (the cleanup if there is one) and nothing is
    listed. -/
theorem paths_disposed_exactly_once (arch : Arch) (s : Bond) (h : BondReach arch s) :
    (∀ p, s.shared.log.count (.connClosed p) ≤ 1 ∧
        s.shared.log.count (.cleanedUp p) ≤ 1 ∧
        s.shared.log.count (.doneClosed p) ≤ 1 ∧
        trail s.shared.log p <+: disposal s.shared p) ∧
      (.returned .closed ∈ s.threads → (∀ t ∈ s.threads, inCall t = false) →
        s.shared.bond.paths = [] ∧
        ∀ p < s.shared.heap.length,
          trail s.shared.log p = disposal s.shared p ∧
          s.shared.log.count (.connClosed p) = 1 ∧
          s.shared.log.count (.cleanedUp p) = (if s.shared.hasCleanup p then 1 else 0) ∧
          s.shared.log.count (.doneClosed p) = 1) := by
  have honce : ∀ p e, disposes p e = true → s.shared.log.count e ≤ 1 := by
    intro p e he
    rw [count_of_trail he]
    have hnd : (trail s.shared.log p).Nodup :=
      (trail_order h p).sublist.nodup (disposal_nodup _ p)
    exact List.nodup_iff_count_le_one.mp hnd e
  refine ⟨?_, ?_⟩
  · intro p
    exact ⟨honce p _ (by simp [disposes]), honce p _ (by simp [disposes]),
      honce p _ (by simp [disposes]), trail_order h p⟩
  · intro hret hquiet
    obtain ⟨hsealed, hguard⟩ := sealed_sweep h
    obtain ⟨i, hi⟩ := List.getElem?_of_mem hret
    have hempty : s.shared.bond.paths = [] :=
      (hsealed.empty ((hguard i _ hi).finish rfl)).2
    refine ⟨hempty, ?_⟩
    intro p hp
    have hfinished : Event.doneClosed p ∈ s.shared.log := by
      rcases finished_or_held h hp with hd | hmem | ⟨j, t, ht, ho⟩
      · exact hd
      · rw [hempty] at hmem
        cases hmem
      · have := inCall_of_owner ho
        exact absurd ((hquiet t (List.mem_of_getElem? ht)).symm.trans this)
          Bool.false_ne_true
    have hdone : s.shared.log.count (.doneClosed p) = 1 :=
      Nat.le_antisymm (honce p _ (by simp [disposes])) (List.count_pos_iff.mpr hfinished)
    have htrail : trail s.shared.log p = disposal s.shared p :=
      ((trails h).1 p).2.2 hfinished
    refine ⟨htrail, ?_, ?_, hdone⟩
    · rw [count_of_trail (p := p) (by simp [disposes]), htrail]
      exact (count_disposal s.shared p).1
    · rw [count_of_trail (p := p) (by simp [disposes]), htrail]
      exact (count_disposal s.shared p).2

/-- One path joins, then `Close` runs to its end with the read loop still in
    `Read`. -/
def joinThenClose : List (Act Choice Op) :=
  .env (.addConn (some 7) true) :: List.replicate 4 (.run 0 .go)
    ++ .env .close :: List.replicate 14 (.run 2 .go)

/-- The path that joined and was swept is finished, each part of it once. -/
theorem joined_path_disposed_once :
    ∃ s : Bond, BondReach .bits64 s ∧ s.shared.heap = [⟨7, true⟩] ∧
      s.shared.bond.paths = [] ∧
      s.shared.log.count (.connClosed 0) = 1 ∧
      s.shared.log.count (.cleanedUp 0) = 1 ∧
      s.shared.log.count (.doneClosed 0) = 1 := by
  obtain ⟨s, hr, hp⟩ := Reach.of_follow (bondStep .bits64) anyStep newBond
    joinThenClose (fun s => decide (s.shared.heap = [⟨7, true⟩] ∧
      .returned .closed ∈ s.threads ∧ ∀ t ∈ s.threads, inCall t = false)) (by decide)
  obtain ⟨hheap, hret, hquiet⟩ := of_decide_eq_true hp
  obtain ⟨hnil, honce⟩ := (paths_disposed_exactly_once .bits64 s hr).2 hret hquiet
  obtain ⟨-, h1, h2, h3⟩ := honce 0 (by rw [hheap]; decide)
  refine ⟨s, hr, hheap, hnil, h1, ?_, h3⟩
  rw [h2, Shared.hasCleanup, hheap]
  rfl

end VkTurnDisposal
