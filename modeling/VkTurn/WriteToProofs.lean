import VkTurn.DisposalProofs

/-! # One packet, at most one path

    `WriteTo` taken alone: the same sections as in the thread pool, run one
    after the other with nobody between them, written as the functions the
    source has.  `writeTo_alone` connects the two: from a free mutex the
    thread-pool `WriteTo`, scheduled alone, does exactly what `writeTo`
    computes.  What `writeTo` computes is said by `writeTo_spec`: it tries the
    snapshot in cyclic order, stops at the first full write, removes the tried
    paths whose error is permanent, and always reports the whole packet. -/

namespace VkTurnWriteTo

open ThreadPool VkTurnStripe VkTurnBond VkTurnDisposal

/-! ## The functions -/

/-- `startEmptyGrace`. -/
def startEmptyGrace (σ : Shared) : Shared :=
  if σ.bond.graceIdle || σ.bond.closed then σ else σ.arm

/-- `removePath`, after the unlinking. -/
def dispose (σ : Shared) (p : PathRef) : Shared :=
  let σ := if σ.bond.count = 0 then startEmptyGrace σ else σ
  ((σ.notify.record (.connClosed p)).runCleanup p).record (.doneClosed p)

/-- `removePath`. -/
def removePath (σ : Shared) (p : PathRef) : Shared :=
  if p ∈ σ.bond.paths then dispose (σ.unlink p) p else σ

/-- How a call ends. -/
inductive Outcome where
  | ret (r : Ret)
  | fell
  | panic
  deriving DecidableEq, Repr

/-- The bond after a call or a loop, the paths tried, and how it ended. -/
structure WriteRun where
  shared : Shared
  tried : List PathRef
  outcome : Outcome
  deriving DecidableEq, Repr

/-- Is the path dead after this write. -/
def permanent (n : Nat) (r : WriteResult) : Bool :=
  match r.failure n with
  | none => false
  | some e => isPermanentPathError e

/-- Did the path take the whole packet. -/
def accepts (n : Nat) (r : WriteResult) : Bool := (r.failure n).isNone

/-- The loop of `WriteTo` over the attempts it still has. -/
def writeLoop (n : Nat) (write : PathRef → WriteResult) :
    Shared → List (Option PathRef) → WriteRun
  | σ, [] => ⟨σ, [], .fell⟩
  | σ, none :: _ => ⟨σ, [], .panic⟩
  | σ, some p :: rest =>
      match (write p).failure n with
      | none => ⟨σ, [p], .ret (.wrote (write p).n)⟩
      | some e =>
          let r := writeLoop n write
            (if isPermanentPathError e then removePath σ p else σ) rest
          ⟨r.shared, p :: r.tried, r.outcome⟩

/-- The end of `WriteTo` when no attempt took the packet. -/
def writeEnd (n : Nat) (r : WriteRun) : WriteRun :=
  match r.outcome with
  | .fell =>
      if r.shared.bond.closed then ⟨r.shared, r.tried, .ret .errClosed⟩
      else if r.shared.bond.count = 0 then
        ⟨startEmptyGrace r.shared, r.tried, .ret (.wrote n)⟩
      else ⟨r.shared, r.tried, .ret (.wrote n)⟩
  | _ => r

/-- `WriteTo` of a packet of `n` bytes, where `write` says what each path's
    `conn.Write` returns. -/
def writeTo (arch : Arch) (σ : Shared) (n : Nat) (write : PathRef → WriteResult) :
    WriteRun :=
  if n = 0 then ⟨σ, [], .ret (.wrote 0)⟩
  else if σ.bond.closed then ⟨σ, [], .ret .errClosed⟩
  else if σ.bond.paths = [] then
    let σ := startEmptyGrace σ
    if σ.bond.closed then ⟨σ, [], .ret .errClosed⟩ else ⟨σ, [], .ret (.wrote n)⟩
  else
    writeEnd n (writeLoop n write
      { σ with bond := { σ.bond with nextPath := σ.bond.nextPath + 1 } }
      (attempts arch σ.bond.nextPath σ.bond.paths))

/-! ## The loop -/

theorem startEmptyGrace_paths (σ : Shared) :
    (startEmptyGrace σ).bond.paths = σ.bond.paths := by
  rw [startEmptyGrace]
  split <;> rfl

theorem startEmptyGrace_closed (σ : Shared) :
    (startEmptyGrace σ).bond.closed = σ.bond.closed := by
  rw [startEmptyGrace]
  split <;> rfl

theorem dispose_paths (σ : Shared) (p : PathRef) :
    (dispose σ p).bond.paths = σ.bond.paths := by
  show (if σ.bond.count = 0 then startEmptyGrace σ else σ).bond.paths = _
  split
  · exact startEmptyGrace_paths σ
  · rfl

theorem dispose_closed (σ : Shared) (p : PathRef) :
    (dispose σ p).bond.closed = σ.bond.closed := by
  show (if σ.bond.count = 0 then startEmptyGrace σ else σ).bond.closed = _
  split
  · exact startEmptyGrace_closed σ
  · rfl

/-- Removing a path takes it off the list and leaves the others. -/
theorem removePath_paths (σ : Shared) (p : PathRef) :
    (removePath σ p).bond.paths = σ.bond.paths.erase p := by
  rw [removePath]
  split
  · exact dispose_paths _ p
  · rename_i hp
    exact (List.erase_of_not_mem hp).symm

theorem removePath_closed (σ : Shared) (p : PathRef) :
    (removePath σ p).bond.closed = σ.bond.closed := by
  rw [removePath]
  split
  · exact dispose_closed _ p
  · rfl

section Loop

variable (n : Nat) (write : PathRef → WriteResult)

/-- The first path of a walk that takes the packet ends it. -/
def walk (n : Nat) (write : PathRef → WriteResult) : List PathRef → List PathRef
  | [] => []
  | p :: rest => if accepts n (write p) then [p] else p :: walk n write rest

/-- **THE LOOP**: on attempts that are all in range it tries the walk, removes
    the dead paths among the tried, ends with the whole packet accepted or
    falls out, and does not close the bond. -/
theorem writeLoop_spec (rest : List PathRef) :
    ∀ σ : Shared, σ.bond.paths.Nodup →
      let r := writeLoop n write σ (rest.map some)
      r.tried = walk n write rest ∧
      r.shared.bond.paths = σ.bond.paths.filter
        (fun p => !(decide (p ∈ walk n write rest) && permanent n (write p))) ∧
      r.shared.bond.closed = σ.bond.closed ∧
      r.outcome = (if rest.any (fun p => accepts n (write p)) then .ret (.wrote n)
        else .fell) := by
  induction rest with
  | nil =>
      intro σ _
      refine ⟨rfl, ?_, rfl, rfl⟩
      show σ.bond.paths = _
      rw [List.filter_eq_self.mpr]
      intro p _
      simp [walk]
  | cons p rest ih =>
      intro σ hnd
      cases hf : (write p).failure n with
      | none =>
          have hacc : accepts n (write p) = true := by simp [accepts, hf]
          have hperm : permanent n (write p) = false := by simp [permanent, hf]
          have hn : (write p).n = n := by
            unfold WriteResult.failure at hf
            split at hf
            · cases hf
            · split at hf
              · assumption
              · cases hf
          have hw : walk n write (p :: rest) = [p] := by simp [walk, hacc]
          have hrun : writeLoop n write σ ((p :: rest).map some)
              = ⟨σ, [p], .ret (.wrote (write p).n)⟩ := by
            simp only [List.map_cons, writeLoop, hf]
          simp only [hrun, hw, hn]
          refine ⟨trivial, ?_, trivial, by simp [hacc]⟩
          rw [List.filter_eq_self.mpr]
          intro q _
          by_cases hq : q = p
          · simp [hq, hperm]
          · simp [hq]
      | some e =>
          have hacc : accepts n (write p) = false := by simp [accepts, hf]
          have hperm : permanent n (write p) = isPermanentPathError e := by
            simp [permanent, hf]
          have hw : walk n write (p :: rest) = p :: walk n write rest := by
            simp [walk, hacc]
          have hany : (p :: rest).any (fun p => accepts n (write p))
              = rest.any (fun p => accepts n (write p)) := by simp [hacc]
          simp only [List.map_cons, writeLoop, hf, hw, hany]
          cases hdead : isPermanentPathError e with
          | false =>
              obtain ⟨h1, h2, h3, h4⟩ := ih σ hnd
              simp only [Bool.false_eq_true, if_false]
              refine ⟨by rw [h1], ?_, h3, h4⟩
              rw [h2]
              refine List.filter_congr ?_
              intro q _
              by_cases hq : q = p
              · simp [hq, hperm, hdead]
              · simp [hq]
          | true =>
              have hnd' : (removePath σ p).bond.paths.Nodup := by
                rw [removePath_paths]
                exact hnd.erase p
              obtain ⟨h1, h2, h3, h4⟩ := ih (removePath σ p) hnd'
              simp only [if_true]
              refine ⟨by rw [h1], ?_, by rw [h3, removePath_closed], h4⟩
              rw [h2, removePath_paths, hnd.erase_eq_filter, List.filter_filter]
              refine List.filter_congr ?_
              intro q _
              by_cases hq : q = p
              · simp [hq, hperm, hdead]
              · simp [hq]

/-- The walk is the paths up to and including the first that accepts. -/
theorem walk_eq (rest : List PathRef) :
    walk n write rest
      = rest.takeWhile (fun p => !accepts n (write p))
        ++ (rest.find? (fun p => accepts n (write p))).toList := by
  induction rest with
  | nil => rfl
  | cons p rest ih =>
      rw [walk, List.takeWhile_cons, List.find?_cons]
      cases hacc : accepts n (write p) with
      | true => rfl
      | false =>
          simp only [Bool.not_false, if_true, Bool.false_eq_true, if_false]
          rw [ih]
          rfl

theorem walk_initial (rest : List PathRef) : walk n write rest <+: rest := by
  induction rest with
  | nil => exact List.nil_prefix
  | cons p rest ih =>
      rw [walk]
      split
      · exact ⟨rest, rfl⟩
      · exact List.cons_prefix_cons.mpr ⟨rfl, ih⟩

/-- One path of the walk accepts, if any path does. -/
theorem walk_accepted (rest : List PathRef) :
    ((walk n write rest).filter (fun p => accepts n (write p))).length
      = if rest.any (fun p => accepts n (write p)) then 1 else 0 := by
  induction rest with
  | nil => rfl
  | cons p rest ih =>
      rw [walk, List.any_cons]
      cases hacc : accepts n (write p) with
      | true => simp [hacc]
      | false =>
          simp only [Bool.false_eq_true, if_false, Bool.false_or]
          rw [List.filter_cons_of_neg (by simp [hacc]), ih]

end Loop

/-- What `writeTo` is on an open bond with paths and a counter in range. -/
theorem writeTo_eq {arch : Arch} {σ : Shared} {n : Nat}
    {write : PathRef → WriteResult} (hn : 0 < n) (hopen : σ.bond.closed = false)
    (hne : σ.bond.paths ≠ []) (hk : Addressable arch σ.bond.paths.length)
    (hc : σ.bond.nextPath.toNat < 2 ^ (arch.width - 1)) :
    writeTo arch σ n write = writeEnd n (writeLoop n write
      { σ with bond := { σ.bond with nextPath := σ.bond.nextPath + 1 } }
      ((σ.bond.paths.rotate
        (σ.bond.nextPath.toNat % σ.bond.paths.length)).map some)) := by
  rw [writeTo, if_neg (by omega), hopen, if_neg Bool.false_ne_true, if_neg hne,
    attempts_eq_rotate hk hc]

theorem writeEnd_tried (n : Nat) (r : WriteRun) :
    (writeEnd n r).tried = r.tried := by
  rw [writeEnd]
  repeat' split
  all_goals rfl

/-- The end of `WriteTo` leaves the list, and reports the packet written. -/
theorem writeEnd_spec {n : Nat} {r : WriteRun} (hopen : r.shared.bond.closed = false)
    (hout : r.outcome = .fell ∨ r.outcome = .ret (.wrote n)) :
    (writeEnd n r).outcome = .ret (.wrote n) ∧
      (writeEnd n r).shared.bond.paths = r.shared.bond.paths := by
  rcases hout with hf | hr
  · have heq : writeEnd n r
        = if r.shared.bond.count = 0 then
            ⟨startEmptyGrace r.shared, r.tried, .ret (.wrote n)⟩
          else ⟨r.shared, r.tried, .ret (.wrote n)⟩ := by
      rw [writeEnd, hf, hopen]
      rfl
    rw [heq]
    split
    · exact ⟨rfl, startEmptyGrace_paths _⟩
    · exact ⟨rfl, rfl⟩
  · have heq : writeEnd n r = r := by rw [writeEnd, hr]
    rw [heq]
    exact ⟨hr, rfl⟩

/-- **ONE CALL**: the paths tried, the paths left and the result of one
    `WriteTo`. -/
theorem writeTo_spec {arch : Arch} {σ : Shared} {n : Nat}
    (write : PathRef → WriteResult) (hn : 0 < n) (hopen : σ.bond.closed = false)
    (hne : σ.bond.paths ≠ []) (hnd : σ.bond.paths.Nodup)
    (hk : Addressable arch σ.bond.paths.length)
    (hc : σ.bond.nextPath.toNat < 2 ^ (arch.width - 1)) :
    let cyc := σ.bond.paths.rotate (σ.bond.nextPath.toNat % σ.bond.paths.length)
    let r := writeTo arch σ n write
    r.outcome = .ret (.wrote n) ∧ r.tried = walk n write cyc ∧
      r.shared.bond.paths = σ.bond.paths.filter
        (fun p => !(decide (p ∈ r.tried) && permanent n (write p))) := by
  intro cyc r
  obtain ⟨h1, h2, h3, h4⟩ := writeLoop_spec n write cyc
    { σ with bond := { σ.bond with nextPath := σ.bond.nextPath + 1 } } hnd
  have hr : r = writeEnd n (writeLoop n write
      { σ with bond := { σ.bond with nextPath := σ.bond.nextPath + 1 } }
      (cyc.map some)) := writeTo_eq hn hopen hne hk hc
  obtain ⟨e1, e2⟩ := writeEnd_spec (n := n) (h3.trans hopen) (by
    rw [h4]
    split
    · exact Or.inr rfl
    · exact Or.inl rfl)
  rw [hr, e1, e2, writeEnd_tried, h1]
  exact ⟨rfl, rfl, h2⟩

/-! ## Consecutive packets -/

/-- A path that takes every packet whole. -/
def fullWrite (n : Nat) : PathRef → WriteResult := fun _ => ⟨n, none⟩

theorem failure_fullWrite (n : Nat) (p : PathRef) :
    (fullWrite n p).failure n = none := by
  simp [fullWrite, WriteResult.failure]

theorem accepts_fullWrite (n : Nat) (p : PathRef) :
    accepts n (fullWrite n p) = true := by
  rw [accepts, failure_fullWrite]
  rfl

theorem getD_of_lt {l : List PathRef} {i : Nat} (h : i < l.length) :
    l.getD i 0 = l[i] := by
  rw [List.getD_eq_getElem?_getD, List.getElem?_eq_getElem h, Option.getD_some]

/-- The paths that carry a sequence of packets, one `WriteTo` after the other,
    while every path takes what it is given. -/
def carriers (arch : Arch) : Shared → List Nat → List PathRef
  | _, [] => []
  | σ, n :: ns =>
      let r := writeTo arch σ n (fullWrite n)
      r.tried.filter (fun p => accepts n (fullWrite n p)) ++ carriers arch r.shared ns

/-- A packet on accepting paths goes to the counter's path and moves the
    counter on. -/
theorem writeTo_fullWrite (arch : Arch) {σ : Shared} {n : Nat} (hn : 0 < n)
    (hopen : σ.bond.closed = false) (hne : σ.bond.paths ≠ [])
    (hk : Addressable arch σ.bond.paths.length)
    (hc : σ.bond.nextPath.toNat < 2 ^ (arch.width - 1)) :
    writeTo arch σ n (fullWrite n)
      = ⟨{ σ with bond := { σ.bond with nextPath := σ.bond.nextPath + 1 } },
          [σ.bond.paths.getD (σ.bond.nextPath.toNat % σ.bond.paths.length) 0],
          .ret (.wrote n)⟩ := by
  have hpos : 0 < σ.bond.paths.length := List.length_pos_iff.mpr hne
  have hlt := Nat.mod_lt σ.bond.nextPath.toNat hpos
  rw [writeTo_eq hn hopen hne hk hc]
  have hcons : σ.bond.paths.rotate (σ.bond.nextPath.toNat % σ.bond.paths.length)
      = σ.bond.paths.getD (σ.bond.nextPath.toNat % σ.bond.paths.length) 0
        :: (σ.bond.paths.rotate
          (σ.bond.nextPath.toNat % σ.bond.paths.length)).tail := by
    have hlen : 0 < (σ.bond.paths.rotate
        (σ.bond.nextPath.toNat % σ.bond.paths.length)).length := by
      rw [List.length_rotate]; exact hpos
    rw [← List.cons_head_tail (List.length_pos_iff.mp hlen)]
    congr 1
    rw [List.head_eq_getElem, List.getElem_rotate, getD_of_lt hlt]
    congr 1
    rw [Nat.zero_add, Nat.mod_mod]
  rw [hcons]
  simp only [List.map_cons, writeLoop, failure_fullWrite, writeEnd]
  rfl

/-- The carriers of consecutive packets walk the list from the counter on. -/
theorem carriers_eq (arch : Arch) : ∀ (ns : List Nat) (σ : Shared),
    (∀ n ∈ ns, 0 < n) → σ.bond.closed = false → σ.bond.paths ≠ [] →
    Addressable arch σ.bond.paths.length →
    σ.bond.nextPath.toNat + ns.length ≤ 2 ^ (arch.width - 1) →
    carriers arch σ ns = (List.range ns.length).map (fun j =>
      σ.bond.paths.getD ((σ.bond.nextPath.toNat + j) % σ.bond.paths.length) 0) := by
  intro ns
  induction ns with
  | nil => intro σ _ _ _ _ _; rfl
  | cons n ns ih =>
      intro σ hpos hopen hne hk hc
      rw [List.length_cons] at hc
      have hn := hpos n (List.mem_cons_self ..)
      have hnext : (σ.bond.nextPath + 1).toNat = σ.bond.nextPath.toNat + 1 := by
        have hw : 2 ^ (arch.width - 1) < 2 ^ 64 := by cases arch <;> decide
        rw [UInt64.toNat_add]
        exact Nat.mod_eq_of_lt (by
          show σ.bond.nextPath.toNat + 1 < 2 ^ 64
          omega)
      have hone := writeTo_fullWrite arch hn hopen hne hk (by omega)
      show (writeTo arch σ n (fullWrite n)).tried.filter _
          ++ carriers arch (writeTo arch σ n (fullWrite n)).shared ns = _
      rw [hone]
      have hrest := ih
        { σ with bond := { σ.bond with nextPath := σ.bond.nextPath + 1 } }
        (fun m hm => hpos m (List.mem_cons_of_mem _ hm)) hopen hne hk
        (by show (σ.bond.nextPath + 1).toNat + _ ≤ _; omega)
      have hself : ∀ p : PathRef,
          [p].filter (fun p => accepts n (fullWrite n p)) = [p] := by
        intro p
        simp [accepts_fullWrite]
      rw [hrest, List.length_cons, List.range_succ_eq_map, List.map_cons,
        List.map_map, hself]
      show _ :: List.map _ _ = _
      rw [Nat.add_zero]
      refine congrArg _ (List.map_congr_left ?_)
      intro j _
      show σ.bond.paths.getD (((σ.bond.nextPath + 1).toNat + j) % _) 0
        = σ.bond.paths.getD ((σ.bond.nextPath.toNat + (j + 1)) % _) 0
      rw [hnext, Nat.add_assoc, Nat.add_comm 1 j]

/-- As many packets as paths: every path carries one. -/
theorem carriers_perm {arch : Arch} {σ : Shared} {ns : List Nat}
    (hlen : ns.length = σ.bond.paths.length) (hpos : ∀ n ∈ ns, 0 < n)
    (hopen : σ.bond.closed = false) (hne : σ.bond.paths ≠ [])
    (hk : Addressable arch σ.bond.paths.length)
    (hc : σ.bond.nextPath.toNat + ns.length ≤ 2 ^ (arch.width - 1)) :
    (carriers arch σ ns).Perm σ.bond.paths := by
  have hrot : carriers arch σ ns = σ.bond.paths.rotate σ.bond.nextPath.toNat := by
    rw [carriers_eq arch ns σ hpos hopen hne hk hc, hlen]
    refine List.ext_getElem (by simp) ?_
    intro j hj _
    have hlt : (σ.bond.nextPath.toNat + j) % σ.bond.paths.length
        < σ.bond.paths.length := Nat.mod_lt _ (List.length_pos_iff.mpr hne)
    rw [List.getElem_map, List.getElem_range, List.getElem_rotate,
      getD_of_lt hlt]
    congr 2
    exact Nat.add_comm ..
  rw [hrot]
  exact List.rotate_perm ..

/-! ## The thread-pool `WriteTo`, scheduled alone -/

/-- The result that the next section of a thread waits for. -/
def choose (write : PathRef → WriteResult) : Pc → Choice
  | .wTry _ (some p :: _) => .wrote (write p)
  | _ => .go

/-- The path that the next section of a thread writes to. -/
def triesAt : Pc → List PathRef
  | .wTry _ (some p :: _) => [p]
  | _ => []

/-- Thread `i` runs alone from one place to another, trying some paths. -/
inductive Alone (arch : Arch) (i : Nat) (write : PathRef → WriteResult) :
    Shared → Pc → List PathRef → Shared → Pc → Prop where
  | stop (σ : Shared) (t : Pc) : Alone arch i write σ t [] σ t
  | step {σ σ₁ σ₂ : Shared} {t t₁ t₂ : Pc} {ps : List PathRef} :
      exec arch i σ t (choose write t) = some (σ₁, t₁, []) →
      Alone arch i write σ₁ t₁ ps σ₂ t₂ →
      Alone arch i write σ t (triesAt t ++ ps) σ₂ t₂

section Alone

variable {arch : Arch} {i : Nat} {write : PathRef → WriteResult} {σ : Shared}

theorem Alone.trans {σ₁ σ₂ : Shared} {t t₁ t₂ : Pc} {ps qs : List PathRef}
    (h₁ : Alone arch i write σ t ps σ₁ t₁)
    (h₂ : Alone arch i write σ₁ t₁ qs σ₂ t₂) :
    Alone arch i write σ t (ps ++ qs) σ₂ t₂ := by
  induction h₁ with
  | stop => exact h₂
  | step he _ ih =>
      rw [List.append_assoc]
      exact Alone.step he (ih h₂)

/-- One section that tries no path. -/
theorem Alone.one {σ₁ : Shared} {t t₁ : Pc} (ht : triesAt t = [])
    (he : exec arch i σ t (choose write t) = some (σ₁, t₁, [])) :
    Alone arch i write σ t [] σ₁ t₁ := by
  have h : Alone arch i write σ t (triesAt t ++ []) σ₁ t₁ :=
    Alone.step he (Alone.stop σ₁ t₁)
  rw [ht] at h
  exact h

theorem startEmptyGrace_mu (hmu : σ.mu = none) : (startEmptyGrace σ).mu = none := by
  rw [startEmptyGrace]
  split
  · exact hmu
  · rfl

/-- `startEmptyGrace` alone. -/
theorem startEmptyGrace_alone (g : GraceCaller) (hmu : σ.mu = none) :
    Alone arch i write σ (.graceLock g) [] (startEmptyGrace σ) g.resume := by
  rw [startEmptyGrace]
  cases hidle : σ.bond.graceIdle || σ.bond.closed with
  | true =>
      refine Alone.one rfl ?_
      show (if σ.mu = none then _ else _) = _
      rw [if_pos hmu, if_pos hidle, if_pos rfl]
  | false =>
      have h1 : Alone arch i write σ (.graceLock g) [] { σ with mu := some i }
          (.graceArm g) := by
        refine Alone.one rfl ?_
        show (if σ.mu = none then _ else _) = _
        rw [if_pos hmu, if_neg (Bool.eq_false_iff.mp hidle)]
      exact h1.trans (Alone.one rfl rfl)

theorem dispose_mu (hmu : σ.mu = none) (p : PathRef) : (dispose σ p).mu = none := by
  show (if σ.bond.count = 0 then startEmptyGrace σ else σ).mu = none
  split
  · exact startEmptyGrace_mu hmu
  · exact hmu

theorem removePath_mu (hmu : σ.mu = none) (p : PathRef) :
    (removePath σ p).mu = none := by
  rw [removePath]
  split
  · exact dispose_mu (by exact hmu) p
  · exact hmu

/-- The end of `removePath`, from its notification on. -/
theorem notify_alone (p : PathRef) (k : Caller) :
    Alone arch i write σ (.rmNotify p k) []
      (((σ.notify.record (.connClosed p)).runCleanup p).record (.doneClosed p))
      k.resume :=
  (Alone.one rfl rfl).trans ((Alone.one rfl rfl).trans
    ((Alone.one rfl rfl).trans (Alone.one rfl rfl)))

/-- `removePath` alone. -/
theorem removePath_alone (p : PathRef) (k : Caller) (hmu : σ.mu = none) :
    Alone arch i write σ (.rmLock p k) [] (removePath σ p) k.resume := by
  rw [removePath]
  by_cases hp : p ∈ σ.bond.paths
  · rw [if_pos hp]
    have h1 : Alone arch i write σ (.rmLock p k) [] (σ.unlink p) (.rmCount p k) := by
      refine Alone.one rfl ?_
      show (if σ.mu = none then _ else _) = _
      rw [if_pos hmu, if_pos hp]
    have hmu' : (σ.unlink p).mu = none := hmu
    refine h1.trans ?_
    rw [dispose]
    by_cases hz : (σ.unlink p).bond.count = 0
    · rw [if_pos hz]
      have h2 : Alone arch i write (σ.unlink p) (.rmCount p k) [] (σ.unlink p)
          (.graceLock (.removed p k)) := by
        refine Alone.one rfl ?_
        show (if (σ.unlink p).mu = none then _ else _) = _
        rw [if_pos hmu', if_pos hz]
      exact h2.trans ((startEmptyGrace_alone _ hmu').trans (notify_alone p k))
    · rw [if_neg hz]
      have h2 : Alone arch i write (σ.unlink p) (.rmCount p k) [] (σ.unlink p)
          (.rmNotify p k) := by
        refine Alone.one rfl ?_
        show (if (σ.unlink p).mu = none then _ else _) = _
        rw [if_pos hmu', if_neg hz]
      exact h2.trans (notify_alone p k)
  · rw [if_neg hp]
    refine Alone.one rfl ?_
    show (if σ.mu = none then _ else _) = _
    rw [if_pos hmu, if_neg hp]

/-- Where the thread is when the loop has ended this way. -/
def Outcome.pc (n : Nat) : Outcome → Pc
  | .ret r => .returned r
  | .fell => .wEndCheck n
  | .panic => .panicked

/-- The loop alone. -/
theorem writeLoop_alone (arch : Arch) (i : Nat) (write : PathRef → WriteResult)
    (n : Nat) (rest : List (Option PathRef)) :
    ∀ σ : Shared, σ.mu = none →
      let r := writeLoop n write σ rest
      Alone arch i write σ (.wTry n rest) r.tried r.shared (r.outcome.pc n) ∧
        r.shared.mu = none := by
  induction rest with
  | nil => intro σ hmu; exact ⟨Alone.one rfl rfl, hmu⟩
  | cons a rest ih =>
      intro σ hmu
      cases a with
      | none => exact ⟨Alone.one rfl rfl, hmu⟩
      | some p =>
          cases hf : (write p).failure n with
          | none =>
              simp only [writeLoop, hf]
              have he : exec arch i σ (.wTry n (some p :: rest)) (.wrote (write p))
                  = some (σ, .returned (.wrote (write p).n), []) := by
                unfold exec
                simp only [hf]
              exact ⟨Alone.step he (Alone.stop σ _), hmu⟩
          | some e =>
              simp only [writeLoop, hf]
              cases hd : isPermanentPathError e with
              | false =>
                  obtain ⟨h1, h2⟩ := ih σ hmu
                  simp only [Bool.false_eq_true, if_false]
                  refine ⟨Alone.step ?_ h1, h2⟩
                  unfold choose exec
                  simp only [hf, hd, Bool.false_eq_true, if_false]
              | true =>
                  obtain ⟨h1, h2⟩ := ih (removePath σ p) (removePath_mu hmu p)
                  simp only [if_true]
                  have he : exec arch i σ (.wTry n (some p :: rest))
                      (.wrote (write p)) = some (σ, .rmLock p (.writeTo n rest), []) := by
                    unfold exec
                    simp only [hf, hd, if_true]
                  exact ⟨Alone.step he
                    ((removePath_alone p (.writeTo n rest) hmu).trans h1), h2⟩

/-- The end of `WriteTo` alone. -/
theorem writeEnd_alone {n : Nat} {r : WriteRun} (hmu : r.shared.mu = none) :
    Alone arch i write r.shared (r.outcome.pc n) [] (writeEnd n r).shared
      ((writeEnd n r).outcome.pc n) := by
  obtain ⟨σ, tried, outcome⟩ := r
  cases outcome with
  | ret r => exact Alone.stop _ _
  | panic => exact Alone.stop _ _
  | fell =>
      simp only [writeEnd, Outcome.pc]
      cases hc : σ.bond.closed with
      | true =>
          refine Alone.one rfl ?_
          show (if σ.bond.closed = true then _ else _) = _
          rw [if_pos hc]
          rfl
      | false =>
          have h1 : Alone arch i write σ (.wEndCheck n) [] σ (.wEndCount n) := by
            refine Alone.one rfl ?_
            show (if σ.bond.closed = true then _ else _) = _
            rw [if_neg (Bool.eq_false_iff.mp hc)]
          refine h1.trans ?_
          by_cases hz : σ.bond.count = 0
          · have h2 : Alone arch i write σ (.wEndCount n) [] σ
                (.graceLock (.writeEnd n)) := by
              refine Alone.one rfl ?_
              show (if σ.mu = none then _ else _) = _
              rw [if_pos hmu, if_pos hz]
            simp only [hz, Bool.false_eq_true, if_true, if_false]
            exact h2.trans (startEmptyGrace_alone (.writeEnd n) hmu)
          · simp only [hz, Bool.false_eq_true, if_false]
            refine Alone.one rfl ?_
            show (if σ.mu = none then _ else _) = _
            rw [if_pos hmu, if_neg hz]

/-- The snapshot of an empty list alone: the packet is dropped. -/
theorem writeEmpty_alone {n : Nat} (hmu : σ.mu = none)
    (hc : σ.bond.closed = false) (hne : σ.bond.paths = []) :
    Alone arch i write σ (.wSnapshot n) [] (startEmptyGrace σ)
      (.returned (.wrote n)) := by
  have h1 : Alone arch i write σ (.wSnapshot n) [] σ (.graceLock (.writeEmpty n)) := by
    refine Alone.one rfl ?_
    show (if σ.mu = none then _ else _) = _
    rw [if_pos hmu, if_pos hne]
  have h2 : Alone arch i write (startEmptyGrace σ) (.wDrop n) []
      (startEmptyGrace σ) (.returned (.wrote n)) := by
    refine Alone.one rfl ?_
    show (if (startEmptyGrace σ).bond.closed = true then _ else _) = _
    rw [startEmptyGrace_closed, if_neg (Bool.eq_false_iff.mp hc)]
  exact h1.trans ((startEmptyGrace_alone (.writeEmpty n) hmu).trans h2)

/-- The snapshot of a list with paths alone: the stripe is drawn. -/
theorem writeStripe_alone {n : Nat} (hmu : σ.mu = none) (hne : σ.bond.paths ≠ []) :
    Alone arch i write σ (.wSnapshot n) []
      { σ with bond := { σ.bond with nextPath := σ.bond.nextPath + 1 } }
      (.wTry n (attempts arch σ.bond.nextPath σ.bond.paths)) := by
  have h1 : Alone arch i write σ (.wSnapshot n) [] σ (.wStripe n σ.bond.paths) := by
    refine Alone.one rfl ?_
    show (if σ.mu = none then _ else _) = _
    rw [if_pos hmu, if_neg hne]
  exact h1.trans (Alone.one rfl rfl)

/-- **CONNECTION**: from a free mutex, the thread-pool `WriteTo` of a non-empty
    packet, scheduled alone, tries the paths that `writeTo` tries, leaves the
    state that it leaves and ends as it ends. -/
theorem writeTo_alone (arch : Arch) (i : Nat) (write : PathRef → WriteResult)
    {n : Nat} (hn : 0 < n) (hmu : σ.mu = none) :
    Alone arch i write σ (.wEnter n) (writeTo arch σ n write).tried
      (writeTo arch σ n write).shared ((writeTo arch σ n write).outcome.pc n) := by
  rw [writeTo, if_neg (Nat.pos_iff_ne_zero.mp hn)]
  cases hc : σ.bond.closed with
  | true =>
      rw [if_pos rfl]
      refine Alone.one rfl ?_
      show (if σ.bond.closed = true then _ else _) = _
      rw [if_pos hc]
      rfl
  | false =>
      rw [if_neg Bool.false_ne_true]
      have h1 : Alone arch i write σ (.wEnter n) [] σ (.wSnapshot n) := by
        refine Alone.one rfl ?_
        show (if σ.bond.closed = true then _ else _) = _
        rw [if_neg (Bool.eq_false_iff.mp hc)]
      by_cases hne : σ.bond.paths = []
      · simp only [hne, startEmptyGrace_closed, hc, Bool.false_eq_true, if_true,
          if_false]
        exact h1.trans (writeEmpty_alone hmu hc hne)
      · rw [if_neg hne]
        obtain ⟨h2, hmu'⟩ := writeLoop_alone arch i write n
          (attempts arch σ.bond.nextPath σ.bond.paths)
          { σ with bond := { σ.bond with nextPath := σ.bond.nextPath + 1 } } hmu
        have h3 := h1.trans ((writeStripe_alone hmu hne).trans
          (h2.trans (writeEnd_alone hmu')))
        rw [List.append_nil] at h3
        rw [writeEnd_tried]
        exact h3

end Alone

/-- **ONE PACKET, AT MOST ONE PATH**: on every open bond with `k` listed paths
    and a counter inside the range of `int`, for every packet and every
    assignment of write results, a `WriteTo` with nothing running beside it tries
    paths of the snapshot in cyclic order, each at most once, up to and including
    the first that takes the whole packet; exactly one path takes it if any
    would; exactly the tried paths with a permanent error are removed; the result
    is the packet's length and no error.  Over `k` consecutive packets on paths
    that accept, each path carries exactly one. -/
theorem writeTo_one_path (arch : Arch) (s : Bond) (h : BondReach arch s) (i n : Nat)
    (write : PathRef → WriteResult) (hn : 0 < n) (hfree : s.shared.mu = none)
    (hopen : s.shared.bond.closed = false) (hne : s.shared.bond.paths ≠ [])
    (hk : Addressable arch s.shared.bond.paths.length)
    (hc : s.shared.bond.nextPath.toNat < 2 ^ (arch.width - 1)) :
    let paths := s.shared.bond.paths
    let cyc := paths.rotate (s.shared.bond.nextPath.toNat % paths.length)
    let r := writeTo arch s.shared n write
    Alone arch i write s.shared (.wEnter n) r.tried r.shared (.returned (.wrote n)) ∧
      r.tried = cyc.takeWhile (fun p => !accepts n (write p))
        ++ (cyc.find? (fun p => accepts n (write p))).toList ∧
      r.tried <+: cyc ∧ r.tried.Nodup ∧
      (r.tried.filter (fun p => accepts n (write p))).length
        = (if paths.any (fun p => accepts n (write p)) then 1 else 0) ∧
      r.shared.bond.paths
        = paths.filter (fun p => !(decide (p ∈ r.tried) && permanent n (write p))) ∧
      ∀ ns : List Nat, ns.length = paths.length → (∀ m ∈ ns, 0 < m) →
        s.shared.bond.nextPath.toNat + ns.length ≤ 2 ^ (arch.width - 1) →
        (carriers arch s.shared ns).Perm paths := by
  intro paths cyc r
  have hnd : paths.Nodup := paths_nodup h
  obtain ⟨h1, h2, h3⟩ := writeTo_spec write hn hopen hne hnd hk hc
  have hini : r.tried <+: cyc := by
    rw [h2]
    exact walk_initial n write cyc
  have hany : cyc.any (fun p => accepts n (write p))
      = paths.any (fun p => accepts n (write p)) :=
    List.Perm.any_eq (List.rotate_perm ..)
  have halone := writeTo_alone arch i write hn hfree
  rw [h1] at halone
  refine ⟨halone, ?_, hini, ?_, ?_, h3, ?_⟩
  · rw [h2]
    exact walk_eq n write cyc
  · exact hini.sublist.nodup (List.nodup_rotate.mpr hnd)
  · rw [h2, walk_accepted, hany]
  · intro ns hlen hpos hcs
    exact carriers_perm hlen hpos hopen hne hk hcs

/-- Three paths, of which the first is broken, the second slow and the third
    takes the packet. -/
def brokenSlowGood : PathRef → WriteResult
  | 0 => ⟨0, some { isErrClosed := true }⟩
  | 1 => ⟨0, some { timeout := some true }⟩
  | _ => ⟨5, none⟩

/-- Three paths join a bond. -/
def threeJoin : List (Act Choice Op) :=
  .env (.addConn (some 7) true) :: List.replicate 4 (.run 0 .go)
    ++ .env (.addConn (some 8) true) :: List.replicate 4 (.run 2 .go)
    ++ .env (.addConn (some 9) true) :: List.replicate 4 (.run 4 .go)

/-- The first packet on them goes to the third path, and the first is gone. -/
theorem writeTo_third_path :
    ∃ s : Bond, BondReach .bits32 s ∧ s.shared.bond.paths = [0, 1, 2] ∧
      Alone .bits32 9 brokenSlowGood s.shared (.wEnter 5)
        (writeTo .bits32 s.shared 5 brokenSlowGood).tried
        (writeTo .bits32 s.shared 5 brokenSlowGood).shared (.returned (.wrote 5)) ∧
      (writeTo .bits32 s.shared 5 brokenSlowGood).tried = [0, 1, 2] ∧
      (writeTo .bits32 s.shared 5 brokenSlowGood).shared.bond.paths = [1, 2] := by
  obtain ⟨s, hr, hp⟩ := Reach.of_follow (bondStep .bits32) anyStep newBond threeJoin
    (fun s => decide (s.shared.bond.paths = [0, 1, 2] ∧ s.shared.mu = none ∧
      s.shared.bond.closed = false ∧ s.shared.bond.nextPath = 0)) (by decide)
  obtain ⟨hpaths, hmu, hopen, hnext⟩ := of_decide_eq_true hp
  obtain ⟨h1, h2, -, -, -, h3, -⟩ := writeTo_one_path .bits32 s hr 9 5 brokenSlowGood
    (by decide) hmu hopen (by rw [hpaths]; decide) (by rw [hpaths]; decide)
    (by rw [hnext]; decide)
  have htried : (writeTo .bits32 s.shared 5 brokenSlowGood).tried = [0, 1, 2] := by
    rw [h2, hpaths, hnext]
    decide
  refine ⟨s, hr, hpaths, h1, htried, ?_⟩
  rw [h3, htried, hpaths]
  decide

end VkTurnWriteTo
