import VkTurn.HomogeneityProofs

/-! # The lifetime of a transport slot

    An accepted connection holds a slot of the limiter until `releaseConnection`
    has run for it.  A handler that keeps its connection closes it and then
    releases the slot, by its deferred functions; a handler that has handed its
    connection to a bond leaves both to the path, whose disposal closes the
    connection and then runs the cleanup.

    `Slots` is the law that holds at every moment: a slot is given back by one
    of the two, and only behind a close (`Slots.caused`); the cleanup of a path
    gives its slot back (`Slots.cleaned`); and `TransportConnectionClosed` is
    counted as often as slots are given back (`Slots.counted`).  `Books` ties the
    leases to the limiter: its counters count those that are not given back. -/

namespace VkTurnTransportSlot

open ThreadPool VkTurnStripe VkTurnBond VkTurnBondHello VkTurnLimiter VkTurnServer
open VkTurnHandover VkTurnDisposal GoText GoMap

/-- The slot of the connection has been given back. -/
def Released (σ : Server) (c : Conn) : Prop :=
  ∃ lease, σ.leases[c]? = some lease ∧ lease.released = true

/-- How many slots have been given back. -/
def releasedCount (σ : Server) : Nat := σ.leases.countP (·.released)

/-- The counters of the limiter count the slots that have not been given back. -/
def Books (σ : Server) : Prop :=
  Counted (fun lease => !lease.released) ConnectionLease.ip σ.limiter σ.leases

/-- A path of a group has the connection and its event is on record. -/
def OnRecord (event : PathRef → Event) (σ : Server) (c : Conn) : Prop :=
  ∃ (g : GroupRef) (grp : Group) (p : PathRef), σ.objs[g]? = some grp ∧
    connOf grp.bond p = some c ∧ event p ∈ grp.bond.shared.log

/-- The connection has been closed, by its handler or by a bond. -/
def ConnClosed (σ : Server) (c : Conn) : Prop :=
  0 < σ.closes c ∨ OnRecord .connClosed σ c

/-! ## What gives slots back -/

/-- From `σ` to `σ'` the slots of the accepted connections in `R` are given back,
    each counted if it was not given back before, and each to the limiter. -/
structure Frees (R : Conn → Prop) (σ σ' : Server) : Prop where
  opened : σ'.transportOpened = σ.transportOpened
  length : σ'.leases.length = σ.leases.length
  released : ∀ c, Released σ' c ↔ Released σ c ∨ (R c ∧ c < σ.leases.length)
  counted : σ'.transportClosed + releasedCount σ = σ.transportClosed + releasedCount σ'
  books : Books σ → Books σ'

theorem Frees.refl (σ : Server) : Frees (fun _ => False) σ σ :=
  ⟨rfl, rfl, fun _ => by simp, rfl, id⟩

/-- Where the limiter, the leases and the counters are left alone, nothing is given back. -/
theorem frees_of_eq {σ σ' : Server} (hlim : σ'.limiter = σ.limiter) (hl : σ'.leases = σ.leases)
    (ho : σ'.transportOpened = σ.transportOpened)
    (hc : σ'.transportClosed = σ.transportClosed) : Frees (fun _ => False) σ σ' := by
  refine ⟨ho, by rw [hl], ?_, ?_, ?_⟩
  · intro c
    rw [Released, Released, hl]
    simp
  · rw [hc, releasedCount, releasedCount, hl]
  · rw [Books, Books, hlim, hl]
    exact id

theorem Frees.trans {R R' : Conn → Prop} {σ σ' σ'' : Server} (h : Frees R σ σ')
    (h' : Frees R' σ' σ'') : Frees (fun c => R c ∨ R' c) σ σ'' := by
  refine ⟨h'.opened.trans h.opened, h'.length.trans h.length, ?_, ?_, h'.books ∘ h.books⟩
  · intro c
    rw [h'.released, h.released, h.length]
    tauto
  · have h1 := h.counted
    have h2 := h'.counted
    omega

theorem Frees.congr {R R' : Conn → Prop} {σ σ' : Server} (h : Frees R σ σ')
    (hR : ∀ c, R c ↔ R' c) : Frees R' σ σ' :=
  { h with released := fun c => by rw [h.released, hR] }

/-- **ONCE**: `releaseConnection` gives back the slot of its connection, and
    counts it and tells the limiter unless it had been given back. -/
theorem releaseConnection_frees (σ : Server) (c : Conn) :
    Frees (· = c) σ (σ.releaseConnection c) := by
  rw [Server.releaseConnection]
  split
  · rename_i hnone
    have hge := List.getElem?_eq_none_iff.mp hnone
    refine ⟨rfl, rfl, ?_, rfl, id⟩
    intro d
    constructor
    · exact Or.inl
    · rintro (h | ⟨rfl, hlt⟩)
      · exact h
      · exact absurd hlt (Nat.not_lt.mpr hge)
  · rename_i lease hl
    have hlt := (List.getElem?_eq_some_iff.mp hl).1
    split
    · rename_i hrel
      refine ⟨rfl, rfl, ?_, rfl, id⟩
      intro d
      constructor
      · exact Or.inl
      · rintro (h | ⟨rfl, -⟩)
        · exact h
        · exact ⟨lease, hl, hrel⟩
    · rename_i hrel
      refine ⟨rfl, List.length_set, ?_, ?_, fun hb => hb.release hl (by simp [hrel]) rfl⟩
      · intro d
        show (∃ l, (σ.leases.set c _)[d]? = some l ∧ _) ↔ _
        rw [List.getElem?_set]
        by_cases hcd : c = d
        · subst hcd
          rw [if_pos rfl, if_pos hlt]
          constructor
          · intro _
            exact Or.inr ⟨rfl, hlt⟩
          · intro _
            exact ⟨_, rfl, rfl⟩
        · rw [if_neg hcd]
          constructor
          · exact Or.inl
          · rintro (h | ⟨hdc, -⟩)
            · exact h
            · exact absurd hdc.symm hcd
      · have hat : σ.leases[c] = lease := (List.getElem?_eq_some_iff.mp hl).2
        show σ.transportClosed + 1 + σ.leases.countP _
          = σ.transportClosed + (σ.leases.set c _).countP _
        rw [List.countP_set hlt, hat]
        simp only [hrel, Bool.false_eq_true, if_false, if_true]
        omega

/-- The events of a bond give back the slots of the paths they clean up. -/
theorem bondEvents_frees (g : GroupRef) (grp : Group) (es : List Event) :
    ∀ σ : Server, Frees (fun c => ∃ p, .cleanedUp p ∈ es ∧ connOf grp.bond p = some c)
      σ (es.foldl (Server.bondEvent g grp) σ) := by
  induction es with
  | nil =>
      intro σ
      exact (Frees.refl σ).congr fun c => by simp
  | cons e es ih =>
      intro σ
      have hone : Frees (fun c => ∃ p, e = .cleanedUp p ∧ connOf grp.bond p = some c)
          σ (σ.bondEvent g grp e) := by
        cases e with
        | cleanedUp p =>
            simp only [Server.bondEvent]
            split
            · rename_i hnone
              refine (Frees.refl σ).congr ?_
              intro c
              constructor
              · exact False.elim
              · rintro ⟨q, hq, hc⟩
                cases hq
                cases hnone.symm.trans hc
            · rename_i d hd
              refine (releaseConnection_frees σ d).congr ?_
              intro c
              constructor
              · rintro rfl
                exact ⟨p, rfl, hd⟩
              · rintro ⟨q, hq, hc⟩
                cases hq
                exact (Option.some.inj (hd.symm.trans hc)).symm
        | appended p =>
            simp only [Server.bondEvent]
            split
            · exact (Frees.refl σ).congr fun c => by simp
            · exact Frees.congr (R := fun _ => False) (frees_of_eq rfl rfl rfl rfl)
                fun c => by simp
        | connClosed p => exact (Frees.refl σ).congr fun c => by simp
        | doneClosed p => exact (Frees.refl σ).congr fun c => by simp
      refine (hone.trans (ih _)).congr ?_
      intro c
      constructor
      · rintro (⟨p, rfl, hc⟩ | ⟨p, hp, hc⟩)
        · exact ⟨p, List.mem_cons_self .., hc⟩
        · exact ⟨p, List.mem_cons_of_mem _ hp, hc⟩
      · rintro ⟨p, hp, hc⟩
        rcases List.mem_cons.mp hp with rfl | hp
        · exact Or.inl ⟨p, rfl, hc⟩
        · exact Or.inr ⟨p, hp, hc⟩

/-- So a bond that moves by `es` gives back the slots of the paths cleaned up in
    `es`. -/
theorem bondMoved_frees {σ : Server} {g : GroupRef} {grp : Group} {bond : Bond}
    {es : List Event} (hlog : bond.shared.log = grp.bond.shared.log ++ es) :
    Frees (fun c => ∃ p, .cleanedUp p ∈ es ∧ connOf bond p = some c) σ
      (σ.bondMoved g grp bond) := by
  rw [Server.bondMoved, hlog, List.drop_left]
  have h := bondEvents_frees g { grp with bond := bond } es
    (σ.setGroup g { grp with bond := bond })
  exact ⟨h.opened, h.length, h.released, h.counted, h.books⟩

/-! ## Time passes -/

/-- What was closed stays closed, and what was given back stays given back. -/
structure Later (σ σ' : Server) : Prop where
  closes : ∀ c, σ.closes c ≤ σ'.closes c
  released : ∀ c, Released σ c → Released σ' c

theorem later_closeConn (σ : Server) (c : Conn) : Later σ (σ.closeConn c) := by
  refine ⟨?_, fun _ h => h⟩
  intro d
  show σ.closes d ≤ Function.update σ.closes c (σ.closes c + 1) d
  by_cases hd : d = c
  · subst hd
    rw [Function.update_self]
    exact Nat.le_succ _
  · rw [Function.update_of_ne hd]

theorem later_bondMoved {arch : Arch} {σ : Server} {g : GroupRef} {grp : Group}
    {bond : Bond} {a : Act VkTurnBond.Choice VkTurnBond.Op}
    (hb : bondStep arch grp.bond a = some bond) : Later σ (σ.bondMoved g grp bond) := by
  obtain ⟨es, hes⟩ := bondStep_log_grows hb
  refine ⟨?_, ?_⟩
  · intro c
    rw [(bondMoved_frame σ g grp bond).closes]
    exact le_refl _
  · intro c hc
    exact ((bondMoved_frees hes.symm).released c).mpr (Or.inl hc)

section Step

variable {cfg : Config} {i : Nat} {σ σ' : Server} {t t' : VkTurnServer.Pc}
variable {new : List VkTurnServer.Pc}

theorem moves_later (h : VkTurnServer.Moves cfg i σ t σ' t' new) : Later σ σ' := by
  cases h with
  | sessionClosed c => exact later_closeConn σ c
  | closed c o => exact later_closeConn σ c
  | called c hello g grp bond _ hb => exact later_bondMoved hb
  | runCloses g grp bond _ hb => exact later_bondMoved hb
  | released c o =>
      refine ⟨?_, ?_⟩
      · intro d
        rw [(releaseConnection_frame σ c).closes]
      · intro d hd
        exact ((releaseConnection_frees σ c).released d).mpr (Or.inl hd)
  | unregistered g grp _ =>
      rw [Server.unregister]
      split <;> exact ⟨fun _ => le_refl _, fun _ h => h⟩
  | _ => exact ⟨fun _ => le_refl _, fun _ h => h⟩

theorem happens_later (h : Happens cfg σ σ' new) : Later σ σ' := by
  cases h with
  | refused => exact ⟨fun _ => le_refl _, fun _ h => h⟩
  | accepted l lease _ =>
      refine ⟨fun _ => le_refl _, ?_⟩
      rintro c ⟨old, hold, hrel⟩
      refine ⟨old, ?_, hrel⟩
      show (σ.leases ++ [lease])[c]? = some old
      rw [List.getElem?_append_left (List.getElem?_eq_some_iff.mp hold).1]
      exact hold
  | bond g a grp bond _ _ hb => exact later_bondMoved hb

/-! ## The law of slots -/

/-- What holds of the slots. -/
structure Slots (σ : Server) : Prop where
  opened : σ.transportOpened = σ.leases.length
  counted : σ.transportClosed = releasedCount σ
  cleanup : ∀ (g : GroupRef) (grp : Group), σ.objs[g]? = some grp →
    ∀ path ∈ grp.bond.shared.heap, path.cleanup = true
  cleaned : ∀ c, OnRecord .cleanedUp σ c → Released σ c
  caused : ∀ c, Released σ c → 0 < σ.closes c ∨ OnRecord .cleanedUp σ c

/-- No bond moves from `σ` to `σ'`. -/
structure BondsKept (σ σ' : Server) : Prop where
  kept : ∀ (g : GroupRef) (grp : Group), σ.objs[g]? = some grp →
    ∃ grp', σ'.objs[g]? = some grp' ∧ grp'.bond = grp.bond
  old : ∀ (g : GroupRef) (grp' : Group), σ'.objs[g]? = some grp' →
    (∃ grp, σ.objs[g]? = some grp ∧ grp'.bond = grp.bond) ∨ grp'.bond = newBond

theorem BondsKept.onRecord (h : BondsKept σ σ') (event : PathRef → Event) (c : Conn) :
    OnRecord event σ' c ↔ OnRecord event σ c := by
  constructor
  · rintro ⟨g, grp', p, hg', hc, he⟩
    rcases h.old g grp' hg' with ⟨grp, hg, hb⟩ | hb
    · rw [hb] at hc he
      exact ⟨g, grp, p, hg, hc, he⟩
    · rw [hb] at he
      cases he
  · rintro ⟨g, grp, p, hg, hc, he⟩
    obtain ⟨grp', hg', hb⟩ := h.kept g grp hg
    rw [← hb] at hc he
    exact ⟨g, grp', p, hg', hc, he⟩

/-- Bonds move where they are called or closed, and nowhere else. -/
theorem moves_bondsKept (h : VkTurnServer.Moves cfg i σ t σ' t' new)
    (hcall : ∀ c hello g, t ≠ .call c hello g) (hclose : ∀ g, t ≠ .runClose g) :
    BondsKept σ σ' := by
  have keep : ∀ {g : GroupRef} {grp grp' : Group}, GroupMoves cfg i t g grp grp' →
      grp'.bond = grp.bond := by
    intro g grp grp' hm
    rcases hm.bond with hb | ⟨c, hello, ht, -⟩ | ⟨ht, -⟩
    · exact hb
    · exact absurd ht (hcall c hello g)
    · exact absurd ht (hclose g)
  refine ⟨?_, ?_⟩
  · intro g grp hg
    obtain ⟨grp', hg', hm⟩ := h.group hg
    exact ⟨grp', hg', keep hm⟩
  · intro g grp' hg'
    rcases h.group_cases hg' with ⟨grp, hg, hm⟩ | ⟨_, _, _, _, _, _, _, rfl⟩
    · exact Or.inl ⟨grp, hg, keep hm⟩
    · exact Or.inr rfl

/-- Slots given back are counted. -/
theorem slots_counted {R : Conn → Prop} (hI : Slots σ) (hf : Frees R σ σ') :
    σ'.transportOpened = σ'.leases.length ∧ σ'.transportClosed = releasedCount σ' := by
  have hnew := hf.counted
  have hold := hI.counted
  refine ⟨?_, by omega⟩
  rw [hf.opened, hf.length]
  exact hI.opened

/-- The law survives where no bond moves, when what is given back is closed. -/
theorem slots_kept {R : Conn → Prop} (hI : Slots σ) (hk : BondsKept σ σ')
    (hf : Frees R σ σ') (hcl : ∀ c, σ.closes c ≤ σ'.closes c)
    (hR : ∀ c, R c → 0 < σ'.closes c) : Slots σ' := by
  refine ⟨(slots_counted hI hf).1, (slots_counted hI hf).2, ?_, ?_, ?_⟩
  · intro g grp' hg' path hp
    rcases hk.old g grp' hg' with ⟨grp, hg, hb⟩ | hb
    · rw [hb] at hp
      exact hI.cleanup g grp hg path hp
    · rw [hb] at hp
      cases hp
  · intro c hc
    exact (hf.released c).mpr (Or.inl (hI.cleaned c ((hk.onRecord _ c).mp hc)))
  · intro c hc
    rcases (hf.released c).mp hc with hold | ⟨hnew, -⟩
    · rcases hI.caused c hold with hpos | hrec
      · exact Or.inl (Nat.lt_of_lt_of_le hpos (hcl c))
      · exact Or.inr ((hk.onRecord _ c).mpr hrec)
    · exact Or.inl (hR c hnew)

/-- An event on record is one of an allocated path. -/
theorem cleanedUp_allocated {arch : Arch} {b : Bond} (h : BondReach arch b) {p : PathRef}
    (hp : .cleanedUp p ∈ b.shared.log) : p < b.shared.heap.length := by
  by_contra hge
  have hnil := ((trails h).1 p).2.1 (Nat.le_of_not_lt hge)
  have hmem : Event.cleanedUp p ∈ trail b.shared.log p :=
    List.mem_filter.mpr ⟨hp, decide_eq_true rfl⟩
  rw [hnil] at hmem
  cases hmem

/-- A path is cleaned up behind the close of its connection. -/
theorem closed_of_cleaned {arch : Arch} {b : Bond} (h : BondReach arch b) {p : PathRef}
    (hp : .cleanedUp p ∈ b.shared.log) : .connClosed p ∈ b.shared.log := by
  have hmem : Event.cleanedUp p ∈ trail b.shared.log p :=
    List.mem_filter.mpr ⟨hp, decide_eq_true rfl⟩
  obtain ⟨rest, hrest⟩ := trail_order h p
  cases htrail : trail b.shared.log p with
  | nil => rw [htrail] at hmem; cases hmem
  | cons e es =>
      rw [htrail] at hrest
      obtain rfl : e = .connClosed p := (List.cons.inj hrest).1
      have hin : Event.connClosed p ∈ trail b.shared.log p := by
        rw [htrail]
        exact List.mem_cons_self ..
      exact (List.mem_filter.mp hin).1

/-- A finished path was cleaned up, if it has a cleanup. -/
theorem cleaned_of_done {arch : Arch} {b : Bond} (h : BondReach arch b) {p : PathRef}
    (hp : .doneClosed p ∈ b.shared.log) (hc : b.shared.hasCleanup p = true) :
    .cleanedUp p ∈ b.shared.log := by
  have htrail := ((trails h).1 p).2.2 hp
  have hin : Event.cleanedUp p ∈ trail b.shared.log p := by
    rw [htrail, disposal, Shared.cleanupEvents, if_pos hc]
    simp
  exact (List.mem_filter.mp hin).1

/-- The law survives a move of a bond. -/
theorem slots_bondMoved {arch : Arch} {g₀ : GroupRef} {grp₀ : Group} {bond : Bond}
    {a : Act VkTurnBond.Choice VkTurnBond.Op} (hI : Slots σ)
    (h₀ : σ.objs[g₀]? = some grp₀) (hr : BondReach arch grp₀.bond)
    (hb : bondStep arch grp₀.bond a = some bond)
    (hclean : ∀ path ∈ bond.shared.heap, path.cleanup = true)
    (hacc : ∀ p c, connOf bond p = some c → c < σ.leases.length) :
    Slots (σ.bondMoved g₀ grp₀ bond) := by
  obtain ⟨es, hes⟩ := bondStep_log_grows hb
  have hf : Frees _ σ (σ.bondMoved g₀ grp₀ bond) := bondMoved_frees hes.symm
  have hself := bondMoved_self bond h₀
  refine ⟨(slots_counted hI hf).1, (slots_counted hI hf).2, ?_, ?_, ?_⟩
  · intro g grp' hg' path hp
    by_cases he : g₀ = g
    · subst he
      obtain rfl := Option.some.inj (hself.symm.trans hg')
      exact hclean path hp
    · rw [bondMoved_other grp₀ bond he] at hg'
      exact hI.cleanup g grp' hg' path hp
  · rintro c ⟨g, grp', p, hg', hc, hp⟩
    rw [hf.released]
    by_cases he : g₀ = g
    · subst he
      obtain rfl := Option.some.inj (hself.symm.trans hg')
      rw [show ({ grp₀ with bond := bond } : Group).bond.shared.log
        = grp₀.bond.shared.log ++ es from hes.symm] at hp
      rcases List.mem_append.mp hp with hold | hnew
      · -- cleaned up before: the path was allocated then, with the same connection
        have hlt := cleanedUp_allocated hr hold
        have hsome : connOf grp₀.bond p = some (grp₀.bond.shared.heap[p]).conn := by
          rw [connOf, List.getElem?_eq_getElem hlt]
          rfl
        have hsame := connOf_step hb hsome
        obtain rfl := Option.some.inj (hsame.symm.trans hc)
        exact Or.inl (hI.cleaned _ ⟨g₀, grp₀, p, h₀, hsome, hold⟩)
      · exact Or.inr ⟨⟨p, hnew, hc⟩, hacc p c hc⟩
    · rw [bondMoved_other grp₀ bond he] at hg'
      exact Or.inl (hI.cleaned c ⟨g, grp', p, hg', hc, hp⟩)
  · intro c hc
    rcases (hf.released c).mp hc with hold | ⟨⟨p, hp, hcp⟩, -⟩
    · rcases hI.caused c hold with hpos | ⟨g, grp, p, hg, hcp, hp⟩
      · rw [(bondMoved_frame σ g₀ grp₀ bond).closes]
        exact Or.inl hpos
      · refine Or.inr ?_
        by_cases he : g₀ = g
        · subst he
          obtain rfl : grp₀ = grp := Option.some.inj (h₀.symm.trans hg)
          refine ⟨g₀, _, p, hself, connOf_step hb hcp, ?_⟩
          exact (bondStep_log_grows hb).subset hp
        · exact ⟨g, grp, p, by rw [bondMoved_other grp₀ bond he]; exact hg, hcp, hp⟩
    · refine Or.inr ⟨g₀, _, p, hself, hcp, ?_⟩
      show Event.cleanedUp p ∈ bond.shared.log
      rw [← hes]
      exact List.mem_append_right _ hp

/-- In particular one in which it gets no path. -/
theorem slots_bondQuiet {arch : Arch} {g : GroupRef} {grp : Group} {bond : Bond}
    {a : Act VkTurnBond.Choice VkTurnBond.Op} (hI : Slots σ)
    (hg : σ.objs[g]? = some grp) (hr : BondReach arch grp.bond)
    (hb : bondStep arch grp.bond a = some bond)
    (hheap : bond.shared.heap = grp.bond.shared.heap)
    (hpath : ∀ (p : PathRef) (c : Conn), connOf grp.bond p = some c → c < σ.leases.length) :
    Slots (σ.bondMoved g grp bond) := by
  refine slots_bondMoved hI hg hr hb ?_ ?_
  · rw [hheap]
    exact hI.cleanup g grp hg
  · intro p c hc
    rw [connOf, hheap] at hc
    exact hpath p c hc

/-- What a handler's deferred functions rely on. -/
def Owing (_ : Nat) (σ : Server) : VkTurnServer.Pc → Prop
  | .releasing c _ => 0 < σ.closes c
  | .done c _ => Released σ c
  | _ => True

theorem owing_later {j : Nat} {u : VkTurnServer.Pc} (h : Later σ σ')
    (hu : Owing j σ u) : Owing j σ' u := by
  cases u with
  | releasing c o => exact Nat.lt_of_lt_of_le hu (h.closes c)
  | done c o => exact h.released c hu
  | _ => trivial

theorem owing_step (h : VkTurnServer.Moves cfg i σ t σ' t' new)
    (hacc : ∀ c, t.conn = some c → c < σ.leases.length) :
    Owing i σ' t' := by
  cases h with
  | closed c o =>
      show 0 < Function.update σ.closes c (σ.closes c + 1) c
      rw [Function.update_self]
      exact Nat.succ_pos _
  | released c o =>
      exact ((releaseConnection_frees σ c).released c).mpr (Or.inr ⟨rfl, hacc c rfl⟩)
  | checked c hello =>
      rw [afterCheck]
      split <;> trivial
  | _ => trivial

/-- The law survives a section. -/
theorem slots_step (h : VkTurnServer.Moves cfg i σ t σ' t' new) (hI : Slots σ)
    (hL : Owing i σ t) (hacc : ∀ c, t.conn = some c → c < σ.leases.length)
    (hr : ∀ (g : GroupRef) (grp : Group), σ.objs[g]? = some grp →
      BondReach cfg.arch grp.bond)
    (hpath : ∀ (g : GroupRef) (grp : Group) (p : PathRef) (c : Conn),
      σ.objs[g]? = some grp → connOf grp.bond p = some c → c < σ.leases.length) :
    Slots σ' := by
  have hlater := moves_later h
  have hkept := moves_bondsKept h
  cases h with
  | called c hello g grp bond hg hb =>
      obtain ⟨-, -, -, hheap⟩ := VkTurnHomogeneity.adders_addConn hb
      refine slots_bondMoved hI hg (hr g grp hg) hb ?_ ?_
      · intro path hp
        rw [hheap] at hp
        rcases List.mem_append.mp hp with hold | hnew
        · exact hI.cleanup g grp hg path hold
        · rw [List.mem_singleton.mp hnew]
      · intro p d hd
        obtain ⟨path, hp, rfl⟩ := Option.map_eq_some_iff.mp hd
        have hmem := List.mem_of_getElem? hp
        rw [hheap] at hmem
        rcases List.mem_append.mp hmem with hold | hnew
        · obtain ⟨q, hq⟩ := List.getElem?_of_mem hold
          exact hpath g grp q _ hg (by rw [connOf, hq]; rfl)
        · rw [List.mem_singleton.mp hnew]
          exact hacc c rfl
  | runCloses g grp bond hg hb =>
      exact slots_bondQuiet hI hg (hr g grp hg) hb (bondStep_close_heap hb)
        fun p c hc => hpath g grp p c hg hc
  | released c o =>
      refine slots_kept hI (hkept (fun _ _ _ ht => (by cases ht)) fun _ ht => (by cases ht))
        (releaseConnection_frees σ c) hlater.closes ?_
      rintro d rfl
      exact Nat.lt_of_lt_of_le hL (hlater.closes d)
  | unregistered g grp _ =>
      refine slots_kept hI (hkept (fun _ _ _ ht => (by cases ht)) fun _ ht => (by cases ht))
        (frees_of_eq ?_ ?_ ?_ ?_) hlater.closes (fun _ hf => hf.elim) <;>
      · rw [Server.unregister]
        split <;> rfl
  | _ =>
      exact slots_kept hI (hkept (fun _ _ _ ht => (by cases ht)) fun _ ht => (by cases ht))
        (frees_of_eq rfl rfl rfl rfl) hlater.closes fun _ hf => hf.elim

/-- The law survives what happens outside. -/
theorem slots_happens (h : Happens cfg σ σ' new) (hI : Slots σ)
    (hr : ∀ (g : GroupRef) (grp : Group), σ.objs[g]? = some grp →
      BondReach cfg.arch grp.bond)
    (hpath : ∀ (g : GroupRef) (grp : Group) (p : PathRef) (c : Conn),
      σ.objs[g]? = some grp → connOf grp.bond p = some c → c < σ.leases.length) :
    Slots σ' := by
  have hlater := happens_later h
  cases h with
  | refused => exact ⟨hI.opened, hI.counted, hI.cleanup, hI.cleaned, hI.caused⟩
  | accepted l lease hok =>
      have hfresh := acquire_fresh hok
      refine ⟨?_, ?_, hI.cleanup, ?_, ?_⟩
      · show σ.transportOpened + 1 = (σ.leases ++ [lease]).length
        rw [List.length_append, List.length_singleton, hI.opened]
      · show σ.transportClosed = (σ.leases ++ [lease]).countP _
        rw [List.countP_append, List.countP_singleton, hfresh]
        exact hI.counted
      · intro c hc
        exact hlater.released c (hI.cleaned c hc)
      · rintro c ⟨old, hold, hrel⟩
        have hold' : (σ.leases ++ [lease])[c]? = some old := hold
        rcases Nat.lt_trichotomy c σ.leases.length with hlt | heq | hgt
        · rw [List.getElem?_append_left hlt] at hold'
          exact hI.caused c ⟨old, hold', hrel⟩
        · subst heq
          rw [List.getElem?_concat_length] at hold'
          obtain rfl := Option.some.inj hold'
          cases hfresh.symm.trans hrel
        · have hlt := (List.getElem?_eq_some_iff.mp hold').1
          rw [List.length_append, List.length_singleton] at hlt
          exact absurd hgt (Nat.not_lt.mpr (Nat.lt_succ_iff.mp hlt))
  | bond g a grp bond hg hallow hb =>
      exact slots_bondQuiet hI hg (hr g grp hg) hb (bondStep_heap hb (not_addConn hallow))
        fun p c hc => hpath g grp p c hg hc

/-! ## The books of the limiter -/

theorem books_bondMoved {g : GroupRef} {grp : Group} {bond : Bond}
    {a : Act VkTurnBond.Choice VkTurnBond.Op} (hb : bondStep cfg.arch grp.bond a = some bond)
    (hI : Books σ) : Books (σ.bondMoved g grp bond) := by
  obtain ⟨es, hes⟩ := bondStep_log_grows hb
  exact (bondMoved_frees hes.symm).books hI

/-- Two places of the server give slots back, both by `releaseConnection`. -/
theorem moves_books (h : VkTurnServer.Moves cfg i σ t σ' t' new) (hI : Books σ) : Books σ' := by
  cases h with
  | called c hello g grp bond _ hb => exact books_bondMoved hb hI
  | runCloses g grp bond _ hb => exact books_bondMoved hb hI
  | released c o => exact (releaseConnection_frees σ c).books hI
  | unregistered g grp _ =>
      rw [Server.unregister]
      split <;> exact hI
  | _ => exact hI

/-- The accept loop takes a slot for each connection it keeps. -/
theorem happens_books (h : Happens cfg σ σ' new) (hI : Books σ) : Books σ' := by
  cases h with
  | refused => exact hI
  | accepted l lease hok => exact hI.acquire hok (by rw [acquire_fresh hok]; rfl) rfl
  | bond g a grp bond _ _ hb => exact books_bondMoved hb hI

end Step

section Reached

variable {cfg : Config} {limiter : ConnectionLimiter} {s : ServerPool}
variable {ok : ServerPool → Act VkTurnServer.Choice VkTurnServer.Op → Prop}

theorem path_accepted (h : Reach (serverStep cfg) ok (newServer limiter) s)
    (g : GroupRef) (grp : Group) (p : PathRef) (c : Conn)
    (hg : s.shared.objs[g]? = some grp) (hc : connOf grp.bond p = some c) :
    c < s.shared.leases.length := by
  obtain ⟨i, t, ht, htc, -⟩ := handed_of_path h hg hc
  exact conn_accepted h ht htc

/-- **SLOTS**: the law holds throughout every run. -/
theorem slots (h : Reach (serverStep cfg) ok (newServer limiter) s) :
    Annotated Slots Owing s := by
  refine Machine.owickiGries (M := serverMachine cfg)
    (J := Reach (serverStep cfg) ok (newServer limiter)) (fun s hs => hs)
    Slots Owing ?_ ?_ ?_ ?_ h
  · refine ⟨⟨rfl, rfl, ?_, ?_, ?_⟩, fun i t ht => absurd ht (Option.some_ne_none t).symm⟩
    · intro g grp hg
      exact absurd hg (Option.some_ne_none grp).symm
    · rintro c ⟨g, grp, p, hg, -⟩
      exact absurd hg (Option.some_ne_none grp).symm
    · rintro c ⟨lease, hl, -⟩
      exact absurd hl (Option.some_ne_none lease).symm
  · intro s i t a σ' t' new hreach ht _ he hI hL
    have hm := exec_moves he
    have hacc : ∀ c, t.conn = some c → c < s.shared.leases.length :=
      fun c hc => conn_accepted hreach ht hc
    refine ⟨slots_step hm hI hL hacc (bonds_reached hreach) (path_accepted hreach),
      owing_step hm hacc, ?_⟩
    intro n u hu
    cases hm with
    | startedNow c g grp _ _ =>
        rw [List.mem_singleton.mp hu]
        exact trivial
    | _ => cases hu
  · intro s i j t u a σ' t' new _ _ _ _ he _ _ hLu
    exact owing_later (moves_later (exec_moves he)) hLu
  · intro s e σ' new hreach _ he hI
    have hh := outside_happens he
    refine ⟨slots_happens hh hI (bonds_reached hreach) (path_accepted hreach), ?_, ?_⟩
    · intro n u hu
      cases hh with
      | accepted l lease _ =>
          rw [List.mem_singleton.mp hu]
          exact trivial
      | _ => cases hu
    · intro j u _ hLu
      exact owing_later (happens_later hh) hLu

/-- **BOOKS**: throughout every run the limiter counts the slots that are not given back. -/
theorem books {maxTotal maxPerIP : Int}
    (hl : newConnectionLimiter maxTotal maxPerIP = .ok limiter)
    (h : Reach (serverStep cfg) ok (newServer limiter) s) : Books s.shared := by
  refine Reach.invariant (I := fun s : ServerPool => Books s.shared) ?_ ?_ h
  · exact Counted.new hl
  · intro s a s' _ hI _ hs
    cases a with
    | run i a =>
        obtain ⟨t, σ', t', new, -, he, rfl⟩ := Machine.step_run hs
        exact moves_books (exec_moves he) hI
    | env e =>
        obtain ⟨σ', new, he, rfl⟩ := Machine.step_env hs
        exact happens_books (outside_happens he) hI

/-- What a slot was given back for was closed before. -/
theorem released_closed (h : Reach (serverStep cfg) ok (newServer limiter) s) {c : Conn}
    (hr : Released s.shared c) : ConnClosed s.shared c := by
  rcases (slots h).1.caused c hr with hpos | ⟨g, grp, p, hg, hc, hp⟩
  · exact Or.inl hpos
  · exact Or.inr ⟨g, grp, p, hg, hc, closed_of_cleaned (bonds_reached h g grp hg) hp⟩

/-- A path whose slot has not been given back is listed, or a goroutine of the
    bond has it. -/
theorem released_or_held (h : Reach (serverStep cfg) ok (newServer limiter) s)
    {g : GroupRef} {grp : Group} (hg : s.shared.objs[g]? = some grp) {p : PathRef}
    {c : Conn} (hc : connOf grp.bond p = some c) :
    Released s.shared c ∨ p ∈ grp.bond.shared.bond.paths ∨
      ∃ u ∈ grp.bond.threads, owner u = some p := by
  have hI := (slots h).1
  have hbond := bonds_reached h g grp hg
  obtain ⟨path, hp, rfl⟩ := Option.map_eq_some_iff.mp hc
  rcases finished_or_held hbond (List.getElem?_eq_some_iff.mp hp).1 with
    hdone | hmem | ⟨j, u, hu, ho⟩
  · refine Or.inl (hI.cleaned _ ⟨g, grp, p, hg, hc, ?_⟩)
    refine cleaned_of_done hbond hdone ?_
    rw [Shared.hasCleanup, hp]
    exact hI.cleanup g grp hg path (List.mem_of_getElem? hp)
  · exact Or.inr (Or.inl hmem)
  · exact Or.inr (Or.inr ⟨u, List.mem_of_getElem? hu, ho⟩)

end Reached

/-- **A SLOT IS RELEASED ONCE, BEHIND A CLOSE**: in every state of the server,
    under every interleaving of handlers, path removals, bond closes and late
    handovers, `TransportConnectionClosed` was counted once for each slot that
    was given back and for nothing else, the limiter the server was made with
    counts, in all and by address, the slots that are not given back, and of every
    accepted connection:

    * its slot is not given back before it is closed;
    * it has a handler, and when that has kept the connection and is done, the
      slot is given back;
    * when the handler has handed it over, it is on a path, and the slot is given
      back unless the path is listed or a goroutine of the bond has it; a bond
      whose `Close` has returned and in which no call is in progress has given
      it back;
    * when `AddWithCleanup` returned an error, or was not called, no bond has a
      path with the connection, so none has closed it or run its cleanup. -/
theorem transport_slot_released_once (cfg : Config) (limiter : ConnectionLimiter)
    (s : ServerPool) (h : ServerReach cfg limiter s) :
    s.shared.transportOpened = s.shared.leases.length ∧
      s.shared.transportClosed = s.shared.leases.countP (·.released) ∧
      (∀ maxTotal maxPerIP, newConnectionLimiter maxTotal maxPerIP = .ok limiter →
        s.shared.limiter.total = s.shared.leases.countP (fun lease => !lease.released) ∧
        ∀ ip, s.shared.limiter.count ip
          = s.shared.leases.countP fun lease => !lease.released && decide (lease.ip = ip)) ∧
      ∀ c lease, s.shared.leases[c]? = some lease →
        (lease.released = true → ConnClosed s.shared c) ∧
        (∃ t ∈ s.threads, t.conn = some c) ∧
        (∀ o, .done c o ∈ s.threads → lease.released = true) ∧
        (.accepted c ∈ s.threads → ∃ (g : GroupRef) (grp : Group) (p : PathRef),
          s.shared.objs[g]? = some grp ∧ connOf grp.bond p = some c ∧
          (lease.released = true ∨ p ∈ grp.bond.shared.bond.paths ∨
            ∃ u ∈ grp.bond.threads, owner u = some p) ∧
          (.returned .closed ∈ grp.bond.threads →
            (∀ u ∈ grp.bond.threads, inCall u = false) → lease.released = true)) ∧
        (∀ o t, t ∈ s.threads →
          t = .closing c o ∨ t = .releasing c o ∨ t = .done c o →
          ∀ (g : GroupRef) (grp : Group) (p : PathRef), s.shared.objs[g]? = some grp →
            connOf grp.bond p ≠ some c) := by
  obtain ⟨hI, hL⟩ := slots h
  refine ⟨hI.opened, hI.counted, ?_, ?_⟩
  · intro maxTotal maxPerIP hnew
    have hbooks := books hnew h
    exact ⟨hbooks.total, hbooks.count⟩
  intro c lease hl
  have hrel : Released s.shared c → lease.released = true := by
    rintro ⟨l, hl', hr⟩
    obtain rfl : l = lease := Option.some.inj (hl'.symm.trans hl)
    exact hr
  refine ⟨?_, ?_, ?_, ?_, ?_⟩
  · intro hr
    exact released_closed h ⟨lease, hl, hr⟩
  · obtain ⟨i, t, ht, hc⟩ := handler_exists h (List.getElem?_eq_some_iff.mp hl).1
    exact ⟨t, List.mem_of_getElem? ht, hc⟩
  · intro o ho
    obtain ⟨i, hi⟩ := List.getElem?_of_mem ho
    exact hrel (hL i _ hi)
  · intro hacc
    obtain ⟨i, hi⟩ := List.getElem?_of_mem hacc
    obtain ⟨g, grp, p, hg, hc⟩ := path_of_handed h hi
      (show 0 < handed c (.accepted c) by rw [handed, if_pos rfl]; exact Nat.one_pos)
    have hcases := released_or_held h hg hc
    refine ⟨g, grp, p, hg, hc, hcases.imp_left hrel, ?_⟩
    intro hclosed hquiet
    rcases hcases with hr | hmem | ⟨u, hu, ho⟩
    · exact hrel hr
    · obtain ⟨hsealed, hguard⟩ := sealed_sweep (bonds_reached h g grp hg)
      obtain ⟨j, hj⟩ := List.getElem?_of_mem hclosed
      rw [(hsealed.empty ((hguard j _ hj).finish rfl)).2] at hmem
      cases hmem
    · have := inCall_of_owner ho
      exact absurd ((hquiet u hu).symm.trans this) Bool.false_ne_true
  · rintro o t ht hkept g grp p hg
    obtain ⟨i, hi⟩ := List.getElem?_of_mem ht
    rcases hkept with rfl | rfl | rfl
    · exact not_on_path h hi rfl rfl hg p
    · exact not_on_path h hi rfl rfl hg p
    · exact not_on_path h hi rfl rfl hg p

/-- A path joins, the group's run fails, and the bond's `Close` sweeps the path. -/
def joinThenSweep : List (Act VkTurnServer.Choice VkTurnServer.Op) :=
  VkTurnHomogeneity.enterBond 0 (VkTurnHomogeneity.helloRecord "1")
    ++ VkTurnHomogeneity.joinBond 0 0 ++ [.run 1 .fail, .run 1 .go]
    ++ List.replicate 14 (.env (.bond 0 (.run 2 .go)))

/-- The slot of a path that the bond swept is given back to the limiter, behind a close. -/
theorem swept_slot_released :
    ∃ s, ServerReach VkTurnHomogeneity.bondConfig VkTurnHomogeneity.fourConnections s ∧
      s.shared.leases.map (·.released) = [true] ∧ s.shared.transportClosed = 1 ∧
      s.shared.limiter.total = 0 ∧ (∀ ip, s.shared.limiter.count ip = 0) ∧
      ConnClosed s.shared 0 := by
  obtain ⟨s, hr, hp⟩ := Reach.of_follow (serverStep VkTurnHomogeneity.bondConfig) anyStep
    (newServer VkTurnHomogeneity.fourConnections) joinThenSweep
    (fun s : ServerPool => decide (s.shared.leases.map (·.released) = [true])) (by decide)
  have hleases := of_decide_eq_true hp
  obtain ⟨-, hcount, hlimiter, hall⟩ := transport_slot_released_once _ _ s hr
  obtain ⟨htotal, hper⟩ := hlimiter 4 4 rfl
  obtain ⟨lease, hl, hrel⟩ : ∃ lease, s.shared.leases = [lease] ∧ lease.released = true := by
    obtain ⟨lease, hl, hrel⟩ := List.map_eq_singleton_iff.mp hleases
    exact ⟨lease, hl, hrel⟩
  refine ⟨s, hr, hleases, ?_, ?_, ?_, (hall 0 lease (by rw [hl]; rfl)).1 hrel⟩
  · rw [hcount, hl, List.countP_singleton, if_pos hrel]
  · rw [htotal, hl, List.countP_singleton, hrel]
    rfl
  · intro ip
    rw [hper, hl, List.countP_singleton, hrel]
    rfl

end VkTurnTransportSlot
