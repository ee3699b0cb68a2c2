import VkTurn.HandoverProofs

/-! # A group that can still take paths is registered

    The termination callback takes a group out of the table only after the
    group's run has closed its bond.  So a group is registered under its ID, or
    its bond has been swept (`group_registered`); and since a swept bond lists
    no path any more, a path that is being listed joins the group registered
    under its ID (`listing_registered`). -/

namespace VkTurnRegistration

open ThreadPool VkTurnStripe VkTurnBond VkTurnBondHello VkTurnServer VkTurnHandover
open VkTurnDisposal GoText GoMap

/-- The `closeOnce` of a bond is over: its sweep has been made. -/
def swept (b : Bond) : Prop := b.shared.bond.closeOnce = .finished

/-- What holds of the group table. -/
structure Tabled (σ : Server) : Prop where
  ids : ∀ (g : GroupRef) (grp : Group), σ.objs[g]? = some grp → grp.id = grp.hello.bondID
  registered : ∀ (g : GroupRef) (grp : Group), σ.objs[g]? = some grp →
    get σ.groups grp.id = some g ∨ swept grp.bond

/-- What the run of a group relies on when it comes to its callback. -/
def Closed (_ : Nat) (σ : Server) (t : VkTurnServer.Pc) : Prop :=
  ∀ g, t = .runDone g → ∃ grp, σ.objs[g]? = some grp ∧ swept grp.bond

theorem groupMoves_swept {cfg : Config} {i : Nat} {t : VkTurnServer.Pc} {g : GroupRef}
    {grp grp' : Group} (h : GroupMoves cfg i t g grp grp') (hs : swept grp.bond) :
    swept grp'.bond := by
  rcases h.bond with hb | ⟨c, hello, -, hb⟩ | ⟨-, hb⟩
  · rw [hb]; exact hs
  · exact bondStep_finished hb hs
  · exact bondStep_finished hb hs

section Step

variable {cfg : Config} {i : Nat} {σ σ' : Server} {t t' : VkTurnServer.Pc}
variable {new : List VkTurnServer.Pc}

/-- Creating a group takes nobody's place: the ID was free. -/
theorem tabled_create (hI : Tabled σ) {hello : BondHello}
    (hfree : get σ.groups hello.bondID = none) : Tabled (σ.create hello) := by
  have hcase : ∀ (g : GroupRef) (grp' : Group), (σ.create hello).objs[g]? = some grp' →
      σ.objs[g]? = some grp' ∨
        (g = σ.objs.length ∧ grp' = { id := hello.bondID, hello := hello }) := by
    intro g grp' hg'
    have hg'' : (σ.objs ++ [({ id := hello.bondID, hello := hello } : Group)])[g]?
        = some grp' := hg'
    rcases Nat.lt_trichotomy g σ.objs.length with hlt | heq | hgt
    · rw [List.getElem?_append_left hlt] at hg''
      exact Or.inl hg''
    · subst heq
      rw [List.getElem?_concat_length] at hg''
      exact Or.inr ⟨rfl, (Option.some.inj hg'').symm⟩
    · have hlt := (List.getElem?_eq_some_iff.mp hg'').1
      rw [List.length_append, List.length_singleton] at hlt
      exact absurd hgt (Nat.not_lt.mpr (Nat.lt_succ_iff.mp hlt))
  refine ⟨?_, ?_⟩
  · intro g grp' hg'
    rcases hcase g grp' hg' with hg | ⟨-, rfl⟩
    · exact hI.ids g grp' hg
    · rfl
  · intro g grp' hg'
    show get (insert σ.groups hello.bondID σ.objs.length) grp'.id = some g ∨ _
    rw [get_insert]
    rcases hcase g grp' hg' with hg | ⟨rfl, rfl⟩
    · rcases hI.registered g grp' hg with hreg | hs
      · have hne : grp'.id ≠ hello.bondID := by
          intro he
          rw [he, hfree] at hreg
          cases hreg
        rw [if_neg hne]
        exact Or.inl hreg
      · exact Or.inr hs
    · exact Or.inl (if_pos rfl)

/-- Unregistering a swept group leaves the others where they are. -/
theorem tabled_unregister (hI : Tabled σ) {g : GroupRef} {grp : Group}
    (hg : σ.objs[g]? = some grp) (hs : swept grp.bond) :
    Tabled (σ.unregister g grp.id) := by
  rw [Server.unregister]
  split
  · refine ⟨hI.ids, ?_⟩
    intro g' grp' hg'
    show get (delete σ.groups grp.id) grp'.id = some g' ∨ _
    rw [get_delete]
    rcases hI.registered g' grp' hg' with hreg | hs'
    · by_cases he : grp'.id = grp.id
      · -- the entry that goes is that of `g` itself
        rename_i hmine
        rw [he, hmine] at hreg
        obtain rfl : g = g' := Option.some.inj hreg
        obtain rfl : grp = grp' := Option.some.inj (hg.symm.trans hg')
        exact Or.inr hs
      · rw [if_neg he]
        exact Or.inl hreg
    · exact Or.inr hs'
  · exact hI

theorem tabled_step (h : VkTurnServer.Moves cfg i σ t σ' t' new) (hI : Tabled σ)
    (hL : Closed i σ t) : Tabled σ' := by
  rcases h.groups_eq with hgroups | ⟨c, hello, -, hfree, rfl⟩ | ⟨g, grp, rfl, hg, rfl⟩
  · -- the table is as it was, and so are the groups but for their bonds
    have hold : ∀ (g : GroupRef) (grp' : Group), σ'.objs[g]? = some grp' →
        ∃ grp, σ.objs[g]? = some grp ∧ GroupMoves cfg i t g grp grp' := by
      intro g grp' hg'
      rcases h.group_cases hg' with hold | ⟨c, hello, -, -, -, hfree, rfl, -⟩
      · exact hold
      · have hins : get (insert σ.groups hello.bondID σ.objs.length) hello.bondID
            = get σ.groups hello.bondID := congrArg (get · hello.bondID) hgroups
        rw [get_insert, if_pos rfl, hfree] at hins
        cases hins
    refine ⟨?_, ?_⟩
    · intro g grp' hg'
      obtain ⟨grp, hg, hm⟩ := hold g grp' hg'
      rw [hm.id, hm.hello]
      exact hI.ids g grp hg
    · intro g grp' hg'
      obtain ⟨grp, hg, hm⟩ := hold g grp' hg'
      rw [hgroups, hm.id]
      rcases hI.registered g grp hg with hreg | hs
      · exact Or.inl hreg
      · exact Or.inr (groupMoves_swept hm hs)
  · exact tabled_create hI hfree
  · obtain ⟨grp₀, hg₀, hs⟩ := hL g rfl
    obtain rfl : grp₀ = grp := Option.some.inj (hg₀.symm.trans hg)
    exact tabled_unregister hI hg hs

theorem closed_step (h : VkTurnServer.Moves cfg i σ t σ' t' new)
    (hbond : ∀ (g : GroupRef) (grp : Group), σ.objs[g]? = some grp →
      BondReach cfg.arch grp.bond) : Closed i σ' t' := by
  intro g ht'
  cases h with
  | runClosed g₀ tid grp hg hret =>
      cases ht'
      exact ⟨grp, hg, ((sealed_sweep (hbond g grp hg)).2 tid _ hret).finish rfl⟩
  | checked c hello =>
      rw [afterCheck] at ht'
      split at ht' <;> cases ht'
  | _ => cases ht'

theorem closed_stable (h : VkTurnServer.Moves cfg i σ t σ' t' new) {j : Nat}
    {u : VkTurnServer.Pc} (hu : Closed j σ u) : Closed j σ' u := by
  intro g hdone
  obtain ⟨grp, hg, hs⟩ := hu g hdone
  obtain ⟨grp', hg', hm⟩ := h.group hg
  exact ⟨grp', hg', groupMoves_swept hm hs⟩

end Step

/-- A group outside the server's sections keeps its ID and its hello, and a swept
    bond stays swept. -/
theorem happens_group {cfg : Config} {σ σ' : Server} {new : List VkTurnServer.Pc}
    (h : Happens cfg σ σ' new) {g : GroupRef} {grp : Group}
    (hg : σ.objs[g]? = some grp) :
    ∃ grp', σ'.objs[g]? = some grp' ∧ grp'.id = grp.id ∧ grp'.hello = grp.hello ∧
      (swept grp.bond → swept grp'.bond) := by
  obtain ⟨grp', hg', hmove⟩ := h.group hg
  refine ⟨grp', hg', ?_⟩
  rcases hmove with rfl | ⟨a, bond, -, hb, rfl⟩
  · exact ⟨rfl, rfl, fun hs => hs⟩
  · exact ⟨rfl, rfl, fun hs => bondStep_finished hb hs⟩

theorem tabled_happens {cfg : Config} {σ σ' : Server} {new : List VkTurnServer.Pc}
    (h : Happens cfg σ σ' new) (hI : Tabled σ) : Tabled σ' := by
  obtain ⟨-, -, -, hgroups, -⟩ := h.frame
  refine ⟨?_, ?_⟩
  · intro g grp' hg'
    obtain ⟨grp, hg, rfl | ⟨a, bond, -, -, rfl⟩⟩ := h.group_old hg'
    · exact hI.ids g _ hg
    · exact hI.ids g grp hg
  · intro g grp' hg'
    rw [hgroups]
    obtain ⟨grp, hg, rfl | ⟨a, bond, -, hb, rfl⟩⟩ := h.group_old hg'
    · exact hI.registered g _ hg
    · rcases hI.registered g grp hg with hreg | hswept
      · exact Or.inl hreg
      · exact Or.inr (bondStep_finished hb hswept)

section Reached

variable {cfg : Config} {limiter : VkTurnLimiter.ConnectionLimiter} {s : ServerPool}
variable {ok : ServerPool → Act VkTurnServer.Choice VkTurnServer.Op → Prop}

/-- **REGISTERED OR SWEPT**: throughout every run, a group is registered under
    its ID or its bond has been swept. -/
theorem group_registered (h : Reach (serverStep cfg) ok (newServer limiter) s) :
    Annotated Tabled Closed s := by
  refine Machine.owickiGries (M := serverMachine cfg)
    (J := Reach (serverStep cfg) ok (newServer limiter)) (fun s hs => hs)
    Tabled Closed ?_ ?_ ?_ ?_ h
  · refine ⟨⟨?_, ?_⟩, fun i t ht => absurd ht (Option.some_ne_none t).symm⟩ <;>
    · intro g grp hg
      exact absurd hg (Option.some_ne_none grp).symm
  · intro s i t a σ' t' new hreach _ _ he hI hL
    have hm := exec_moves he
    refine ⟨tabled_step hm hI hL, closed_step hm (bonds_reached hreach), ?_⟩
    intro n u hu
    cases hm with
    | startedNow c g grp _ _ =>
        rw [List.mem_singleton.mp hu]
        exact fun g' hd => (by cases hd)
    | _ => cases hu
  · intro s i j t u a σ' t' new _ _ _ _ he _ _ hLu
    exact closed_stable (exec_moves he) hLu
  · intro s e σ' new _ _ he hI
    have hh := outside_happens he
    refine ⟨tabled_happens hh hI, ?_, ?_⟩
    · intro n u hu
      cases hh with
      | accepted l lease _ =>
          rw [List.mem_singleton.mp hu]
          exact fun g hd => (by cases hd)
      | _ => cases hu
    · intro j u _ hLu g hdone
      obtain ⟨grp, hg, hs⟩ := hLu g hdone
      obtain ⟨grp', hg', -, -, hkeep⟩ := happens_group hh hg
      exact ⟨grp', hg', hkeep hs⟩

/-- **NO PATH JOINS AN UNREGISTERED GROUP**: where an `AddConn` is about to list
    its path, the group is registered under its ID. -/
theorem listing_registered (h : Reach (serverStep cfg) ok (newServer limiter) s)
    {g : GroupRef} {grp : Group} (hg : s.shared.objs[g]? = some grp) {tid : Nat}
    {p : PathRef} (ht : grp.bond.threads[tid]? = some (.addTest p)) :
    get s.shared.groups grp.id = some g := by
  rcases (group_registered h).1.registered g grp hg with hreg | hs
  · exact hreg
  · obtain ⟨hsealed, hguard⟩ := sealed_sweep (bonds_reached h g grp hg)
    have hstop := (hsealed.empty hs).1
    have hopen := (hguard tid _ ht).adding p rfl
    exact absurd (hopen.symm.trans hstop) Bool.false_ne_true

end Reached

end VkTurnRegistration
