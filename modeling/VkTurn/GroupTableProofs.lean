import VkTurn.HomogeneityProofs
import VkTurn.RegistrationProofs

/-! # The group table

    A group is put into the table by one call of `add`, may get its first path
    from another, is started by whichever call comes to `startOnce` first, and
    the call that put it there may itself be refused because the group is full.

    Four laws of the whole pool, each under every interleaving:

    * `one_run` — a started group has one run, any other group none;
    * `entry_or_ended` — a group is in the table until its callback was
      executed, and never again after that;
    * `delivered` — the handler of a connection on a path of a group is still on
      its way to that group's `startOnce`, or the group is started;
    * `not_orphaned` — a group that is not started has a call on its way to its
      `startOnce`.

    The last one is where a refused call matters: the group was full, so it had
    a path, and the handler of that path is the call on its way. -/

namespace VkTurnGroupTable

open ThreadPool VkTurnStripe VkTurnBond VkTurnBondHello VkTurnServer VkTurnHandover
open VkTurnHomogeneity VkTurnRegistration GoText GoMap

/-! ## Runs of a group -/

/-- The group exists and is started. -/
def startedIn (g : GroupRef) (σ : Server) : Bool := (σ.objs[g]?).any Group.started

/-- The thread is the run of the group. -/
def runs (g : GroupRef) : VkTurnServer.Pc → Bool
  | .runBody d => d = g
  | .serving d => d = g
  | .runClose d => d = g
  | .runClosing d _ => d = g
  | .runDone d => d = g
  | .runEnded d => d = g
  | _ => false

theorem startedIn_set {σ σ' : Server} {g₀ : GroupRef} {grp x : Group}
    (hg : σ.objs[g₀]? = some grp) (hobjs : σ'.objs = σ.objs.set g₀ x) (g : GroupRef) :
    startedIn g σ' = if g₀ = g then x.started else startedIn g σ := by
  have hlt := (List.getElem?_eq_some_iff.mp hg).1
  rw [startedIn, hobjs, List.getElem?_set]
  by_cases he : g₀ = g
  · rw [if_pos he, if_pos hlt, if_pos he]
    rfl
  · rw [if_neg he, if_neg he]
    rfl

/-- A group replaced by one that is as started as before. -/
theorem startedIn_same {σ σ' : Server} {g₀ : GroupRef} {grp : Group} (x : Group)
    (hg : σ.objs[g₀]? = some grp) (hobjs : σ'.objs = σ.objs.set g₀ x)
    (hx : x.started = grp.started) (g : GroupRef) : startedIn g σ' = startedIn g σ := by
  rw [startedIn_set hg hobjs]
  split
  · rename_i he
    rw [← he, startedIn, hg, hx]
    rfl
  · rfl

theorem applyWindow_started (cfg : Config) (grp : Group) :
    (grp.applyWindow cfg).started = grp.started := by
  rw [Group.applyWindow]
  split
  · rfl
  · dsimp only
    split <;> rfl

theorem clear_started (grp : Group) (w : Nat) : (grp.clear w).started = grp.started := by
  rw [Group.clear]
  split <;> rfl

section Step

variable {cfg : Config} {i : Nat} {σ σ' : Server} {t t' : VkTurnServer.Pc}
variable {new : List VkTurnServer.Pc}

/-- A group is started by the section that starts its run, and by no other. -/
theorem moves_started (h : VkTurnServer.Moves cfg i σ t σ' t' new) (g : GroupRef) :
    (startedIn g σ' = startedIn g σ ∧ load (one (runs g)) new = 0) ∨
      (∃ c, t = .start c g ∧ t' = .accepted c) ∧ startedIn g σ = false ∧
        startedIn g σ' = true ∧ load (one (runs g)) new = 1 := by
  cases h with
  | created c hello _ =>
      refine Or.inl ⟨?_, rfl⟩
      show ((σ.objs ++ [_])[g]?).any Group.started = (σ.objs[g]?).any Group.started
      rw [getElem?_snoc]
      by_cases he : g = σ.objs.length
      · rw [if_pos he, List.getElem?_eq_none (le_of_eq he.symm)]
        rfl
      · rw [if_neg he]
  | limitPassed c hello g₀ grp h₀ _ _ =>
      exact Or.inl ⟨startedIn_same { grp with mu := some i } h₀ rfl rfl g, rfl⟩
  | called c hello g₀ grp bond h₀ _ =>
      exact Or.inl ⟨startedIn_same { grp with bond := bond } h₀ (bondMoved_frame ..).objs rfl g,
        rfl⟩
  | added c hello g₀ tid grp r h₀ _ =>
      exact Or.inl ⟨startedIn_same (grp.sized cfg) h₀ rfl
        (applyWindow_started cfg { grp with maxPaths := if (grp.bond.shared.bond.count : Int)
          > grp.maxPaths then (grp.bond.shared.bond.count : Int) else grp.maxPaths }) g, rfl⟩
  | startedNow c g₀ grp h₀ hnot =>
      by_cases he : g₀ = g
      · subst he
        refine Or.inr ⟨⟨c, rfl, rfl⟩, ?_, ?_, ?_⟩
        · rw [startedIn, h₀]
          exact hnot
        · rw [startedIn_set h₀ rfl, if_pos rfl]
        · rw [load_cons, load_nil, one_true (p := runs g₀) (t := .runBody g₀) (decide_eq_true rfl)]
      · refine Or.inl ⟨?_, ?_⟩
        · rw [startedIn_set h₀ rfl, if_neg he]
        · rw [load_cons, load_nil, one_false (p := runs g) (t := .runBody g₀)
            (decide_eq_false he)]
  | installed g₀ grp h₀ _ =>
      exact Or.inl ⟨startedIn_same (grp.install cfg i) h₀ rfl rfl g, rfl⟩
  | cleared g₀ grp h₀ _ =>
      exact Or.inl ⟨startedIn_same _ h₀ rfl (clear_started grp i) g, rfl⟩
  | runCloses g₀ grp bond h₀ _ =>
      exact Or.inl ⟨startedIn_same { grp with bond := bond } h₀ (bondMoved_frame ..).objs rfl g,
        rfl⟩
  | released c o =>
      refine Or.inl ⟨?_, rfl⟩
      rw [startedIn, (releaseConnection_frame σ c).objs]
      rfl
  | unregistered g₀ grp _ =>
      refine Or.inl ⟨?_, rfl⟩
      rw [Server.unregister]
      split <;> rfl
  | _ => exact Or.inl ⟨rfl, rfl⟩

/-- A thread is the run of a group from its start to its end. -/
theorem moves_runs (h : VkTurnServer.Moves cfg i σ t σ' t' new) (g : GroupRef) :
    runs g t' = runs g t := by
  cases h with
  | checked c hello =>
      rw [afterCheck]
      split <;> rfl
  | _ => rfl

theorem happens_started (h : Happens cfg σ σ' new) (g : GroupRef) :
    startedIn g σ' = startedIn g σ ∧ load (one (runs g)) new = 0 := by
  cases h with
  | bond g₀ a grp bond h₀ _ _ =>
      exact ⟨startedIn_same { grp with bond := bond } h₀ (bondMoved_frame ..).objs rfl g, rfl⟩
  | _ => exact ⟨rfl, rfl⟩

end Step

section Reached

variable {cfg : Config} {limiter : VkTurnLimiter.ConnectionLimiter} {s : ServerPool}
variable {ok : ServerPool → Act VkTurnServer.Choice VkTurnServer.Op → Prop}

/-- **ONE RUN**: a started group has one run, any other group none. -/
theorem one_run (h : Reach (serverStep cfg) ok (newServer limiter) s) (g : GroupRef) :
    load (one (runs g)) s.threads = one (startedIn g) s.shared := by
  have hcons := Machine.reach_conserves (M := serverMachine cfg) (fun _ => 0) (one (runs g))
    (one (startedIn g)) rfl ?_ ?_ h
  · simpa using hcons
  · intro i σ t a σ' t' new he
    have hm := exec_moves he
    have hruns := one_congr (moves_runs hm g)
    rcases moves_started hm g with ⟨hsame, hnew⟩ | ⟨-, hnot, hnow, hnew⟩
    · rw [hruns, hnew, one_congr hsame, Nat.add_zero]
    · rw [hruns, hnew, one_false hnot, one_true hnow]
  · intro σ e σ' new he
    obtain ⟨hsame, hnew⟩ := happens_started (outside_happens he) g
    rw [hnew, one_congr hsame]

end Reached

/-! ## Entries of the table -/

/-- The group exists. -/
def made (g : GroupRef) (σ : Server) : Bool := (σ.objs[g]?).isSome

/-- The group is in the table, under its ID. -/
def entered (g : GroupRef) (σ : Server) : Bool :=
  (σ.objs[g]?).any fun grp => get σ.groups grp.id = some g

/-- The callback of the group's run was executed. -/
def ended (g : GroupRef) : VkTurnServer.Pc → Bool
  | .runEnded d => d = g
  | _ => false

theorem runs_of_ended {g : GroupRef} {t : VkTurnServer.Pc} (h : ended g t = true) :
    runs g t = true := by
  cases t <;> first | exact h | cases h

theorem entered_eq {g : GroupRef} {σ : Server} {grp : Group} (hg : σ.objs[g]? = some grp) :
    entered g σ = decide (get σ.groups grp.id = some g) := by
  rw [entered, hg]
  rfl

/-- A group that keeps its ID, in a table that stays. -/
theorem entered_same {g : GroupRef} {σ σ' : Server} (hgroups : σ'.groups = σ.groups)
    (hid : (σ'.objs[g]?).map Group.id = (σ.objs[g]?).map Group.id) :
    entered g σ' = entered g σ ∧ made g σ' = made g σ := by
  unfold entered made
  rw [hgroups]
  cases h : σ.objs[g]? with
  | none =>
      rw [h, Option.map_none, Option.map_eq_none_iff] at hid
      rw [hid]
      exact ⟨rfl, rfl⟩
  | some grp =>
      rw [h, Option.map_some, Option.map_eq_some_iff] at hid
      obtain ⟨grp', hg', hsame⟩ := hid
      rw [hg', Option.any_some, Option.any_some, hsame]
      exact ⟨rfl, rfl⟩

section Step

variable {cfg : Config} {i : Nat} {σ σ' : Server} {t t' : VkTurnServer.Pc}
variable {new : List VkTurnServer.Pc}

/-- Groups keep their IDs, and only `add` makes a group. -/
theorem moves_ids (h : VkTurnServer.Moves cfg i σ t σ' t' new) (g : GroupRef) :
    (σ'.objs[g]?).map Group.id = (σ.objs[g]?).map Group.id ∨
      ∃ c hello, t = .join c hello ∧ σ' = σ.create hello ∧ g = σ.objs.length ∧
        get σ.groups hello.bondID = none := by
  cases hg : σ.objs[g]? with
  | some grp =>
      obtain ⟨grp', hg', hm⟩ := h.group hg
      rw [hg', Option.map_some, Option.map_some, hm.id]
      exact Or.inl rfl
  | none =>
      cases hg' : σ'.objs[g]? with
      | none => exact Or.inl rfl
      | some grp' =>
          obtain ⟨c, hello, ht, -, hlen, hfree, hσ, -⟩ := h.group_new hg hg'
          exact Or.inr ⟨c, hello, ht, hσ, hlen, hfree⟩

/-- Creating a group enters it, and leaves the other entries. -/
theorem entered_create {hello : BondHello} (hfree : get σ.groups hello.bondID = none)
    (g : GroupRef) :
    g = σ.objs.length ∧ entered g σ = false ∧ made g σ = false ∧
        entered g (σ.create hello) = true ∧ made g (σ.create hello) = true ∨
      entered g (σ.create hello) = entered g σ ∧ made g (σ.create hello) = made g σ := by
  have hobjs : (σ.create hello).objs[g]? = if g = σ.objs.length then
      some { id := hello.bondID, hello := hello } else σ.objs[g]? := getElem?_snoc ..
  by_cases hlast : g = σ.objs.length
  · rw [if_pos hlast] at hobjs
    have hnone : σ.objs[g]? = none := List.getElem?_eq_none (le_of_eq hlast.symm)
    refine Or.inl ⟨hlast, ?_, ?_, ?_, ?_⟩
    · rw [entered, hnone]
      rfl
    · rw [made, hnone]
      rfl
    · rw [entered_eq hobjs]
      refine decide_eq_true ?_
      show get (insert σ.groups hello.bondID σ.objs.length) hello.bondID = some g
      rw [get_insert, if_pos rfl, hlast]
    · rw [made, hobjs]
      rfl
  · rw [if_neg hlast] at hobjs
    refine Or.inr ⟨?_, by rw [made, hobjs]; rfl⟩
    cases hg : σ.objs[g]? with
    | none =>
        rw [entered, entered, hobjs, hg]
        rfl
    | some grp =>
        rw [entered_eq (hobjs.trans hg), entered_eq hg]
        show decide (get (insert σ.groups hello.bondID σ.objs.length) grp.id = some g) = _
        rw [get_insert]
        by_cases hid : grp.id = hello.bondID
        · -- the ID was free, and is taken by another group now
          rw [if_pos hid, hid, hfree]
          exact decide_eq_decide.mpr
            ⟨fun he => absurd (Option.some.inj he).symm hlast, fun he => (by cases he)⟩
        · rw [if_neg hid]

/-- Unregistering a group takes out its own entry, if it has one. -/
theorem entered_unregister {g₀ : GroupRef} {grp₀ : Group} (h₀ : σ.objs[g₀]? = some grp₀)
    (g : GroupRef) :
    (entered g (σ.unregister g₀ grp₀.id) = if g₀ = g then false else entered g σ) ∧
      made g (σ.unregister g₀ grp₀.id) = made g σ := by
  have hobjs : (σ.unregister g₀ grp₀.id).objs = σ.objs := by
    rw [Server.unregister]
    split <;> rfl
  refine ⟨?_, by rw [made, hobjs]; rfl⟩
  cases hg : σ.objs[g]? with
  | none =>
      rw [entered, hobjs, hg, entered, hg]
      split <;> rfl
  | some grp =>
      rw [entered_eq ((congrArg (·[g]?) hobjs).trans hg), entered_eq hg, Server.unregister]
      by_cases hown : get σ.groups grp₀.id = some g₀
      · rw [if_pos hown]
        show decide (get (delete σ.groups grp₀.id) grp.id = some g) = _
        rw [get_delete]
        by_cases hid : grp.id = grp₀.id
        · rw [if_pos hid, hid, hown]
          by_cases he : g₀ = g
          · rw [if_pos he]
            rfl
          · rw [if_neg he]
            exact decide_eq_decide.mpr
              ⟨fun hn => (by cases hn), fun hs => absurd (Option.some.inj hs) he⟩
        · rw [if_neg hid]
          by_cases he : g₀ = g
          · subst he
            obtain rfl : grp₀ = grp := Option.some.inj (h₀.symm.trans hg)
            exact absurd rfl hid
          · rw [if_neg he]
      · rw [if_neg hown]
        by_cases he : g₀ = g
        · subst he
          obtain rfl : grp₀ = grp := Option.some.inj (h₀.symm.trans hg)
          rw [if_pos rfl]
          exact decide_eq_false hown
        · rw [if_neg he]

theorem create_ne (σ : Server) (hello : BondHello) : σ ≠ σ.create hello := by
  intro he
  have hlen : σ.objs.length = (σ.objs ++ [_]).length :=
    congrArg (fun σ : Server => σ.objs.length) he
  rw [List.length_append, List.length_singleton] at hlen
  omega

/-- A section enters a new group, executes the callback of one, or leaves the
    table to itself. -/
theorem moves_entered (h : VkTurnServer.Moves cfg i σ t σ' t' new) (g : GroupRef) :
    (entered g σ' = entered g σ ∧ made g σ' = made g σ ∧ ended g t' = ended g t) ∨
      (entered g σ = false ∧ made g σ = false ∧ entered g σ' = true ∧ made g σ' = true ∧
        ended g t' = ended g t) ∨
      (t = .runDone g ∧ t' = .runEnded g ∧ entered g σ' = false ∧ made g σ = true ∧
        made g σ' = true) := by
  have hids := moves_ids h g
  have hgroups := h.groups_eq
  -- a section that is neither of the two
  have hrest : (∀ c hello, t = .join c hello → σ' = σ) → (∀ d, t ≠ .runDone d) →
      entered g σ' = entered g σ ∧ made g σ' = made g σ := by
    intro hjoin hdone
    refine entered_same ?_ ?_
    · rcases hgroups with hsame | ⟨c, hello, ht, -, hσ⟩ | ⟨d, grp, ht, -⟩
      · exact hsame
      · rw [hjoin c hello ht]
      · exact absurd ht (hdone d)
    · rcases hids with hsame | ⟨c, hello, ht, hσ, -⟩
      · exact hsame
      · exact absurd ((hjoin c hello ht).symm.trans hσ) (create_ne σ hello)
  clear hids hgroups
  cases h with
  | created c hello hfree =>
      rcases entered_create hfree g with ⟨-, h1, h2, h3, h4⟩ | ⟨h1, h2⟩
      · exact Or.inr (Or.inl ⟨h1, h2, h3, h4, rfl⟩)
      · exact Or.inl ⟨h1, h2, rfl⟩
  | unregistered g₀ grp₀ h₀ =>
      obtain ⟨h1, h2⟩ := entered_unregister h₀ g
      by_cases he : g₀ = g
      · subst he
        rw [if_pos rfl] at h1
        have hmade : made g₀ σ = true := by
          rw [made, h₀]
          rfl
        exact Or.inr (Or.inr ⟨rfl, rfl, h1, hmade, h2.trans hmade⟩)
      · rw [if_neg he] at h1
        exact Or.inl ⟨h1, h2, decide_eq_false he⟩
  | joined c hello g₀ grp _ _ _ =>
      obtain ⟨h1, h2⟩ := hrest (fun _ _ _ => rfl) (fun d hd => (by cases hd))
      exact Or.inl ⟨h1, h2, rfl⟩
  | joinMismatch c hello g₀ grp _ _ _ =>
      obtain ⟨h1, h2⟩ := hrest (fun _ _ _ => rfl) (fun d hd => (by cases hd))
      exact Or.inl ⟨h1, h2, rfl⟩
  | checked c hello =>
      obtain ⟨h1, h2⟩ := hrest (fun _ _ hd => (by cases hd)) (fun d hd => (by cases hd))
      refine Or.inl ⟨h1, h2, ?_⟩
      rw [afterCheck]
      split <;> rfl
  | _ =>
      obtain ⟨h1, h2⟩ := hrest (fun _ _ hd => (by cases hd)) (fun d hd => (by cases hd))
      exact Or.inl ⟨h1, h2, rfl⟩

theorem moves_new_ended (h : VkTurnServer.Moves cfg i σ t σ' t' new) (g : GroupRef) :
    load (one (ended g)) new = 0 := by
  cases h <;> rfl

theorem happens_entered (h : Happens cfg σ σ' new) (g : GroupRef) :
    entered g σ' = entered g σ ∧ made g σ' = made g σ ∧ load (one (ended g)) new = 0 := by
  obtain ⟨-, -, -, hgroups, -⟩ := h.frame
  have hids : (σ'.objs[g]?).map Group.id = (σ.objs[g]?).map Group.id := by
    cases hg : σ.objs[g]? with
    | none => rw [h.group_new hg]
    | some grp =>
        obtain ⟨grp', hg', hmove⟩ := h.group hg
        rw [hg']
        rcases hmove with rfl | ⟨a, bond, -, -, rfl⟩ <;> rfl
  obtain ⟨h1, h2⟩ := entered_same hgroups hids
  exact ⟨h1, h2, by cases h <;> rfl⟩

end Step

section Reached

variable {cfg : Config} {limiter : VkTurnLimiter.ConnectionLimiter} {s : ServerPool}
variable {ok : ServerPool → Act VkTurnServer.Choice VkTurnServer.Op → Prop}

/-- While the run of a group is not over, its callback was not executed. -/
theorem not_ended (h : Reach (serverStep cfg) ok (newServer limiter) s) {g : GroupRef}
    {i : Nat} {t : VkTurnServer.Pc} (ht : s.threads[i]? = some t) (hruns : runs g t = true)
    (hend : ended g t = false) : load (one (ended g)) s.threads = 0 := by
  by_contra hpos
  obtain ⟨j, u, hu, hone⟩ := exists_of_load_pos (Nat.pos_of_ne_zero hpos)
  have hended := one_pos_iff.mp hone
  have hij : i ≠ j := by
    rintro rfl
    obtain rfl : t = u := Option.some.inj (ht.symm.trans hu)
    rw [hend] at hended
    cases hended
  have htwo := add_le_load (one (runs g)) hij ht hu
  rw [one_true hruns, one_true (runs_of_ended hended), one_run h g, one] at htwo
  split at htwo <;> omega

/-- **ENTRY OR END**: a group is in the table until its callback was executed, and
    not after that. -/
theorem entry_or_ended (h : Reach (serverStep cfg) ok (newServer limiter) s) (g : GroupRef) :
    one (entered g) s.shared + load (one (ended g)) s.threads = one (made g) s.shared := by
  refine Machine.reach_balances (M := serverMachine cfg)
    (J := Reach (serverStep cfg) ok (newServer limiter)) (fun s hs => hs)
    (one (entered g)) (one (ended g)) (one (made g)) rfl ?_ ?_ h
  · intro s i t a σ' t' new hr ht hbal he
    have hm := exec_moves he
    rw [moves_new_ended hm g, Nat.add_zero]
    rcases moves_entered hm g with ⟨h1, h2, h3⟩ | ⟨h1, h2, h3, h4, h5⟩ |
      ⟨rfl, rfl, h3, h4, h5⟩
    · rw [one_congr h1, one_congr h2, one_congr h3]
    · rw [one_false h1, one_false h2, one_true h3, one_true h4, one_congr h5]
      omega
    · -- the callback finds its own entry
      have hzero := not_ended hr ht (g := g) (decide_eq_true rfl) rfl
      rw [hzero, Nat.add_zero] at hbal
      rw [hbal, one_false h3, one_true h4, one_true h5, one_false (p := ended g)
        (t := .runDone g) rfl, one_true (p := ended g) (t := .runEnded g) (decide_eq_true rfl)]
  · intro s e σ' new _ he
    obtain ⟨h1, h2, h3⟩ := happens_entered (outside_happens he) g
    rw [one_congr h1, one_congr h2, h3, Nat.add_zero]

/-- An entry of the table is a group with that ID. -/
theorem pointing (h : Reach (serverStep cfg) ok (newServer limiter) s) :
    ∀ id g, get s.shared.groups id = some g →
      ∃ grp, s.shared.objs[g]? = some grp ∧ grp.id = id := by
  refine Reach.invariant (I := fun s : ServerPool => ∀ id g, get s.shared.groups id = some g →
    ∃ grp, s.shared.objs[g]? = some grp ∧ grp.id = id) ?_ ?_ h
  · intro id g hg
    cases hg
  intro s a s' _ hI _ hs id g hg'
  cases a with
  | run i a =>
      obtain ⟨t, σ', t', new, ht, he, rfl⟩ := Machine.step_run hs
      have hm := exec_moves he
      have hold : get s.shared.groups id = some g →
          ∃ grp, σ'.objs[g]? = some grp ∧ grp.id = id := by
        intro hg
        obtain ⟨grp, hgrp, hid⟩ := hI id g hg
        obtain ⟨grp', hgrp', hmove⟩ := hm.group hgrp
        exact ⟨grp', hgrp', hmove.id.trans hid⟩
      rcases hm.groups_eq with hgroups | ⟨c, hello, -, hfree, rfl⟩ | ⟨g₀, grp₀, -, -, rfl⟩
      · exact hold (hgroups ▸ hg')
      · have hins : get (insert s.shared.groups hello.bondID s.shared.objs.length) id
            = some g := hg'
        rw [get_insert] at hins
        by_cases hid : id = hello.bondID
        · rw [if_pos hid] at hins
          obtain rfl := Option.some.inj hins
          exact ⟨_, List.getElem?_concat_length .., hid.symm⟩
        · rw [if_neg hid] at hins
          exact hold hins
      · refine hold ?_
        have hgot : get (s.shared.unregister g₀ grp₀.id).groups id = some g := hg'
        rw [Server.unregister] at hgot
        split at hgot
        · have hdel : get (delete s.shared.groups grp₀.id) id = some g := hgot
          rw [get_delete] at hdel
          split at hdel
          · cases hdel
          · exact hdel
        · exact hgot
  | env e =>
      obtain ⟨σ', new, he, rfl⟩ := Machine.step_env hs
      have hh := outside_happens he
      obtain ⟨-, -, -, hgroups, -⟩ := hh.frame
      have hg : get s.shared.groups id = some g := by
        rw [← hgroups]
        exact hg'
      obtain ⟨grp, hgrp, hid⟩ := hI id g hg
      obtain ⟨grp', hgrp', hsame, -⟩ := happens_group hh hgrp
      exact ⟨grp', hgrp', hsame.trans hid⟩

end Reached

/-! ## On the way to `startOnce` -/

/-- A call that has handed its connection to the group will start it, or somebody
    has started it. -/
def Arrives (g : GroupRef) (σ : Server) : VkTurnServer.Pc → Prop
  | .adding _ _ d _ => d = g
  | .start _ d => d = g
  | .accepted _ => startedIn g σ = true
  | _ => False

/-- A call on its way to the `startOnce` of the group. -/
def entering (g : GroupRef) : VkTurnServer.Pc → Bool
  | .limit _ _ d => d = g
  | .call _ _ d => d = g
  | .adding _ _ d _ => d = g
  | .start _ d => d = g
  | _ => false

section Step

variable {cfg : Config} {i : Nat} {σ σ' : Server} {t t' : VkTurnServer.Pc}
variable {new : List VkTurnServer.Pc} {g : GroupRef}

theorem moves_started_mono (h : VkTurnServer.Moves cfg i σ t σ' t' new)
    (hs : startedIn g σ = true) : startedIn g σ' = true := by
  rcases moves_started h g with ⟨hsame, -⟩ | ⟨-, hnot, -⟩
  · exact hsame.trans hs
  · rw [hnot] at hs
    cases hs

theorem arrives_mono {u : VkTurnServer.Pc}
    (hs : startedIn g σ = true → startedIn g σ' = true) (h : Arrives g σ u) :
    Arrives g σ' u := by
  cases u <;> first | exact h | exact hs h

theorem arrives_step (h : VkTurnServer.Moves cfg i σ t σ' t' new) (hA : Arrives g σ t) :
    Arrives g σ' t' := by
  cases h with
  | added c hello g₀ tid grp r _ _ => exact hA
  | startedAlready c g₀ grp h₀ hstarted =>
      obtain rfl : g₀ = g := hA
      show startedIn g₀ σ = true
      rw [startedIn, h₀]
      exact hstarted
  | startedNow c g₀ grp h₀ _ =>
      obtain rfl : g₀ = g := hA
      show startedIn g₀ _ = true
      rw [startedIn_set h₀ rfl, if_pos rfl]
  | _ => exact hA.elim

/-- A path comes into a group by the call of its handler. -/
theorem moves_path (h : VkTurnServer.Moves cfg i σ t σ' t' new) {grp' : Group}
    (hg' : σ'.objs[g]? = some grp') {p : PathRef} {c : Conn}
    (hc : connOf grp'.bond p = some c) :
    (∃ grp, σ.objs[g]? = some grp ∧ connOf grp.bond p = some c) ∨
      ∃ hello, t = .call c hello g := by
  rcases h.group_cases hg' with ⟨grp, hg, hm⟩ | ⟨_, hello, -, -, -, -, -, rfl⟩
  · rcases hm.bond with hb | ⟨d, hello, ht, hb⟩ | ⟨-, hb⟩
    · rw [hb] at hc
      exact Or.inl ⟨grp, hg, hc⟩
    · rw [connOf, (adders_addConn hb).2.2.2, getElem?_snoc] at hc
      split at hc
      · obtain rfl : d = c := Option.some.inj hc
        exact Or.inr ⟨hello, ht⟩
      · exact Or.inl ⟨grp, hg, hc⟩
    · rw [connOf, bondStep_close_heap hb] at hc
      exact Or.inl ⟨grp, hg, hc⟩
  · cases hc

/-- A call leaves the way by starting the group, or because the group is full. -/
theorem moves_entering (h : VkTurnServer.Moves cfg i σ t σ' t' new)
    (ht : entering g t = true) :
    entering g t' = true ∨ startedIn g σ' = true ∨
      ∃ grp, σ.objs[g]? = some grp ∧ grp.full = true ∧ ∀ c, handed c t = 0 := by
  cases h with
  | limitFull c hello g₀ grp h₀ hfull =>
      obtain rfl := of_decide_eq_true ht
      exact Or.inr (Or.inr ⟨grp, h₀, hfull, fun _ => rfl⟩)
  | limitPassed c hello g₀ grp _ _ _ => exact Or.inl ht
  | called c hello g₀ grp bond _ _ => exact Or.inl ht
  | added c hello g₀ tid grp r _ _ => exact Or.inl ht
  | startedAlready c g₀ grp h₀ hstarted =>
      obtain rfl := of_decide_eq_true ht
      refine Or.inr (Or.inl ?_)
      rw [startedIn, h₀]
      exact hstarted
  | startedNow c g₀ grp h₀ _ =>
      obtain rfl := of_decide_eq_true ht
      refine Or.inr (Or.inl ?_)
      rw [startedIn_set h₀ rfl, if_pos rfl]
  | _ => cases ht

end Step

section Reached

variable {cfg : Config} {limiter : VkTurnLimiter.ConnectionLimiter} {s : ServerPool}
variable {ok : ServerPool → Act VkTurnServer.Choice VkTurnServer.Op → Prop}

/-- **DELIVERED**: the handler of a connection on a path of a group is on its way
    to that group's `startOnce`, or the group is started. -/
theorem delivered (h : Reach (serverStep cfg) ok (newServer limiter) s) :
    ∀ (g : GroupRef) (grp : Group) (p : PathRef) (c : Conn), s.shared.objs[g]? = some grp →
      connOf grp.bond p = some c → ∀ (i : Nat) (t : VkTurnServer.Pc),
      s.threads[i]? = some t → t.conn = some c → Arrives g s.shared t := by
  refine Reach.invariant (I := fun s : ServerPool => ∀ (g : GroupRef) (grp : Group)
    (p : PathRef) (c : Conn), s.shared.objs[g]? = some grp → connOf grp.bond p = some c →
      ∀ (i : Nat) (t : VkTurnServer.Pc), s.threads[i]? = some t → t.conn = some c →
        Arrives g s.shared t) ?_ ?_ h
  · intro g grp p c hg
    cases hg
  intro s a s' hr hI _ hs g grp' p c hg' hc j u hu huc
  cases a with
  | run i a =>
      obtain ⟨t, σ', t', new, ht, he, rfl⟩ := Machine.step_run hs
      have hm := exec_moves he
      obtain ⟨hconn, hnew, -⟩ := hm.conn_eq
      have htu : u ∈ new → False := fun hin => (by rw [hnew u hin] at huc; cases huc)
      rcases moves_path hm hg' hc with ⟨grp, hg, hold⟩ | ⟨hello, rfl⟩
      · rcases getElem?_moved hu with ⟨rfl, rfl⟩ | ⟨-, hu⟩ | hin
        · exact arrives_step hm (hI g grp p c hg hold j t ht (hconn.symm.trans huc))
        · exact arrives_mono (moves_started_mono hm) (hI g grp p c hg hold j u hu huc)
        · exact (htu hin).elim
      · rcases getElem?_moved hu with ⟨rfl, rfl⟩ | ⟨hji, hu⟩ | hin
        · cases hm
          rfl
        · exact absurd rfl (handler_unique hr (fun he => hji he.symm) ht hu huc)
        · exact (htu hin).elim
  | env e =>
      obtain ⟨σ', new, he, rfl⟩ := Machine.step_env hs
      have hh := outside_happens he
      obtain ⟨grp, hg, hold⟩ : ∃ grp, s.shared.objs[g]? = some grp ∧
          connOf grp.bond p = some c := by
        obtain ⟨grp, hg, rfl | ⟨a, bond, hallow, hb, rfl⟩⟩ := hh.group_old hg'
        · exact ⟨_, hg, hc⟩
        · rw [connOf, bondStep_heap hb (not_addConn hallow)] at hc
          exact ⟨grp, hg, hc⟩
      rcases getElem?_spawned hu with hu | hin
      · exact arrives_mono (fun hs => (happens_started hh g).1.trans hs)
          (hI g grp p c hg hold j u hu huc)
      · -- a new connection is on no path
        obtain ⟨k, v, hv, hvc, -⟩ := handed_of_path hr hg hold
        have hlt := conn_accepted hr hv hvc
        cases hh with
        | accepted l lease _ =>
            rw [List.mem_singleton.mp hin] at huc
            obtain rfl : s.shared.leases.length = c := Option.some.inj huc
            exact absurd hlt (Nat.lt_irrefl _)
        | _ => cases hin

/-- A full group is started, or a call is on its way to start it. -/
theorem full_arrives (h : Reach (serverStep cfg) ok (newServer limiter) s) {g : GroupRef}
    {grp : Group} (hg : s.shared.objs[g]? = some grp) (hfull : grp.full = true) :
    startedIn g s.shared = true ∨
      ∃ (j : Nat) (u : VkTurnServer.Pc) (c : Conn), s.threads[j]? = some u ∧
        entering g u = true ∧ 0 < handed c u := by
  obtain ⟨hv, hcount⟩ := of_decide_eq_true hfull
  have htuned := (homogeneous h).1.tuned g grp hg
  have hone := ((validateBondHelloTuning_valid htuned).2 hv).1
  -- so it has a path
  obtain ⟨p, hp⟩ : ∃ p, p ∈ grp.bond.shared.bond.paths := by
    refine List.exists_mem_of_length_pos ?_
    have : (1 : Int) ≤ (grp.bond.shared.bond.paths.length : Int) := le_trans hone hcount
    omega
  have hlt := VkTurnDisposal.listed_allocated (bonds_reached h g grp hg) hp
  have hc : connOf grp.bond p = some (grp.bond.shared.heap[p]).conn := by
    rw [connOf, List.getElem?_eq_getElem hlt]
    rfl
  obtain ⟨j, u, hu, huc, hpos⟩ := handed_of_path h hg hc
  have harr := delivered h g grp p _ hg hc j u hu huc
  cases u with
  | adding d hello g₀ tid => exact Or.inr ⟨j, _, _, hu, decide_eq_true harr, hpos⟩
  | start d g₀ => exact Or.inr ⟨j, _, _, hu, decide_eq_true harr, hpos⟩
  | accepted d => exact Or.inl harr
  | _ => exact harr.elim

/-- **NO ORPHANS**: a group that is not started has a call on its way to its
    `startOnce`. -/
theorem not_orphaned (h : Reach (serverStep cfg) ok (newServer limiter) s) :
    ∀ g, made g s.shared = true → startedIn g s.shared = true ∨
      ∃ (i : Nat) (t : VkTurnServer.Pc), s.threads[i]? = some t ∧ entering g t = true := by
  refine Reach.invariant (I := fun s : ServerPool => ∀ g, made g s.shared = true →
    startedIn g s.shared = true ∨ ∃ (i : Nat) (t : VkTurnServer.Pc),
      s.threads[i]? = some t ∧ entering g t = true) ?_ ?_ h
  · intro g hg
    cases hg
  intro s a s' hr hI _ hs g hmade
  cases a with
  | run i a =>
      obtain ⟨t, σ', t', new, ht, he, rfl⟩ := Machine.step_run hs
      have hm := exec_moves he
      have hnow : (s.threads.set i t' ++ new)[i]? = some t' := getElem?_mover t' new ht
      cases hold : made g s.shared with
      | false =>
          -- the call that has made the group
          obtain ⟨grp', hg'⟩ := Option.isSome_iff_exists.mp hmade
          obtain ⟨c, hello, -, rfl, -⟩ := hm.group_new (Option.not_isSome_iff_eq_none.mp
            (Bool.eq_false_iff.mp hold)) hg'
          exact Or.inr ⟨i, _, hnow, decide_eq_true rfl⟩
      | true =>
          rcases hI g hold with hstarted | ⟨j, u, hu, hent⟩
          · exact Or.inl (moves_started_mono hm hstarted)
          · by_cases hij : i = j
            · subst hij
              obtain rfl : t = u := Option.some.inj (ht.symm.trans hu)
              rcases moves_entering hm hent with hent' | hstarted | ⟨grp, hg, hfull, hzero⟩
              · exact Or.inr ⟨i, t', hnow, hent'⟩
              · exact Or.inl hstarted
              · -- refused: somebody else has brought the path
                rcases full_arrives hr hg hfull with hstarted | ⟨k, v, c, hv, hent', hpos⟩
                · exact Or.inl (moves_started_mono hm hstarted)
                · refine Or.inr ⟨k, v, getElem?_bystander _ new ?_ hv, hent'⟩
                  rintro rfl
                  obtain rfl : t = v := Option.some.inj (ht.symm.trans hv)
                  rw [hzero c] at hpos
                  exact Nat.lt_irrefl 0 hpos
            · exact Or.inr ⟨j, u, getElem?_bystander t' new hij hu, hent⟩
  | env e =>
      obtain ⟨σ', new, he, rfl⟩ := Machine.step_env hs
      have hh := outside_happens he
      rcases hI g ((happens_entered hh g).2.1.symm.trans hmade) with hstarted | ⟨j, u, hu, hent⟩
      · exact Or.inl ((happens_started hh g).1.trans hstarted)
      · refine Or.inr ⟨j, u, ?_, hent⟩
        show (s.threads ++ new)[j]? = some u
        rw [List.getElem?_append_left (List.getElem?_eq_some_iff.mp hu).1, hu]

/-- Only the callback of a group takes it out of the table. -/
theorem kept_in_table {s' : ServerPool} {a : Act VkTurnServer.Choice VkTurnServer.Op}
    (hs : serverStep cfg s a = some s') {id : Bytes} {g : GroupRef}
    (hg : get s.shared.groups id = some g) :
    get s'.shared.groups id = some g ∨
      ∃ i c, a = .run i c ∧ s.threads[i]? = some (.runDone g) := by
  cases a with
  | env e =>
      obtain ⟨σ', new, he, rfl⟩ := Machine.step_env hs
      obtain ⟨-, -, -, hgroups, -⟩ := (outside_happens he).frame
      exact Or.inl ((congrArg (get · id) hgroups).trans hg)
  | run i a =>
      obtain ⟨t, σ', t', new, ht, he, rfl⟩ := Machine.step_run hs
      rcases (exec_moves he).groups_eq with hgroups | ⟨c, hello, -, hfree, rfl⟩ |
        ⟨g₀, grp₀, rfl, -, rfl⟩
      · exact Or.inl ((congrArg (get · id) hgroups).trans hg)
      · left
        show get (insert s.shared.groups hello.bondID s.shared.objs.length) id = some g
        rw [get_insert, if_neg, hg]
        rintro rfl
        rw [hfree] at hg
        cases hg
      · show get (s.shared.unregister g₀ grp₀.id).groups id = some g ∨ _
        rw [Server.unregister]
        split
        · rename_i hown
          show get (delete s.shared.groups grp₀.id) id = some g ∨ _
          rw [get_delete]
          by_cases hid : id = grp₀.id
          · rw [hid, hown] at hg
            obtain rfl := Option.some.inj hg
            exact Or.inr ⟨i, a, rfl, ht⟩
          · rw [if_neg hid]
            exact Or.inl hg
        · exact Or.inl hg

end Reached

/-- The handler is inside `add`. -/
def inAdd : VkTurnServer.Pc → Bool
  | .readHello _ => true
  | .reject _ _ _ _ => true
  | .check _ _ => true
  | .ack _ _ => true
  | .join _ _ => true
  | .limit _ _ _ => true
  | .call _ _ _ => true
  | .adding _ _ _ _ => true
  | .start _ _ => true
  | _ => false

theorem inAdd_of_entering {g : GroupRef} {t : VkTurnServer.Pc} (h : entering g t = true) :
    inAdd t = true := by
  cases t <;> first | rfl | cases h

/-- **GROUP TABLE**: under every interleaving of calls of `add` and terminations of
    runs, a group has at most one run; an entry leaves the table only by the
    callback of its own group; and without a call of `add` in progress the table
    has exactly the groups that were started and whose callback was not
    executed. -/
theorem group_table_consistent (cfg : Config) (limiter : VkTurnLimiter.ConnectionLimiter)
    (s : ServerPool) (h : ServerReach cfg limiter s) :
    (∀ g, s.threads.countP (runs g) = if startedIn g s.shared then 1 else 0) ∧
    (∀ a s', serverStep cfg s a = some s' → ∀ id g, get s.shared.groups id = some g →
      get s'.shared.groups id = some g ∨
        ∃ i c, a = .run i c ∧ s.threads[i]? = some (.runDone g)) ∧
    ((∀ t ∈ s.threads, inAdd t = false) → ∀ id g, get s.shared.groups id = some g ↔
      ∃ grp, s.shared.objs[g]? = some grp ∧ grp.id = id ∧ grp.started = true ∧
        .runEnded g ∉ s.threads) := by
  refine ⟨?_, fun a s' hs id g hg => kept_in_table hs hg, ?_⟩
  · intro g
    rw [← load_one]
    exact one_run h g
  intro hquiet id g
  -- nobody is on its way to a `startOnce`
  have hstarted : ∀ grp, s.shared.objs[g]? = some grp → grp.started = true := by
    intro grp hg
    rcases not_orphaned h g (by rw [made, hg]; rfl) with hs | ⟨i, t, ht, hent⟩
    · rw [startedIn, hg] at hs
      exact hs
    · have := hquiet t (List.mem_of_getElem? ht)
      rw [inAdd_of_entering hent] at this
      cases this
  have hbook : ∀ grp, s.shared.objs[g]? = some grp →
      (get s.shared.groups grp.id = some g ↔ .runEnded g ∉ s.threads) := by
    intro grp hg
    have hbal := entry_or_ended h g
    rw [one_true (p := made g) (by rw [made, hg]; rfl)] at hbal
    constructor
    · intro hin hmem
      rw [one_true (p := entered g) (by rw [entered_eq hg]; exact decide_eq_true hin)] at hbal
      obtain ⟨i, hi⟩ := List.getElem?_of_mem hmem
      have hle := le_load (one (ended g)) hi
      rw [one_true (p := ended g) (t := .runEnded g) (decide_eq_true rfl)] at hle
      omega
    · intro hmem
      have hzero : load (one (ended g)) s.threads = 0 := by
        refine load_eq_zero fun t ht => one_false ?_
        cases t with
        | runEnded d =>
            refine decide_eq_false ?_
            rintro rfl
            exact hmem ht
        | _ => rfl
      have hpos : 0 < one (entered g) s.shared := by omega
      have hent := one_pos_iff.mp hpos
      rw [entered_eq hg] at hent
      exact of_decide_eq_true hent
  constructor
  · intro hin
    obtain ⟨grp, hg, hid⟩ := pointing h id g hin
    exact ⟨grp, hg, hid, hstarted grp hg, (hbook grp hg).mp (by rw [hid]; exact hin)⟩
  · rintro ⟨grp, hg, rfl, -, hmem⟩
    exact (hbook grp hg).mpr hmem

/-- The handler that put the group into the table is overtaken by another one and
    refused; the other one starts the group. -/
theorem overtaken_group_started :
    ∃ (s : ServerPool) (grp : Group), ServerReach bondConfig fourConnections s ∧
      (∀ t ∈ s.threads, inAdd t = false) ∧
      .done 0 (.rejected (.pathLimit (ascii "01234567") 1)) ∈ s.threads ∧
      get s.shared.groups (ascii "0123456789abcdef") = some 0 ∧
      s.shared.objs[0]? = some grp ∧ grp.started = true := by
  obtain ⟨s, hr, hp⟩ := Reach.of_follow (serverStep bondConfig) anyStep
    (newServer fourConnections)
    (List.flatten [(enterBond 0 (helloRecord "1")).take 8, enterBond 1 (helloRecord "1"),
      joinBond 1 0, [.run 0 .go, .run 0 .go, .run 0 .go]])
    (fun s : ServerPool => s.threads.all (fun t => !inAdd t) &&
      s.threads.contains (.done 0 (.rejected (.pathLimit (ascii "01234567") 1))) &&
      decide (get s.shared.groups (ascii "0123456789abcdef") = some 0)) (by decide)
  simp only [Bool.and_eq_true, List.all_eq_true, Bool.not_eq_true', List.contains_iff_mem,
    decide_eq_true_eq] at hp
  obtain ⟨⟨hquiet, hmem⟩, hin⟩ := hp
  obtain ⟨-, -, htable⟩ := group_table_consistent bondConfig fourConnections s hr
  obtain ⟨grp, hg, -, hstarted, -⟩ := (htable hquiet _ 0).mp hin
  exact ⟨s, grp, hr, hquiet, hmem, hin, hg, hstarted⟩

end VkTurnGroupTable
