import VkTurn.ThreadPoolProofs

/-! # Scopes: goroutines under a context, and a hook

    A common way to run goroutines over shared resources: the owner starts WORKERS under a
    context and registers a HOOK with `context.AfterFunc`, which interrupts the resources
    once the context is cancelled (sets a deadline in the past, say).  The owner waits for
    the workers, stops the hook, waits for it if it came too late to stop it, and clears
    what the hook did, so that the resources can be used again.

    `Scope` is that pattern with nothing else: what the workers do is left out.  Its rule is
    `Scope.tidy`: when the owner is away, no worker is left, the hook has ended and will not
    start, and what is still interrupted is what the owner failed to clear.  `Scope.struck`
    is what a worker can rely on: a hook that is over has interrupted all it is for.  A program
    shows that its steps are steps of a scope, or none (`Scope.Follows`), and has both for
    every run of it. -/

namespace GoScope

open ThreadPool

variable {τ : Type}

/-- A function registered with `context.AfterFunc`: not started, with what it still has to
    interrupt, over (its channel closed), or stopped before its start. -/
inductive Hook (τ : Type) where
  | armed
  | running (todo : List τ)
  | done
  | stopped
  deriving DecidableEq, Repr

/-- The hook does nothing any more. -/
def Hook.quiet : Hook τ → Bool
  | .done => true
  | .stopped => true
  | _ => false

/-- Where the owner is: with workers to wait for, behind the wait, waiting for the hook, with
    what it still has to clear, and outside. -/
inductive Owner (τ : Type) where
  | working
  | joined
  | awaiting
  | clearing (todo : List τ)
  | away
  deriving DecidableEq, Repr

/-- A scope.  `marks` are the interrupted resources; `uncleared`, a history, are those that the
    owner failed to clear when it left last. -/
structure Scope (τ : Type) where
  cancelled : Bool
  workers : Nat
  hook : Hook τ
  owner : Owner τ
  marks : τ → Bool
  uncleared : List τ

variable [DecidableEq τ]

/-- Set or clear a mark, if the call succeeds. -/
def mark (marks : τ → Bool) (a : τ) (value ok : Bool) : τ → Bool :=
  if ok then Function.update marks a value else marks

/-- One section of a hook, or its start, with the marks after it. -/
def Hook.step (hooked : List τ) (cancelled : Bool) (marks : τ → Bool) (ok : Bool) :
    Hook τ → Option (Hook τ × (τ → Bool))
  | .armed => if cancelled then some (.running hooked, marks) else none
  | .running (a :: todo) => some (.running todo, mark marks a true ok)
  | .running [] => some (.done, marks)
  | _ => none

/-- One step of somebody, in a scope whose hook interrupts `hooked` and whose owner clears `owned`.
    A call of the hook may fail only if `fails` holds. -/
inductive Scope.Step (hooked owned : List τ) (fails : Prop) (s : Scope τ) : Scope τ → Prop where
  | cancel : Step hooked owned fails s { s with cancelled := true }
  | finish {n : Nat} (hn : s.workers = n + 1) : Step hooked owned fails s { s with workers := n }
  | hook {ok : Bool} {hook : Hook τ} {marks : τ → Bool} (hok : ok = false → fails)
      (h : s.hook.step hooked s.cancelled s.marks ok = some (hook, marks)) :
      Step hooked owned fails s { s with hook := hook, marks := marks }
  | join (ho : s.owner = .working) (hnone : s.workers = 0) :
      Step hooked owned fails s { s with owner := .joined }
  | stop (ho : s.owner = .joined) (harmed : s.hook = .armed) :
      Step hooked owned fails s { s with hook := .stopped, owner := .clearing owned }
  | miss (ho : s.owner = .joined) (harmed : s.hook ≠ .armed) :
      Step hooked owned fails s { s with owner := .awaiting }
  | await (ho : s.owner = .awaiting) (hdone : s.hook = .done) :
      Step hooked owned fails s { s with owner := .clearing owned }
  | clear {a : τ} {todo : List τ} (ok : Bool) (ho : s.owner = .clearing (a :: todo)) :
      Step hooked owned fails s
        { s with owner := .clearing todo, marks := mark s.marks a false ok
                 uncleared := if ok then s.uncleared else a :: s.uncleared }
  | leave (ho : s.owner = .clearing []) : Step hooked owned fails s { s with owner := .away }
  | enter (cancelled : Bool) (workers : Nat) (fresh : τ → Bool) (ho : s.owner = .away) :
      Step hooked owned fails s
        { cancelled := cancelled, workers := workers, hook := .armed, owner := .working
          marks := fun a => s.marks a && !fresh a, uncleared := [] }

theorem Scope.Step.of_eq {hooked owned : List τ} {fails : Prop} {s s' s'' : Scope τ}
    (h : Step hooked owned fails s s') (he : s'' = s') : Step hooked owned fails s s'' := he ▸ h

/-- A step of a scope, or none. -/
def Scope.Follows (hooked owned : List τ) (fails : Prop) (s s' : Scope τ) : Prop :=
  s' = s ∨ Scope.Step hooked owned fails s s'

/-- A scope that nobody has entered yet. -/
def Scope.unused : Scope τ where
  cancelled := false
  workers := 0
  hook := .stopped
  owner := .away
  marks := fun _ => false
  uncleared := []

/-- The resources that may be interrupted, by where the owner is. -/
def Scope.owing (owned : List τ) (s : Scope τ) : List τ :=
  match s.owner with
  | .clearing todo => todo ++ s.uncleared
  | .away => s.uncleared
  | _ => owned

/-- The owner is done with the hook. -/
def Owner.closing : Owner τ → Bool
  | .clearing _ => true
  | .away => true
  | _ => false

/-- What holds of a scope throughout. -/
structure Scope.Tidy (hooked owned : List τ) (s : Scope τ) : Prop where
  joined : s.owner ≠ .working → s.workers = 0
  quiet : s.owner.closing = true → s.hook.quiet = true
  left : ∀ a, s.marks a = true → a ∈ s.owing owned
  planned : ∀ todo, s.hook = .running todo → todo <:+ hooked
  rest : ∀ todo, s.owner = .clearing todo → todo <:+ owned
  failed : ∀ a ∈ s.uncleared, a ∈ owned

section Rules

variable {hooked owned : List τ} {fails : Prop} {s s' : Scope τ}

/-- What a section of a hook can be: its start, one interrupt, its end. -/
theorem Hook.step_cases {cancelled ok : Bool} {marks : τ → Bool} {hook : Hook τ}
    {x : Hook τ × (τ → Bool)} (h : hook.step hooked cancelled marks ok = some x) :
    (hook = .armed ∧ x = (.running hooked, marks)) ∨
      (∃ a todo, hook = .running (a :: todo) ∧ x = (.running todo, mark marks a true ok)) ∨
      (hook = .running [] ∧ x = (.done, marks)) := by
  cases hook with
  | armed =>
      obtain ⟨-, heq⟩ := Option.ite_none_right_eq_some.mp h
      exact Or.inl ⟨rfl, (Option.some.inj heq).symm⟩
  | running todo =>
      cases todo with
      | nil => exact Or.inr (Or.inr ⟨rfl, (Option.some.inj h).symm⟩)
      | cons a todo => exact Or.inr (Or.inl ⟨a, todo, rfl, (Option.some.inj h).symm⟩)
  | done | stopped => cases h

/-- A hook that has ended, or will not start, does nothing. -/
theorem Hook.step_awake {cancelled ok : Bool} {marks : τ → Bool} {hook : Hook τ}
    {x : Hook τ × (τ → Bool)} (h : hook.step hooked cancelled marks ok = some x) :
    hook.quiet = false := by
  cases hook <;> first | rfl | cases h

/-- How many sections a hook has left. -/
def Hook.rank (hooked : List τ) : Hook τ → Nat
  | .armed => hooked.length + 2
  | .running todo => todo.length + 1
  | _ => 0

/-- Each section of a hook is one less. -/
theorem Hook.step_rank {cancelled ok : Bool} {marks : τ → Bool} {hook : Hook τ}
    {x : Hook τ × (τ → Bool)} (h : hook.step hooked cancelled marks ok = some x) :
    x.1.rank hooked < hook.rank hooked := by
  rcases Hook.step_cases h with ⟨rfl, rfl⟩ | ⟨a, todo, rfl, rfl⟩ | ⟨rfl, rfl⟩
  · exact Nat.lt_succ_self _
  · exact Nat.lt_succ_self _
  · exact Nat.zero_lt_one

/-- A hook that makes a step has not been stopped, and is not waiting to start behind it. -/
theorem Hook.step_started {cancelled ok : Bool} {marks : τ → Bool} {hook : Hook τ}
    {x : Hook τ × (τ → Bool)} (h : hook.step hooked cancelled marks ok = some x) :
    x.1 ≠ .armed ∧ x.1 ≠ .stopped := by
  rcases Hook.step_cases h with ⟨-, rfl⟩ | ⟨a, todo, -, rfl⟩ | ⟨-, rfl⟩ <;>
    exact ⟨fun he => (by cases he), fun he => (by cases he)⟩

theorem mark_true {marks : τ → Bool} {a b : τ} {value ok : Bool}
    (h : mark marks a value ok b = true) : marks b = true ∨ b = a := by
  rw [mark] at h
  split at h
  · by_cases hb : b = a
    · exact Or.inr hb
    · rw [Function.update_of_ne hb] at h
      exact Or.inl h
  · exact Or.inl h

/-- A mark that is still there was not the one that was cleared. -/
theorem cleared_true {marks : τ → Bool} {a b : τ} (h : mark marks a false true b = true) :
    marks b = true ∧ b ≠ a := by
  rw [mark, if_pos rfl] at h
  by_cases hb : b = a
  · subst hb
    rw [Function.update_self] at h
    cases h
  · rw [Function.update_of_ne hb] at h
    exact ⟨h, hb⟩

omit [DecidableEq τ] in
/-- Before the owner is done with the hook, everything it owns may be interrupted. -/
theorem Scope.owing_eq (h : s.owner.closing = false) : s.owing owned = owned := by
  rw [Scope.owing]
  cases ho : s.owner with
  | clearing todo => rw [ho] at h; cases h
  | away => rw [ho] at h; cases h
  | working => rfl
  | joined => rfl
  | awaiting => rfl

omit [DecidableEq τ] in
/-- The owner is done with a hook that does nothing any more, and begins to clear. -/
theorem Scope.Tidy.clears (hs : s.Tidy hooked owned) (hopen : s.owner.closing = false)
    (hwork : s.owner ≠ .working) {hook : Hook τ} (hquiet : hook.quiet = true) :
    ({ s with hook := hook, owner := .clearing owned } : Scope τ).Tidy hooked owned where
  joined := fun _ => hs.joined hwork
  quiet := fun _ => hquiet
  left a ha := by
    have hin := hs.left a ha
    rw [Scope.owing_eq hopen] at hin
    exact List.mem_append_left _ hin
  planned todo hrun := by
    rw [show hook = .running todo from hrun] at hquiet
    cases hquiet
  rest todo ho := by
    cases ho
    exact List.suffix_rfl
  failed := hs.failed

theorem Scope.Step.tidy (hsub : ∀ a ∈ hooked, a ∈ owned) (h : Step hooked owned fails s s')
    (hs : s.Tidy hooked owned) : s'.Tidy hooked owned := by
  cases h with
  | cancel => exact { hs with }
  | finish hn =>
      refine { hs with joined := fun hne => ?_ }
      have hzero := hs.joined hne
      omega
  | @hook ok hook marks hok h =>
      -- the hook moves, so the owner is not done with it
      have hopen : s.owner.closing = false := by
        by_contra hclosing
        have hq := hs.quiet (by simpa using hclosing)
        rw [Hook.step_awake h] at hq
        cases hq
      have hclosed : ∀ {p : Prop}, s.owner.closing = true → p := fun ho => by
        rw [hopen] at ho
        cases ho
      rcases Hook.step_cases h with ⟨-, heq⟩ | ⟨a, todo, hh, heq⟩ | ⟨-, heq⟩
      · cases heq
        refine { hs with quiet := hclosed, planned := fun todo hrun => ?_ }
        cases hrun
        exact List.suffix_rfl
      · cases heq
        have ha := hs.planned (a :: todo) hh
        refine { hs with quiet := hclosed, left := ?_, planned := ?_ }
        · intro b hb
          show b ∈ s.owing owned
          rcases mark_true hb with hold | rfl
          · exact hs.left b hold
          · rw [Scope.owing_eq hopen]
            exact hsub b (ha.subset List.mem_cons_self)
        · intro todo' hrun'
          cases hrun'
          exact (List.suffix_cons a todo).trans ha
      · cases heq
        exact { hs with quiet := fun _ => rfl, planned := fun todo hrun => (by cases hrun) }
  | join ho hnone =>
      refine { hs with joined := fun _ => hnone, quiet := fun h => (by cases h), left := ?_
                       rest := fun todo h => (by cases h) }
      intro a ha
      have hin := hs.left a ha
      rwa [Scope.owing_eq (by rw [ho]; rfl)] at hin
  | stop ho harmed =>
      exact hs.clears (by rw [ho]; rfl) (by simp [ho]) rfl
  | miss ho harmed =>
      refine { hs with joined := fun _ => hs.joined (by simp [ho]), quiet := fun h => (by cases h)
                       left := ?_, rest := fun todo h => (by cases h) }
      intro a ha
      have hin := hs.left a ha
      rwa [Scope.owing_eq (by rw [ho]; rfl)] at hin
  | await ho hdone =>
      exact hs.clears (by rw [ho]; rfl) (by simp [ho]) (by rw [hdone]; rfl)
  | @clear a todo ok ho =>
      have hall := hs.rest (a :: todo) ho
      have hleft : ∀ b, s.marks b = true → b ∈ a :: todo ++ s.uncleared := by
        intro b hb
        have hin := hs.left b hb
        rwa [Scope.owing, ho] at hin
      refine { hs with joined := fun _ => hs.joined (by simp [ho]), left := ?_, rest := ?_
                       quiet := fun _ => hs.quiet (by rw [ho]; rfl), failed := ?_ }
      · intro b hb
        show b ∈ todo ++ if ok then s.uncleared else a :: s.uncleared
        cases ok with
        | true =>
            obtain ⟨hold, hne⟩ := cleared_true hb
            exact (List.mem_cons.mp (hleft b hold)).resolve_left hne
        | false =>
            have hold : s.marks b = true := hb
            rcases List.mem_cons.mp (hleft b hold) with rfl | hin
            · exact List.mem_append_right _ List.mem_cons_self
            · rcases List.mem_append.mp hin with hin | hin
              · exact List.mem_append_left _ hin
              · exact List.mem_append_right _ (List.mem_cons_of_mem _ hin)
      · intro todo' ho'
        cases ho'
        exact (List.suffix_cons a todo).trans hall
      · intro b hb
        cases ok with
        | true => exact hs.failed b hb
        | false =>
            rcases List.mem_cons.mp hb with rfl | hin
            · exact hall.subset List.mem_cons_self
            · exact hs.failed b hin
  | leave ho =>
      refine { hs with joined := fun _ => hs.joined (by simp [ho]), left := ?_
                       quiet := fun _ => hs.quiet (by rw [ho]; rfl)
                       rest := fun todo h => (by cases h) }
      intro a ha
      have hin := hs.left a ha
      rwa [Scope.owing, ho] at hin
  | enter cancelled workers fresh ho =>
      refine ⟨fun hne => absurd rfl hne, fun h => (by cases h), ?_, fun todo h => (by cases h),
        fun todo h => (by cases h), fun a ha => (by cases ha)⟩
      intro a ha
      have hin := hs.left a (Bool.and_eq_true_iff.mp ha).1
      rw [Scope.owing, ho] at hin
      exact hs.failed a hin

/-- What the hook has done, until the owner is done with it. -/
structure Scope.Struck (hooked : List τ) (s : Scope τ) : Prop where
  ended : s.hook = .done → ∀ a ∈ hooked, s.marks a = true
  running : ∀ todo, s.hook = .running todo → ∀ a ∈ hooked, a ∈ todo ∨ s.marks a = true
  live : s.hook ≠ .stopped

theorem mark_self (marks : τ → Bool) (a : τ) : mark marks a true true a = true := by
  rw [mark, if_pos rfl, Function.update_self]

/-- A mark stays when another one is set. -/
theorem mark_mono {marks : τ → Bool} {a b : τ} {ok : Bool} (h : marks b = true) :
    mark marks a true ok b = true := by
  rw [mark]
  split
  · by_cases hb : b = a
    · rw [hb, Function.update_self]
    · rw [Function.update_of_ne hb]
      exact h
  · exact h

/-- A hook whose calls succeed, until the owner is done with it. -/
theorem Scope.Step.struck (hok : ¬ fails) (h : Step hooked owned fails s s')
    (hs : s.owner.closing = false → s.Struck hooked) :
    s'.owner.closing = false → s'.Struck hooked := by
  intro hopen
  cases h with
  | cancel => exact ⟨(hs hopen).ended, (hs hopen).running, (hs hopen).live⟩
  | finish hn => exact ⟨(hs hopen).ended, (hs hopen).running, (hs hopen).live⟩
  | @hook ok hook marks hfails h =>
      obtain rfl : ok = true := by
        by_contra hne
        exact hok (hfails (Bool.eq_false_iff.mpr hne))
      rcases Hook.step_cases h with ⟨-, heq⟩ | ⟨a, todo, hh, heq⟩ | ⟨hh, heq⟩
      · cases heq
        refine ⟨fun he => (by cases he), fun todo hrun => ?_, fun he => (by cases he)⟩
        cases hrun
        exact fun a ha => Or.inl ha
      · cases heq
        refine ⟨fun he => (by cases he), ?_, fun he => (by cases he)⟩
        intro todo' hrun' b hb
        cases hrun'
        rcases (hs hopen).running (a :: todo) hh b hb with hin | hmark
        · rcases List.mem_cons.mp hin with rfl | hin
          · exact Or.inr (mark_self s.marks b)
          · exact Or.inl hin
        · refine Or.inr ?_
          show mark s.marks a true true b = true
          exact mark_mono hmark
      · cases heq
        refine ⟨fun _ a ha => ?_, fun todo he => (by cases he), fun he => (by cases he)⟩
        exact ((hs hopen).running [] hh a ha).resolve_left List.not_mem_nil
  | join ho | miss ho =>
      exact { hs (by rw [ho]; rfl) with }
  | enter cancelled workers fresh ho =>
      exact ⟨fun he => (by cases he), fun todo he => (by cases he), fun he => (by cases he)⟩
  | _ => cases hopen

section Programs

variable {σ α : Type} {step : σ → α → Option σ} {ok : σ → α → Prop} {s₀ s : σ}
  {view : σ → Scope τ} {fails : σ → α → Prop}

/-- **THE SCOPE RULE**: a program whose steps are steps of a scope, or none, is tidy throughout
    every run. -/
theorem Scope.tidy (hsub : ∀ a ∈ hooked, a ∈ owned) (h0 : view s₀ = Scope.unused)
    (hstep : ∀ s a s', Reach step ok s₀ s → step s a = some s' →
      Scope.Follows hooked owned (fails s a) (view s) (view s'))
    (h : Reach step ok s₀ s) : (view s).Tidy hooked owned := by
  refine Reach.invariant (I := fun s => (view s).Tidy hooked owned) ?_ ?_ h
  · show (view s₀).Tidy hooked owned
    rw [h0]
    exact ⟨fun _ => rfl, fun _ => rfl, fun a ha => (by cases ha), fun todo h => (by cases h),
      fun todo h => (by cases h), fun a ha => (by cases ha)⟩
  · intro s a s' hr hs _ ha
    rcases hstep s a s' hr ha with hsame | hmove
    · rw [hsame]
      exact hs
    · exact hmove.tidy hsub hs

/-- **THE HOOK STRIKES**: a hook whose calls succeed has interrupted all that it is for when it
    is over, and all but the rest of its list before. -/
theorem Scope.struck (h0 : view s₀ = Scope.unused)
    (hstep : ∀ s a s', Reach step ok s₀ s → step s a = some s' →
      Scope.Follows hooked owned (fails s a) (view s) (view s'))
    (hok : ∀ s a, ok s a → ¬ fails s a)
    (h : Reach step ok s₀ s) : (view s).owner.closing = false → (view s).Struck hooked := by
  refine Reach.invariant
    (I := fun s => (view s).owner.closing = false → (view s).Struck hooked) ?_ ?_ h
  · show (view s₀).owner.closing = false → _
    rw [h0]
    exact fun hopen => (by cases hopen)
  · intro s a s' hr hs hsure ha
    rcases hstep s a s' hr ha with hsame | hmove
    · rw [hsame]
      exact hs
    · exact hmove.struck (hok s a hsure) hs

end Programs

end Rules

end GoScope
