import Mathlib.Tactic

/-! # Programs with state and errors

    Sequential code that calls its surroundings: a program takes a state and ends with a
    result or an error, and a new state either way.  `Completes` says that it ended
    with a result.

    Two kinds of rules, both following the program's text.  `Simulates` is about what a
    program that completed has done, seen through a VIEW of the state: the view made the
    abstract step `f`.  `Always` is about whether it completes. -/

namespace Script

/-- A program over states `σ`, with errors `ε`. -/
def Prog (ε σ α : Type) : Type := σ → Except ε α × σ

variable {ε ε' σ α β : Type}

instance : Monad (Prog ε σ) where
  pure a := fun s => (.ok a, s)
  bind m f := fun s =>
    match m s with
    | (.ok a, s') => f a s'
    | (.error e, s') => (.error e, s')

/-- Stop with an error. -/
def throwing (e : ε) : Prog ε σ α := fun s => (.error e, s)

/-- Stop if this is an error. -/
def lifted (r : Except ε α) : Prog ε σ α := fun s => (r, s)

/-- Read the state. -/
def reading (f : σ → α) : Prog ε σ α := fun s => (.ok (f s), s)

/-- Change the state. -/
def changing (f : σ → σ) : Prog ε σ Unit := fun s => (.ok (), f s)

/-- The same program, with its error rewritten. -/
def wrapping (f : ε → ε') (m : Prog ε σ α) : Prog ε' σ α := fun s => ((m s).1.mapError f, (m s).2)

/-- The program, and if it fails the handler. -/
def rescue (m : Prog ε σ α) (handler : ε → Prog ε' σ α) : Prog ε' σ α := fun s =>
  match m s with
  | (.ok a, s') => (.ok a, s')
  | (.error e, s') => handler e s'

/-- The program, with its error as a value. -/
def attempt (m : Prog ε σ α) : Prog ε' σ (Except ε α) := fun s => (.ok (m s).1, (m s).2)

/-- `for _, b := range l`. -/
def forEach (f : β → Prog ε σ Unit) : List β → Prog ε σ Unit
  | [] => pure ()
  | b :: rest => f b >>= fun _ => forEach f rest

/-! ## Completion -/

/-- From `s`, the program ends with the result `a` in the state `s'`. -/
def Completes (m : Prog ε σ α) (s : σ) (a : α) (s' : σ) : Prop := m s = (.ok a, s')

/-- A result that the program can end with. -/
def Returns (m : Prog ε σ α) (a : α) : Prop := ∃ s s', Completes m s a s'

/-- The program never completes. -/
def Aborts (m : Prog ε σ α) : Prop := ∀ s a s', ¬ Completes m s a s'

section Completion

variable {s s' : σ}

/-- A program that ends with a result completes with this one. -/
theorem completes_ok {m : Prog ε σ α} {a b : α} {t : σ} (hm : m s = (.ok b, t)) :
    Completes m s a s' ↔ a = b ∧ s' = t := by
  rw [Completes, hm]
  constructor
  · intro h
    cases h
    exact ⟨rfl, rfl⟩
  · rintro ⟨rfl, rfl⟩
    rfl

theorem completes_pure {a b : α} :
    Completes (pure a : Prog ε σ α) s b s' ↔ b = a ∧ s' = s := completes_ok rfl

/-- After a result the rest runs on it. -/
theorem bind_of_ok {m : Prog ε σ α} {f : α → Prog ε σ β} {a : α} (h : m s = (.ok a, s')) :
    (m >>= f) s = f a s' := by
  simp only [bind, h]

/-- After an error the rest does not run. -/
theorem bind_of_error {m : Prog ε σ α} {f : α → Prog ε σ β} {e : ε}
    (h : m s = (.error e, s')) : (m >>= f) s = (.error e, s') := by
  simp only [bind, h]

/-- Two programs complete if each does, the second on the first one's result. -/
theorem completes_bind {m : Prog ε σ α} {f : α → Prog ε σ β} {b : β} :
    Completes (m >>= f) s b s' ↔ ∃ a t, Completes m s a t ∧ Completes (f a) t b s' := by
  cases hm : m s with
  | mk r t =>
      cases r with
      | error e =>
          rw [Completes, bind_of_error hm]
          constructor
          · intro h
            cases h
          · rintro ⟨a, t', ha, -⟩
            rw [Completes, hm] at ha
            cases ha
      | ok a =>
          rw [Completes, bind_of_ok hm]
          constructor
          · intro h
            exact ⟨a, t, hm, h⟩
          · rintro ⟨a', t', ha, hb⟩
            rw [Completes, hm] at ha
            cases ha
            exact hb

/-- No error, no change. -/
theorem completes_lifted {r : Except ε α} {a : α} :
    Completes (lifted r : Prog ε σ α) s a s' ↔ r = .ok a ∧ s' = s := by
  constructor
  · intro h
    cases h
    exact ⟨rfl, rfl⟩
  · rintro ⟨rfl, rfl⟩
    rfl

theorem completes_reading {f : σ → α} {a : α} :
    Completes (reading f : Prog ε σ α) s a s' ↔ a = f s ∧ s' = s := completes_ok rfl

theorem completes_changing {f : σ → σ} :
    Completes (changing f : Prog ε σ Unit) s () s' ↔ s' = f s :=
  (completes_ok rfl).trans (and_iff_right rfl)

/-- If the handler stops, only the program itself can complete. -/
theorem completes_rescue {m : Prog ε σ α} {handler : ε → Prog ε' σ α}
    (hhandler : ∀ e, Aborts (handler e)) {a : α} :
    Completes (rescue m handler) s a s' ↔ Completes m s a s' := by
  rw [Completes, Completes, rescue]
  cases hm : m s with
  | mk r t =>
      cases r with
      | error e => exact ⟨fun h => absurd h (hhandler e t a s'), fun h => (by cases h)⟩
      | ok b => exact ⟨fun h => (by cases h; rfl), fun h => (by cases h; rfl)⟩

/-- An attempt has a result if the program has. -/
theorem completes_attempt_ok {m : Prog ε σ α} {a : α} :
    Completes (attempt m : Prog ε' σ (Except ε α)) s (.ok a) s' ↔ Completes m s a s' := by
  rw [Completes, Completes, attempt]
  cases hm : m s with
  | mk r t =>
      cases r with
      | error e => exact ⟨fun h => (by cases h), fun h => (by cases h)⟩
      | ok b => exact ⟨fun h => (by cases h; rfl), fun h => (by cases h; rfl)⟩

theorem aborts_throwing (e : ε) : Aborts (throwing e : Prog ε σ α) := by
  intro s a s' h
  cases h

/-- To rewrite an error is to catch it and throw another. -/
theorem wrapping_eq_rescue (f : ε → ε') (m : Prog ε σ α) :
    wrapping f m = rescue m fun e => throwing (f e) := by
  funext s
  rw [wrapping, rescue]
  cases m s with
  | mk r t => cases r <;> rfl

/-- Rewriting errors leaves results alone. -/
theorem completes_wrapping {f : ε → ε'} {m : Prog ε σ α} {a : α} :
    Completes (wrapping f m) s a s' ↔ Completes m s a s' := by
  rw [wrapping_eq_rescue]
  exact completes_rescue fun e => aborts_throwing (f e)

theorem aborts_error (e : ε) : Aborts (lifted (.error e) : Prog ε σ α) := aborts_throwing e

/-- A first part that stops, stops the program. -/
theorem Aborts.bind_left {m : Prog ε σ α} (hm : Aborts m) (f : α → Prog ε σ β) :
    Aborts (m >>= f) := by
  intro s b s' h
  obtain ⟨a, t, ha, -⟩ := completes_bind.mp h
  exact hm s a t ha

/-- So does a second part. -/
theorem Aborts.bind_right {m : Prog ε σ α} {f : α → Prog ε σ β} (hf : ∀ a, Aborts (f a)) :
    Aborts (m >>= f) := by
  intro s b s' h
  obtain ⟨a, t, -, hb⟩ := completes_bind.mp h
  exact hf a t b s' hb

theorem Aborts.rescue {m : Prog ε σ α} {handler : ε → Prog ε' σ α} (hm : Aborts m)
    (hhandler : ∀ e, Aborts (handler e)) : Aborts (rescue m handler) :=
  fun s a s' h => hm s a s' ((completes_rescue hhandler).mp h)

end Completion

/-! ## What a completed program has done -/

section Simulation

variable {τ : Type}

/-- If the program completes, the view of the state has made the step `f`. -/
def Simulates (view : σ → τ) (m : Prog ε σ α) (f : τ → τ) : Prop :=
  ∀ s a s', Completes m s a s' → view s' = f (view s)

variable {view : σ → τ}

/-! Results, checks and reads are not seen. -/

theorem Simulates.pure (a : α) : Simulates view (pure a : Prog ε σ α) id := by
  intro s b s' h
  obtain ⟨-, rfl⟩ := completes_pure.mp h
  rfl

theorem Simulates.lifted (r : Except ε α) : Simulates view (lifted r : Prog ε σ α) id := by
  intro s b s' h
  obtain ⟨-, rfl⟩ := completes_lifted.mp h
  rfl

theorem Simulates.reading (f : σ → α) : Simulates view (reading f : Prog ε σ α) id := by
  intro s b s' h
  obtain ⟨-, rfl⟩ := completes_reading.mp h
  rfl

/-- A change is seen as the view shows it. -/
theorem Simulates.changing {f : σ → σ} {g : τ → τ} (h : ∀ s, view (f s) = g (view s)) :
    Simulates view (changing f : Prog ε σ Unit) g := by
  intro s _ s' hs
  obtain rfl := completes_changing.mp hs
  exact h s

/-- Only programs that complete are seen, so errors may be rewritten. -/
theorem Simulates.wrapping {m : Prog ε σ α} {g : τ → τ} (hm : Simulates view m g) (f : ε → ε') :
    Simulates view (wrapping f m) g :=
  fun s a s' h => hm s a s' (completes_wrapping.mp h)

/-- A handler that stops is not seen. -/
theorem Simulates.rescue {m : Prog ε σ α} {handler : ε → Prog ε' σ α} {g : τ → τ}
    (hm : Simulates view m g) (hhandler : ∀ e, Aborts (handler e)) :
    Simulates view (rescue m handler) g :=
  fun s a s' h => hm s a s' ((completes_rescue hhandler).mp h)

/-- **SEQUENCES**: one step after the other. -/
theorem Simulates.bind {m : Prog ε σ α} {f : α → Prog ε σ β} {g g' : τ → τ}
    (hm : Simulates view m g) (hf : ∀ a, Returns m a → Simulates view (f a) g') :
    Simulates view (m >>= f) (g' ∘ g) := by
  intro s b s' h
  obtain ⟨a, t, ha, hb⟩ := completes_bind.mp h
  rw [hf a ⟨s, t, ha⟩ t b s' hb, hm s a t ha, Function.comp_apply]

/-- A step that the view does not see, and then the rest. -/
theorem Simulates.afterSilent {m : Prog ε σ α} {f : α → Prog ε σ β} {g : τ → τ}
    (hm : Simulates view m id) (hf : ∀ a, Returns m a → Simulates view (f a) g) :
    Simulates view (m >>= f) g :=
  hm.bind hf

/-- A step, and then a rest that the view does not see. -/
theorem Simulates.beforeSilent {m : Prog ε σ α} {f : α → Prog ε σ β} {g : τ → τ}
    (hm : Simulates view m g) (hf : ∀ a, Returns m a → Simulates view (f a) id) :
    Simulates view (m >>= f) g :=
  hm.bind hf

/-- A choice makes the step of its branch. -/
theorem Simulates.ite {c : Prop} [Decidable c] {m m' : Prog ε σ α} {g g' : τ → τ}
    (hm : Simulates view m g) (hm' : Simulates view m' g') :
    Simulates view (if c then m else m') (if c then g else g') := by
  split
  · exact hm
  · exact hm'

/-- Reading what the view shows, and going on with it. -/
theorem Simulates.inspect {f : σ → α} {p : τ → α} (hf : ∀ s, f s = p (view s))
    {k : α → Prog ε σ β} {g : α → τ → τ} (hk : ∀ a, Simulates view (k a) (g a)) :
    Simulates view (Script.reading f >>= k) fun v => g (p v) v := by
  intro s b s' h
  obtain ⟨a, t, ha, hb⟩ := completes_bind.mp h
  obtain ⟨rfl, rfl⟩ := completes_reading.mp ha
  rw [hk _ _ _ _ hb, hf]

/-- The step may be said in other words. -/
theorem Simulates.congr {m : Prog ε σ α} {g g' : τ → τ} (hm : Simulates view m g)
    (h : ∀ v, g v = g' v) : Simulates view m g' :=
  fun s a s' hs => (hm s a s' hs).trans (h _)

/-- **THE LOOP RULE**: if each iteration simulates a step, the loop simulates the fold. -/
theorem Simulates.forEach {f : β → Prog ε σ Unit} {g : τ → β → τ} {l : List β}
    (h : ∀ b ∈ l, Simulates view (f b) fun v => g v b) :
    Simulates view (forEach f l) fun v => l.foldl g v := by
  induction l with
  | nil => exact Simulates.pure ()
  | cons b l ih =>
      exact (h b List.mem_cons_self).bind fun _ _ => ih fun c hc => h c (List.mem_cons_of_mem _ hc)

end Simulation

/-! ## Whether it completes -/

/-- The program completes from every state. -/
def Always (m : Prog ε σ α) : Prop := ∀ s, ∃ a s', Completes m s a s'

theorem Always.pure (a : α) : Always (pure a : Prog ε σ α) := fun s => ⟨a, s, rfl⟩

/-- A check that succeeds. -/
theorem Always.lifted {r : Except ε α} {a : α} (h : r = .ok a) :
    Always (lifted r : Prog ε σ α) := fun s => ⟨a, s, by rw [h]; rfl⟩

theorem Always.reading (f : σ → α) : Always (reading f : Prog ε σ α) := fun s => ⟨f s, s, rfl⟩

theorem Always.changing (f : σ → σ) : Always (changing f : Prog ε σ Unit) :=
  fun s => ⟨(), f s, rfl⟩

/-- A handler is not needed. -/
theorem Always.rescue {m : Prog ε σ α} (hm : Always m) (handler : ε → Prog ε' σ α) :
    Always (rescue m handler) := by
  intro s
  obtain ⟨a, s', h⟩ := hm s
  exact ⟨a, s', by rw [Completes, Script.rescue, h]⟩

theorem Always.wrapping {m : Prog ε σ α} (hm : Always m) (f : ε → ε') :
    Always (wrapping f m) := by
  rw [wrapping_eq_rescue]
  exact hm.rescue _

/-- The second part need only complete on results of the first. -/
theorem Always.bind {m : Prog ε σ α} {f : α → Prog ε σ β} (hm : Always m)
    (hf : ∀ a, Returns m a → Always (f a)) : Always (m >>= f) := by
  intro s
  obtain ⟨a, t, ha⟩ := hm s
  obtain ⟨b, s', hb⟩ := hf a ⟨s, t, ha⟩ t
  exact ⟨b, s', completes_bind.mpr ⟨a, t, ha, hb⟩⟩

/-- A loop completes if every iteration does. -/
theorem Always.forEach {f : β → Prog ε σ Unit} {l : List β} (h : ∀ b ∈ l, Always (f b)) :
    Always (forEach f l) := by
  induction l with
  | nil => exact Always.pure ()
  | cons b l ih =>
      exact (h b List.mem_cons_self).bind fun _ _ => ih fun c hc => h c (List.mem_cons_of_mem _ hc)

end Script
