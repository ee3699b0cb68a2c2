import VkTurn.BondHelloProofs

/-! # The protocol selector

    The supervisor's factory is `vlessBondProtocolSelector.create`, which asks
    another factory for a generation of one protocol version.  In mode auto it
    begins with version 2; the first answer that wraps
    `errVLESSBondV2Unavailable` makes it ask again for version 1, at once and from
    then on.

    A run is a list of calls of `create`, each with its calls of the factory, the
    generations it closed and its result.  The factory may answer by everything it
    was asked and has answered before. -/

namespace VkTurnSelector

open GoText VkTurnBondHello

/-- `vlessBondProtocolMode`. -/
inductive Mode where
  | auto
  | v1
  | v2
  deriving DecidableEq, Repr

/-- The error of a setup: `errVLESSBondV2Unavailable`, another one, or one that
    wraps others. -/
inductive SetupError where
  | v2Unavailable
  | new (text : Bytes)
  | wrap (text : Bytes) (err : SetupError)
  | join (first second : SetupError)
  deriving DecidableEq, Repr

/-- `errors.Is(err, errVLESSBondV2Unavailable)`. -/
def SetupError.isV2Unavailable : SetupError → Bool
  | .v2Unavailable => true
  | .new _ => false
  | .wrap _ err => err.isV2Unavailable
  | .join first second => first.isV2Unavailable || second.isV2Unavailable

section Selector

variable {γ : Type}

/-- What the factory answers; `γ` are the generations. -/
structure Answer (γ : Type) where
  generation : Option γ
  err : Option SetupError
  deriving DecidableEq, Repr

/-- The answer says that version 2 is unavailable. -/
def Answer.unavailable (o : Answer γ) : Bool :=
  match o.err with
  | none => false
  | some err => err.isV2Unavailable

/-- A call of the factory: the protocol and the answer. -/
abbrev Call (γ : Type) := Int × Answer γ

/-- `vlessBondProtocolFactory`, which may look at the calls before. -/
abbrev Factory (γ : Type) := List (Call γ) → Int → Answer γ

/-- `vlessBondProtocolSelector`. -/
structure Selector where
  mode : Mode
  legacyV1 : Bool := false
  deriving DecidableEq, Repr

/-- `newVLESSBondProtocolSelector`. -/
def newVLESSBondProtocolSelector (mode : Mode) : Selector := { mode := mode }

/-- `vlessBondProtocolSelector.protocol`. -/
def Selector.protocol (s : Selector) : Int :=
  match s.mode with
  | .v1 => bondProtocolV1
  | .v2 => bondProtocolV2
  | .auto => if s.legacyV1 then bondProtocolV1 else bondProtocolV2

/-- What one `create` did: its calls of the factory, the generations it closed and
    what it returned. -/
structure Creation (γ : Type) where
  calls : List (Call γ)
  closed : List γ
  result : Answer γ
  deriving DecidableEq, Repr

/-- `vlessBondProtocolSelector.create`. -/
def Selector.create (s : Selector) (factory : Factory γ) (past : List (Call γ)) :
    Selector × Creation γ :=
  let protocol := s.protocol
  let o := factory past protocol
  if s.mode ≠ .auto ∨ protocol ≠ bondProtocolV2 ∨ o.unavailable = false then
    (s, ⟨[(protocol, o)], [], o⟩)
  else
    let o' := factory (past ++ [(protocol, o)]) bondProtocolV1
    ({ s with legacyV1 := true },
      ⟨[(protocol, o), (bondProtocolV1, o')], o.generation.toList, o'⟩)

/-- A run of `n` calls of `create`, one after the other. -/
def Selector.creates (factory : Factory γ) : Nat → Selector → List (Call γ) →
    List (Creation γ)
  | 0, _, _ => []
  | n + 1, s, past =>
      let r := s.create factory past
      r.2 :: Selector.creates factory n r.1 (past ++ r.2.calls)

/-! ## What one call can do -/

/-- One call of the factory, for protocol `v`; its answer is the result. -/
def Plain (v : Int) (c : Creation γ) : Prop :=
  ∃ o, c = ⟨[(v, o)], [], o⟩

/-- The switch: the answer for version 2 is that it is unavailable, what came with
    it is closed, and the answer for version 1 is the result. -/
def Switch (c : Creation γ) : Prop :=
  ∃ o o', o.unavailable = true ∧
    c = ⟨[(bondProtocolV2, o), (bondProtocolV1, o')], o.generation.toList, o'⟩

/-- One call of the factory for version 2, which did not say that it is
    unavailable. -/
def Available (c : Creation γ) : Prop :=
  ∃ o, o.unavailable = false ∧ c = ⟨[(bondProtocolV2, o)], [], o⟩

variable (factory : Factory γ) (past : List (Call γ))

/-- A call that cannot switch. -/
theorem create_plain {s : Selector} (h : s.mode ≠ .auto ∨ s.protocol ≠ bondProtocolV2) :
    ∃ c, s.create factory past = (s, c) ∧ Plain s.protocol c := by
  refine ⟨⟨[(s.protocol, factory past s.protocol)], [], factory past s.protocol⟩,
    if_pos ?_, _, rfl⟩
  rcases h with hmode | hproto
  · exact Or.inl hmode
  · exact Or.inr (Or.inl hproto)

/-- Before the switch. -/
theorem create_auto : ∃ c, Selector.create ⟨.auto, false⟩ factory past = (⟨.auto, false⟩, c) ∧
      Available c ∨ Selector.create ⟨.auto, false⟩ factory past = (⟨.auto, true⟩, c) ∧ Switch c := by
  cases h : (factory past bondProtocolV2).unavailable with
  | false =>
      exact ⟨_, Or.inl ⟨if_pos (Or.inr (Or.inr h)), _, h, rfl⟩⟩
  | true =>
      refine ⟨_, Or.inr ⟨if_neg ?_, _, _, h, rfl⟩⟩
      rintro (hmode | hproto | hav)
      · exact hmode rfl
      · exact hproto rfl
      · rw [show Selector.protocol ⟨.auto, false⟩ = bondProtocolV2 from rfl, h] at hav
        cases hav

/-! ## Runs -/

/-- A run whose calls leave the selector as it is. -/
theorem creates_all {s : Selector} {P : Creation γ → Prop}
    (h : ∀ past, ∃ c, s.create factory past = (s, c) ∧ P c) (n : Nat) :
    ∀ c ∈ s.creates factory n past, P c := by
  induction n generalizing past with
  | zero => exact fun c hc => (by cases hc)
  | succ n ih =>
      obtain ⟨c, hc, hP⟩ := h past
      intro d hd
      simp only [Selector.creates, hc, List.mem_cons] at hd
      rcases hd with rfl | hd
      · exact hP
      · exact ih _ d hd

/-- The runs of a mode. -/
def Selected (mode : Mode) (run : List (Creation γ)) : Prop :=
  match mode with
  | .v1 => ∀ c ∈ run, Plain bondProtocolV1 c
  | .v2 => ∀ c ∈ run, Plain bondProtocolV2 c
  | .auto => (∀ c ∈ run, Available c) ∨
      ∃ before c after, run = before ++ c :: after ∧ (∀ d ∈ before, Available d) ∧ Switch c ∧
        ∀ d ∈ after, Plain bondProtocolV1 d

/-- **MODE AUTO**: every call is for version 2 and finds it available, up to one
    call that switches and is followed by calls for version 1. -/
theorem creates_auto (n : Nat) :
    Selected .auto (Selector.creates factory n ⟨.auto, false⟩ past) := by
  induction n generalizing past with
  | zero => exact Or.inl fun c hc => (by cases hc)
  | succ n ih =>
      obtain ⟨c, ⟨hc, hav⟩ | ⟨hc, hsw⟩⟩ := create_auto factory past
      · simp only [Selector.creates, hc]
        rcases ih (past ++ c.calls) with hall | ⟨before, d, after, hrun, hbefore, hd, hafter⟩
        · exact Or.inl (List.forall_mem_cons.mpr ⟨hav, hall⟩)
        · refine Or.inr ⟨c :: before, d, after, ?_, ?_, hd, hafter⟩
          · rw [hrun, List.cons_append]
          · exact List.forall_mem_cons.mpr ⟨hav, hbefore⟩
      · simp only [Selector.creates, hc]
        refine Or.inr ⟨[], c, _, rfl, fun d hd => (by cases hd), hsw, ?_⟩
        exact creates_all factory _
          (fun past => create_plain factory past (s := ⟨.auto, true⟩) (Or.inr (by decide))) n

/-- A run of a new selector. -/
def creations (mode : Mode) (factory : Factory γ) (n : Nat) : List (Creation γ) :=
  (newVLESSBondProtocolSelector mode).creates factory n []

theorem creations_selected (mode : Mode) (n : Nat) :
    Selected mode (creations mode factory n) := by
  cases mode with
  | auto => exact creates_auto factory [] n
  | v1 => exact creates_all factory [] (fun past => create_plain factory past (Or.inl (by decide))) n
  | v2 => exact creates_all factory [] (fun past => create_plain factory past (Or.inl (by decide))) n

/-! ## The answers -/

/-- The calls are calls of the factory: each answer is the one that the factory gives after the
    calls before it. -/
def Answered (factory : Factory γ) : List (Call γ) → List (Call γ) → Prop
  | _, [] => True
  | past, call :: calls =>
      call.2 = factory past call.1 ∧ Answered factory (past ++ [call]) calls

theorem answered_append (calls more : List (Call γ)) :
    Answered factory past (calls ++ more) ↔
      Answered factory past calls ∧ Answered factory (past ++ calls) more := by
  induction calls generalizing past with
  | nil => simp [Answered]
  | cons call calls ih =>
      rw [List.cons_append, Answered, Answered, ih, and_assoc, List.append_assoc]
      rfl

/-- One `create` records the answers it got. -/
theorem create_answered (s : Selector) :
    Answered factory past (s.create factory past).2.calls := by
  rw [Selector.create]
  split
  · exact ⟨rfl, trivial⟩
  · exact ⟨rfl, rfl, trivial⟩

/-- And so does a run, which has as many creations as there were calls of `create`. -/
theorem creates_answered (n : Nat) (s : Selector) :
    (s.creates factory n past).length = n ∧
      Answered factory past ((s.creates factory n past).flatMap (·.calls)) := by
  induction n generalizing s past with
  | zero => exact ⟨rfl, trivial⟩
  | succ n ih =>
      obtain ⟨hlength, hrest⟩ :=
        ih (past ++ (s.create factory past).2.calls) (s.create factory past).1
      rw [Selector.creates, List.length_cons, List.flatMap_cons, answered_append]
      exact ⟨congrArg (· + 1) hlength, create_answered factory past s, hrest⟩

/-! ## The protocols that are asked for -/

/-- The protocols passed to the factory over a run. -/
def protocols (run : List (Creation γ)) : List Int :=
  run.flatMap fun c => c.calls.map Prod.fst

theorem protocols_same {v : Int} {run : List (Creation γ)}
    (h : ∀ c ∈ run, c.calls.map Prod.fst = [v]) :
    protocols run = List.replicate run.length v := by
  induction run with
  | nil => rfl
  | cons c run ih =>
      rw [List.forall_mem_cons] at h
      rw [protocols, List.flatMap_cons, h.1, List.length_cons, List.replicate_succ]
      exact congrArg (v :: ·) (ih h.2)

theorem Plain.protocol {v : Int} {c : Creation γ} (h : Plain v c) :
    c.calls.map Prod.fst = [v] := by
  obtain ⟨o, rfl⟩ := h
  rfl

theorem Available.protocol {c : Creation γ} (h : Available c) :
    c.calls.map Prod.fst = [bondProtocolV2] := by
  obtain ⟨o, -, rfl⟩ := h
  rfl

/-- A block of 2s and a block of 1s. -/
theorem selected_protocols {mode : Mode} {run : List (Creation γ)} (h : Selected mode run) :
    ∃ k m, protocols run
        = List.replicate k bondProtocolV2 ++ List.replicate m bondProtocolV1 ∧
      (mode = .v1 → k = 0) ∧ (mode = .v2 → m = 0) := by
  cases mode with
  | v1 =>
      exact ⟨0, run.length, protocols_same fun c hc => (h c hc).protocol, fun _ => rfl,
        fun hm => (by cases hm)⟩
  | v2 =>
      refine ⟨run.length, 0, ?_, fun hm => (by cases hm), fun _ => rfl⟩
      rw [List.replicate_zero, List.append_nil]
      exact protocols_same fun c hc => (h c hc).protocol
  | auto =>
      rcases h with hall | ⟨before, c, after, rfl, hbefore, ⟨o, o', -, rfl⟩, hafter⟩
      · refine ⟨run.length, 0, ?_, fun hm => (by cases hm), fun hm => (by cases hm)⟩
        rw [List.replicate_zero, List.append_nil]
        exact protocols_same fun c hc => (hall c hc).protocol
      · refine ⟨before.length + 1, after.length + 1, ?_, fun hm => (by cases hm),
          fun hm => (by cases hm)⟩
        have h1 := protocols_same fun c hc => (hbefore c hc).protocol
        have h2 := protocols_same fun c hc => (hafter c hc).protocol
        rw [protocols] at h1 h2
        rw [protocols, List.flatMap_append, List.flatMap_cons, h1, h2, List.replicate_succ',
          List.replicate_succ, List.append_assoc]
        rfl

/-- Every call of `create` is a plain one or the switch. -/
theorem selected_cases {mode : Mode} {run : List (Creation γ)} (h : Selected mode run)
    {c : Creation γ} (hc : c ∈ run) : (∃ v, Plain v c) ∨ Switch c := by
  cases mode with
  | v1 => exact Or.inl ⟨_, h c hc⟩
  | v2 => exact Or.inl ⟨_, h c hc⟩
  | auto =>
      have plain : ∀ {d : Creation γ}, Available d → ∃ v, Plain v d := by
        rintro d ⟨o, -, rfl⟩
        exact ⟨_, o, rfl⟩
      rcases h with hall | ⟨before, d, after, rfl, hbefore, hd, hafter⟩
      · exact Or.inl (plain (hall c hc))
      · rcases List.mem_append.mp hc with hc | hc
        · exact Or.inl (plain (hbefore c hc))
        · rcases List.mem_cons.mp hc with rfl | hc
          · exact Or.inr hd
          · exact Or.inl ⟨_, hafter c hc⟩

/-- **PROTOCOL SELECTION**: for every mode, factory and number of calls of
    `create`, the factory is asked for a block of 2s and then for 1s only, for no
    2 in mode v1 and for no 1 in mode v2; in mode auto the switch is at the first
    answer that wraps `errVLESSBondV2Unavailable` and within its call of
    `create`.  Every call of `create` asks once or, at the switch, twice, closes
    the generation that came with the error at the switch and no other, and
    returns the last answer; the answers are those that the factory gives. -/
theorem protocol_selection_monotone (mode : Mode) (factory : Factory γ) (n : Nat) :
    (∃ k m, protocols (creations mode factory n)
        = List.replicate k bondProtocolV2 ++ List.replicate m bondProtocolV1 ∧
      (mode = .v1 → k = 0) ∧ (mode = .v2 → m = 0)) ∧
    Selected mode (creations mode factory n) ∧
    (creations mode factory n).length = n ∧
    Answered factory [] ((creations mode factory n).flatMap (·.calls)) ∧
    ∀ c ∈ creations mode factory n,
      (c.calls.getLast?).map Prod.snd = some c.result ∧
      (c.calls.length = 1 ∧ c.closed = [] ∨
        ∃ o, c.calls.head? = some (bondProtocolV2, o) ∧ o.unavailable = true ∧
          c.calls.length = 2 ∧ c.closed = o.generation.toList) := by
  have hsel := creations_selected factory mode n
  obtain ⟨hlength, hanswered⟩ :=
    creates_answered factory [] n (newVLESSBondProtocolSelector mode)
  refine ⟨selected_protocols hsel, hsel, hlength, hanswered, ?_⟩
  intro c hc
  rcases selected_cases hsel hc with ⟨v, o, rfl⟩ | ⟨o, o', ho, rfl⟩
  · exact ⟨rfl, Or.inl ⟨rfl, rfl⟩⟩
  · exact ⟨rfl, Or.inr ⟨o, rfl, ho, rfl, rfl⟩⟩

end Selector

end VkTurnSelector
