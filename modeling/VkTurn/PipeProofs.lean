import VkTurn.BondProofs
import VkTurn.GoScopeProofs

/-! # Piping two connections

    `pipeWithHalfCloseTimeout` copies between two connections in both directions
    at once.  A direction that comes to the end of its source half-closes its
    destination, within a time limit, and reports on a channel; the call takes the
    two reports, or the cancellation of its context, in whatever order `select`
    offers them, and returns the first error it has kept.

    The goroutines are the call itself, one copy for each direction, the
    `CloseWrite` each of them starts, and the `context.AfterFunc` that sets the
    deadlines.  What the connections answer, when the timers fire and when the
    context is cancelled is not up to the code.  A report is looked at after it
    was received, and the context may be cancelled in between.

    * A report of failure that finds the context cancelled is dropped, so a call
      that then takes no cancellation returns nil for a transfer that failed;
    * nothing else is lost (`none_lost`, `first_kept`), and with a context that is
      never cancelled the call does return (`uncancelled_moves`, `rank_falls`). -/

namespace VkTurnPipe

open ThreadPool GoScope GoText

/-! ## Errors -/

/-- The two connections. -/
inductive Side where
  | left
  | right
  deriving DecidableEq, Repr

/-- The two copies. -/
inductive Direction where
  | leftFromRight
  | rightFromLeft
  deriving DecidableEq, Repr

/-- The name of a direction in errors. -/
def Direction.name : Direction → Bytes
  | .leftFromRight => ascii "left<-right"
  | .rightFromLeft => ascii "right<-left"

/-- The connection a direction writes to. -/
def Direction.destination : Direction → Side
  | .leftFromRight => .left
  | .rightFromLeft => .right

/-- What `ctx.Err()` is after a cancellation. -/
inductive CtxError where
  | canceled
  | deadlineExceeded
  deriving DecidableEq, Repr

def CtxError.text : CtxError → Bytes
  | .canceled => ascii "context canceled"
  | .deadlineExceeded => ascii "context deadline exceeded"

/-- What `closeWriteBounded` returns: the error of `CloseWrite`, or its own.  The
    limit is given as its `String()`. -/
inductive HalfError where
  | closeWrite (e : VkTurnBond.GoError)
  | notPositive
  | ctx (e : CtxError)
  | timedOut (limit : Bytes)
  deriving DecidableEq, Repr

def HalfError.text : HalfError → Bytes
  | .closeWrite e => e.text
  | .notPositive => ascii "half-close timeout must be positive"
  | .ctx e => e.text
  | .timedOut limit => ascii "timed out after " ++ limit

/-- `errors.Is(closeErr, net.ErrClosed)`. -/
def HalfError.isErrClosed : HalfError → Bool
  | .closeWrite e => e.isErrClosed
  | _ => false

/-- What the call returns. -/
inductive PipeError where
  | copy (d : Direction) (e : VkTurnBond.GoError)
  | noCloseWrite (d : Direction) (typeName : Bytes)
  | closeWrite (d : Direction) (e : HalfError)
  | ctx (e : CtxError)
  deriving DecidableEq, Repr

def PipeError.text : PipeError → Bytes
  | .copy d e => d.name ++ ascii ": " ++ e.text
  | .noCloseWrite d typeName =>
      d.name ++ ascii ": " ++ ascii "destination " ++ typeName
        ++ ascii " does not support CloseWrite"
  | .closeWrite d e => d.name ++ ascii ": " ++ ascii "close write: " ++ e.text
  | .ctx e => e.text

/-- `copyResult`. -/
structure Result where
  direction : Direction
  err : Option PipeError
  deriving DecidableEq, Repr

/-- What a direction reports when `closeWriteBounded` has returned. -/
def halfFailure (d : Direction) : Option HalfError → Option PipeError
  | none => none
  | some e => if e.isErrClosed then none else some (.closeWrite d e)

/-! ## State -/

/-- The arguments of the call: which connections have a `CloseWrite`, what `%T`
    makes of them, and the time limit of a half-close with its `String()`. -/
structure Config where
  closeWriter : Side → Bool
  typeName : Side → Bytes
  halfCloseTimeout : Int
  timeoutText : Bytes

/-- Where the call is.  `firstErr` and `remaining` are its variables. -/
inductive Main where
  | loop (firstErr : Option PipeError) (remaining : Nat)
  | got (result : Result) (firstErr : Option PipeError) (remaining : Nat)
  | cancelling (firstErr : Option PipeError) (remaining : Nat)
  | ending (firstErr : Option PipeError)
  | stopping (firstErr : Option PipeError)
  | awaiting (firstErr : Option PipeError)
  | clearing (firstErr : Option PipeError) (side : Side)
  | returned (firstErr : Option PipeError)
  deriving DecidableEq, Repr

/-- Where a `copyDirection` is: in `io.Copy`, in the `select` of
    `closeWriteBounded`, about to close its destination there, about to report, at
    its end. -/
inductive Copier where
  | copying
  | selecting
  | aborting (e : HalfError)
  | sending (err : Option PipeError)
  | sent
  deriving DecidableEq, Repr

/-- The goroutine in `CloseWrite`, with what it left in its channel. -/
inductive Closer where
  | idle
  | running
  | done (r : Option VkTurnBond.GoError)
  deriving DecidableEq, Repr

/-- The timer of `closeWriteBounded`. -/
inductive Timer where
  | unset
  | running
  | fired
  | stopped
  deriving DecidableEq, Repr

/-- `timer.Stop`. -/
def Timer.stop : Timer → Timer
  | .running => .stopped
  | t => t

/-- What the function given to `context.AfterFunc` sets a deadline for, in this order. -/
def sides : List Side := [.left, .right]

/-- What the goroutines share, and where they are.  Histories: what `io.Copy` and
    `closeWriteBounded` returned, and the reports the call has received. -/
structure Pipe where
  ctx : Option CtxError := none
  copyCtx : Option CtxError := none
  main : Main := .loop none 2
  copiers : Direction → Copier := fun _ => .copying
  closers : Direction → Closer := fun _ => .idle
  timers : Direction → Timer := fun _ => .unset
  watchdog : Hook Side := .armed
  results : List Result := []
  deadlines : Side → Bool := fun _ => false
  closes : Side → Nat := fun _ => 0
  copied : Direction → Option (Option VkTurnBond.GoError) := fun _ => none
  halved : Direction → Option (Option HalfError) := fun _ => none
  received : List Result := []

/-- The call, with its goroutines started. -/
def newPipe : Pipe := {}

/-- All reports made, in their order. -/
def Pipe.reports (p : Pipe) : List Result := p.received ++ p.results

def Pipe.setCopier (p : Pipe) (d : Direction) (c : Copier) : Pipe :=
  { p with copiers := Function.update p.copiers d c }

/-- `cancel()`. -/
def Pipe.cancel (p : Pipe) : Pipe :=
  { p with copyCtx := p.copyCtx.or (some .canceled) }

/-- `io.Copy` returned. -/
def Pipe.copyEnded (p : Pipe) (d : Direction) (r : Option VkTurnBond.GoError)
    (c : Copier) : Pipe :=
  { p with copied := Function.update p.copied d (some r)
           copiers := Function.update p.copiers d c }

/-- `closeWriteBounded` starts its goroutine and its timer. -/
def Pipe.halfClosing (p : Pipe) (d : Direction) : Pipe :=
  { p with closers := Function.update p.closers d .running
           timers := Function.update p.timers d .running }

/-- `closeWriteBounded` returned. -/
def Pipe.halfClosed (p : Pipe) (d : Direction) (h : Option HalfError) : Pipe :=
  { p with halved := Function.update p.halved d (some h)
           timers := Function.update p.timers d (p.timers d).stop
           copiers := Function.update p.copiers d (.sending (halfFailure d h)) }

@[simp] theorem Pipe.setCopier_copiers (p : Pipe) (d : Direction) (c : Copier) :
    (p.setCopier d c).copiers d = c := Function.update_self ..

@[simp] theorem Pipe.copyEnded_copiers (p : Pipe) (d : Direction)
    (r : Option VkTurnBond.GoError) (c : Copier) :
    (p.copyEnded d r c).copiers d = c := Function.update_self ..

@[simp] theorem Pipe.copyEnded_copied (p : Pipe) (d : Direction)
    (r : Option VkTurnBond.GoError) (c : Copier) :
    (p.copyEnded d r c).copied d = some r := Function.update_self ..

@[simp] theorem Pipe.halfClosed_copiers (p : Pipe) (d : Direction) (h : Option HalfError) :
    (p.halfClosed d h).copiers d = .sending (halfFailure d h) := Function.update_self ..

@[simp] theorem Pipe.halfClosed_halved (p : Pipe) (d : Direction) (h : Option HalfError) :
    (p.halfClosed d h).halved d = some h := Function.update_self ..

/-- `conn.Close`. -/
def Pipe.close (p : Pipe) (side : Side) : Pipe :=
  { p with closes := Function.update p.closes side (p.closes side + 1) }

/-- `conn.SetDeadline`: to the present, or to none. -/
def Pipe.setDeadline (p : Pipe) (side : Side) (past : Bool) : Pipe :=
  { p with deadlines := Function.update p.deadlines side past }

@[simp] theorem Pipe.setDeadline_deadlines (p : Pipe) (side : Side) (past : Bool) :
    (p.setDeadline side past).deadlines side = past := Function.update_self ..

/-! ## Sections -/

/-- The case a `select` of the call takes; `go` is every other section. -/
inductive MainChoice where
  | go
  | result
  | ctx
  deriving DecidableEq, Repr

/-- The end of `io.Copy`, and the case the `select` of `closeWriteBounded`
    takes. -/
inductive CopierChoice where
  | go
  | copied (r : Option VkTurnBond.GoError)
  | closed
  | ctx
  | timer
  deriving DecidableEq, Repr

/-- One scheduling choice.  `cancel` is the caller's context, `propagate` its
    effect on `copyCtx`. -/
inductive Choice where
  | main (c : MainChoice)
  | copier (d : Direction) (c : CopierChoice)
  | closeWrite (d : Direction) (r : Option VkTurnBond.GoError)
  | fire (d : Direction)
  | watchdog
  | cancel (e : CtxError)
  | propagate
  deriving DecidableEq, Repr

/-- One section of `pipeWithHalfCloseTimeout`. -/
def mainStep (p : Pipe) : MainChoice → Main → Option Pipe
  | .go, .loop firstErr 0 => some { p with main := .ending firstErr }
  | .result, .loop firstErr (n + 1) =>
      match p.results with
      | [] => none
      | r :: rest =>
          some { p with main := .got r firstErr n, results := rest
                        received := p.received ++ [r] }
  | .ctx, .loop firstErr (n + 1) =>
      match p.ctx with
      | none => none
      | some e =>
          some { p with main := .cancelling (firstErr.or (some (.ctx e))) (n + 1) }
  | .go, .got r firstErr n =>
      if r.err.isSome ∧ firstErr = none ∧ p.ctx = none then
        some { p with main := .cancelling r.err n }
      else some { p with main := .loop firstErr n }
  | .go, .cancelling firstErr n => some { p.cancel with main := .loop firstErr n }
  | .go, .ending firstErr => some { p.cancel with main := .stopping firstErr }
  | .go, .stopping firstErr =>
      if p.watchdog = .armed then
        some { p with watchdog := .stopped, main := .clearing firstErr .left }
      else some { p with main := .awaiting firstErr }
  | .go, .awaiting firstErr =>
      if p.watchdog = .done then some { p with main := .clearing firstErr .left }
      else none
  | .go, .clearing firstErr .left =>
      some { p.setDeadline .left false with main := .clearing firstErr .right }
  | .go, .clearing firstErr .right =>
      some { p.setDeadline .right false with main := .returned firstErr }
  | _, _ => none

/-- One section of `copyDirection`, with `closeWriteBounded` in it. -/
def copierStep (cfg : Config) (p : Pipe) (d : Direction) :
    CopierChoice → Copier → Option Pipe
  | .copied (some e), .copying =>
      some (p.copyEnded d (some e) (.sending (some (.copy d e))))
  | .copied none, .copying =>
      if cfg.closeWriter d.destination then
        if cfg.halfCloseTimeout ≤ 0 then
          some (p.copyEnded d none (.aborting .notPositive))
        else some ((p.copyEnded d none .selecting).halfClosing d)
      else
        some (p.copyEnded d none
          (.sending (some (.noCloseWrite d (cfg.typeName d.destination)))))
  | .closed, .selecting =>
      match p.closers d with
      | .done r => some (p.halfClosed d (r.map .closeWrite))
      | _ => none
  | .ctx, .selecting =>
      match p.copyCtx with
      | none => none
      | some e => some (p.setCopier d (.aborting (.ctx e)))
  | .timer, .selecting =>
      if p.timers d = .fired then
        some (p.setCopier d (.aborting (.timedOut cfg.timeoutText)))
      else none
  | .go, .aborting e => some ((p.close d.destination).halfClosed d (some e))
  | .go, .sending err =>
      some { p.setCopier d .sent with results := p.results ++ [⟨d, err⟩] }
  | _, _ => none

/-- One section of the function given to `AfterFunc`, or its start. -/
def watchdogStep (p : Pipe) : Option Pipe :=
  (p.watchdog.step sides p.copyCtx.isSome p.deadlines true).map fun x =>
    { p with watchdog := x.1, deadlines := x.2 }

/-- One step. -/
def pipeStep (cfg : Config) (p : Pipe) : Choice → Option Pipe
  | .main c => mainStep p c p.main
  | .copier d c => copierStep cfg p d c (p.copiers d)
  | .closeWrite d r =>
      if p.closers d = .running then
        some { p with closers := Function.update p.closers d (.done r) }
      else none
  | .fire d =>
      if p.timers d = .running then
        some { p with timers := Function.update p.timers d .fired }
      else none
  | .watchdog => watchdogStep p
  | .cancel e => if p.ctx = none then some { p with ctx := some e } else none
  | .propagate =>
      match p.ctx, p.copyCtx with
      | some e, none => some { p with copyCtx := some e }
      | _, _ => none

/-! ## What a step can do -/

/-- The steps of the call. -/
inductive CallMoves (p : Pipe) : MainChoice → Pipe → Prop where
  | leaves (firstErr : Option PipeError) : p.main = .loop firstErr 0 →
      CallMoves p .go { p with main := .ending firstErr }
  | receives (firstErr : Option PipeError) (n : Nat) (r : Result) (rest : List Result) :
      p.main = .loop firstErr (n + 1) → p.results = r :: rest →
      CallMoves p .result { p with main := .got r firstErr n, results := rest
                                   received := p.received ++ [r] }
  | wakes (firstErr : Option PipeError) (n : Nat) (e : CtxError) :
      p.main = .loop firstErr (n + 1) → p.ctx = some e →
      CallMoves p .ctx
        { p with main := .cancelling (firstErr.or (some (.ctx e))) (n + 1) }
  | keeps (r : Result) (n : Nat) : p.main = .got r none n → r.err.isSome = true →
      p.ctx = none → CallMoves p .go { p with main := .cancelling r.err n }
  | passes (r : Result) (firstErr : Option PipeError) (n : Nat) :
      p.main = .got r firstErr n →
      ¬(r.err.isSome = true ∧ firstErr = none ∧ p.ctx = none) →
      CallMoves p .go { p with main := .loop firstErr n }
  | cancels (firstErr : Option PipeError) (n : Nat) : p.main = .cancelling firstErr n →
      CallMoves p .go { p.cancel with main := .loop firstErr n }
  | ends (firstErr : Option PipeError) : p.main = .ending firstErr →
      CallMoves p .go { p.cancel with main := .stopping firstErr }
  | stops (firstErr : Option PipeError) : p.main = .stopping firstErr →
      p.watchdog = .armed →
      CallMoves p .go { p with watchdog := .stopped, main := .clearing firstErr .left }
  | late (firstErr : Option PipeError) : p.main = .stopping firstErr →
      p.watchdog ≠ .armed → CallMoves p .go { p with main := .awaiting firstErr }
  | awaited (firstErr : Option PipeError) : p.main = .awaiting firstErr →
      p.watchdog = .done → CallMoves p .go { p with main := .clearing firstErr .left }
  | clearsLeft (firstErr : Option PipeError) : p.main = .clearing firstErr .left →
      CallMoves p .go
        { p.setDeadline .left false with main := .clearing firstErr .right }
  | clearsRight (firstErr : Option PipeError) : p.main = .clearing firstErr .right →
      CallMoves p .go { p.setDeadline .right false with main := .returned firstErr }

/-- The steps of a direction. -/
inductive CopyMoves (cfg : Config) (p : Pipe) (d : Direction) : Pipe → Prop where
  | failed (e : VkTurnBond.GoError) : p.copiers d = .copying →
      CopyMoves cfg p d (p.copyEnded d (some e) (.sending (some (.copy d e))))
  | unsupported : p.copiers d = .copying →
      CopyMoves cfg p d (p.copyEnded d none
        (.sending (some (.noCloseWrite d (cfg.typeName d.destination)))))
  | hurried : p.copiers d = .copying →
      CopyMoves cfg p d (p.copyEnded d none (.aborting .notPositive))
  | halfCloses : p.copiers d = .copying →
      CopyMoves cfg p d ((p.copyEnded d none .selecting).halfClosing d)
  | closed (r : Option VkTurnBond.GoError) : p.copiers d = .selecting →
      p.closers d = .done r → CopyMoves cfg p d (p.halfClosed d (r.map .closeWrite))
  | cancelled (e : CtxError) : p.copiers d = .selecting → p.copyCtx = some e →
      CopyMoves cfg p d (p.setCopier d (.aborting (.ctx e)))
  | timedOut : p.copiers d = .selecting → p.timers d = .fired →
      CopyMoves cfg p d (p.setCopier d (.aborting (.timedOut cfg.timeoutText)))
  | aborted (e : HalfError) : p.copiers d = .aborting e →
      CopyMoves cfg p d ((p.close d.destination).halfClosed d (some e))
  | reports (err : Option PipeError) : p.copiers d = .sending err →
      CopyMoves cfg p d { p.setCopier d .sent with results := p.results ++ [⟨d, err⟩] }

/-- The steps of the other goroutines, the timers and the context. -/
inductive SideMoves (p : Pipe) : Choice → Pipe → Prop where
  | closeWrote (d : Direction) (r : Option VkTurnBond.GoError) : p.closers d = .running →
      SideMoves p (.closeWrite d r)
        { p with closers := Function.update p.closers d (.done r) }
  | fires (d : Direction) : p.timers d = .running →
      SideMoves p (.fire d) { p with timers := Function.update p.timers d .fired }
  | watches (x : Hook Side × (Side → Bool)) :
      p.watchdog.step sides p.copyCtx.isSome p.deadlines true = some x →
      SideMoves p .watchdog { p with watchdog := x.1, deadlines := x.2 }
  | cancelled (e : CtxError) : p.ctx = none →
      SideMoves p (.cancel e) { p with ctx := some e }
  | propagates (e : CtxError) : p.ctx = some e → p.copyCtx = none →
      SideMoves p .propagate { p with copyCtx := some e }

section Inversion

variable {cfg : Config} {p p' : Pipe}

theorem mainStep_moves {c : MainChoice} (h : mainStep p c p.main = some p') :
    CallMoves p c p' := by
  generalize hm : p.main = m at h
  unfold mainStep at h
  split at h <;> (try split at h) <;>
    simp only [Option.some.injEq, reduceCtorEq] at h
  all_goals subst h
  all_goals first
    | exact .receives _ _ _ _ hm ‹_›
    | exact .wakes _ _ _ hm ‹_›
    | (rename_i hkeep
       obtain ⟨herr, rfl, hctx⟩ := hkeep
       exact .keeps _ _ hm herr hctx)
    | exact .passes _ _ _ hm ‹_›
    | exact .stops _ hm ‹_›
    | exact .late _ hm ‹_›
    | exact .awaited _ hm ‹_›
    | (constructor; exact hm)

theorem copierStep_moves {d : Direction} {c : CopierChoice}
    (h : copierStep cfg p d c (p.copiers d) = some p') : CopyMoves cfg p d p' := by
  generalize hm : p.copiers d = m at h
  unfold copierStep at h
  split at h <;> (try split at h) <;> (try split at h) <;>
    simp only [Option.some.injEq, reduceCtorEq] at h
  all_goals subst h
  all_goals first
    | exact .closed _ hm ‹_›
    | exact .cancelled _ hm ‹_›
    | exact .timedOut hm ‹_›
    | (constructor; exact hm)

/-- A step is one of the call, of a direction, or of the others. -/
theorem pipeStep_moves {a : Choice} (h : pipeStep cfg p a = some p') :
    (∃ c, a = .main c ∧ CallMoves p c p') ∨
      (∃ d c, a = .copier d c ∧ CopyMoves cfg p d p') ∨ SideMoves p a p' := by
  cases a with
  | main c => exact Or.inl ⟨c, rfl, mainStep_moves h⟩
  | copier d c => exact Or.inr (Or.inl ⟨d, c, rfl, copierStep_moves h⟩)
  | closeWrite d r =>
      simp only [pipeStep] at h
      split at h <;> cases h
      exact Or.inr (Or.inr (.closeWrote d r ‹_›))
  | fire d =>
      simp only [pipeStep] at h
      split at h <;> cases h
      exact Or.inr (Or.inr (.fires d ‹_›))
  | watchdog =>
      obtain ⟨x, hx, rfl⟩ := Option.map_eq_some_iff.mp h
      exact Or.inr (Or.inr (.watches x hx))
  | cancel e =>
      simp only [pipeStep] at h
      split at h <;> cases h
      exact Or.inr (Or.inr (.cancelled e ‹_›))
  | propagate =>
      simp only [pipeStep] at h
      split at h <;> cases h
      exact Or.inr (Or.inr (.propagates _ ‹_› ‹_›))

end Inversion

/-! ## What a direction reports -/

/-- The reports of one direction. -/
def Pipe.reportsOf (p : Pipe) (d : Direction) : List Result :=
  p.reports.filter fun r => r.direction = d

/-- `Told d c copied halved reports`: a direction at `c`, in which `io.Copy` and
    `closeWriteBounded` have returned as given, has made these reports. -/
inductive Told (d : Direction) : Copier → Option (Option VkTurnBond.GoError) →
    Option (Option HalfError) → List Result → Prop where
  | copying : Told d .copying none none []
  | selecting : Told d .selecting (some none) none []
  | aborting (e : HalfError) : Told d (.aborting e) (some none) none []
  | failed (e : VkTurnBond.GoError) :
      Told d (.sending (some (.copy d e))) (some (some e)) none []
  | unsupported (typeName : Bytes) :
      Told d (.sending (some (.noCloseWrite d typeName))) (some none) none []
  | halved (h : Option HalfError) :
      Told d (.sending (halfFailure d h)) (some none) (some h) []
  | sent {err : Option PipeError} {copied : Option (Option VkTurnBond.GoError)}
      {halved : Option (Option HalfError)} : Told d (.sending err) copied halved [] →
      Told d .sent copied halved [⟨d, err⟩]

/-- The direction has told what happened in it. -/
def Pipe.told (p : Pipe) (d : Direction) : Prop :=
  Told d (p.copiers d) (p.copied d) (p.halved d) (p.reportsOf d)

/-- The direction was copied to the end of its source, and its destination was
    half-closed or is closed. -/
def Transferred (p : Pipe) (d : Direction) : Prop :=
  p.copied d = some none ∧ ∃ h, p.halved d = some h ∧ ∀ e, h = some e → e.isErrClosed = true

/-- A report without error is that of a transfer. -/
theorem told_transferred {p : Pipe} {d : Direction} {err : Option PipeError}
    (h : Told d (.sending err) (p.copied d) (p.halved d) []) :
    err = none ↔ Transferred p d := by
  generalize hc : p.copied d = copied at h
  generalize hh : p.halved d = halved at h
  rw [Transferred, hc, hh]
  cases h with
  | failed e => simp
  | unsupported typeName => simp
  | halved h =>
      cases h with
      | none => simp [halfFailure]
      | some e => cases he : e.isErrClosed <;> simp [halfFailure, he]

/-- An error names its direction. -/
theorem told_named {d : Direction} {err : Option PipeError}
    {copied : Option (Option VkTurnBond.GoError)} {halved : Option (Option HalfError)}
    (h : Told d (.sending err) copied halved []) {e : PipeError} (he : err = some e) :
    d.name ++ ascii ": " <+: e.text := by
  cases h with
  | failed e₀ =>
      obtain rfl := Option.some.inj he
      exact List.prefix_append ..
  | unsupported typeName =>
      obtain rfl := Option.some.inj he
      simp only [PipeError.text, List.append_assoc]
      exact ⟨_, List.append_assoc ..⟩
  | halved h =>
      cases h with
      | none => cases he
      | some e₀ =>
          simp only [halfFailure] at he
          split at he
          · cases he
          · obtain rfl := Option.some.inj he
            simp only [PipeError.text, List.append_assoc]
            exact ⟨_, List.append_assoc ..⟩

section Told

variable {cfg : Config} {p p' : Pipe}

/-- A report joins those of its direction. -/
theorem reportsOf_sent (p : Pipe) (d d' : Direction) (err : Option PipeError) :
    ({ p.setCopier d .sent with results := p.results ++ [⟨d, err⟩] } : Pipe).reportsOf d'
      = p.reportsOf d' ++ ([⟨d, err⟩] : List Result).filter (fun r => r.direction = d') := by
  rw [Pipe.reportsOf, Pipe.reportsOf, Pipe.reports, Pipe.reports, ← List.filter_append,
    List.append_assoc]
  rfl

/-- The call moves reports from the channel to its own. -/
theorem CallMoves.frame {c : MainChoice} (h : CallMoves p c p') :
    p'.copiers = p.copiers ∧ p'.copied = p.copied ∧ p'.halved = p.halved ∧
      p'.reports = p.reports := by
  cases h with
  | receives firstErr n r rest _ hres =>
      refine ⟨rfl, rfl, rfl, ?_⟩
      rw [Pipe.reports, Pipe.reports, hres, List.append_assoc, List.singleton_append]
  | _ => exact ⟨rfl, rfl, rfl, rfl⟩

/-- The others report nothing and leave the call alone. -/
theorem SideMoves.frame {a : Choice} (h : SideMoves p a p') :
    p'.copiers = p.copiers ∧ p'.copied = p.copied ∧ p'.halved = p.halved ∧
      p'.reports = p.reports ∧ p'.main = p.main ∧ p'.received = p.received := by
  cases h <;> exact ⟨rfl, rfl, rfl, rfl, rfl, rfl⟩

/-- A direction leaves the call alone. -/
theorem CopyMoves.frame {d : Direction} (h : CopyMoves cfg p d p') :
    p'.main = p.main ∧ p'.received = p.received ∧ p'.ctx = p.ctx ∧
      p'.watchdog = p.watchdog ∧ p'.deadlines = p.deadlines := by
  cases h <;> exact ⟨rfl, rfl, rfl, rfl, rfl⟩

/-- And it leaves the other direction alone. -/
theorem CopyMoves.other {d d' : Direction} (h : CopyMoves cfg p d p') (hne : d' ≠ d) :
    p'.copiers d' = p.copiers d' ∧ p'.copied d' = p.copied d' ∧
      p'.halved d' = p.halved d' ∧ p'.reportsOf d' = p.reportsOf d' ∧
      p'.closers d' = p.closers d' := by
  have hupd : ∀ {α : Type} (f : Direction → α) (v : α), Function.update f d v d' = f d' :=
    fun f v => Function.update_of_ne hne v f
  cases h with
  | reports err _ =>
      refine ⟨hupd _ _, rfl, rfl, ?_, rfl⟩
      have hout : ([⟨d, err⟩] : List Result).filter (fun r => r.direction = d') = [] := by
        simp [Ne.symm hne]
      rw [reportsOf_sent, hout, List.append_nil]
  | failed e _ | unsupported _ | hurried _ => exact ⟨hupd _ _, hupd _ _, rfl, rfl, rfl⟩
  | halfCloses _ => exact ⟨hupd _ _, hupd _ _, rfl, rfl, hupd _ _⟩
  | closed r _ _ => exact ⟨hupd _ _, rfl, hupd _ _, rfl, rfl⟩
  | aborted e _ => exact ⟨hupd _ _, rfl, hupd _ _, rfl, rfl⟩
  | cancelled e _ _ => exact ⟨hupd _ _, rfl, rfl, rfl, rfl⟩
  | timedOut _ _ => exact ⟨hupd _ _, rfl, rfl, rfl, rfl⟩

theorem Told.copying_inv {d : Direction} {copied : Option (Option VkTurnBond.GoError)}
    {halved : Option (Option HalfError)} {rs : List Result}
    (h : Told d .copying copied halved rs) : halved = none ∧ rs = [] := by
  cases h
  exact ⟨rfl, rfl⟩

theorem Told.closing_inv {d : Direction} {c : Copier}
    {copied : Option (Option VkTurnBond.GoError)} {halved : Option (Option HalfError)}
    {rs : List Result} (h : Told d c copied halved rs)
    (hc : c = .selecting ∨ ∃ e, c = .aborting e) :
    copied = some none ∧ halved = none ∧ rs = [] := by
  rcases hc with rfl | ⟨e, rfl⟩ <;> cases h <;> exact ⟨rfl, rfl, rfl⟩

theorem Told.unsent {d : Direction} {c : Copier}
    {copied : Option (Option VkTurnBond.GoError)} {halved : Option (Option HalfError)}
    {rs : List Result} (h : Told d c copied halved rs) (hc : c ≠ .sent) : rs = [] := by
  cases h with
  | sent _ => exact absurd rfl hc
  | _ => rfl

/-- The end of `io.Copy`. -/
theorem told_copyEnded {d : Direction} {r : Option VkTurnBond.GoError} {c : Copier}
    (hI : p.told d) (hc : p.copiers d = .copying) (h : Told d c (some r) none []) :
    (p.copyEnded d r c).told d := by
  rw [Pipe.told, hc] at hI
  obtain ⟨hhalved, hrs⟩ := hI.copying_inv
  rw [Pipe.told, Pipe.copyEnded_copiers, Pipe.copyEnded_copied]
  show Told d c (some r) (p.halved d) (p.reportsOf d)
  rw [hhalved, hrs]
  exact h

/-- The end of `closeWriteBounded`. -/
theorem told_halfClosed {d : Direction} (hcopied : p.copied d = some none)
    (hrs : p.reportsOf d = []) (h : Option HalfError) : (p.halfClosed d h).told d := by
  rw [Pipe.told, Pipe.halfClosed_copiers, Pipe.halfClosed_halved]
  show Told d _ (p.copied d) _ (p.reportsOf d)
  rw [hcopied, hrs]
  exact .halved h

/-- `closeWriteBounded` is about to give up. -/
theorem told_giveUp {d : Direction} (hI : p.told d) (hc : p.copiers d = .selecting)
    (e : HalfError) : (p.setCopier d (.aborting e)).told d := by
  rw [Pipe.told, hc] at hI
  obtain ⟨hcopied, hhalved, hrs⟩ := hI.closing_inv (Or.inl rfl)
  rw [Pipe.told, Pipe.setCopier_copiers]
  show Told d _ (p.copied d) (p.halved d) (p.reportsOf d)
  rw [hcopied, hhalved, hrs]
  exact .aborting e

/-- A direction tells what happens in it. -/
theorem CopyMoves.told {d : Direction} (h : CopyMoves cfg p d p') (hI : p.told d) :
    p'.told d := by
  cases h with
  | failed e hc => exact told_copyEnded hI hc (.failed e)
  | unsupported hc => exact told_copyEnded hI hc (.unsupported _)
  | hurried hc => exact told_copyEnded hI hc (.aborting _)
  | halfCloses hc => exact told_copyEnded hI hc .selecting
  | closed r hc _ =>
      rw [Pipe.told, hc] at hI
      obtain ⟨hcopied, -, hrs⟩ := hI.closing_inv (Or.inl rfl)
      exact told_halfClosed hcopied hrs _
  | aborted e hc =>
      rw [Pipe.told, hc] at hI
      obtain ⟨hcopied, -, hrs⟩ := hI.closing_inv (Or.inr ⟨e, rfl⟩)
      exact told_halfClosed (p := p.close d.destination) hcopied hrs _
  | cancelled e hc _ => exact told_giveUp hI hc _
  | timedOut hc _ => exact told_giveUp hI hc _
  | reports err hc =>
      rw [Pipe.told, hc] at hI
      have hnil := hI.unsent (fun he => (by cases he))
      rw [hnil] at hI
      rw [Pipe.told, reportsOf_sent, hnil]
      have hsame : ([⟨d, err⟩] : List Result).filter (fun r => r.direction = d) = [⟨d, err⟩] := by
        simp
      rw [hsame]
      show Told d ((p.setCopier d .sent).copiers d) _ _ _
      rw [Pipe.setCopier_copiers]
      exact .sent hI

/-- **TOLD**: in every state, each direction has reported once what happened in it
    when it is at its end, and nothing before. -/
theorem told {ok : Pipe → Choice → Prop} (h : Reach (pipeStep cfg) ok newPipe p) :
    ∀ d, p.told d := by
  refine Reach.invariant (I := fun p : Pipe => ∀ d, p.told d)
    (show ∀ d, newPipe.told d from fun _ => .copying) ?_ h
  intro p a p' _ hI _ hs d
  rcases pipeStep_moves hs with ⟨c, -, hm⟩ | ⟨d₀, c, -, hm⟩ | hm
  · obtain ⟨h1, h2, h3, h4⟩ := hm.frame
    rw [Pipe.told, Pipe.reportsOf, h1, h2, h3, h4]
    exact hI d
  · by_cases hd : d = d₀
    · subst hd
      exact hm.told (hI d)
    · obtain ⟨h1, h2, h3, h4, -⟩ := hm.other hd
      rw [Pipe.told, h1, h2, h3, h4]
      exact hI d
  · obtain ⟨h1, h2, h3, h4, -⟩ := hm.frame
    rw [Pipe.told, Pipe.reportsOf, h1, h2, h3, h4]
    exact hI d

end Told

/-! ## The loop of the call -/

/-- What the loop of the call has: the error it has kept, the reports it has still
    to take, the one it is looking at, and those it has received. -/
structure Loop where
  kept : Option PipeError
  remaining : Nat
  looking : Option Result
  received : List Result

/-- The variables of the loop where the call is. -/
def Main.loopAt (received : List Result) : Main → Loop
  | .loop firstErr n => ⟨firstErr, n, none, received⟩
  | .got r firstErr n => ⟨firstErr, n, some r, received⟩
  | .cancelling firstErr n => ⟨firstErr, n, none, received⟩
  | .ending firstErr => ⟨firstErr, 0, none, received⟩
  | .stopping firstErr => ⟨firstErr, 0, none, received⟩
  | .awaiting firstErr => ⟨firstErr, 0, none, received⟩
  | .clearing firstErr _ => ⟨firstErr, 0, none, received⟩
  | .returned firstErr => ⟨firstErr, 0, none, received⟩

/-- The loop of a pipe. -/
def Pipe.loop (p : Pipe) : Loop := p.main.loopAt p.received

/-- `Turn ctx l c l'`: what a step can do to the loop, by its choice `c` if it is one
    of the call. -/
inductive Turn (ctx : Option CtxError) (l : Loop) : Option MainChoice → Loop → Prop where
  | rest (c : Option MainChoice) : Turn ctx l c l
  | take (n : Nat) (r : Result) : l.looking = none → l.remaining = n + 1 →
      Turn ctx l (some .result)
        { l with remaining := n, looking := some r, received := l.received ++ [r] }
  | wake (e : CtxError) : l.looking = none → ctx = some e →
      Turn ctx l (some .ctx) { l with kept := l.kept.or (some (.ctx e)) }
  | keep (r : Result) : l.looking = some r → l.kept = none → r.err.isSome = true →
      ctx = none → Turn ctx l (some .go) { l with kept := r.err, looking := none }
  | pass (r : Result) : l.looking = some r →
      ¬(r.err.isSome = true ∧ l.kept = none ∧ ctx = none) →
      Turn ctx l (some .go) { l with looking := none }

/-- The choice of a step that is one of the call. -/
def Choice.ofMain : Choice → Option MainChoice
  | .main c => some c
  | _ => none

theorem loop_eq {p : Pipe} {m : Main} (h : p.main = m) : p.loop = m.loopAt p.received :=
  congrArg (Main.loopAt p.received) h

section Turns

variable {cfg : Config} {p p' : Pipe}

theorem CallMoves.turn {c : MainChoice} (h : CallMoves p c p') :
    Turn p.ctx p.loop (some c) p'.loop := by
  cases h with
  | leaves _ hmain => rw [loop_eq hmain]; exact .rest _
  | receives firstErr n r rest hmain _ => rw [loop_eq hmain]; exact .take n r rfl rfl
  | wakes firstErr n e hmain hctx => rw [loop_eq hmain]; exact .wake e rfl hctx
  | keeps r n hmain herr hctx => rw [loop_eq hmain]; exact .keep r rfl rfl herr hctx
  | passes r firstErr n hmain hpass => rw [loop_eq hmain]; exact .pass r rfl hpass
  | cancels _ _ hmain | ends _ hmain | stops _ hmain _ | late _ hmain _ | awaited _ hmain _
  | clearsLeft _ hmain | clearsRight _ hmain => rw [loop_eq hmain]; exact .rest _

/-- **TURNS**: every step of a pipe is a turn of its loop. -/
theorem pipeStep_turn {a : Choice} (h : pipeStep cfg p a = some p') :
    Turn p.ctx p.loop a.ofMain p'.loop := by
  rcases pipeStep_moves h with ⟨c, rfl, hm⟩ | ⟨d, c, rfl, hm⟩ | hm
  · exact hm.turn
  · obtain ⟨h1, h2, -⟩ := hm.frame
    rw [Pipe.loop, Pipe.loop, h1, h2]
    exact .rest _
  · obtain ⟨-, -, -, -, h1, h2⟩ := hm.frame
    rw [Pipe.loop, Pipe.loop, h1, h2]
    exact .rest _

end Turns

/-! ## The two reports -/

theorem Turn.taken {ctx : Option CtxError} {l l' : Loop} {c : Option MainChoice}
    (h : Turn ctx l c l') (hI : l.received.length + l.remaining = 2) :
    l'.received.length + l'.remaining = 2 := by
  cases h with
  | take n r _ hrem =>
      show (l.received ++ [r]).length + n = 2
      rw [List.length_append, List.length_singleton]
      omega
  | _ => exact hI

section Taken

variable {cfg : Config} {p p' : Pipe} {ok : Pipe → Choice → Prop}

/-- The call takes two reports. -/
theorem taken (h : Reach (pipeStep cfg) ok newPipe p) :
    p.loop.received.length + p.loop.remaining = 2 := by
  refine Reach.invariant (I := fun p : Pipe =>
    p.loop.received.length + p.loop.remaining = 2) rfl ?_ h
  intro p a p' _ hI _ hs
  exact (pipeStep_turn hs).taken hI

theorem loop_received (p : Pipe) : p.loop.received = p.received := by
  rw [Pipe.loop]
  cases p.main <;> rfl

/-- A report is of one of two directions. -/
theorem length_reports (p : Pipe) :
    p.reports.length
      = (p.reportsOf .leftFromRight).length + (p.reportsOf .rightFromLeft).length := by
  rw [Pipe.reportsOf, Pipe.reportsOf]
  induction p.reports with
  | nil => rfl
  | cons r rs ih =>
      obtain ⟨d, err⟩ := r
      cases d <;> simp [ih] <;> omega

/-- A direction that has told all has reported once. -/
theorem Told.sent_inv {d : Direction} {copied : Option (Option VkTurnBond.GoError)}
    {halved : Option (Option HalfError)} {rs : List Result}
    (h : Told d .sent copied halved rs) :
    ∃ err, rs = [⟨d, err⟩] ∧ Told d (.sending err) copied halved [] := by
  cases h with
  | sent hsent => exact ⟨_, rfl, hsent⟩

theorem reportsOf_le (h : Reach (pipeStep cfg) ok newPipe p) (d : Direction) :
    (p.reportsOf d).length ≤ 1 := by
  have ht := told h d
  rw [Pipe.told] at ht
  by_cases hc : p.copiers d = .sent
  · rw [hc] at ht
    obtain ⟨err, hrs, -⟩ := ht.sent_inv
    rw [hrs, List.length_singleton]
  · rw [ht.unsent hc]
    exact Nat.zero_le _

/-- **BOTH HAVE REPORTED**: when the call has taken its two reports, each direction
    has told what happened in it, and the call has received that. -/
theorem both_reported (h : Reach (pipeStep cfg) ok newPipe p)
    (hrem : p.loop.remaining = 0) :
    p.results = [] ∧ ∀ d, ∃ err, p.reportsOf d = [⟨d, err⟩] ∧
      Told d (.sending err) (p.copied d) (p.halved d) [] := by
  have htaken := taken h
  have hlen : p.received.length + p.results.length = p.reports.length :=
    (List.length_append ..).symm
  rw [length_reports] at hlen
  rw [loop_received, hrem] at htaken
  have hl := reportsOf_le h .leftFromRight
  have hr := reportsOf_le h .rightFromLeft
  have hone : ∀ d, (p.reportsOf d).length = 1 := by
    intro d
    cases d <;> omega
  refine ⟨List.eq_nil_of_length_eq_zero (by omega), ?_⟩
  intro d
  have ht := told h d
  rw [Pipe.told] at ht
  by_cases hc : p.copiers d = .sent
  · rw [hc] at ht
    exact ht.sent_inv
  · have hd := hone d
    rw [ht.unsent hc] at hd
    cases hd

/-- What the call has received is then the truth about both directions. -/
theorem received_true (h : Reach (pipeStep cfg) ok newPipe p)
    (hrem : p.loop.remaining = 0) :
    p.reports = p.received ∧ (∀ d, (p.reportsOf d).length = 1) ∧
      (∀ r ∈ p.received, r.err = none ↔ Transferred p r.direction) ∧
      ∀ r ∈ p.received, ∀ e, r.err = some e → r.direction.name ++ ascii ": " <+: e.text := by
  obtain ⟨hnil, hboth⟩ := both_reported h hrem
  have hreports : p.reports = p.received := by
    rw [Pipe.reports, hnil, List.append_nil]
  have htold : ∀ r ∈ p.received,
      Told r.direction (.sending r.err) (p.copied r.direction) (p.halved r.direction) [] := by
    intro r hr
    obtain ⟨err, hrs, ht⟩ := hboth r.direction
    have hmem : r ∈ p.reportsOf r.direction := by
      rw [Pipe.reportsOf, hreports]
      exact List.mem_filter.mpr ⟨hr, decide_eq_true rfl⟩
    rw [hrs] at hmem
    have herr : r.err = err := congrArg Result.err (List.mem_singleton.mp hmem)
    rw [herr]
    exact ht
  refine ⟨hreports, ?_, ?_, ?_⟩
  · intro d
    obtain ⟨err, hrs, -⟩ := hboth d
    rw [hrs, List.length_singleton]
  · intro r hr
    exact told_transferred (htold r hr)
  · intro r hr e he
    exact told_named (htold r hr) he

end Taken

/-! ## What the call keeps -/

/-- The first failure among reports. -/
def firstFailure (rs : List Result) : Option PipeError := rs.findSome? Result.err

theorem firstFailure_snoc (rs : List Result) (r : Result) :
    firstFailure (rs ++ [r]) = (firstFailure rs).or r.err := by
  have hone : [r].findSome? Result.err = r.err := by
    rw [List.findSome?_singleton]
  rw [firstFailure, List.findSome?_append, hone]
  rfl

theorem firstFailure_eq_none {rs : List Result} :
    firstFailure rs = none ↔ ∀ r ∈ rs, r.err = none :=
  List.findSome?_eq_none_iff

/-- When both directions have reported, there is no failure among the reports if and
    only if both were transferred. -/
theorem no_failure_iff {cfg : Config} {ok : Pipe → Choice → Prop} {p : Pipe}
    (h : Reach (pipeStep cfg) ok newPipe p) (hrem : p.loop.remaining = 0) :
    firstFailure p.received = none ↔ ∀ d, Transferred p d := by
  obtain ⟨hreports, hone, htrue, -⟩ := received_true h hrem
  rw [firstFailure_eq_none]
  constructor
  · intro hnone d
    have hpos : 0 < (p.reportsOf d).length := by
      rw [hone d]
      exact Nat.one_pos
    obtain ⟨r, hr⟩ := List.exists_mem_of_length_pos hpos
    rw [Pipe.reportsOf, hreports] at hr
    obtain ⟨hmem, hd⟩ := List.mem_filter.mp hr
    rw [← of_decide_eq_true hd]
    exact (htrue r hmem).mp (hnone r hmem)
  · intro htrans r hr
    exact (htrue r hr).mpr (htrans r.direction)

/-- The reports the call is done with. -/
def Loop.Seen (l : Loop) (before : List Result) : Prop :=
  l.received = before ++ l.looking.toList

/-- The call has kept the first failure it has looked at. -/
def Loop.KeepsFirst (l : Loop) : Prop :=
  ∃ before, l.Seen before ∧ l.kept = firstFailure before

/-- A call that has kept no error and has no more reports to take has looked at no
    failure. -/
def Loop.LosesNone (l : Loop) : Prop :=
  ∃ before, l.Seen before ∧ (l.kept = none → l.remaining = 0 → firstFailure before = none)

/-- In this step of its loop the call loses no failure: a report that is looked at
    with no error kept and no more to take is not a failure that finds the context
    cancelled; and when the last report is taken with no error kept, no failure was
    taken before. -/
def Loop.heeded (l : Loop) (ctx : Option CtxError) : MainChoice → Bool
  | .go => l.kept.isSome || l.remaining != 0 || ctx.isNone || l.looking.all (·.err.isNone)
  | .result => l.kept.isSome || l.remaining != 1 || (firstFailure l.received).isNone
  | .ctx => true

/-- In this step the call loses no failure. -/
def heeded (p : Pipe) : Choice → Bool
  | .main c => p.loop.heeded p.ctx c
  | _ => true

/-- The call's context is not cancelled in this step. -/
def uncancelled : Choice → Bool
  | .cancel _ => false
  | _ => true

section Kept

variable {ctx : Option CtxError} {l l' : Loop} {c : Option MainChoice}

/-- With a live context a turn keeps the first failure. -/
theorem Turn.keepsFirst (h : Turn ctx l c l') (hctx : ctx = none) (hI : l.KeepsFirst) :
    l'.KeepsFirst := by
  obtain ⟨before, hseen, hkept⟩ := hI
  rw [Loop.Seen] at hseen
  cases h with
  | rest => exact ⟨before, hseen, hkept⟩
  | take n r hlook _ =>
      rw [hlook, Option.toList_none, List.append_nil] at hseen
      exact ⟨l.received, rfl, hkept.trans (congrArg firstFailure hseen.symm)⟩
  | wake e _ hcancelled =>
      rw [hctx] at hcancelled
      cases hcancelled
  | keep r hlook hnone _ _ =>
      rw [hlook, Option.toList_some] at hseen
      refine ⟨l.received, (List.append_nil _).symm, ?_⟩
      rw [hseen, firstFailure_snoc, ← hkept, hnone, Option.none_or]
  | pass r hlook hpass =>
      rw [hlook, Option.toList_some] at hseen
      refine ⟨l.received, (List.append_nil _).symm, ?_⟩
      rw [hseen, firstFailure_snoc, ← hkept]
      show l.kept = _
      cases hk : l.kept with
      | some e => rw [Option.some_or]
      | none =>
          cases herr : r.err with
          | none => rfl
          | some e => exact absurd ⟨by rw [herr]; rfl, hk, hctx⟩ hpass

/-- A heeded turn loses no failure. -/
theorem Turn.losesNone (h : Turn ctx l c l')
    (hok : ∀ m, c = some m → l.heeded ctx m = true) (hI : l.LosesNone) : l'.LosesNone := by
  obtain ⟨before, hseen, hkept⟩ := hI
  rw [Loop.Seen] at hseen
  cases h with
  | rest => exact ⟨before, hseen, hkept⟩
  | take n r _ hrem =>
      refine ⟨l.received, rfl, ?_⟩
      intro hnone hlast
      have hk : l.kept = none := hnone
      have hn : n = 0 := hlast
      have hheed := hok _ rfl
      rw [Loop.heeded, hk, hrem, hn] at hheed
      exact Option.isNone_iff_eq_none.mp hheed
  | wake e hlook _ =>
      refine ⟨before, hseen, fun hnone => ?_⟩
      cases hk : l.kept <;> rw [hk] at hnone <;> cases hnone
  | keep r hlook _ herr _ =>
      refine ⟨l.received, (List.append_nil _).symm, fun hnone => ?_⟩
      rw [show r.err = none from hnone] at herr
      cases herr
  | pass r hlook hpass =>
      rw [hlook, Option.toList_some] at hseen
      refine ⟨l.received, (List.append_nil _).symm, fun hnone hlast => ?_⟩
      have hk : l.kept = none := hnone
      have hrem : l.remaining = 0 := hlast
      rw [hseen, firstFailure_snoc, hkept hk hrem, Option.none_or]
      -- a failure that is passed over finds the context cancelled
      cases herr : r.err with
      | none => rfl
      | some e =>
          have hsome : r.err.isSome = true := by rw [herr]; rfl
          have hheed := hok _ rfl
          rw [Loop.heeded, hk, hrem, hlook] at hheed
          cases hctx : ctx with
          | none => exact absurd ⟨hsome, hk, hctx⟩ hpass
          | some x =>
              rw [hctx] at hheed
              simp [herr] at hheed

variable {cfg : Config} {p : Pipe}

/-- The context of an uncancelled run is live. -/
theorem ctx_live (h : Reach (pipeStep cfg) (fun _ a => uncancelled a = true) newPipe p) :
    p.ctx = none := by
  refine Reach.invariant (I := fun p : Pipe => p.ctx = none) rfl ?_ h
  intro p a p' _ hI hok hs
  rcases pipeStep_moves hs with ⟨c, -, hm⟩ | ⟨d₀, c, -, hm⟩ | hm
  · cases hm <;> exact hI
  · exact hm.frame.2.2.1.trans hI
  · cases hm with
    | cancelled e _ => cases hok
    | _ => exact hI

/-- **FIRST KEPT**: with a context that is never cancelled, the call keeps the first
    failure that it looks at. -/
theorem first_kept
    (h : Reach (pipeStep cfg) (fun _ a => uncancelled a = true) newPipe p) :
    p.loop.KeepsFirst := by
  refine Reach.invariant (I := fun p : Pipe => p.loop.KeepsFirst)
    (show newPipe.loop.KeepsFirst from ⟨[], rfl, rfl⟩) ?_ h
  intro p a p' hr hI _ hs
  exact (pipeStep_turn hs).keepsFirst (ctx_live hr) hI

/-- **NONE LOST**: in a run all of whose steps are heeded, a call that has kept no
    error has looked at no failure. -/
theorem none_lost (h : Reach (pipeStep cfg) (fun p a => heeded p a = true) newPipe p) :
    p.loop.LosesNone := by
  refine Reach.invariant (I := fun p : Pipe => p.loop.LosesNone)
    (show newPipe.loop.LosesNone from ⟨[], rfl, fun _ _ => rfl⟩) ?_ h
  intro p a p' hr hI hok hs
  refine (pipeStep_turn hs).losesNone ?_ hI
  intro m hm
  cases a with
  | main c =>
      obtain rfl : c = m := Option.some.inj hm
      exact hok
  | _ => cases hm

end Kept

/-! ## The deadlines -/

/-- Where the call stands with the function given to `AfterFunc` and with the deadlines. -/
def Watched (w : Hook Side) (deadlines : Side → Bool) : Main → Prop
  | .awaiting _ => w ≠ .armed ∧ w ≠ .stopped
  | .clearing _ .left => w.quiet = true
  | .clearing _ .right => w.quiet = true ∧ deadlines .left = false
  | .returned _ => w.quiet = true ∧ ∀ side, deadlines side = false
  | _ => w ≠ .stopped

section Watched

variable {cfg : Config} {p p' : Pipe} {ok : Pipe → Choice → Prop}

theorem CallMoves.watched {c : MainChoice} (h : CallMoves p c p')
    (hI : Watched p.watchdog p.deadlines p.main) :
    Watched p'.watchdog p'.deadlines p'.main := by
  cases h with
  | stops _ hmain _ => exact rfl
  | late _ hmain hne =>
      rw [hmain] at hI
      exact ⟨hne, hI⟩
  | awaited _ hmain hdone =>
      show p.watchdog.quiet = true
      rw [hdone]
      rfl
  | clearsLeft _ hmain =>
      rw [hmain] at hI
      exact ⟨hI, Pipe.setDeadline_deadlines p .left false⟩
  | clearsRight _ hmain =>
      rw [hmain] at hI
      refine ⟨hI.1, ?_⟩
      intro side
      cases side with
      | left => exact hI.2
      | right => exact Pipe.setDeadline_deadlines p .right false
  | leaves _ hmain | receives _ _ _ _ hmain _ | wakes _ _ _ hmain _ | keeps _ _ hmain _ _
  | passes _ _ _ hmain _ | cancels _ _ hmain | ends _ hmain => rw [hmain] at hI; exact hI

/-- A function that has a section to come is not waited for in vain, and keeps
    nobody from clearing the deadlines. -/
theorem watched_sets {w w' : Hook Side} {deadlines deadlines' : Side → Bool} {m : Main}
    (hq : w.quiet = false) (hw : w' ≠ .armed ∧ w' ≠ .stopped)
    (hI : Watched w deadlines m) : Watched w' deadlines' m := by
  cases m with
  | clearing firstErr side =>
      cases side with
      | left => cases hq.symm.trans hI
      | right => cases hq.symm.trans hI.1
  | returned firstErr => cases hq.symm.trans hI.1
  | awaiting firstErr => exact hw
  | _ => exact hw.2

theorem SideMoves.watched {a : Choice} (h : SideMoves p a p')
    (hI : Watched p.watchdog p.deadlines p.main) :
    Watched p'.watchdog p'.deadlines p'.main := by
  cases h with
  | watches x hx => exact watched_sets (Hook.step_awake hx) (Hook.step_started hx) hI
  | _ => exact hI

/-- **DEADLINES**: the call waits for the function it could not stop, and when it
    has returned no deadline is set, nor will be. -/
theorem watched (h : Reach (pipeStep cfg) ok newPipe p) :
    Watched p.watchdog p.deadlines p.main := by
  refine Reach.invariant (I := fun p : Pipe => Watched p.watchdog p.deadlines p.main)
    (show Watched newPipe.watchdog newPipe.deadlines newPipe.main from
      fun hw => (by cases hw)) ?_ h
  intro p a p' _ hI _ hs
  rcases pipeStep_moves hs with ⟨c, -, hm⟩ | ⟨d₀, c, -, hm⟩ | hm
  · exact hm.watched hI
  · obtain ⟨h1, -, -, h2, h3⟩ := hm.frame
    rw [h1, h2, h3]
    exact hI
  · exact hm.watched hI

end Watched

/-! ## The call returns -/

def Main.rank : Main → Nat
  | .got _ _ n => 3 * n + 9
  | .cancelling _ n => 3 * n + 8
  | .loop _ n => 3 * n + 7
  | .ending _ => 6
  | .stopping _ => 5
  | .awaiting _ => 4
  | .clearing _ .left => 3
  | .clearing _ .right => 2
  | .returned _ => 0

/-- A copy has the goroutine and the timer of its half-close before it. -/
def Copier.rank : Copier → Nat
  | .copying => 6
  | .selecting => 3
  | .aborting _ => 2
  | .sending _ => 1
  | .sent => 0

def Closer.rank : Closer → Nat
  | .running => 1
  | _ => 0

def Timer.rank : Timer → Nat
  | .running => 1
  | _ => 0

/-- The sum over both directions. -/
def both (f : Direction → Nat) : Nat := f .leftFromRight + f .rightFromLeft

theorem both_update {α : Type} (rank : α → Nat) (f : Direction → α) (d : Direction) (v : α) :
    both (fun x => rank (Function.update f d v x)) + rank (f d)
      = both (fun x => rank (f x)) + rank v := by
  cases d <;> simp [both, Function.update] <;> omega

/-- How many steps a pipe with a live context can still make, at most. -/
def Pipe.rank (p : Pipe) : Nat :=
  p.main.rank + p.watchdog.rank sides + both (fun d => (p.copiers d).rank)
    + both (fun d => (p.closers d).rank) + both (fun d => (p.timers d).rank)

section Rank

variable {cfg : Config} {p p' : Pipe}

theorem CallMoves.rank_falls {c : MainChoice} (h : CallMoves p c p') (hctx : p.ctx = none) :
    p'.rank < p.rank := by
  cases h with
  | wakes _ _ e _ hcancelled =>
      rw [hctx] at hcancelled
      cases hcancelled
  | stops _ hmain hw => simp [Pipe.rank, hmain, hw, Main.rank, Hook.rank, sides]
  | leaves _ hmain => simp [Pipe.rank, hmain, Main.rank]
  | receives _ n _ _ hmain _ =>
      simp only [Pipe.rank, hmain, Main.rank]
      omega
  | keeps _ _ hmain _ _ => simp [Pipe.rank, hmain, Main.rank]
  | passes _ _ _ hmain _ => simp [Pipe.rank, hmain, Main.rank]
  | cancels _ _ hmain => simp [Pipe.rank, hmain, Main.rank, Pipe.cancel]
  | ends _ hmain => simp [Pipe.rank, hmain, Main.rank, Pipe.cancel]
  | late _ hmain _ => simp [Pipe.rank, hmain, Main.rank]
  | awaited _ hmain _ => simp [Pipe.rank, hmain, Main.rank]
  | clearsLeft _ hmain => simp [Pipe.rank, hmain, Main.rank, Pipe.setDeadline]
  | clearsRight _ hmain => simp [Pipe.rank, hmain, Main.rank, Pipe.setDeadline]

theorem SideMoves.rank_falls {a : Choice} (h : SideMoves p a p') (hctx : p.ctx = none)
    (hok : uncancelled a = true) : p'.rank < p.rank := by
  cases h with
  | closeWrote d r hc =>
      have hsum := both_update Closer.rank p.closers d (.done r)
      rw [hc] at hsum
      simp only [Pipe.rank, Closer.rank] at hsum ⊢
      omega
  | fires d ht =>
      have hsum := both_update Timer.rank p.timers d .fired
      rw [ht] at hsum
      simp only [Pipe.rank, Timer.rank] at hsum ⊢
      omega
  | watches x hx =>
      have hlt := Hook.step_rank hx
      simp only [Pipe.rank]
      omega
  | cancelled e _ => cases hok
  | propagates e hcancelled _ =>
      rw [hctx] at hcancelled
      cases hcancelled

theorem both_stop (timers : Direction → Timer) (d : Direction) :
    both (fun x => (Function.update timers d (timers d).stop x).rank)
      ≤ both (fun x => (timers x).rank) := by
  have hsum := both_update Timer.rank timers d (timers d).stop
  have hstop : (timers d).stop.rank ≤ (timers d).rank := by
    cases timers d <;> decide
  omega

/-- A direction that goes on, and starts nothing, lowers the rank. -/
theorem rank_copier {d : Direction} {c : Copier} (hmain : p'.main = p.main)
    (hwatchdog : p'.watchdog = p.watchdog)
    (hcopiers : p'.copiers = Function.update p.copiers d c) (hclosers : p'.closers = p.closers)
    (htimers : both (fun x => (p'.timers x).rank) ≤ both (fun x => (p.timers x).rank))
    (hlt : c.rank < (p.copiers d).rank) : p'.rank < p.rank := by
  have hsum := both_update Copier.rank p.copiers d c
  rw [Pipe.rank, Pipe.rank, hmain, hwatchdog, hcopiers, hclosers]
  omega

theorem CopyMoves.rank_falls {d : Direction} (h : CopyMoves cfg p d p') :
    p'.rank < p.rank := by
  cases h with
  | failed e hc =>
      exact rank_copier rfl rfl rfl rfl (le_refl _) (by rw [hc]; simp [Copier.rank])
  | unsupported hc =>
      exact rank_copier rfl rfl rfl rfl (le_refl _) (by rw [hc]; simp [Copier.rank])
  | hurried hc =>
      exact rank_copier rfl rfl rfl rfl (le_refl _) (by rw [hc]; simp [Copier.rank])
  | cancelled e hc _ =>
      exact rank_copier rfl rfl rfl rfl (le_refl _) (by rw [hc]; simp [Copier.rank])
  | timedOut hc _ =>
      exact rank_copier rfl rfl rfl rfl (le_refl _) (by rw [hc]; simp [Copier.rank])
  | reports err hc =>
      exact rank_copier rfl rfl rfl rfl (le_refl _) (by rw [hc]; simp [Copier.rank])
  | closed r hc _ =>
      exact rank_copier rfl rfl rfl rfl (both_stop p.timers d)
        (by rw [hc]; simp [Copier.rank])
  | aborted e hc =>
      exact rank_copier rfl rfl rfl rfl (both_stop p.timers d)
        (by rw [hc]; simp [Copier.rank])
  | halfCloses hc =>
      -- the goroutine and the timer it starts are paid for
      have hcopier := both_update Copier.rank p.copiers d .selecting
      have hcloser := both_update Closer.rank p.closers d .running
      have htimer := both_update Timer.rank p.timers d .running
      rw [hc] at hcopier
      simp only [Pipe.rank, Pipe.copyEnded, Pipe.halfClosing, Copier.rank, Closer.rank,
        Timer.rank] at hcopier hcloser htimer ⊢
      omega

/-- **EVERY STEP COUNTS**: with a live context every step lowers the rank. -/
theorem rank_falls {a : Choice} (hs : pipeStep cfg p a = some p') (hctx : p.ctx = none)
    (hok : uncancelled a = true) : p'.rank < p.rank := by
  rcases pipeStep_moves hs with ⟨c, -, hm⟩ | ⟨d, c, -, hm⟩ | hm
  · exact hm.rank_falls hctx
  · exact hm.rank_falls
  · exact hm.rank_falls hctx hok

end Rank

section Progress

variable {cfg : Config} {p : Pipe} {ok : Pipe → Choice → Prop}

theorem CopyMoves.selects {p' : Pipe} {d : Direction} (h : CopyMoves cfg p d p')
    (hsel : p'.copiers d = .selecting) : p'.closers d = .running := by
  cases h with
  | halfCloses _ => exact Function.update_self ..
  | failed e _ | unsupported _ | hurried _ => cases (Pipe.copyEnded_copiers p d _ _).symm.trans hsel
  | closed r _ _ => cases (Pipe.halfClosed_copiers p d _).symm.trans hsel
  | aborted e _ =>
      cases (Pipe.halfClosed_copiers (p.close d.destination) d _).symm.trans hsel
  | cancelled e _ _ | timedOut _ _ | reports err _ =>
      cases (Pipe.setCopier_copiers p d _).symm.trans hsel

/-- A `select` of `closeWriteBounded` has its goroutine. -/
theorem closer_started (h : Reach (pipeStep cfg) ok newPipe p) :
    ∀ d, p.copiers d = .selecting → p.closers d ≠ .idle := by
  refine Reach.invariant (I := fun p : Pipe =>
    ∀ d, p.copiers d = .selecting → p.closers d ≠ .idle) (fun d hd => (by cases hd)) ?_ h
  intro p a p' _ hI _ hs d hsel
  rcases pipeStep_moves hs with ⟨c, -, hm⟩ | ⟨d₀, c, -, hm⟩ | hm
  · cases hm <;> exact hI d hsel
  · by_cases hd : d = d₀
    · subst hd
      rw [hm.selects hsel]
      exact fun hidle => (by cases hidle)
    · obtain ⟨hcopier, -, -, -, hcloser⟩ := hm.other hd
      rw [hcloser]
      exact hI d (hcopier ▸ hsel)
  · cases hm with
    | closeWrote d₀ r _ =>
        by_cases hd : d = d₀
        · subst hd
          show Function.update p.closers d (.done r) d ≠ .idle
          rw [Function.update_self]
          exact fun hidle => (by cases hidle)
        · show Function.update p.closers d₀ (.done r) d ≠ .idle
          rw [Function.update_of_ne hd]
          exact hI d hsel
    | _ => exact hI d hsel

/-- A direction that has not reported can go on. -/
theorem copier_moves (h : Reach (pipeStep cfg) ok newPipe p) {d : Direction}
    (hd : p.copiers d ≠ .sent) :
    ∃ a, uncancelled a = true ∧ (pipeStep cfg p a).isSome = true := by
  cases hc : p.copiers d with
  | copying =>
      refine ⟨.copier d (.copied (some {})), rfl, ?_⟩
      rw [pipeStep, hc]
      rfl
  | selecting =>
      cases hcl : p.closers d with
      | idle => exact absurd hcl (closer_started h d hc)
      | running =>
          refine ⟨.closeWrite d none, rfl, ?_⟩
          rw [pipeStep, if_pos hcl]
          rfl
      | done r =>
          refine ⟨.copier d .closed, rfl, ?_⟩
          rw [pipeStep, hc, copierStep, hcl]
          rfl
  | aborting e =>
      refine ⟨.copier d .go, rfl, ?_⟩
      rw [pipeStep, hc]
      rfl
  | sending err =>
      refine ⟨.copier d .go, rfl, ?_⟩
      rw [pipeStep, hc]
      rfl
  | sent => exact absurd hc hd

/-- While the call waits for a report and none is in the channel, a direction has
    not reported. -/
theorem somebody_unsent (h : Reach (pipeStep cfg) ok newPipe p)
    (hrem : 0 < p.loop.remaining) (hres : p.results = []) :
    ∃ d, p.copiers d ≠ .sent := by
  by_contra hall
  have hsent : ∀ d, (p.reportsOf d).length = 1 := by
    intro d
    have hc : p.copiers d = .sent := by
      by_contra hne
      exact hall ⟨d, hne⟩
    have ht := told h d
    rw [Pipe.told, hc] at ht
    obtain ⟨err, hrs, -⟩ := ht.sent_inv
    rw [hrs, List.length_singleton]
  have htaken := taken h
  have hlen := length_reports p
  rw [hsent, hsent, Pipe.reports, hres, List.append_nil] at hlen
  rw [loop_received] at htaken
  omega

/-- **NOT STUCK**: a call that has not returned, or one of its goroutines, can go
    on. -/
theorem uncancelled_moves (h : Reach (pipeStep cfg) ok newPipe p) :
    (∃ firstErr, p.main = .returned firstErr) ∨
      ∃ a, uncancelled a = true ∧ (pipeStep cfg p a).isSome = true := by
  have hgo : ∀ c, (mainStep p c p.main).isSome = true →
      ∃ a, uncancelled a = true ∧ (pipeStep cfg p a).isSome = true :=
    fun c hc => ⟨.main c, rfl, hc⟩
  have hwatched := watched h
  cases hmain : p.main with
  | returned firstErr => exact Or.inl ⟨firstErr, rfl⟩
  | loop firstErr n =>
      refine Or.inr ?_
      cases n with
      | zero => exact hgo .go (by rw [hmain]; rfl)
      | succ n =>
          cases hres : p.results with
          | cons r rest => exact hgo .result (by rw [hmain, mainStep, hres]; rfl)
          | nil =>
              have hrem : 0 < p.loop.remaining := by
                rw [loop_eq hmain]
                exact Nat.succ_pos n
              obtain ⟨d, hd⟩ := somebody_unsent h hrem hres
              exact copier_moves h hd
  | got r firstErr n =>
      refine Or.inr (hgo .go ?_)
      rw [hmain, mainStep]
      split <;> rfl
  | cancelling firstErr n => exact Or.inr (hgo .go (by rw [hmain]; rfl))
  | ending firstErr => exact Or.inr (hgo .go (by rw [hmain]; rfl))
  | stopping firstErr =>
      refine Or.inr (hgo .go ?_)
      rw [hmain, mainStep]
      split <;> rfl
  | awaiting firstErr =>
      rw [hmain] at hwatched
      refine Or.inr ?_
      cases hw : p.watchdog with
      | armed => exact absurd hw hwatched.1
      | stopped => exact absurd hw hwatched.2
      | done => exact hgo .go (by rw [hmain, mainStep, if_pos hw]; rfl)
      | running todo =>
          exact ⟨.watchdog, rfl, by rw [pipeStep, watchdogStep, hw]; cases todo <;> rfl⟩
  | clearing firstErr side =>
      refine Or.inr (hgo .go ?_)
      rw [hmain]
      cases side <;> rfl

end Progress

/-! ## What the call returns -/

/-- **THE RESULT REPORTS THE TRANSFER**: whatever the copies and the half-closes end
    with, and in whatever order reports and the cancellation are taken,

    * in every run all of whose steps are heeded, whenever the context is cancelled,
      nil is returned only if both directions were copied to the end and half-closed
      (or their destination was closed already);
    * with a context that is never cancelled a run has at most 29 steps and goes on
      until the call returns; each direction has then reported once, without error
      if and only if it was transferred and otherwise with an error that names it;
      the call returns the first failure reported, and nil if there is none, which
      is if both directions were transferred. -/
theorem pipe_reports_transfer (cfg : Config) :
    (∀ p, Reach (pipeStep cfg) (fun p a => heeded p a = true) newPipe p →
      p.main = .returned none → ∀ d, Transferred p d) ∧
    (∀ as p, follow (pipeStep cfg) (fun _ a => uncancelled a = true) newPipe as = some p →
      as.length ≤ 29 ∧
      ((∃ firstErr, p.main = .returned firstErr) ∨
        ∃ a, uncancelled a = true ∧ (pipeStep cfg p a).isSome = true) ∧
      ∀ firstErr, p.main = .returned firstErr →
        (∀ d, (p.reportsOf d).length = 1) ∧
        (∀ r ∈ p.reports, r.err = none ↔ Transferred p r.direction) ∧
        (∀ r ∈ p.reports, ∀ e, r.err = some e →
          r.direction.name ++ ascii ": " <+: e.text) ∧
        firstErr = firstFailure p.reports ∧
        (firstErr = none ↔ ∀ d, Transferred p d)) := by
  refine ⟨?_, ?_⟩
  · intro p h hret
    have hloop := loop_eq hret
    obtain ⟨before, hseen, hkept⟩ := none_lost h
    rw [hloop] at hseen hkept
    have hrec : p.received = before := hseen.trans (List.append_nil _)
    refine (no_failure_iff h (by rw [hloop]; rfl)).mp ?_
    rw [hrec]
    exact hkept rfl rfl
  · intro as p hf
    have h := Reach.follow as Reach.start hf
    refine ⟨?_, uncancelled_moves h, ?_⟩
    · have hle := follow_length_le Pipe.rank
        (fun p a p' hr hok hs => rank_falls hs (ctx_live hr) hok) as Reach.start hf
      have hstart : newPipe.rank = 29 := rfl
      omega
    · intro firstErr hret
      have hloop := loop_eq hret
      have hrem : p.loop.remaining = 0 := by rw [hloop]; rfl
      obtain ⟨hreports, hone, htrue, hnamed⟩ := received_true h hrem
      obtain ⟨before, hseen, hkept⟩ := first_kept h
      rw [hloop] at hseen hkept
      have hrec : p.received = before := hseen.trans (List.append_nil _)
      have hfirst : firstErr = firstFailure p.received := by
        rw [hrec]
        exact hkept
      rw [hreports]
      refine ⟨hone, htrue, hnamed, hfirst, ?_⟩
      rw [hfirst]
      exact no_failure_iff h hrem

/-- Two TCP connections, with a second for a half-close. -/
def tcpPair : Config where
  closeWriter := fun _ => true
  typeName := fun _ => ascii "*net.TCPConn"
  halfCloseTimeout := 1000000000
  timeoutText := ascii "1s"

/-- A direction is copied to the end, half-closed and reports. -/
def transfer (d : Direction) : List Choice :=
  [.copier d (.copied none), .closeWrite d none, .copier d .closed, .copier d .go]

/-- A copy fails and its direction reports that. -/
def failCopy (d : Direction) (text : String) : List Choice :=
  [.copier d (.copied (some { text := ascii text })), .copier d .go]

/-- The call takes a report and looks at it. -/
def takeReport : List Choice := [.main .result, .main .go]

/-- Both directions are transferred, and the context is cancelled when the call has
    received both reports but looked at one: nil is returned.  With a live context,
    the first failure is returned. -/
theorem late_cancel_and_first_failure :
    (∃ p, Reach (pipeStep tcpPair) (fun p a => heeded p a = true) newPipe p ∧
      p.ctx = some .canceled ∧ p.main = .returned none ∧ ∀ d, Transferred p d) ∧
    ∃ as p, follow (pipeStep tcpPair) (fun _ a => uncancelled a = true) newPipe as = some p ∧
      p.main = .returned (some (.copy .rightFromLeft { text := ascii "reset" })) ∧
      firstFailure p.reports = some (.copy .rightFromLeft { text := ascii "reset" }) ∧
      as.length ≤ 29 := by
  refine ⟨?_, ?_⟩
  · obtain ⟨p, hr, hp⟩ := Reach.of_follow (pipeStep tcpPair)
      (fun p a => heeded p a = true) newPipe
      (List.flatten [transfer .leftFromRight, transfer .rightFromLeft, takeReport,
        [.main .result, .cancel .canceled], List.replicate 6 (.main .go)])
      (fun p : Pipe => decide (p.ctx = some .canceled ∧ p.main = .returned none)) (by decide)
    obtain ⟨hctx, hret⟩ := of_decide_eq_true hp
    exact ⟨p, hr, hctx, hret, (pipe_reports_transfer tcpPair).1 p hr hret⟩
  · have hrun : (follow (pipeStep tcpPair) (fun _ a => uncancelled a = true) newPipe
        (List.flatten [failCopy .rightFromLeft "reset", takeReport, [.main .go],
          failCopy .leftFromRight "timeout", takeReport,
          List.replicate 5 (.main .go)])).any
        (fun p : Pipe => decide (p.main
          = .returned (some (.copy .rightFromLeft { text := ascii "reset" })))) = true := by
      decide
    obtain ⟨p, hf, hp⟩ := Option.any_eq_true _ _ |>.mp hrun
    have hret := of_decide_eq_true hp
    obtain ⟨hlen, -, hall⟩ := (pipe_reports_transfer tcpPair).2 _ p hf
    exact ⟨_, p, hf, hret, (hall _ hret).2.2.2.1.symm, hlen⟩

/-- **A FAILED TRANSFER IS REPORTED DONE**: the context is cancelled, both copies fail,
    and the call takes the two reports before it takes the cancellation: it returns
    nil. -/
theorem failed_transfer_reported_done :
    ∃ p, Reach (pipeStep tcpPair) anyStep newPipe p ∧ p.ctx = some .canceled ∧
      p.main = .returned none ∧ ∀ d, ¬ Transferred p d := by
  obtain ⟨p, hr, hp⟩ := Reach.of_follow (pipeStep tcpPair) anyStep newPipe
    (List.flatten [[.cancel .canceled, .propagate], List.replicate 4 .watchdog,
      failCopy .leftFromRight "i/o timeout", failCopy .rightFromLeft "i/o timeout",
      takeReport, takeReport, List.replicate 6 (.main .go)])
    (fun p : Pipe => decide (p.ctx = some .canceled ∧ p.main = .returned none ∧
      p.copied .leftFromRight ≠ some none ∧ p.copied .rightFromLeft ≠ some none)) (by decide)
  obtain ⟨hctx, hret, hleft, hright⟩ := of_decide_eq_true hp
  refine ⟨p, hr, hctx, hret, ?_⟩
  intro d htrans
  cases d with
  | leftFromRight => exact hleft htrans.1
  | rightFromLeft => exact hright htrans.1

end VkTurnPipe
