import VkTurn.BenchSummaryProofs
import VkTurn.ScriptProofs

/-! # The benchmark run

    `Harness.Run`: two nested loops with one counter across them, which decides whether to
    wait after an operation; a wait of no time is skipped.

    The run is a `Script` program whose surroundings answer as they like, from all that
    happened so far: diagnostics, iperf3, the file system and the clock.  Its VIEW is the
    fetches, iperf3 runs and waits so far, the measured cases and the counter.  Every
    operation simulates one abstract step (`warmup_simulates`, `measured_simulates`), so the
    loops simulate a fold over the SCHEDULE (`cases_simulate`), and the waits are what
    stands between its entries (`foldl_operate`). -/

namespace VkTurnBench

open GoText GoTime VkTurnStripe Script

/-! ## The report -/

/-- `CommandResult`. -/
structure CommandResult where
  arguments : List Bytes
  stdout : Bytes
  stderr : Bytes

/-- `ArtifactFiles`; a file that was not written has no name. -/
structure ArtifactFiles where
  iperfJSON : Bytes
  iperfStderr : Bytes
  metricsBefore : Bytes
  metricsAfter : Bytes

/-- `WarmupRecord`, without its times. -/
structure WarmupRecord (F : Type) where
  benchmarkCase : Case
  index : Nat
  arguments : List Bytes
  iperf : IPerfSummary F
  files : ArtifactFiles

/-- `RunRecord`, without its times. -/
structure RunRecord (F D : Type) where
  benchmarkCase : Case
  index : Nat
  arguments : List Bytes
  iperf : IPerfSummary F
  metricsDelta : D
  files : ArtifactFiles

/-- `Report`, without its times and the description of the machine. -/
structure Report (F D : Type) where
  schemaVersion : Int
  status : Bytes
  error : Bytes
  scenario : Scenario
  revision : Bytes
  target : Bytes
  iperfExecutable : Bytes
  iperfVersion : Bytes
  diagnosticsURL : Bytes
  runsRequested : Int
  warmupRuns : Int
  durationSeconds : Int
  settle : Bytes
  cooldown : Bytes
  cases : List Case
  notes : Bytes
  initialMetrics : Bytes
  warmups : List (WarmupRecord F)
  runs : List (RunRecord F D)
  summaries : List (CaseSummary F)

/-- The report as `Run` makes it. -/
def started (F D : Type) (config : RunConfig) (iperfVersion : Bytes) : Report F D where
  schemaVersion := 1
  status := ascii "running"
  error := []
  scenario := config.scenario
  revision := config.revision
  target := config.target
  iperfExecutable := config.iperfExecutable
  iperfVersion := trimSpace iperfVersion
  diagnosticsURL := config.diagnosticsURL
  runsRequested := config.runs
  warmupRuns := config.warmupRuns
  durationSeconds := config.durationSeconds
  settle := durationString config.settle
  cooldown := durationString config.cooldown
  cases := config.cases
  notes := config.notes
  initialMetrics := ascii "initial.metrics.json"
  warmups := []
  runs := []
  summaries := []

/-! ## The surroundings -/

/-- What a file of the output directory holds. -/
inductive Content (F S D : Type) where
  | output (data : Bytes)
  | snapshot (snapshot : S)
  | report (report : Report F D)

/-- A call of `Run`'s that takes time, or reads the diagnostics. -/
inductive Event where
  | fetch
  | iperf (target : Bytes) (seconds : Int) (c : Case)
  | sleep (d : Duration)
  deriving DecidableEq

/-- A call of `Run`'s to its surroundings. -/
inductive Effect (F S D : Type) where
  | stat
  | version
  | mkdirAll
  | mkdir
  | write (file : Bytes) (content : Content F S D)
  | event (e : Event)

/-- What `os.Stat` finds. -/
inductive StatResult where
  | exists
  | missing
  | failed (err : Bytes)

/-- The surroundings: an answer to each call, which may depend on all calls before. -/
structure Env (F S D : Type) where
  stat : List (Effect F S D) → StatResult
  version : List (Effect F S D) → Except Bytes Bytes
  mkdirAll : List (Effect F S D) → Except Bytes Unit
  mkdir : List (Effect F S D) → Except Bytes Unit
  marshal : Content F S D → Except Bytes Unit
  write : List (Effect F S D) → Bytes → Except Bytes Unit
  fetch : List (Effect F S D) → Except Bytes S
  iperf : List (Effect F S D) → Bytes → Int → Case → CommandResult × Except Bytes Unit
  sleep : List (Effect F S D) → Duration → Except Bytes Unit

/-- The functions on snapshots and texts that `Run` uses. -/
structure Tools (F S D : Type) where
  quote : Bytes → Bytes
  decoder : Decoder F
  activeSessions : S → Int
  activePaths : S → Int
  diffMetrics : S → S → Except Bytes D

/-- What of `Run`'s receiver and context is not nil. -/
structure Harness where
  ctx : Bool
  iperf : Bool
  metrics : Bool

structure State (F S D : Type) where
  trace : List (Effect F S D)
  report : Report F D
  completed : Int

/-- One more call was made. -/
def State.called {F S D : Type} (s : State F S D) (effect : Effect F S D) : State F S D :=
  { s with trace := s.trace ++ [effect] }

/-- A function that returns an error. -/
abbrev Step (F S D α : Type) : Type := Prog Bytes (State F S D) α

/-- A part of `Run`, which returns a report, or none, beside its error. -/
abbrev Part (F S D α : Type) : Type := Prog (Option (Report F D) × Bytes) (State F S D) α

section Run

variable {F S D : Type} [Float64 F] (tools : Tools F S D) (env : Env F S D) (arch : Arch)
  (config : RunConfig)

/-! ## Calls -/

/-- A call, and its answer. -/
def calling {ε α : Type} (effect : Effect F S D) (answer : List (Effect F S D) → α) :
    Prog ε (State F S D) α := do
  let a ← reading fun s => answer s.trace
  changing fun s => s.called effect
  return a

/-- A call that may fail. -/
def asking {α : Type} (effect : Effect F S D) (answer : List (Effect F S D) → Except Bytes α) :
    Step F S D α :=
  calling effect answer >>= lifted

def fetch : Step F S D S := asking (.event .fetch) env.fetch

def sleep (d : Duration) : Step F S D Unit :=
  asking (.event (.sleep d)) fun past => env.sleep past d

def runIPerf (c : Case) : Part F S D (CommandResult × Except Bytes Unit) :=
  calling (.event (.iperf config.target config.durationSeconds c)) fun past =>
    env.iperf past config.target config.durationSeconds c

/-- `os.WriteFile`, in the output directory. -/
def writeFile (file : Bytes) (content : Content F S D) : Step F S D Unit :=
  asking (.write file content) fun past => env.write past file

/-- `writeJSON`. -/
def writeJSON (file : Bytes) (content : Content F S D) : Step F S D Unit := do
  wrapping (fun err => ascii "encode " ++ file ++ ascii ": " ++ err) (lifted (env.marshal content))
  wrapping (fun err => ascii "write " ++ file ++ ascii ": " ++ err) (writeFile env file content)

/-- `persistReport`. -/
def persistReport : Step F S D Unit := do
  let report ← reading State.report
  writeJSON env (ascii "report.json") (.report report)

/-- `writeIPerfArtifacts`. -/
def writeIPerfArtifacts (stem : Bytes) (result : CommandResult) : Step F S D ArtifactFiles := do
  let files : ArtifactFiles :=
    { iperfJSON := stem ++ ascii ".iperf.json"
      iperfStderr := stem ++ ascii ".iperf.stderr.txt"
      metricsBefore := []
      metricsAfter := [] }
  wrapping (fun err => ascii "write iperf JSON artifact: " ++ err)
    (writeFile env files.iperfJSON (.output result.stdout))
  wrapping (fun err => ascii "write iperf stderr artifact: " ++ err)
    (writeFile env files.iperfStderr (.output result.stderr))
  return files

/-- The second half of `writeRunArtifacts`: `after` is nil if it could not be fetched. -/
def writeAfter (files : ArtifactFiles) (stem : Bytes) : Option S → Step F S D ArtifactFiles
  | none => pure files
  | some after => do
      let files := { files with metricsAfter := stem ++ ascii ".metrics-after.json" }
      writeJSON env files.metricsAfter (.snapshot after)
      return files

/-- `writeRunArtifacts`. -/
def writeRunArtifacts (stem : Bytes) (result : CommandResult) (before : S) (after : Option S) :
    Step F S D ArtifactFiles := do
  let files ← writeIPerfArtifacts env stem result
  let files := { files with metricsBefore := stem ++ ascii ".metrics-before.json" }
  writeJSON env files.metricsBefore (.snapshot before)
  writeAfter env files stem after

/-! ## Before the loops -/

/-- `validateReady`. -/
def validateReady (scenario : Scenario) (snapshot : S) : Except Bytes Unit :=
  firstError
    [(decide (tools.activeSessions snapshot < 1),
        ascii "diagnostics reports no active transport session"),
      (decide (scenario.proxyMode = ascii "bond" ∧ tools.activePaths snapshot < 1),
        ascii "diagnostics reports no active bonded path")]

/-- `validateOutputAvailable`. -/
def validateOutputAvailable : Step F S D Unit :=
  asking .stat fun past =>
    match env.stat past with
    | .exists => .error (ascii "benchmark output directory already exists")
    | .missing => .ok ()
    | .failed err => .error (ascii "check benchmark output directory: " ++ err)

/-- `createOutputDirectory`. -/
def createOutputDirectory : Step F S D Unit := do
  wrapping (fun err => ascii "create benchmark output parent: " ++ err)
    (asking .mkdirAll env.mkdirAll)
  wrapping (fun err => ascii "create benchmark output directory: " ++ err)
    (asking .mkdir env.mkdir)

/-- What is checked and asked before the report is made: the version of iperf3 and the first
    snapshot. -/
def preflight (h : Harness) : Step F S D (Bytes × S) := do
  lifted (firstError [(!h.ctx, ascii "baseline context must not be nil")])
  lifted (config.validate arch)
  lifted (firstError
    [(!h.iperf || !h.metrics, ascii "baseline harness dependencies must not be nil")])
  validateOutputAvailable env
  let iperfVersion ← wrapping (fun err => ascii "query iperf3 version: " ++ err)
    (asking .version env.version)
  let initialMetrics ← wrapping (fun err => ascii "fetch initial diagnostics: " ++ err) (fetch env)
  lifted (validateReady tools config.scenario initialMetrics)
  createOutputDirectory env
  return (iperfVersion, initialMetrics)

/-- The report is made and written. -/
def openReport (iperfVersion : Bytes) (initialMetrics : S) : Step F S D Unit := do
  changing fun s => { s with report := started F D config iperfVersion, completed := 0 }
  writeJSON env (ascii "initial.metrics.json") (.snapshot initialMetrics)
  persistReport env

/-! ## Operations -/

/-- `fail`. -/
def fail {α : Type} (runErr : Bytes) : Part F S D α := do
  changing fun s => { s with report := { s.report with status := ascii "failed", error := runErr } }
  let report ← reading State.report
  let persisted ← attempt (persistReport env)
  -- `errors.Join`
  throwing (some report,
    match persisted with
    | .ok () => runErr
    | .error persistErr => runErr ++ ascii "\n" ++ persistErr)

/-- `if err != nil { return fail(err) }`. -/
def orFail {α : Type} (m : Step F S D α) : Part F S D α := rescue m (fail env)

/-- `totalOperations`. -/
def totalOperations : Int :=
  arch.wrap (config.cases.length * arch.wrap (config.warmupRuns + config.runs))

/-- The end of an operation: it is counted, the report is written, and if another one
    follows the proxy cools down. -/
def advance : Part F S D Unit := do
  changing fun s => { s with completed := s.completed + 1 }
  orFail env (persistReport env)
  let completed ← reading State.completed
  if completed < totalOperations arch config ∧ config.cooldown > 0 then
    orFail env (sleep env config.cooldown)
  else
    pure ()

/-- `%02d` of an index. -/
def pad2 (n : Nat) : Bytes := if n < 10 then ascii "0" ++ itoa n else itoa n

/-- The error text of an operation. -/
def label (kind : Bytes) (c : Case) (index : Nat) (what err : Bytes) : Bytes :=
  kind ++ ascii " " ++ c.slug ++ ascii " " ++ itoa index ++ what ++ ascii ": " ++ err

/-- The name of an operation's files, up to their suffixes. -/
def stem (kind : Bytes) (c : Case) (index : Nat) : Bytes :=
  kind ++ ascii "-" ++ c.slug ++ ascii "-" ++ pad2 index

/-- A warm-up once iperf3 has returned, up to its record. -/
def recordWarmup (c : Case) (index : Nat) (reply : CommandResult × Except Bytes Unit) :
    Part F S D Unit := do
  let kind := ascii "warmup"
  let files ← orFail env (writeIPerfArtifacts env (stem kind c index) reply.1)
  orFail env (wrapping (label kind c index []) (lifted reply.2))
  let summary ← orFail env
    (wrapping (label kind c index []) (lifted (parseIPerfJSON tools.decoder reply.1.stdout)))
  orFail env
    (wrapping (label kind c index []) (lifted (validateIPerfCase tools.quote c summary)))
  changing fun s => { s with report := { s.report with warmups := s.report.warmups ++
    [⟨c, index, reply.1.arguments, summary, files⟩] } }

/-- One iteration of the loop over the warm-ups. -/
def warmup (c : Case) (index : Nat) : Part F S D Unit := do
  let reply ← runIPerf env config c
  recordWarmup tools env c index reply
  advance env arch config

/-- After iperf3: the counters settle, and are fetched again. -/
def settled : Step F S D S := do
  (if config.settle > 0 then sleep env config.settle else pure ())
  fetch env

/-- A measured run once both snapshots were asked for, up to its record. -/
def recordRun (c : Case) (index : Nat) (before : S) (reply : CommandResult × Except Bytes Unit)
    (after : Except Bytes S) : Part F S D Unit := do
  let kind := ascii "run"
  let files ← orFail env
    (writeRunArtifacts env (stem kind c index) reply.1 before after.toOption)
  orFail env (wrapping (label kind c index []) (lifted reply.2))
  let after ← orFail env (wrapping (label kind c index (ascii " metrics after")) (lifted after))
  let summary ← orFail env
    (wrapping (label kind c index []) (lifted (parseIPerfJSON tools.decoder reply.1.stdout)))
  orFail env
    (wrapping (label kind c index []) (lifted (validateIPerfCase tools.quote c summary)))
  let delta ← orFail env
    (wrapping (label kind c index []) (lifted (tools.diffMetrics before after)))
  changing fun s => { s with report := { s.report with runs := s.report.runs ++
    [⟨c, index, reply.1.arguments, summary, delta, files⟩] } }

/-- One iteration of the loop over the measured runs. -/
def measured (c : Case) (index : Nat) : Part F S D Unit := do
  let before ← orFail env
    (wrapping (label (ascii "run") c index (ascii " metrics before")) (fetch env))
  let reply ← runIPerf env config c
  let after ← attempt (settled env config)
  recordRun tools env c index before reply after
  advance env arch config

/-! ## The whole run -/

/-- The operations of one case. -/
def runCase (c : Case) : Part F S D Unit := do
  forEach (warmup tools env arch config c) (List.range' 1 config.warmupRuns.toNat)
  forEach (measured tools env arch config c) (List.range' 1 config.runs.toNat)

/-- After the loops. -/
def finish : Part F S D (Report F D) := do
  let measurements ← reading fun s =>
    s.report.runs.map fun run => (⟨run.benchmarkCase, run.iperf⟩ : Measurement F)
  let summaries ← orFail env (lifted (summarize measurements))
  changing fun s =>
    { s with report := { s.report with summaries := summaries, status := ascii "complete" } }
  let report ← reading State.report
  wrapping (fun err => (some report, err)) (persistReport env)
  return report

/-- `Harness.Run`. -/
def run (h : Harness) : Part F S D (Report F D) := do
  let opening ← wrapping (fun err => (none, err)) (preflight tools env arch config h)
  wrapping (fun err => (none, err)) (openReport env config opening.1 opening.2)
  forEach (runCase tools env arch config) config.cases
  finish env

/-- Before the run; the report is made by `openReport`. -/
def start : State F S D := { trace := [], report := started F D config [], completed := 0 }

end Run

/-! ## The schedule -/

/-- An operation of the schedule. -/
inductive Operation where
  | warmup (c : Case)
  | measured (c : Case)

/-- The operations in order: case by case, the warm-ups and then the measured runs. -/
def RunConfig.schedule (config : RunConfig) : List Operation :=
  config.cases.flatMap fun c =>
    List.replicate config.warmupRuns.toNat (.warmup c) ++
      List.replicate config.runs.toNat (.measured c)

/-- A wait, unless it is of no time. -/
def pause (d : Duration) : List Event := if d > 0 then [.sleep d] else []

/-- What happens in an operation. -/
def Operation.events (config : RunConfig) : Operation → List Event
  | .warmup c => [.iperf config.target config.durationSeconds c]
  | .measured c =>
      [.fetch, .iperf config.target config.durationSeconds c] ++ pause config.settle ++ [.fetch]

/-- The case that an operation measures. -/
def Operation.measures : Operation → List Case
  | .warmup _ => []
  | .measured c => [c]

/-! ## The view -/

/-- What the plan is about: the calls that take time, the measured cases (with a flag that
    the rate is valid), and the counter. -/
structure View where
  events : List Event
  cases : List (Case × Bool)
  completed : Int

def Effect.event? {F S D : Type} : Effect F S D → Option Event
  | .event e => some e
  | _ => none

/-- What happened that takes time, in order. -/
def timeline {F S D : Type} (trace : List (Effect F S D)) : List Event :=
  trace.filterMap Effect.event?

/-- More happened. -/
def View.emit (es : List Event) (v : View) : View := { v with events := v.events ++ es }

/-- A case was measured. -/
def View.record (c : Case) (v : View) : View := { v with cases := v.cases ++ [(c, true)] }

/-- An operation ended, of `total`. -/
def View.advance (total : Int) (cooldown : Duration) (v : View) : View :=
  { v with
    events := v.events ++ if v.completed + 1 < total then pause cooldown else []
    completed := v.completed + 1 }

/-- **THE ABSTRACT STEP**: one operation of the schedule. -/
def operate (config : RunConfig) (total : Int) (v : View) (op : Operation) : View where
  events := v.events ++ op.events config ++
    if v.completed + 1 < total then pause config.cooldown else []
  cases := v.cases ++ op.measures.map fun c => (c, true)
  completed := v.completed + 1

section Simulation

variable {F S D : Type} [Float64 F] {tools : Tools F S D} {env : Env F S D} {arch : Arch}
  {config : RunConfig}

def view (s : State F S D) : View where
  events := timeline s.trace
  cases := s.report.runs.map fun run => (run.benchmarkCase, validRate run.iperf.bitsPerSecond)
  completed := s.completed

/-- A call is seen as the view shows it, whatever the answer. -/
theorem calling_simulates {ε α : Type} {effect : Effect F S D}
    {answer : List (Effect F S D) → α} {g : View → View}
    (h : ∀ s : State F S D, view (s.called effect) = g (view s)) :
    Simulates view (calling effect answer : Prog ε (State F S D) α) g := by
  refine (Simulates.reading _).afterSilent fun a _ => ?_
  refine (Simulates.changing h).beforeSilent fun _ _ => ?_
  exact Simulates.pure a

/-- A call that takes no time is not seen. -/
theorem silent {ε α : Type} {effect : Effect F S D} (h : effect.event? = none)
    (answer : List (Effect F S D) → α) :
    Simulates view (calling effect answer : Prog ε (State F S D) α) id := by
  refine calling_simulates fun s => ?_
  rw [view, State.called, timeline, List.filterMap_append, List.filterMap_cons_none h,
    List.filterMap_nil, List.append_nil]
  rfl

/-- Any other is. -/
theorem seen {ε α : Type} (e : Event) (answer : List (Effect F S D) → α) :
    Simulates view (calling (.event e) answer : Prog ε (State F S D) α) (View.emit [e]) := by
  refine calling_simulates fun s => ?_
  rw [view, State.called, timeline, List.filterMap_append]
  rfl

/-- A failed call ends the run, so an error is not seen either. -/
theorem asking_silent {α : Type} {effect : Effect F S D} (h : effect.event? = none)
    (answer : List (Effect F S D) → Except Bytes α) : Simulates view (asking effect answer) id :=
  (silent h answer).afterSilent fun _ _ => Simulates.lifted _

theorem asking_seen {α : Type} (e : Event) (answer : List (Effect F S D) → Except Bytes α) :
    Simulates view (asking (.event e) answer) (View.emit [e]) :=
  (seen e answer).beforeSilent fun _ _ => Simulates.lifted _

theorem fetch_simulates : Simulates view (fetch env) (View.emit [.fetch]) := asking_seen _ _

theorem sleep_simulates (d : Duration) : Simulates view (sleep env d) (View.emit [.sleep d]) :=
  asking_seen _ _

theorem writeFile_simulates (file : Bytes) (content : Content F S D) :
    Simulates view (writeFile env file content) id := asking_silent rfl _

/-- Files are not part of the view. -/
theorem writeJSON_simulates (file : Bytes) (content : Content F S D) :
    Simulates view (writeJSON env file content) id :=
  ((Simulates.lifted _).wrapping _).afterSilent fun _ _ => (writeFile_simulates _ _).wrapping _

theorem persistReport_simulates : Simulates view (persistReport env) id :=
  (Simulates.reading _).afterSilent fun _ _ => writeJSON_simulates _ _

theorem writeIPerfArtifacts_simulates (stem : Bytes) (result : CommandResult) :
    Simulates view (writeIPerfArtifacts env stem result) id := by
  -- the output of iperf3, then what it wrote to stderr
  refine ((writeFile_simulates _ (.output result.stdout)).wrapping _).afterSilent fun _ _ => ?_
  refine ((writeFile_simulates _ (.output result.stderr)).wrapping _).afterSilent fun _ _ => ?_
  exact Simulates.pure _

/-- Whether or not there is a second snapshot. -/
theorem writeAfter_simulates (files : ArtifactFiles) (stem : Bytes) (after : Option S) :
    Simulates view (writeAfter env files stem after) id := by
  cases after with
  | none => exact Simulates.pure _
  | some after => exact (writeJSON_simulates _ _).afterSilent fun _ _ => Simulates.pure _

theorem writeRunArtifacts_simulates (stem : Bytes) (result : CommandResult) (before : S)
    (after : Option S) : Simulates view (writeRunArtifacts env stem result before after) id := by
  refine (writeIPerfArtifacts_simulates stem result).afterSilent fun files _ => ?_
  refine (writeJSON_simulates _ (.snapshot before)).afterSilent fun _ _ => ?_
  exact writeAfter_simulates _ stem after

omit [Float64 F] in
/-- A failed run returns an error, even if the report is written. -/
theorem fail_aborts {α : Type} (runErr : Bytes) : Aborts (fail env runErr : Part F S D α) := by
  refine Aborts.bind_right fun _ => ?_
  refine Aborts.bind_right fun report => ?_
  refine Aborts.bind_right fun persisted => ?_
  exact aborts_throwing _

/-- A part that completed did not fail. -/
theorem orFail_simulates {α : Type} {m : Step F S D α} {g : View → View}
    (hm : Simulates view m g) : Simulates view (orFail env m) g :=
  hm.rescue fail_aborts

/-- A check is not seen. -/
theorem check_simulates {α : Type} (f : Bytes → Bytes) (r : Except Bytes α) :
    Simulates view (orFail env (wrapping f (lifted r)) : Part F S D α) id :=
  orFail_simulates ((Simulates.lifted r).wrapping f)

/-! ## What an operation does -/

/-- The end of an operation counts it, and waits if another one follows. -/
theorem advance_simulates :
    Simulates view (advance env arch config)
      (View.advance (totalOperations arch config) config.cooldown) := by
  have hcount : Simulates view
      (changing fun s => { s with completed := s.completed + 1 } : Part F S D Unit)
      fun v => { v with completed := v.completed + 1 } := Simulates.changing fun _ => rfl
  have hwait : ∀ completed : Int, Simulates view
      (if completed < totalOperations arch config ∧ config.cooldown > 0 then
        orFail env (sleep env config.cooldown) else pure () : Part F S D Unit)
      (if completed < totalOperations arch config ∧ config.cooldown > 0 then
        View.emit [.sleep config.cooldown] else id) := fun _ =>
    (orFail_simulates (sleep_simulates config.cooldown)).ite (Simulates.pure ())
  refine (hcount.bind fun _ _ => (orFail_simulates persistReport_simulates).afterSilent fun _ _ =>
    Simulates.inspect (p := View.completed) (fun _ => rfl) hwait).congr fun v => ?_
  rw [Function.comp_apply, View.advance, pause]
  by_cases hmore : v.completed + 1 < totalOperations arch config
  · by_cases hcool : config.cooldown > 0
    · rw [if_pos ⟨hmore, hcool⟩, if_pos hmore, if_pos hcool]
      rfl
    · rw [if_neg fun h => hcool h.2, if_pos hmore, if_neg hcool, List.append_nil]
      rfl
  · rw [if_neg fun h => hmore h.1, if_neg hmore, List.append_nil]
    rfl

/-- A warm-up leaves no measurement. -/
theorem recordWarmup_simulates (c : Case) (index : Nat)
    (reply : CommandResult × Except Bytes Unit) :
    Simulates view (recordWarmup tools env c index reply) id := by
  refine (orFail_simulates (writeIPerfArtifacts_simulates _ _)).afterSilent fun _ _ => ?_
  refine (check_simulates _ _).afterSilent fun _ _ => ?_
  refine (check_simulates _ _).afterSilent fun _ _ => ?_
  refine (check_simulates _ _).afterSilent fun _ _ => ?_
  exact Simulates.changing fun _ => rfl

theorem runIPerf_simulates (c : Case) :
    Simulates view (runIPerf env config c)
      (View.emit [.iperf config.target config.durationSeconds c]) := seen _ _

/-- **A WARM-UP** is one operation of the schedule. -/
theorem warmup_simulates (c : Case) (index : Nat) :
    Simulates view (warmup tools env arch config c index) fun v =>
      operate config (totalOperations arch config) v (.warmup c) := by
  have hrest : ∀ reply, Simulates view
      (recordWarmup tools env c index reply >>= fun _ => advance env arch config)
      (View.advance (totalOperations arch config) config.cooldown) := fun reply =>
    (recordWarmup_simulates c index reply).afterSilent fun _ _ => advance_simulates
  refine ((runIPerf_simulates c).bind fun reply _ => hrest reply).congr fun v => ?_
  rw [operate]
  exact congrArg (fun cases => View.mk _ cases _) (List.append_nil v.cases).symm

/-- A measured run is recorded with a valid rate. -/
theorem recordRun_simulates (c : Case) (index : Nat) (before : S)
    (reply : CommandResult × Except Bytes Unit) (after : Except Bytes S) :
    Simulates view (recordRun tools env c index before reply after) (View.record c) := by
  refine (orFail_simulates (writeRunArtifacts_simulates _ _ _ _)).afterSilent fun _ _ => ?_
  refine (check_simulates _ _).afterSilent fun _ _ => ?_
  refine (check_simulates _ _).afterSilent fun _ _ => ?_
  refine (check_simulates _ _).afterSilent fun summary hsummary => ?_
  refine (check_simulates _ _).afterSilent fun _ _ => ?_
  refine (check_simulates _ _).afterSilent fun _ _ => ?_
  refine Simulates.changing fun s => ?_
  -- the summary was parsed, so its rate is valid
  obtain ⟨t, t', h⟩ := hsummary
  obtain ⟨hparse, -⟩ := completes_lifted.mp
    (completes_wrapping.mp ((completes_rescue fail_aborts).mp h))
  rw [view, List.map_append, List.map_singleton, parseIPerfJSON_rate hparse]
  rfl

omit [Float64 F] in
/-- A check that fails ends the run. -/
theorem check_error {α : Type} (f : Bytes → Bytes) (err : Bytes) :
    Aborts (orFail env (wrapping f (lifted (.error err))) : Part F S D α) :=
  Aborts.rescue (fun s a s' h => aborts_error err s a s' (completes_wrapping.mp h)) fail_aborts

/-- A measured run is recorded only if the second snapshot was fetched. -/
theorem recordRun_after {c : Case} {index : Nat} {before : S}
    {reply : CommandResult × Except Bytes Unit} {after : Except Bytes S} {s s' : State F S D}
    (h : Completes (recordRun tools env c index before reply after) s () s') :
    ∃ snapshot, after = .ok snapshot := by
  cases after with
  | ok snapshot => exact ⟨snapshot, rfl⟩
  | error err =>
      have haborts : Aborts (recordRun tools env c index before reply (.error err)) :=
        Aborts.bind_right fun _ => Aborts.bind_right fun _ => (check_error _ err).bind_left _
      exact absurd h (haborts s () s')

/-- The wait, unless it is of no time, and the second snapshot. -/
theorem settled_simulates :
    Simulates view (settled env config) (View.emit (pause config.settle ++ [.fetch])) := by
  refine (((sleep_simulates config.settle).ite (Simulates.pure ())).bind fun _ _ =>
    fetch_simulates).congr fun v => ?_
  rw [Function.comp_apply, pause]
  by_cases hsettle : config.settle > 0
  · rw [if_pos hsettle, if_pos hsettle, View.emit, View.emit, View.emit, List.append_assoc]
  · rw [if_neg hsettle, if_neg hsettle]
    rfl

/-- **A MEASURED RUN** is one operation of the schedule. -/
theorem measured_simulates (c : Case) (index : Nat) :
    Simulates view (measured tools env arch config c index) fun v =>
      operate config (totalOperations arch config) v (.measured c) := by
  intro s _ s' h
  obtain ⟨before, s₁, hbefore, h⟩ := completes_bind.mp h
  obtain ⟨reply, s₂, hreply, h⟩ := completes_bind.mp h
  obtain ⟨after, s₃, hafter, h⟩ := completes_bind.mp h
  obtain ⟨⟨⟩, s₄, hrecord, hadvance⟩ := completes_bind.mp h
  obtain ⟨snapshot, rfl⟩ := recordRun_after hrecord
  rw [advance_simulates _ _ _ hadvance, recordRun_simulates _ _ _ _ _ _ _ _ hrecord,
    settled_simulates _ _ _ (completes_attempt_ok.mp hafter), runIPerf_simulates _ _ _ _ hreply,
    orFail_simulates (fetch_simulates.wrapping _) _ _ _ hbefore]
  simp only [operate, View.advance, View.record, View.emit, Operation.events, Operation.measures,
    List.append_assoc, List.cons_append, List.nil_append, List.map_singleton]

/-- A loop whose iterations are the same operation. -/
theorem foldl_repeat {f : View → Operation → View} (op : Operation) (n : Nat) (v : View) :
    (List.range' 1 n).foldl (fun v _ => f v op) v = (List.replicate n op).foldl f v := by
  have hlist : List.replicate n op = (List.range' 1 n).map fun _ => op := by
    rw [List.map_const', List.length_range']
  rw [hlist, List.foldl_map]

/-- **THE LOOPS**: a completed pass over the cases is a fold over the schedule. -/
theorem cases_simulate :
    Simulates view (forEach (runCase tools env arch config) config.cases) fun v =>
      config.schedule.foldl (operate config (totalOperations arch config)) v := by
  have hcase : ∀ c ∈ config.cases, Simulates view (runCase tools env arch config c) fun v =>
      (List.replicate config.warmupRuns.toNat (Operation.warmup c) ++
        List.replicate config.runs.toNat (Operation.measured c)).foldl
          (operate config (totalOperations arch config)) v := by
    intro c _
    refine ((Simulates.forEach fun index _ => warmup_simulates c index).bind fun _ _ =>
      Simulates.forEach fun index _ => measured_simulates c index).congr fun v => ?_
    rw [List.foldl_append, ← foldl_repeat, ← foldl_repeat]
    rfl
  refine (Simulates.forEach hcase).congr fun v => ?_
  rw [RunConfig.schedule, List.foldl_flatMap]

/-- **THE FOLD IN CLOSED FORM**: what the operations do, and a wait between any two of them. -/
theorem foldl_operate {total : Int} {ops : List Operation} {v : View}
    (h : v.completed + ops.length = total) :
    ops.foldl (operate config total) v =
      { events := v.events ++ (pause config.cooldown).intercalate
          (ops.map (Operation.events config))
        cases := v.cases ++ (ops.flatMap Operation.measures).map fun c => (c, true)
        completed := total } := by
  induction ops generalizing v with
  | nil =>
      obtain ⟨events, cases, completed⟩ := v
      have hcompleted : completed = total := by simpa using h
      simp [hcompleted]
  | cons op rest ih =>
      have hlen : v.completed + 1 + (rest.length : Int) = total := by
        rw [List.length_cons] at h
        push_cast at h
        omega
      rw [List.foldl_cons, ih (v := operate config total v op) hlen]
      cases rest with
      | nil =>
          have hlast : ¬ v.completed + 1 < total := by
            rw [List.length_nil] at hlen
            omega
          simp [operate, hlast]
      | cons op' rest =>
          have hmore : v.completed + 1 < total := by
            rw [List.length_cons] at hlen
            push_cast at hlen
            omega
          simp [operate, hmore, List.intercalate_cons_cons]

/-! ## Before and after the loops -/

theorem validateOutputAvailable_simulates :
    Simulates view (validateOutputAvailable env : Step F S D Unit) id := asking_silent rfl _

theorem createOutputDirectory_simulates :
    Simulates view (createOutputDirectory env : Step F S D Unit) id :=
  ((asking_silent rfl _).wrapping _).afterSilent fun _ _ => (asking_silent rfl _).wrapping _

/-- Before the loops only the first snapshot takes time. -/
theorem preflight_simulates (h : Harness) :
    Simulates view (preflight tools env arch config h) (View.emit [.fetch]) := by
  refine (Simulates.lifted _).afterSilent fun _ _ => ?_
  refine (Simulates.lifted _).afterSilent fun _ _ => ?_
  refine (Simulates.lifted _).afterSilent fun _ _ => ?_
  refine validateOutputAvailable_simulates.afterSilent fun _ _ => ?_
  refine ((asking_silent rfl _).wrapping _).afterSilent fun _ _ => ?_
  refine (fetch_simulates.wrapping _).beforeSilent fun _ _ => ?_
  refine (Simulates.lifted _).afterSilent fun _ _ => ?_
  exact createOutputDirectory_simulates.afterSilent fun _ _ => Simulates.pure _

/-- The report starts empty. -/
theorem openReport_simulates (iperfVersion : Bytes) (initialMetrics : S) :
    Simulates view (openReport env config iperfVersion initialMetrics : Step F S D Unit) fun v =>
      { v with cases := [], completed := 0 } := by
  refine (Simulates.changing fun s => ?_).bind fun _ _ =>
    (writeJSON_simulates _ _).afterSilent fun _ _ => persistReport_simulates
  rfl

/-- The end of the run takes no time. -/
theorem finish_simulates : Simulates view (finish env : Part F S D (Report F D)) id := by
  refine (Simulates.reading _).afterSilent fun _ _ => ?_
  refine (orFail_simulates (Simulates.lifted _)).afterSilent fun _ _ => ?_
  refine (Simulates.changing fun s => ?_).afterSilent fun _ _ => ?_
  · rfl
  refine (Simulates.reading _).afterSilent fun _ _ => ?_
  exact (persistReport_simulates.wrapping _).afterSilent fun _ _ => Simulates.pure _

end Simulation

end VkTurnBench
