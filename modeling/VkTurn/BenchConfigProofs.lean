import VkTurn.GoNetProofs
import VkTurn.GoTimeProofs
import VkTurn.StripeProofs

/-! # Benchmark configurations and their plan

    A benchmark is configured by its cases, how often each is warmed up and measured, and
    three times.  `Validate` bounds all of them; `makeDryRunPlan` estimates the whole
    run's duration by one formula, in the machine's integers.

    The cases are checked to be DISTINCT, and there are only 256 that are valid.  So an
    accepted configuration has at most 6400 operations (`Accepted.operations_le`), and
    no step of the estimate overflows (`estimate_exact`). -/

namespace VkTurnBench

open GoText GoNet GoTime VkTurnStripe

/-! ## Configurations -/

/-- `MinimumRuns`. -/
def minimumRuns : Int := 3

/-- `Scenario`. -/
structure Scenario where
  name : Bytes
  turnTransport : Bytes
  proxyMode : Bytes
  sessions : Int
  deriving DecidableEq

/-- `Case`; its direction is a string of any kind until it is validated. -/
structure Case where
  direction : Bytes
  parallel : Int
  deriving DecidableEq

def directionUpload : Bytes := ascii "upload"

def directionDownload : Bytes := ascii "download"

/-- `RunConfig`. -/
structure RunConfig where
  scenario : Scenario
  revision : Bytes
  target : Bytes
  iperfExecutable : Bytes
  diagnosticsURL : Bytes
  outputDirectory : Bytes
  runs : Int
  warmupRuns : Int
  durationSeconds : Int
  settle : Duration
  cooldown : Duration
  cases : List Case
  notes : Bytes
  deriving DecidableEq

/-! ## Validation -/

/-- Checks in order: the text of the first that fails. -/
def firstError : List (Bool × Bytes) → Except Bytes Unit
  | [] => .ok ()
  | (bad, text) :: rest => if bad then .error text else firstError rest

/-- An ASCII letter or digit. -/
def isAlnum (b : UInt8) : Bool := within 0x30 0x39 b || within 0x41 0x5A b || within 0x61 0x7A b

/-- `scenarioNamePattern.MatchString`. -/
def scenarioName : Bytes → Bool
  | [] => false
  | b :: rest =>
      isAlnum b && decide (rest.length ≤ 63) &&
        rest.all fun b => isAlnum b || b == 0x2E || b == 0x5F || b == 0x2D

/-- `Scenario.Validate`. -/
def Scenario.validate (s : Scenario) : Except Bytes Unit :=
  firstError
    [(!scenarioName s.name,
        ascii "scenario name must match ^[A-Za-z0-9][A-Za-z0-9._-]\x7b0,63\x7d$"),
      (s.turnTransport != ascii "tcp" && s.turnTransport != ascii "udp",
        ascii "TURN transport must be tcp or udp"),
      (s.proxyMode != ascii "multi-session" && s.proxyMode != ascii "bond",
        ascii "proxy mode must be multi-session or bond"),
      (decide (s.sessions < 1 ∨ s.sessions > 64), ascii "session count must be in 1..64")]

/-- `Case.Validate`. -/
def Case.validate (c : Case) : Except Bytes Unit :=
  firstError
    [(c.direction != directionUpload && c.direction != directionDownload,
        ascii "direction must be upload or download"),
      (decide (c.parallel < 1 ∨ c.parallel > 128),
        ascii "parallel flow count must be in 1..128")]

/-- `Case.Slug`. -/
def Case.slug (c : Case) : Bytes := c.direction ++ ascii "-p" ++ itoa c.parallel

/-- The loop over the cases; `seen` are those before. -/
def validateCases (seen : List Case) : List Case → Except Bytes Unit
  | [] => .ok ()
  | c :: rest =>
      match c.validate with
      | .error err => .error err
      | .ok () =>
          if c ∈ seen then .error (ascii "duplicate benchmark case " ++ c.slug)
          else validateCases (c :: seen) rest

/-- The target is not a `host:port`. -/
def badTarget (target : Bytes) : Bool :=
  match splitHostPort target with
  | .error _ => true
  | .ok (host, _) => trimSpace host == [] || host != trimSpace host

/-- The target's port is not a port. -/
def badPort (arch : Arch) (target : Bytes) : Bool :=
  match splitHostPort target with
  | .error _ => true
  | .ok (_, rawPort) =>
      match atoi arch.width rawPort with
      | .error _ => true
      | .ok port => decide (port < 1 ∨ port > 65535)

/-- The checks of `RunConfig.Validate` between the scenario and the cases. -/
def RunConfig.checks (arch : Arch) (c : RunConfig) : List (Bool × Bytes) :=
  [(trimSpace c.revision == [] || decide (c.revision.length > 128),
      ascii "revision must be present and at most 128 characters"),
    (badTarget c.target, ascii "target must be a host:port address"),
    (badPort arch c.target, ascii "target port must be in 1..65535"),
    (trimSpace c.iperfExecutable == [], ascii "iperf3 executable must be set"),
    (trimSpace c.diagnosticsURL == [], ascii "diagnostics URL must be set"),
    (trimSpace c.outputDirectory == [], ascii "output directory must be set"),
    (decide (c.runs < minimumRuns ∨ c.runs > 20),
      ascii "measured runs must be in " ++ itoa minimumRuns ++ ascii "..20"),
    (decide (c.warmupRuns < 0 ∨ c.warmupRuns > 5), ascii "warmup runs must be in 0..5"),
    (decide (c.durationSeconds < 1 ∨ c.durationSeconds > 300),
      ascii "duration must be in 1..300 seconds"),
    (decide (c.settle < 0 ∨ c.settle > 30 * second), ascii "settle delay must be in 0..30s"),
    (decide (c.cooldown < 0 ∨ c.cooldown > 5 * minute), ascii "cooldown must be in 0..5m"),
    (c.cases.isEmpty, ascii "at least one benchmark case is required")]

/-- `RunConfig.Validate`. -/
def RunConfig.validate (arch : Arch) (c : RunConfig) : Except Bytes Unit := do
  c.scenario.validate
  firstError (c.checks arch)
  validateCases [] c.cases
  firstError [(decide (c.notes.length > 4096), ascii "notes must be at most 4096 characters")]

/-! ## The plan -/

/-- `estimated`, in `makeDryRunPlan`. -/
def estimate (arch : Arch) (c : RunConfig) : Duration :=
  let operations := arch.wrap (c.cases.length * arch.wrap (c.warmupRuns + c.runs))
  let estimated := ofInt (arch.wrap (operations * c.durationSeconds)) * second
  let estimated := estimated + ofInt (arch.wrap (c.cases.length * c.runs)) * c.settle
  if operations > 1 then estimated + ofInt (arch.wrap (operations - 1)) * c.cooldown
  else estimated

/-- `dryRunPlan`. -/
structure DryRunPlan where
  scenario : Scenario
  revision : Bytes
  target : Bytes
  iperfExecutable : Bytes
  diagnosticsURL : Bytes
  outputDirectory : Bytes
  runs : Int
  warmupRuns : Int
  duration : Bytes
  settle : Bytes
  cooldown : Bytes
  cases : List Case
  estimatedDuration : Bytes
  notes : Bytes
  deriving DecidableEq

/-- `makeDryRunPlan`. -/
def makeDryRunPlan (arch : Arch) (c : RunConfig) : DryRunPlan where
  scenario := c.scenario
  revision := c.revision
  target := c.target
  iperfExecutable := c.iperfExecutable
  diagnosticsURL := c.diagnosticsURL
  outputDirectory := c.outputDirectory
  runs := c.runs
  warmupRuns := c.warmupRuns
  duration := durationString (ofInt c.durationSeconds * second)
  settle := durationString c.settle
  cooldown := durationString c.cooldown
  cases := c.cases
  estimatedDuration := durationString (estimate arch c)
  notes := c.notes

/-! ## What is accepted -/

theorem firstError_ok {checks : List (Bool × Bytes)} :
    firstError checks = .ok () ↔ ∀ check ∈ checks, check.1 = false := by
  induction checks with
  | nil => exact ⟨fun _ check hc => (by cases hc), fun _ => rfl⟩
  | cons check rest ih =>
      obtain ⟨bad, text⟩ := check
      rw [firstError, List.forall_mem_cons, ← ih]
      cases bad with
      | true => exact ⟨fun h => (by cases h), fun h => (by cases h.1)⟩
      | false => exact ⟨fun h => ⟨rfl, h⟩, fun h => h.2⟩

theorem andThen_ok {x y : Except Bytes Unit} :
    (x >>= fun _ => y) = .ok () ↔ x = .ok () ∧ y = .ok () := by
  cases x with
  | error err => exact ⟨fun h => (by cases h), fun h => (by cases h.1)⟩
  | ok _ => exact ⟨fun h => ⟨rfl, h⟩, fun h => h.2⟩

/-- A valid case. -/
def Case.Valid (c : Case) : Prop :=
  (c.direction = directionUpload ∨ c.direction = directionDownload) ∧
    1 ≤ c.parallel ∧ c.parallel ≤ 128

theorem case_validate_ok {c : Case} : c.validate = .ok () ↔ c.Valid := by
  rw [Case.validate, firstError_ok, List.forall_mem_cons, List.forall_mem_singleton, Case.Valid]
  simp only [Bool.and_eq_false_iff, bne_eq_false_iff_eq, decide_eq_false_iff_not]
  refine and_congr_right fun _ => ?_
  omega

theorem validateCases_ok {seen cases : List Case} (h : validateCases seen cases = .ok ()) :
    (∀ c ∈ cases, c.Valid ∧ c ∉ seen) ∧ cases.Nodup := by
  induction cases generalizing seen with
  | nil => exact ⟨fun c hc => (by cases hc), List.nodup_nil⟩
  | cons c rest ih =>
      rw [validateCases] at h
      split at h
      · cases h
      · rename_i hvalid
        split at h
        · cases h
        · rename_i hseen
          obtain ⟨hrest, hnodup⟩ := ih h
          refine ⟨?_, List.nodup_cons.mpr ⟨?_, hnodup⟩⟩
          · intro d hd
            rcases List.mem_cons.mp hd with rfl | hd
            · exact ⟨case_validate_ok.mp hvalid, hseen⟩
            · obtain ⟨hd1, hd2⟩ := hrest d hd
              exact ⟨hd1, fun hmem => hd2 (List.mem_cons_of_mem _ hmem)⟩
          · intro hmem
            exact (hrest c hmem).2 List.mem_cons_self

/-- The bounds that `Validate` checks, on what a run depends on. -/
structure Accepted (c : RunConfig) : Prop where
  runs : 3 ≤ c.runs ∧ c.runs ≤ 20
  warmupRuns : 0 ≤ c.warmupRuns ∧ c.warmupRuns ≤ 5
  durationSeconds : 1 ≤ c.durationSeconds ∧ c.durationSeconds ≤ 300
  settle : 0 ≤ c.settle.toInt ∧ c.settle.toInt ≤ 30000000000
  cooldown : 0 ≤ c.cooldown.toInt ∧ c.cooldown.toInt ≤ 300000000000
  nonempty : c.cases ≠ []
  valid : ∀ d ∈ c.cases, d.Valid
  nodup : c.cases.Nodup

/-- What the checks say of a configuration that passes them. -/
theorem validate_accepted {arch : Arch} {c : RunConfig} (h : c.validate arch = .ok ()) :
    Accepted c := by
  obtain ⟨-, h⟩ := andThen_ok.mp h
  obtain ⟨hchecks, h⟩ := andThen_ok.mp h
  obtain ⟨hcases, -⟩ := andThen_ok.mp h
  obtain ⟨hvalid, hnodup⟩ := validateCases_ok hcases
  rw [firstError_ok, RunConfig.checks] at hchecks
  simp only [List.forall_mem_cons, List.not_mem_nil, false_implies, implies_true, and_true,
    decide_eq_false_iff_not, not_or, not_lt, gt_iff_lt] at hchecks
  obtain ⟨-, -, -, -, -, -, hruns, hwarmups, hduration, hsettle, hcooldown, hsome⟩ := hchecks
  have hzero : (0 : Duration).toInt = 0 := by decide
  have hseconds : ((30 : Duration) * second).toInt = 30000000000 := by decide
  have hminutes : ((5 : Duration) * minute).toInt = 300000000000 := by decide
  rw [Int64.lt_iff_toInt_lt, Int64.lt_iff_toInt_lt, hzero, hseconds, not_lt, not_lt] at hsettle
  rw [Int64.lt_iff_toInt_lt, Int64.lt_iff_toInt_lt, hzero, hminutes, not_lt, not_lt] at hcooldown
  exact ⟨hruns, hwarmups, hduration, hsettle, hcooldown, List.isEmpty_eq_false_iff.mp hsome,
    fun d hd => (hvalid d hd).1, hnodup⟩

/-! ## The estimate -/

/-- All valid cases. -/
def validCases : List Case :=
  (List.range 128).flatMap fun n : Nat =>
    [⟨directionUpload, n + 1⟩, ⟨directionDownload, n + 1⟩]

theorem mem_validCases {c : Case} (h : c.Valid) : c ∈ validCases := by
  obtain ⟨hdirection, hlo, hhi⟩ := h
  obtain ⟨n, hn⟩ : ∃ n : Nat, c.parallel = n + 1 := ⟨(c.parallel - 1).toNat, by omega⟩
  refine List.mem_flatMap.mpr ⟨n, List.mem_range.mpr (by omega), List.mem_pair.mpr ?_⟩
  rcases hdirection with hup | hdown
  · exact Or.inl (by rw [← hup, ← hn])
  · exact Or.inr (by rw [← hdown, ← hn])

section Estimate

variable {c : RunConfig}

/-- Distinct valid cases are at most 256. -/
theorem Accepted.cases_le (h : Accepted c) : c.cases.length ≤ 256 := by
  have hsub : c.cases ⊆ validCases := fun d hd => mem_validCases (h.valid d hd)
  have hlen : validCases.length = 256 := by decide +kernel
  exact hlen ▸ (List.subperm_of_subset h.nodup hsub).length_le

/-- The operations of a run: `len(Cases) * (WarmupRuns + Runs)`. -/
def RunConfig.operations (c : RunConfig) : Int := c.cases.length * (c.warmupRuns + c.runs)

/-- One case with its runs at the least, and few enough for any `int`. -/
theorem Accepted.operations_le (h : Accepted c) : 3 ≤ c.operations ∧ c.operations ≤ 6400 := by
  have hcases := h.cases_le
  have hpos : 1 ≤ c.cases.length := List.length_pos_iff.mpr h.nonempty
  obtain ⟨hr, hr'⟩ := h.runs
  obtain ⟨hw, hw'⟩ := h.warmupRuns
  rw [RunConfig.operations]
  constructor
  · nlinarith
  · nlinarith

theorem Accepted.measured_le (h : Accepted c) :
    0 ≤ (c.cases.length : Int) * c.runs ∧ (c.cases.length : Int) * c.runs ≤ 5120 := by
  have hcases := h.cases_le
  obtain ⟨hr, hr'⟩ := h.runs
  constructor
  · nlinarith
  · nlinarith

theorem wrap_word {arch : Arch} {x : Int} (hlo : 0 ≤ x) (hhi : x < 2 ^ 31) :
    arch.wrap x = x := by
  cases arch with
  | bits32 => exact wrap_eq_self (by rw [Arch.width]; omega) (by rw [Arch.width]; omega)
  | bits64 => exact wrap_eq_self (by rw [Arch.width]; omega) (by rw [Arch.width]; omega)

/-- The number of operations is an `int`. -/
theorem Accepted.wrap_operations (h : Accepted c) (arch : Arch) :
    arch.wrap (c.cases.length * arch.wrap (c.warmupRuns + c.runs)) = c.operations := by
  obtain ⟨hops, hops'⟩ := h.operations_le
  obtain ⟨hr, hr'⟩ := h.runs
  obtain ⟨hw, hw'⟩ := h.warmupRuns
  have hsum : arch.wrap (c.warmupRuns + c.runs) = c.warmupRuns + c.runs :=
    wrap_word (by omega) (by omega)
  rw [hsum, ← RunConfig.operations]
  exact wrap_word (by omega) (by omega)

theorem Accepted.seconds_le (h : Accepted c) :
    0 ≤ c.operations * c.durationSeconds ∧ c.operations * c.durationSeconds ≤ 1920000 := by
  obtain ⟨hops, hops'⟩ := h.operations_le
  obtain ⟨hd, hd'⟩ := h.durationSeconds
  constructor
  · nlinarith
  · nlinarith

/-- All counts of the estimate are `int`s: it is a sum of three terms. -/
theorem Accepted.estimate_eq (h : Accepted c) (arch : Arch) :
    estimate arch c = ofInt (c.operations * c.durationSeconds) * second
      + ofInt (c.cases.length * c.runs) * c.settle + ofInt (c.operations - 1) * c.cooldown := by
  obtain ⟨hops, hops'⟩ := h.operations_le
  obtain ⟨hmeasured, hmeasured'⟩ := h.measured_le
  obtain ⟨htime, htime'⟩ := h.seconds_le
  have hrun : arch.wrap (c.operations * c.durationSeconds) = c.operations * c.durationSeconds :=
    wrap_word htime (by omega)
  have hruns : arch.wrap (c.cases.length * c.runs) = c.cases.length * c.runs :=
    wrap_word hmeasured (by omega)
  have hless : arch.wrap (c.operations - 1) = c.operations - 1 :=
    wrap_word (by omega) (by omega)
  rw [estimate]
  simp only [h.wrap_operations arch, hrun, hruns, hless]
  rw [if_pos (by omega)]

/-- A count of operations times a duration, far from the largest one. -/
theorem mul_bounds {a b : Int} (ha : 0 ≤ a) (ha' : a ≤ 2000000) (hb : 0 ≤ b)
    (hb' : b ≤ 1000000000000) : 0 ≤ a * b ∧ a * b ≤ 2000000000000000000 := by
  constructor
  · exact mul_nonneg ha hb
  · calc a * b ≤ 2000000 * 1000000000000 := mul_le_mul ha' hb' hb (by decide)
      _ = 2000000000000000000 := by norm_num

/-- One term of the estimate. -/
theorem toInt_times {n : Int} {d : Duration} (hn : 0 ≤ n) (hn' : n ≤ 2000000) (hd : 0 ≤ d.toInt)
    (hd' : d.toInt ≤ 1000000000000) : (ofInt n * d).toInt = n * d.toInt := by
  have hint : (ofInt n).toInt = n := toInt_ofInt_of_fits ⟨by omega, by omega⟩
  obtain ⟨hlo, hhi⟩ := mul_bounds hn hn' hd hd'
  rw [toInt_mul_of_fits, hint]
  rw [hint]
  exact ⟨by omega, by omega⟩

theorem toInt_second : second.toInt = 1000000000 := by decide

/-- The sums of the terms are far from the largest duration, too. -/
theorem Accepted.sums_fit (h : Accepted c) :
    Fits (c.operations * c.durationSeconds * second.toInt
      + c.cases.length * c.runs * c.settle.toInt) ∧
    Fits (c.operations * c.durationSeconds * second.toInt
      + c.cases.length * c.runs * c.settle.toInt + (c.operations - 1) * c.cooldown.toInt) := by
  obtain ⟨hops, hops'⟩ := h.operations_le
  obtain ⟨hmeasured, hmeasured'⟩ := h.measured_le
  obtain ⟨htime, htime'⟩ := h.seconds_le
  obtain ⟨hs, hs'⟩ := h.settle
  obtain ⟨hc, hc'⟩ := h.cooldown
  have hrun := @mul_bounds (c.operations * c.durationSeconds) 1000000000 htime (by omega)
    (by omega) (by omega)
  have hsettle := @mul_bounds (c.cases.length * c.runs) c.settle.toInt hmeasured (by omega) hs
    (by omega)
  have hcool := @mul_bounds (c.operations - 1) c.cooldown.toInt (by omega) (by omega) hc (by omega)
  rw [toInt_second]
  constructor
  · exact ⟨by omega, by omega⟩
  · exact ⟨by omega, by omega⟩

/-- **NO OVERFLOW**: in either build the estimate is what its formula says of mathematical
    integers. -/
theorem estimate_exact (arch : Arch) (h : Accepted c) :
    (estimate arch c).toInt = c.operations * (c.durationSeconds * 1000000000)
      + c.cases.length * c.runs * c.settle.toInt + (c.operations - 1) * c.cooldown.toInt := by
  obtain ⟨hops, hops'⟩ := h.operations_le
  obtain ⟨hmeasured, hmeasured'⟩ := h.measured_le
  obtain ⟨htime, htime'⟩ := h.seconds_le
  obtain ⟨hs, hs'⟩ := h.settle
  obtain ⟨hc, hc'⟩ := h.cooldown
  obtain ⟨hfits, hfits'⟩ := h.sums_fit
  have hrun := @toInt_times (c.operations * c.durationSeconds) second htime (by omega)
    (by rw [toInt_second]; decide) (by rw [toInt_second]; decide)
  have hsettle := @toInt_times (c.cases.length * c.runs) c.settle hmeasured (by omega) hs (by omega)
  have hcool := @toInt_times (c.operations - 1) c.cooldown (by omega) (by omega) hc (by omega)
  have hsum : (ofInt (c.operations * c.durationSeconds) * second
      + ofInt (c.cases.length * c.runs) * c.settle).toInt
      = c.operations * c.durationSeconds * second.toInt
        + c.cases.length * c.runs * c.settle.toInt := by
    rw [toInt_add_of_fits (by rw [hrun, hsettle]; exact hfits), hrun, hsettle]
  rw [h.estimate_eq arch, toInt_add_of_fits (by rw [hsum, hcool]; exact hfits'), hsum, hcool,
    toInt_second, mul_assoc]

end Estimate

end VkTurnBench
