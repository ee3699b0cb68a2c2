import VkTurn.BenchRunProofs
import VkTurn.ThreadPoolProofs

/-! # The benchmark run and its plan

    The dry-run plan is one formula; the run is loops.  In a completed run the timeline is
    the schedule with cooldowns between its entries (`run_timeline`), so whatever is summed
    over the timeline is summed over the schedule: the time (`spent_eq_estimate`), the fetches
    (`fetches_eq`) and the iperf3 runs (`iperf_order`).

    That there are completed runs is not taken for granted: if every call succeeds, the
    whole run does (`Obliging.run_completes`), its statistics included. -/

namespace VkTurnBench

open GoText GoTime VkTurnStripe Script
open ThreadPool (total total_cons total_append)

/-! ## Counting over a schedule -/

/-- The time that a call is asked to take, in nanoseconds. -/
def Event.duration : Event → Int
  | .fetch => 0
  | .iperf _ seconds _ => seconds * 1000000000
  | .sleep d => d.toInt

/-- One for a fetch. -/
def Event.fetches (e : Event) : Int := if e = .fetch then 1 else 0

/-- The case of a run of iperf3. -/
def Event.case? : Event → Option Case
  | .iperf _ _ c => some c
  | _ => none

/-- Fetches, counted as numbers are summed. -/
theorem count_fetch (es : List Event) :
    (es.count .fetch : Int) = total Event.fetches es := by
  induction es with
  | nil => rfl
  | cons e es ih =>
      rw [List.count_cons, total_cons, ← ih, Event.fetches]
      by_cases he : e = .fetch
      · simp [he, add_comm]
      · simp [he]

/-- What stands between entries counts one time less than there are entries. -/
theorem total_intercalate (f : Event → Int) (sep : List Event) {xs : List (List Event)}
    (hxs : xs ≠ []) :
    total f (sep.intercalate xs) = (xs.map (total f)).sum + (xs.length - 1) * total f sep := by
  induction xs with
  | nil => exact absurd rfl hxs
  | cons x xs ih =>
      cases xs with
      | nil => simp
      | cons y xs =>
          rw [List.intercalate_cons_cons, total_append, total_append, ih (List.cons_ne_nil y xs)]
          simp only [List.map_cons, List.sum_cons, List.length_cons]
          push_cast
          ring

/-- What waits do not show, a schedule with waits shows as without. -/
theorem filterMap_intercalate {f : Event → Option Case} {sep : List Event}
    (hsep : sep.filterMap f = []) (xs : List (List Event)) :
    (sep.intercalate xs).filterMap f = xs.flatMap (List.filterMap f) := by
  induction xs with
  | nil => rfl
  | cons x xs ih =>
      cases xs with
      | nil => simp
      | cons y xs =>
          rw [List.intercalate_cons_cons, List.filterMap_append, List.filterMap_append, hsep,
            List.append_nil, ih, ← List.flatMap_cons]

section Counting

variable {config : RunConfig} (hconfig : Accepted config)

include hconfig

/-- A sum over the schedule, with one value for each kind of operation. -/
theorem sum_schedule {g : Operation → Int} {a b : Int} (ha : ∀ c, g (.warmup c) = a)
    (hb : ∀ c, g (.measured c) = b) :
    (config.schedule.map g).sum =
      config.cases.length * (config.warmupRuns * a + config.runs * b) := by
  have hw : (config.warmupRuns.toNat : Int) = config.warmupRuns :=
    Int.toNat_of_nonneg hconfig.warmupRuns.1
  have hr : (config.runs.toNat : Int) = config.runs :=
    Int.toNat_of_nonneg (le_trans (by decide) hconfig.runs.1)
  rw [RunConfig.schedule]
  induction config.cases with
  | nil => simp
  | cons c cases ih =>
      rw [List.flatMap_cons, List.map_append, List.sum_append, ih, List.map_append, List.sum_append,
        List.map_replicate, List.map_replicate, List.sum_replicate, List.sum_replicate, ha, hb,
        nsmul_eq_mul, nsmul_eq_mul, hw, hr, List.length_cons]
      push_cast
      ring

theorem schedule_length : (config.schedule.length : Int) = config.operations := by
  have h := sum_schedule hconfig (g := fun _ => 1) (fun _ => rfl) (fun _ => rfl)
  rw [List.map_const', List.sum_replicate, nsmul_eq_mul, mul_one] at h
  rw [h, RunConfig.operations]
  ring

theorem schedule_ne_nil : config.schedule ≠ [] := by
  intro h
  have hlen := schedule_length hconfig
  rw [h, List.length_nil] at hlen
  have := hconfig.operations_le.1
  omega

/-- The product of an accepted configuration does not wrap. -/
theorem totalOperations_eq (arch : Arch) : totalOperations arch config = config.operations := by
  rw [totalOperations, hconfig.wrap_operations arch]

omit hconfig in
theorem duration_pause {d : Duration} (h : 0 ≤ d.toInt) :
    total Event.duration (pause d) = d.toInt := by
  rw [pause]
  split
  · exact add_zero _
  · rename_i hd
    have hzero : (0 : Duration).toInt = 0 := by decide
    rw [gt_iff_lt, Int64.lt_iff_toInt_lt, hzero] at hd
    exact le_antisymm h (not_lt.mp hd)

/-- **THE SPENT TIME IS THE ESTIMATE**, and nothing overflowed on the way. -/
theorem spent_eq_estimate (arch : Arch) :
    total Event.duration (.fetch :: (pause config.cooldown).intercalate
      (config.schedule.map (Operation.events config))) = (estimate arch config).toInt := by
  have hwarmup : ∀ c, total Event.duration (Operation.events config (.warmup c)) =
      config.durationSeconds * 1000000000 := fun c => add_zero _
  have hmeasured : ∀ c, total Event.duration (Operation.events config (.measured c)) =
      config.durationSeconds * 1000000000 + config.settle.toInt := by
    intro c
    rw [Operation.events, total_append, total_append, duration_pause hconfig.settle.1]
    simp [total, Event.duration]
  have hops := sum_schedule hconfig (g := fun op => total Event.duration (op.events config))
    hwarmup hmeasured
  have hcons : ∀ es, total Event.duration (.fetch :: es) = total Event.duration es :=
    fun es => zero_add _
  rw [hcons, total_intercalate _ _ (mt List.map_eq_nil_iff.mp (schedule_ne_nil hconfig)),
    List.map_map, List.length_map, schedule_length hconfig, duration_pause hconfig.cooldown.1,
    estimate_exact arch hconfig]
  simp only [Function.comp_def, hops, RunConfig.operations]
  ring

/-- Two fetches for each measured run, and one before. -/
theorem fetches_eq :
    ((Event.fetch :: (pause config.cooldown).intercalate
      (config.schedule.map (Operation.events config))).count .fetch : Int) =
      1 + 2 * (config.cases.length * config.runs) := by
  have hpause : ∀ d, total Event.fetches (pause d) = 0 := by
    intro d
    rw [pause]
    split
    · rfl
    · rfl
  have hmeasured : ∀ c, total Event.fetches (Operation.events config (.measured c)) = 2 := by
    intro c
    rw [Operation.events, total_append, total_append, hpause]
    rfl
  have hops := sum_schedule hconfig (g := fun op => total Event.fetches (op.events config))
    (fun _ => rfl) hmeasured
  have hcons : ∀ es, total Event.fetches (.fetch :: es) = 1 + total Event.fetches es :=
    fun es => rfl
  rw [count_fetch, hcons,
    total_intercalate _ _ (mt List.map_eq_nil_iff.mp (schedule_ne_nil hconfig)), List.map_map, hpause]
  simp only [Function.comp_def, hops]
  ring

/-- iperf3 runs in the order of the cases. -/
theorem iperf_order :
    (Event.fetch :: (pause config.cooldown).intercalate
      (config.schedule.map (Operation.events config))).filterMap Event.case? =
      config.cases.flatMap (List.replicate (config.warmupRuns + config.runs).toNat) := by
  have hpause : ∀ d, (pause d).filterMap Event.case? = [] := by
    intro d
    rw [pause]
    split
    · rfl
    · rfl
  have hmeasured : ∀ c, (Operation.events config (.measured c)).filterMap Event.case? = [c] := by
    intro c
    rw [Operation.events, List.filterMap_append, List.filterMap_append, hpause]
    rfl
  have hwarmup : ∀ c, (Operation.events config (.warmup c)).filterMap Event.case? = [c] :=
    fun _ => rfl
  have hcount : (config.warmupRuns + config.runs).toNat =
      config.warmupRuns.toNat + config.runs.toNat :=
    Int.toNat_add hconfig.warmupRuns.1 (le_trans (by decide) hconfig.runs.1)
  rw [List.filterMap_cons_none rfl, filterMap_intercalate (hpause _), RunConfig.schedule,
    List.flatMap_map, List.flatMap_assoc, hcount]
  refine List.flatMap_congr fun c _ => ?_
  rw [List.flatMap_append, List.flatMap_replicate, List.flatMap_replicate, hwarmup, hmeasured,
    List.flatten_replicate_singleton, List.flatten_replicate_singleton,
    List.replicate_append_replicate]

omit hconfig in
/-- The cases that are measured, in order. -/
theorem measured_cases : config.schedule.flatMap Operation.measures =
    config.cases.flatMap (List.replicate config.runs.toNat) := by
  rw [RunConfig.schedule, List.flatMap_assoc]
  refine List.flatMap_congr fun c _ => ?_
  rw [List.flatMap_append, List.flatMap_replicate, List.flatMap_replicate, Operation.measures,
    Operation.measures, List.flatten_replicate_nil, List.nil_append,
    List.flatten_replicate_singleton]

end Counting

/-! ## A completed run -/

section Completed

variable {F S D : Type} [Float64 F] {tools : Tools F S D} {env : Env F S D} {arch : Arch}
  {config : RunConfig}

/-- The view after the loops. -/
theorem loops_view (hconfig : Accepted config) {v : View} (hzero : v.completed = 0) :
    config.schedule.foldl (operate config (totalOperations arch config)) v =
      { events := v.events ++ (pause config.cooldown).intercalate
          (config.schedule.map (Operation.events config))
        cases := v.cases ++ (config.cases.flatMap (List.replicate config.runs.toNat)).map
          fun c => (c, true)
        completed := config.operations } := by
  rw [totalOperations_eq hconfig, ← measured_cases]
  exact foldl_operate (by rw [hzero, zero_add, schedule_length hconfig])

/-- **THE TIMELINE** of a completed run, in closed form. -/
theorem run_timeline (hconfig : Accepted config) {h : Harness} {report : Report F D}
    {s' : State F S D}
    (hrun : Completes (run tools env arch config h) (start config) report s') :
    timeline s'.trace = .fetch :: (pause config.cooldown).intercalate
      (config.schedule.map (Operation.events config)) := by
  have hall : Simulates view (run tools env arch config h) _ :=
    ((preflight_simulates h).wrapping _).bind fun _ _ =>
      ((openReport_simulates _ _).wrapping _).bind fun _ _ =>
        cases_simulate.bind fun _ _ => finish_simulates
  have hview := hall _ _ _ hrun
  rw [Function.comp_apply, Function.comp_apply, Function.comp_apply,
    loops_view hconfig rfl] at hview
  exact congrArg View.events hview

end Completed

/-! ## A run in which every call succeeds -/

section Obliging

variable {F S D : Type} [Float64 F]

/-- iperf3 ran the case and printed a summary of it. -/
def Reports (tools : Tools F S D) (c : Case) (reply : CommandResult × Except Bytes Unit) : Prop :=
  reply.2 = .ok () ∧ ∃ summary, parseIPerfJSON tools.decoder reply.1.stdout = .ok summary ∧
    validateIPerfCase tools.quote c summary = .ok ()

/-- **EVERY DEPENDENCY SUCCEEDS**, whenever it is called.  Two snapshots can be compared
    if the second is the later one. -/
structure Obliging (tools : Tools F S D) (env : Env F S D) (config : RunConfig) : Prop where
  stat : ∀ past, env.stat past = .missing
  version : ∀ past, ∃ version, env.version past = .ok version
  mkdirAll : ∀ past, env.mkdirAll past = .ok ()
  mkdir : ∀ past, env.mkdir past = .ok ()
  marshal : ∀ content, env.marshal content = .ok ()
  write : ∀ past file, env.write past file = .ok ()
  fetch : ∀ past, ∃ snapshot, env.fetch past = .ok snapshot
  ready : ∀ past snapshot, env.fetch past = .ok snapshot →
    validateReady tools config.scenario snapshot = .ok ()
  iperf : ∀ past, ∀ c ∈ config.cases,
    Reports tools c (env.iperf past config.target config.durationSeconds c)
  sleep : ∀ past d, env.sleep past d = .ok ()
  diff : ∀ past later a b, env.fetch past = .ok a → env.fetch (past ++ later) = .ok b →
    ∃ delta, tools.diffMetrics a b = .ok delta

variable {tools : Tools F S D} {env : Env F S D} {arch : Arch} {config : RunConfig}

omit [Float64 F] in
/-- A call gets its answer and leaves its trace. -/
theorem completes_calling {ε α : Type} {effect : Effect F S D}
    {answer : List (Effect F S D) → α} {s s' : State F S D} {a : α} :
    Completes (calling effect answer : Prog ε (State F S D) α) s a s' ↔
      a = answer s.trace ∧ s' = s.called effect := by
  constructor
  · intro h
    cases h
    exact ⟨rfl, rfl⟩
  · rintro ⟨rfl, rfl⟩
    rfl

omit [Float64 F] in
theorem completes_asking {α : Type} {effect : Effect F S D}
    {answer : List (Effect F S D) → Except Bytes α} {s s' : State F S D} {a : α} :
    Completes (asking effect answer) s a s' ↔
      answer s.trace = .ok a ∧ s' = s.called effect := by
  constructor
  · intro h
    obtain ⟨r, t, hr, h⟩ := completes_bind.mp h
    obtain ⟨rfl, rfl⟩ := completes_calling.mp hr
    exact completes_lifted.mp h
  · rintro ⟨ha, rfl⟩
    exact completes_bind.mpr
      ⟨_, _, completes_calling.mpr ⟨rfl, rfl⟩, completes_lifted.mpr ⟨ha, rfl⟩⟩

omit [Float64 F] in
/-- A call that is never refused. -/
theorem asking_always {α : Type} {effect : Effect F S D}
    {answer : List (Effect F S D) → Except Bytes α} (h : ∀ past, ∃ a, answer past = .ok a) :
    Always (asking effect answer) := by
  intro s
  obtain ⟨a, ha⟩ := h s.trace
  exact ⟨a, _, completes_asking.mpr ⟨ha, rfl⟩⟩

omit [Float64 F] in
/-- A check that holds. -/
theorem check_always {α : Type} (f : Bytes → Bytes) {r : Except Bytes α} {a : α}
    (h : r = .ok a) : Always (orFail env (wrapping f (lifted r)) : Part F S D α) :=
  ((Always.lifted h).wrapping f).rescue _

omit [Float64 F] in
/-- Its result. -/
theorem check_returns {α : Type} {f : Bytes → Bytes} {r : Except Bytes α} {a : α}
    (h : Returns (orFail env (wrapping f (lifted r)) : Part F S D α) a) : r = .ok a := by
  obtain ⟨s, s', h⟩ := h
  exact (completes_lifted.mp (completes_wrapping.mp ((completes_rescue fail_aborts).mp h))).1

/-- `Summarize` accepts the measurements of a whole schedule. -/
theorem summarize_schedule (hconfig : Accepted config) {measurements : List (Measurement F)}
    (hcases : (measurements.map fun m => (m.benchmarkCase, validRate m.iperf.bitsPerSecond)) =
      (config.cases.flatMap (List.replicate config.runs.toNat)).map fun c => (c, true)) :
    ∃ summaries, summarize measurements = .ok summaries := by
  have hthree : 3 ≤ config.runs.toNat := by
    have := hconfig.runs.1
    omega
  have hnames : (measurements.map fun m => m.benchmarkCase) =
      config.cases.flatMap (List.replicate config.runs.toNat) := by
    have hfst := congrArg (List.map Prod.fst) hcases
    rw [List.map_map, List.map_map] at hfst
    exact hfst.trans (List.map_id _)
  have hmem : ∀ m ∈ measurements, m.benchmarkCase ∈ config.cases := by
    intro m hm
    have hin := List.mem_map_of_mem (f := fun m => m.benchmarkCase) hm
    rw [hnames] at hin
    obtain ⟨c, hc, hrep⟩ := List.mem_flatMap.mp hin
    rw [List.eq_of_mem_replicate hrep]
    exact hc
  refine summarize_ok ?_ (fun m hm => hconfig.valid _ (hmem m hm)) ?_ ?_
  · intro hnil
    obtain ⟨c, hc⟩ := List.exists_mem_of_ne_nil _ hconfig.nonempty
    have hin : c ∈ config.cases.flatMap (List.replicate config.runs.toNat) :=
      List.mem_flatMap.mpr ⟨c, hc, List.mem_replicate.mpr ⟨by omega, rfl⟩⟩
    rw [← hnames, hnil] at hin
    cases hin
  · intro m hm
    have hin := List.mem_map_of_mem
      (f := fun m => (m.benchmarkCase, validRate m.iperf.bitsPerSecond)) hm
    rw [hcases] at hin
    obtain ⟨c, -, hc⟩ := List.mem_map.mp hin
    exact (congrArg Prod.snd hc).symm
  · intro m hm
    have hsub : (List.replicate config.runs.toNat m.benchmarkCase).Sublist
        (measurements.map fun m => m.benchmarkCase) := by
      rw [hnames, List.flatMap_def]
      exact List.sublist_flatten_of_mem (List.mem_map_of_mem (hmem m hm))
    have hcount := List.replicate_sublist_iff.mp hsub
    rw [List.count_eq_countP, List.countP_map, List.countP_eq_length_filter] at hcount
    exact hthree.trans hcount

namespace Obliging

variable (h : Obliging tools env config)

include h

theorem writeFile_always (file : Bytes) (content : Content F S D) :
    Always (writeFile env file content) :=
  asking_always fun past => ⟨(), h.write past file⟩

/-- Every content can be encoded and written. -/
theorem writeJSON_always (file : Bytes) (content : Content F S D) :
    Always (writeJSON env file content) :=
  ((Always.lifted (h.marshal content)).wrapping _).bind fun _ _ =>
    (h.writeFile_always file content).wrapping _

theorem persistReport_always : Always (persistReport env) :=
  (Always.reading _).bind fun _ _ => h.writeJSON_always _ _

theorem writeIPerfArtifacts_always (stem : Bytes) (result : CommandResult) :
    Always (writeIPerfArtifacts env stem result) :=
  ((h.writeFile_always _ _).wrapping _).bind fun _ _ =>
    ((h.writeFile_always _ _).wrapping _).bind fun _ _ => Always.pure _

/-- With a second snapshot or without. -/
theorem writeAfter_always (files : ArtifactFiles) (stem : Bytes) (after : Option S) :
    Always (writeAfter env files stem after) := by
  cases after with
  | none => exact Always.pure _
  | some after => exact (h.writeJSON_always _ _).bind fun _ _ => Always.pure _

theorem writeRunArtifacts_always (stem : Bytes) (result : CommandResult) (before : S)
    (after : Option S) : Always (writeRunArtifacts env stem result before after) :=
  (h.writeIPerfArtifacts_always _ _).bind fun _ _ =>
    (h.writeJSON_always _ _).bind fun _ _ => h.writeAfter_always _ _ _

theorem sleep_always (d : Duration) : Always (VkTurnBench.sleep env d) :=
  asking_always fun past => ⟨(), h.sleep past d⟩

theorem fetch_always : Always (VkTurnBench.fetch env) := asking_always h.fetch

/-- The end of an operation, with its wait or without. -/
theorem advance_always : Always (advance env arch config) := by
  refine (Always.changing _).bind fun _ _ => ?_
  refine (h.persistReport_always.rescue _).bind fun _ _ => ?_
  refine (Always.reading _).bind fun completed _ => ?_
  split
  · exact (h.sleep_always _).rescue _
  · exact Always.pure ()

/-- What iperf3 answers is a report of the case it was asked for. -/
theorem runIPerf_returns {c : Case} (hc : c ∈ config.cases)
    {reply : CommandResult × Except Bytes Unit} (hreply : Returns (runIPerf env config c) reply) :
    Reports tools c reply := by
  obtain ⟨s, s', hs⟩ := hreply
  obtain ⟨rfl, -⟩ := completes_calling.mp hs
  exact h.iperf _ c hc

/-- **WARM-UPS COMPLETE** if nothing fails. -/
theorem warmup_always {c : Case} (hc : c ∈ config.cases) (index : Nat) :
    Always (warmup tools env arch config c index) := by
  refine Always.bind (fun s => ⟨_, _, rfl⟩) fun reply hreply => ?_
  obtain ⟨hok, summary, hparse, hcase⟩ := h.runIPerf_returns hc hreply
  refine Always.bind ?_ fun _ _ => h.advance_always
  refine ((h.writeIPerfArtifacts_always _ _).rescue _).bind fun _ _ => ?_
  refine (check_always _ hok).bind fun _ _ => ?_
  refine (check_always _ hparse).bind fun summary' hsummary => ?_
  obtain rfl : summary = summary' := Except.ok.inj (hparse.symm.trans (check_returns hsummary))
  exact (check_always _ hcase).bind fun _ _ => Always.changing _

/-- A report and two snapshots that can be subtracted make a record. -/
theorem recordRun_always {c : Case} {index : Nat} {before after : S} {delta : D}
    {reply : CommandResult × Except Bytes Unit} (hreply : Reports tools c reply)
    (hdelta : tools.diffMetrics before after = .ok delta) :
    Always (recordRun tools env c index before reply (.ok after)) := by
  obtain ⟨hok, summary, hparse, hcase⟩ := hreply
  refine ((h.writeRunArtifacts_always _ _ _ _).rescue _).bind fun _ _ => ?_
  refine (check_always _ hok).bind fun _ _ => ?_
  refine (check_always _ rfl).bind fun after' hafter => ?_
  obtain rfl : after = after' := Except.ok.inj (check_returns hafter)
  refine (check_always _ hparse).bind fun summary' hsummary => ?_
  obtain rfl : summary = summary' := Except.ok.inj (hparse.symm.trans (check_returns hsummary))
  refine (check_always _ hcase).bind fun _ _ => ?_
  exact (check_always _ hdelta).bind fun _ _ => Always.changing _

/-- The second snapshot is a later one. -/
theorem settled_later (s : State F S D) :
    ∃ b s' later, Completes (settled env config) s b s' ∧ env.fetch (s.trace ++ later) = .ok b := by
  by_cases hsettle : config.settle > 0
  · obtain ⟨b, hb⟩ := h.fetch (s.trace ++ [.event (.sleep config.settle)])
    refine ⟨b, _, _, completes_bind.mpr ⟨(), s.called (.event (.sleep config.settle)), ?_,
      completes_asking.mpr ⟨hb, rfl⟩⟩, hb⟩
    rw [if_pos hsettle]
    exact completes_asking.mpr ⟨h.sleep _ _, rfl⟩
  · obtain ⟨b, hb⟩ := h.fetch s.trace
    refine ⟨b, _, [], completes_bind.mpr ⟨(), s, ?_, completes_asking.mpr ⟨hb, rfl⟩⟩, ?_⟩
    · rw [if_neg hsettle]
      rfl
    · rw [List.append_nil]
      exact hb

/-- **MEASURED RUNS COMPLETE** if nothing fails. -/
theorem measured_always {c : Case} (hc : c ∈ config.cases) (index : Nat) :
    Always (measured tools env arch config c index) := by
  intro s
  let s₁ := s.called (.event .fetch)
  let s₂ := s₁.called (.event (.iperf config.target config.durationSeconds c))
  let reply := env.iperf s₁.trace config.target config.durationSeconds c
  obtain ⟨before, hbefore⟩ := h.fetch s.trace
  have hfetch : Completes (VkTurnBench.fetch env) s before s₁ := completes_asking.mpr ⟨hbefore, rfl⟩
  have hreply : Completes (runIPerf env config c) s₁ reply s₂ := completes_calling.mpr ⟨rfl, rfl⟩
  obtain ⟨after, s₃, later, hafter, hlater⟩ := h.settled_later s₂
  -- the second snapshot comes after what had happened at the first
  obtain ⟨between, hbetween⟩ : ∃ between, s₂.trace = s.trace ++ between :=
    ⟨_, List.append_assoc _ _ _⟩
  rw [hbetween, List.append_assoc] at hlater
  obtain ⟨delta, hdelta⟩ := h.diff _ _ _ _ hbefore hlater
  obtain ⟨⟨⟩, s₄, hrecord⟩ := @recordRun_always _ _ _ _ _ _ _ h c index _ _ _ _
    (h.iperf s₁.trace c hc) hdelta s₃
  have halways : Always (advance env arch config) := h.advance_always
  obtain ⟨⟨⟩, s', hadvance⟩ := halways s₄
  refine ⟨(), s', completes_bind.mpr ⟨before, s₁, ?_, completes_bind.mpr ⟨reply, s₂, hreply,
    completes_bind.mpr ⟨.ok after, s₃, completes_attempt_ok.mpr hafter,
      completes_bind.mpr ⟨(), s₄, hrecord, hadvance⟩⟩⟩⟩⟩
  exact (completes_rescue fail_aborts).mpr (completes_wrapping.mpr hfetch)

/-- A valid configuration in calm surroundings passes. -/
theorem preflight_always (hvalid : config.validate arch = .ok ()) :
    Always (preflight tools env arch config ⟨true, true, true⟩) := by
  refine (Always.lifted rfl).bind fun _ _ => ?_
  refine (Always.lifted hvalid).bind fun _ _ => ?_
  refine (Always.lifted rfl).bind fun _ _ => ?_
  refine (asking_always fun past => ⟨(), by rw [h.stat past]⟩).bind fun _ _ => ?_
  refine ((asking_always h.version).wrapping _).bind fun _ _ => ?_
  refine (h.fetch_always.wrapping _).bind fun snapshot hsnapshot => ?_
  obtain ⟨s, s', hs⟩ := hsnapshot
  obtain ⟨hfetch, -⟩ := completes_asking.mp (completes_wrapping.mp hs)
  refine (Always.lifted (h.ready _ _ hfetch)).bind fun _ _ => ?_
  refine Always.bind ?_ fun _ _ => Always.pure _
  exact ((asking_always fun past => ⟨(), h.mkdirAll past⟩).wrapping _).bind fun _ _ =>
    (asking_always fun past => ⟨(), h.mkdir past⟩).wrapping _

theorem openReport_always (iperfVersion : Bytes) (initialMetrics : S) :
    Always (openReport env config iperfVersion initialMetrics : Step F S D Unit) :=
  (Always.changing _).bind fun _ _ =>
    (h.writeJSON_always _ _).bind fun _ _ => h.persistReport_always

/-- The summaries exist, since every case was measured. -/
theorem finish_completes (hconfig : Accepted config) {s : State F S D}
    (hcases : (view s).cases =
      (config.cases.flatMap (List.replicate config.runs.toNat)).map fun c => (c, true)) :
    ∃ report s', Completes (finish env) s report s' ∧ report.status = ascii "complete" := by
  obtain ⟨summaries, hsummaries⟩ : ∃ summaries, summarize
      (s.report.runs.map fun run => (⟨run.benchmarkCase, run.iperf⟩ : Measurement F)) =
        .ok summaries := by
    refine summarize_schedule hconfig ?_
    rw [List.map_map, ← hcases]
    rfl
  let report := { s.report with summaries := summaries, status := ascii "complete" }
  obtain ⟨⟨⟩, s', hpersist⟩ := h.persistReport_always { s with report := report }
  refine ⟨report, s', completes_bind.mpr ⟨_, s, rfl, completes_bind.mpr ⟨summaries, s, ?_,
    completes_bind.mpr ⟨(), { s with report := report }, rfl, completes_bind.mpr ⟨report, _, rfl,
      completes_bind.mpr ⟨(), s', completes_wrapping.mpr hpersist, rfl⟩⟩⟩⟩⟩, rfl⟩
  exact (completes_rescue fail_aborts).mpr (completes_lifted.mpr ⟨hsummaries, rfl⟩)

/-- So do the loops. -/
theorem cases_always : Always (forEach (runCase tools env arch config) config.cases) :=
  Always.forEach fun _ hc =>
    (Always.forEach fun index _ => h.warmup_always hc index).bind fun _ _ =>
      Always.forEach fun index _ => h.measured_always hc index

/-- **A RUN IN WHICH EVERY CALL SUCCEEDS COMPLETES.** -/
theorem run_completes (hvalid : config.validate arch = .ok ()) :
    ∃ report s', Completes (run tools env arch config ⟨true, true, true⟩) (start config) report s' ∧
      report.status = ascii "complete" := by
  have hconfig := validate_accepted hvalid
  obtain ⟨opening, s₁, hpreflight⟩ := h.preflight_always hvalid (start config)
  obtain ⟨⟨⟩, s₂, hopen⟩ := h.openReport_always opening.1 opening.2 s₁
  have halways : Always (forEach (runCase tools env arch config) config.cases) := h.cases_always
  obtain ⟨⟨⟩, s₃, hloops⟩ := halways s₂
  have hview₃ : view s₃ = config.schedule.foldl _ (view s₂) := cases_simulate _ _ _ hloops
  rw [openReport_simulates _ _ _ _ _ hopen, loops_view hconfig rfl] at hview₃
  obtain ⟨report, s', hfinish, hstatus⟩ := h.finish_completes hconfig (congrArg View.cases hview₃)
  exact ⟨report, s', completes_bind.mpr ⟨opening, s₁, completes_wrapping.mpr hpreflight,
    completes_bind.mpr ⟨(), s₂, completes_wrapping.mpr hopen,
      completes_bind.mpr ⟨(), s₃, hloops, hfinish⟩⟩⟩, hstatus⟩

end Obliging

end Obliging

/-! ## The run and its plan -/

/-- **THE RUN IS THE PLAN'S**: of an accepted configuration, a run in which every call
    succeeds completes.  In every completed run, in whatever surroundings:

    - after one fetch come the operations of the schedule, with a cooldown between any two;
      a measured run stands between two fetches of its own;
    - iperf3 runs case by case, as often as there are operations;
    - the time that all calls were asked to take is the plan's estimate. -/
theorem schedule_matches_plan {F S D : Type} [Float64 F] (tools : Tools F S D) (env : Env F S D)
    (arch : Arch) (config : RunConfig) (hvalid : config.validate arch = .ok ()) :
    (Obliging tools env config → ∃ report s',
      Completes (run tools env arch config ⟨true, true, true⟩) (start config) report s' ∧
        report.status = ascii "complete") ∧
      ∀ h report s', Completes (run tools env arch config h) (start config) report s' →
        timeline s'.trace = .fetch :: (pause config.cooldown).intercalate
            (config.schedule.map (Operation.events config)) ∧
          (timeline s'.trace).filterMap Event.case? =
            config.cases.flatMap (List.replicate (config.warmupRuns + config.runs).toNat) ∧
          (((timeline s'.trace).filterMap Event.case?).length : Int) =
            config.cases.length * (config.warmupRuns + config.runs) ∧
          ((timeline s'.trace).count .fetch : Int) = 1 + 2 * (config.cases.length * config.runs) ∧
          ∃ estimated : Duration,
            (makeDryRunPlan arch config).estimatedDuration = durationString estimated ∧
              total Event.duration (timeline s'.trace) = estimated.toInt := by
  have hconfig := validate_accepted hvalid
  refine ⟨fun hobliging => hobliging.run_completes hvalid, fun h report s' hrun => ?_⟩
  have htimeline := run_timeline hconfig hrun
  rw [htimeline, iperf_order hconfig]
  refine ⟨rfl, rfl, ?_, fetches_eq hconfig, estimate arch config, rfl,
    spent_eq_estimate hconfig arch⟩
  have hnonneg : 0 ≤ config.warmupRuns + config.runs := by
    have := hconfig.warmupRuns.1
    have := hconfig.runs.1
    omega
  rw [List.length_flatMap]
  simp only [List.length_replicate, List.map_const', List.sum_replicate, smul_eq_mul]
  rw [Nat.cast_mul, Int.toNat_of_nonneg hnonneg]

/-- Numbers without fractions. -/
instance : Float64 Nat where
  zero := 0
  ofUInt64 n := n.toNat
  add := (· + ·)
  sub := (· - ·)
  half n := n / 2
  le a b := decide (a ≤ b)
  lt a b := decide (a < b)
  isNaN _ := false
  isInf _ := false
  text n := itoa n
  lt_zero x _ := decide_eq_false (Nat.not_lt_zero x)
  counter _ := ⟨decide_eq_true (Nat.zero_le _), rfl, rfl⟩

/-- A configuration with one case: one warm-up and three runs. -/
def oneUpload : RunConfig where
  scenario := ⟨ascii "turn-tcp-bond-n2", ascii "tcp", ascii "bond", 2⟩
  revision := ascii "deadbeef"
  target := ascii "127.0.0.1:9000"
  iperfExecutable := ascii "iperf3"
  diagnosticsURL := ascii "http://127.0.0.1:6060"
  outputDirectory := ascii "report"
  runs := 3
  warmupRuns := 1
  durationSeconds := 1
  settle := 1000000
  cooldown := 1000000
  cases := [⟨directionUpload, 1⟩]
  notes := ascii "test run"

/-- What iperf3 prints after one second with one stream. -/
def oneStreamJSON : Bytes :=
  ascii "\x7b\"start\":\x7b\"test_start\":" ++
    ascii "\x7b\"protocol\":\"TCP\",\"num_streams\":1,\"reverse\":0\x7d\x7d," ++
    ascii "\"end\":\x7b\"sum_sent\":\x7b\"seconds\":1,\"bytes\":1,\"bits_per_second\":8\x7d\x7d\x7d"

def oneStreamDocument : IPerfDocument Nat :=
  { error := [], version := [], systemInfo := [], protocol := ascii "TCP", numStreams := 1
    reverse := false, sumSent := some ⟨1, 1, 8, 0⟩, sumReceived := none, hostTotal := 0
    remoteTotal := 0, senderTCPCongestion := [] }

/-- The decoder knows this text and no other. -/
def oneStream : Tools Nat Unit Unit where
  quote := id
  decoder :=
    { document := fun data =>
        if data = oneStreamJSON then .ok oneStreamDocument else .error (ascii "EOF")
      trailer := fun _ => .eof }
  activeSessions _ := 1
  activePaths _ := 2
  diffMetrics _ _ := .ok ()

/-- The decoder accepts what iperf3 prints. -/
theorem oneStream_parsed :
    parseIPerfJSON oneStream.decoder oneStreamJSON = oneStreamDocument.summary := by
  have hdocument : oneStream.decoder.document oneStreamJSON = .ok oneStreamDocument := by
    simp only [oneStream, if_true]
  rw [parseIPerfJSON, hdocument]
  rfl

/-- Nothing fails. -/
def calm : Env Nat Unit Unit where
  stat _ := .missing
  version _ := .ok []
  mkdirAll _ := .ok ()
  mkdir _ := .ok ()
  marshal _ := .ok ()
  write _ _ := .ok ()
  fetch _ := .ok ()
  iperf _ _ _ _ := (⟨[], oneStreamJSON, []⟩, .ok ())
  sleep _ _ := .ok ()

/-- One warm-up and three measured runs, as estimated. -/
theorem one_upload_as_planned :
    oneUpload.validate .bits64 = .ok () ∧
      (makeDryRunPlan .bits64 oneUpload).estimatedDuration = ascii "4.006s" ∧
      ∃ report s', Completes (run oneStream calm .bits64 oneUpload ⟨true, true, true⟩)
          (start oneUpload) report s' ∧
        (timeline s'.trace).count .fetch = 7 ∧
        total Event.duration (timeline s'.trace) = 4006000000 := by
  have hvalid : oneUpload.validate .bits64 = .ok () := by decide +kernel
  have hcalm : Obliging oneStream calm oneUpload :=
    { stat := fun _ => rfl
      version := fun _ => ⟨[], rfl⟩
      mkdirAll := fun _ => rfl
      mkdir := fun _ => rfl
      marshal := fun _ => rfl
      write := fun _ _ => rfl
      fetch := fun _ => ⟨(), rfl⟩
      ready := by
        rintro past ⟨⟩ -
        decide
      iperf := by
        intro past c hc
        obtain rfl := List.mem_singleton.mp hc
        exact ⟨rfl, _, oneStream_parsed.trans rfl, by decide⟩
      sleep := fun _ _ => rfl
      diff := fun _ _ _ _ _ _ => ⟨(), rfl⟩ }
  obtain ⟨hcompletes, hruns⟩ := schedule_matches_plan oneStream calm .bits64 oneUpload hvalid
  obtain ⟨report, s', hrun, -⟩ := hcompletes hcalm
  obtain ⟨htimeline, -⟩ := hruns _ _ _ hrun
  refine ⟨hvalid, by decide +kernel, report, s', hrun, ?_, ?_⟩
  · rw [htimeline]
    decide
  · rw [htimeline]
    decide

end VkTurnBench
