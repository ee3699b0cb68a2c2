import VkTurn.BenchConfigProofs

/-! # Results of a benchmark

    What iperf3 printed becomes a summary (`parseIPerfJSON`), which must be of the case
    that was asked for (`validateIPerfCase`); the summaries of all measured runs become one
    line of statistics for each case (`summarize`).

    The JSON decoder and the arithmetic of `float64` are parameters.  Of the arithmetic
    two facts are used: a number that is not negative is not below zero, and a counter
    converted to `float64` is a valid rate. -/

namespace VkTurnBench

open GoText

/-! ## Numbers -/

/-- What the code uses of `float64`. -/
class Float64 (F : Type) where
  zero : F
  ofUInt64 : UInt64 → F
  add : F → F → F
  sub : F → F → F
  half : F → F
  le : F → F → Bool
  lt : F → F → Bool
  isNaN : F → Bool
  isInf : F → Bool
  /-- as `%v` prints it -/
  text : F → Bytes
  lt_zero : ∀ x, le zero x = true → lt x zero = false
  counter : ∀ n, le zero (ofUInt64 n) = true ∧ isNaN (ofUInt64 n) = false ∧
    isInf (ofUInt64 n) = false

section Numbers

variable {F : Type} [Float64 F]

open Float64

/-- `validRate`. -/
def validRate (value : F) : Bool := le zero value && !isNaN value && !isInf value

theorem validRate_iff {value : F} :
    validRate value = true ↔ le zero value = true ∧ isNaN value = false ∧ isInf value = false := by
  rw [validRate, Bool.and_eq_true, Bool.and_eq_true, Bool.not_eq_true', Bool.not_eq_true',
    and_assoc]

/-- `Median`. -/
def median (values : List F) : Except Bytes F :=
  if values = [] then .error (ascii "cannot calculate median of an empty sample")
  else
    match values.find? fun value => isNaN value || isInf value || lt value zero with
    | some value => .error (ascii "sample contains invalid value " ++ text value)
    | none =>
        let ordered := values.mergeSort le
        let middle := ordered.length / 2
        if ordered.length % 2 = 1 then .ok (ordered.getD middle zero)
        else
          let lower := ordered.getD (middle - 1) zero
          .ok (add lower (half (sub (ordered.getD middle zero) lower)))

/-- Of valid rates there is a median. -/
theorem median_ok {values : List F} (hsome : values ≠ [])
    (hvalid : ∀ value ∈ values, validRate value = true) : ∃ m, median values = .ok m := by
  have hfind : values.find? (fun value => isNaN value || isInf value || lt value zero) = none := by
    refine List.find?_eq_none.mpr fun value hv => ?_
    obtain ⟨hle, hnan, hinf⟩ := validRate_iff.mp (hvalid value hv)
    rw [hnan, hinf, lt_zero value hle]
    decide
  rw [median, if_neg hsome, hfind]
  dsimp only
  split
  · exact ⟨_, rfl⟩
  · exact ⟨_, rfl⟩

/-! ## What iperf3 printed -/

/-- `iperfSum`. -/
structure IPerfSum (F : Type) where
  seconds : F
  bytes : UInt64
  bitsPerSecond : F
  retransmits : UInt64

/-- `iperfDocument`. -/
structure IPerfDocument (F : Type) where
  error : Bytes
  version : Bytes
  systemInfo : Bytes
  protocol : Bytes
  numStreams : Int
  reverse : Bool
  sumSent : Option (IPerfSum F)
  sumReceived : Option (IPerfSum F)
  hostTotal : F
  remoteTotal : F
  senderTCPCongestion : Bytes

/-- `IPerfSummary`. -/
structure IPerfSummary (F : Type) where
  version : Bytes
  system : Bytes
  protocol : Bytes
  requestedStreams : Int
  reverse : Bool
  seconds : F
  sentBytes : UInt64
  receivedBytes : UInt64
  senderBitsPerSecond : F
  bitsPerSecond : F
  retransmittedSegments : UInt64
  hostCPUPercent : F
  remoteCPUPercent : F
  senderTCPCongestionControl : Bytes

/-- What the decoder finds after the first value. -/
inductive Trailer where
  | eof
  | value
  | failed (err : Bytes)

/-- The JSON decoder over one output. -/
structure Decoder (F : Type) where
  document : Bytes → Except Bytes (IPerfDocument F)
  trailer : Bytes → Trailer

/-- The checks of `ParseIPerfJSON` on a decoded document. -/
def IPerfDocument.summary (document : IPerfDocument F) : Except Bytes (IPerfSummary F) :=
  if document.error ≠ [] then .error (ascii "iperf3 reported: " ++ document.error)
  else
    match document.sumSent.or document.sumReceived, document.sumReceived.or document.sumSent with
    | some sent, some received =>
        if le received.seconds zero || !validRate received.bitsPerSecond ||
            !validRate sent.bitsPerSecond then
          .error (ascii "iperf3 JSON contains invalid duration or bitrate")
        else if !validRate document.hostTotal || !validRate document.remoteTotal then
          .error (ascii "iperf3 JSON contains invalid CPU utilization")
        else
          .ok
            { version := document.version
              system := document.systemInfo
              protocol := document.protocol
              requestedStreams := document.numStreams
              reverse := document.reverse
              seconds := received.seconds
              sentBytes := sent.bytes
              receivedBytes := received.bytes
              senderBitsPerSecond := sent.bitsPerSecond
              bitsPerSecond := received.bitsPerSecond
              retransmittedSegments := sent.retransmits
              hostCPUPercent := document.hostTotal
              remoteCPUPercent := document.remoteTotal
              senderTCPCongestionControl := document.senderTCPCongestion }
    | _, _ => .error (ascii "iperf3 JSON has no TCP sum_sent or sum_received result")

/-- `ParseIPerfJSON`. -/
def parseIPerfJSON (decoder : Decoder F) (data : Bytes) : Except Bytes (IPerfSummary F) :=
  match decoder.document data with
  | .error err => .error (ascii "decode iperf3 JSON: " ++ err)
  | .ok document =>
      match decoder.trailer data with
      | .value => .error (ascii "decode iperf3 JSON: unexpected trailing value")
      | .failed err => .error (ascii "decode iperf3 JSON trailer: " ++ err)
      | .eof => document.summary

/-- A bad rate is refused. -/
theorem summary_rate {document : IPerfDocument F} {summary : IPerfSummary F}
    (h : document.summary = .ok summary) : validRate summary.bitsPerSecond = true := by
  rw [IPerfDocument.summary] at h
  split at h
  · cases h
  · split at h
    · split at h
      · cases h
      · rename_i hrates
        split at h
        · cases h
        · cases h
          simp only [Bool.or_eq_true, not_or, Bool.not_eq_true, Bool.not_eq_false'] at hrates
          exact hrates.1.2
    · cases h

/-- The rate of a summary is a valid one. -/
theorem parseIPerfJSON_rate {decoder : Decoder F} {data : Bytes} {summary : IPerfSummary F}
    (h : parseIPerfJSON decoder data = .ok summary) : validRate summary.bitsPerSecond = true := by
  rw [parseIPerfJSON] at h
  split at h
  · cases h
  · split at h
    · cases h
    · cases h
    · exact summary_rate h

/-- `validateIPerfCase`; `quote` is `strconv.Quote`.  No letter but `T`, `C` and `P`
    folds to `t`, `c` or `p`. -/
def validateIPerfCase (quote : Bytes → Bytes) (c : Case) (summary : IPerfSummary F) :
    Except Bytes Unit :=
  let truth (b : Bool) : Bytes := if b then ascii "true" else ascii "false"
  let wantReverse := decide (c.direction = directionDownload)
  firstError
    [(summary.protocol.map lowerByte != ascii "tcp",
        ascii "iperf payload protocol is " ++ quote summary.protocol ++ ascii ", want TCP"),
      (decide (summary.requestedStreams ≠ c.parallel),
        ascii "iperf stream count is " ++ itoa summary.requestedStreams ++ ascii ", want "
          ++ itoa c.parallel),
      (summary.reverse != wantReverse,
        ascii "iperf reverse=" ++ truth summary.reverse ++ ascii ", want " ++ truth wantReverse)]

/-! ## Statistics -/

/-- `Measurement`. -/
structure Measurement (F : Type) where
  benchmarkCase : Case
  iperf : IPerfSummary F

/-- `CaseSummary`. -/
structure CaseSummary (F : Type) where
  benchmarkCase : Case
  runs : Int
  medianBitsPerSecond : F
  minimumBitsPerSecond : F
  maximumBitsPerSecond : F
  medianRetransmittedSegments : F

/-- `directionOrder`. -/
def directionOrder (direction : Bytes) : Int := if direction = directionUpload then 0 else 1

/-- The order of the summaries. -/
def Case.before (a b : Case) : Bool :=
  if a.direction ≠ b.direction then directionOrder a.direction < directionOrder b.direction
  else a.parallel < b.parallel

/-- `groups[c]`: the measurements of a case. -/
def group (measurements : List (Measurement F)) (c : Case) : List (Measurement F) :=
  measurements.filter fun m => m.benchmarkCase = c

/-- One iteration of `Summarize`'s loop over the cases. -/
def summarizeCase (c : Case) (runs : List (Measurement F)) : Except Bytes (CaseSummary F) :=
  if (runs.length : Int) < minimumRuns then
    .error (ascii "case " ++ c.slug ++ ascii " has " ++ itoa runs.length ++ ascii " runs; at least "
      ++ itoa minimumRuns ++ ascii " are required")
  else
    let throughputs := runs.map fun run => run.iperf.bitsPerSecond
    let retransmits := runs.map fun run => ofUInt64 run.iperf.retransmittedSegments
    match median throughputs with
    | .error err => .error (ascii "case " ++ c.slug ++ ascii " throughput: " ++ err)
    | .ok medianThroughput =>
        match median retransmits with
        | .error err => .error (ascii "case " ++ c.slug ++ ascii " retransmits: " ++ err)
        | .ok medianRetransmits =>
            let ordered := throughputs.mergeSort le
            .ok
              { benchmarkCase := c
                runs := runs.length
                medianBitsPerSecond := medianThroughput
                minimumBitsPerSecond := ordered.getD 0 zero
                maximumBitsPerSecond := ordered.getD (ordered.length - 1) zero
                medianRetransmittedSegments := medianRetransmits }

/-- The loop over the sorted cases. -/
def summarizeCases (measurements : List (Measurement F)) :
    List Case → Except Bytes (List (CaseSummary F))
  | [] => .ok []
  | c :: rest => do
      let summary ← summarizeCase c (group measurements c)
      let summaries ← summarizeCases measurements rest
      return summary :: summaries

/-- The loop that builds the groups: a measurement of an invalid case stops it. -/
def checkCases : List (Measurement F) → Except Bytes Unit
  | [] => .ok ()
  | m :: rest =>
      match m.benchmarkCase.validate with
      | .error err => .error (ascii "invalid measurement case: " ++ err)
      | .ok () => checkCases rest

/-- `Summarize`. -/
def summarize (measurements : List (Measurement F)) : Except Bytes (List (CaseSummary F)) :=
  match checkCases measurements with
  | .error err => .error err
  | .ok () =>
      if measurements = [] then .error (ascii "no benchmark measurements")
      else
        let cases := (measurements.map fun m => m.benchmarkCase).dedup
        summarizeCases measurements (cases.mergeSort fun a b => !b.before a)

/-- Three runs with valid rates have a summary. -/
theorem summarizeCase_ok {c : Case} {runs : List (Measurement F)} (hruns : 3 ≤ runs.length)
    (hrates : ∀ run ∈ runs, validRate run.iperf.bitsPerSecond = true) :
    ∃ summary, summarizeCase c runs = .ok summary := by
  have hsome : runs ≠ [] := List.ne_nil_of_length_pos (by omega)
  obtain ⟨m, hm⟩ := @median_ok F _ (runs.map fun run => run.iperf.bitsPerSecond)
    (mt List.map_eq_nil_iff.mp hsome) (by simpa only [List.forall_mem_map] using hrates)
  obtain ⟨m', hm'⟩ := @median_ok F _
    (runs.map fun run => ofUInt64 run.iperf.retransmittedSegments)
    (mt List.map_eq_nil_iff.mp hsome)
    (by
      rw [List.forall_mem_map]
      exact fun run _ => validRate_iff.mpr (counter _))
  have hmin : ¬ (runs.length : Int) < minimumRuns := by
    rw [minimumRuns]
    omega
  rw [summarizeCase, if_neg hmin]
  simp only [hm, hm']
  exact ⟨_, rfl⟩

theorem summarizeCases_ok {measurements : List (Measurement F)} {cases : List Case}
    (h : ∀ c ∈ cases, ∃ summary, summarizeCase c (group measurements c) = .ok summary) :
    ∃ summaries, summarizeCases measurements cases = .ok summaries := by
  induction cases with
  | nil => exact ⟨[], rfl⟩
  | cons c rest ih =>
      obtain ⟨summary, hsummary⟩ := h c List.mem_cons_self
      obtain ⟨summaries, hsummaries⟩ := ih fun d hd => h d (List.mem_cons_of_mem _ hd)
      refine ⟨summary :: summaries, ?_⟩
      rw [summarizeCases, hsummary, hsummaries]
      rfl

omit [Float64 F] in
theorem checkCases_ok {measurements : List (Measurement F)}
    (h : ∀ m ∈ measurements, m.benchmarkCase.Valid) : checkCases measurements = .ok () := by
  induction measurements with
  | nil => rfl
  | cons m rest ih =>
      rw [checkCases, case_validate_ok.mpr (h m List.mem_cons_self)]
      exact ih fun m' hm' => h m' (List.mem_cons_of_mem _ hm')

/-- `Summarize` succeeds on measurements of valid cases with valid rates, three or more
    of each case. -/
theorem summarize_ok {measurements : List (Measurement F)} (hsome : measurements ≠ [])
    (hvalid : ∀ m ∈ measurements, m.benchmarkCase.Valid)
    (hrates : ∀ m ∈ measurements, validRate m.iperf.bitsPerSecond = true)
    (hcount : ∀ m ∈ measurements, 3 ≤ (group measurements m.benchmarkCase).length) :
    ∃ summaries, summarize measurements = .ok summaries := by
  rw [summarize, checkCases_ok hvalid]
  dsimp only
  rw [if_neg hsome]
  refine summarizeCases_ok fun c hc => ?_
  rw [List.mem_mergeSort, List.mem_dedup, List.mem_map] at hc
  obtain ⟨m, hm, rfl⟩ := hc
  exact summarizeCase_ok (hcount m hm) fun run hrun => hrates run (List.mem_of_mem_filter hrun)

end Numbers

end VkTurnBench
