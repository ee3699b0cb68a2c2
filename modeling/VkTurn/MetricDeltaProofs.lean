import VkTurn.GoTimeProofs
import VkTurn.GrowthProofs

/-! # What the counters did during a run

    `DiffMetrics` subtracts two snapshots counter by counter.  It walks through two tables
    of hand-written rows, of `int64` and of `uint64` counters; a row names a field of the
    earlier snapshot, one of the later and one of the delta.  It stops at the first
    counter that has fallen.

    The counters are enumerated here once more, as indices with one reader for snapshots
    and one for deltas.  `intCounters_pairs`, `uintCounters_pairs` and `written_eq` say that
    the rows of the source are those of the enumeration, so no row reads or writes another
    counter's field.  A snapshot is then a vector of integers, and `meter` says that
    `DiffMetrics` measures its growth; that it is exact and additive follows. -/

namespace VkTurnMetricDelta

open GoText Growth

/-! ## Snapshots and deltas -/

/-- `KCPSnapshot`, the counters that `DiffMetrics` reads. -/
structure KCPSnapshot where
  applicationBytesSent : UInt64 := 0
  applicationBytesReceived : UInt64 := 0
  activeOpens : UInt64 := 0
  passiveOpens : UInt64 := 0
  inputErrors : UInt64 := 0
  checksumErrors : UInt64 := 0
  protocolInputErrors : UInt64 := 0
  packetsReceived : UInt64 := 0
  packetsSent : UInt64 := 0
  segmentsReceived : UInt64 := 0
  segmentsSent : UInt64 := 0
  inputBytes : UInt64 := 0
  outputBytes : UInt64 := 0
  retransmittedSegments : UInt64 := 0
  fastRetransmittedSegments : UInt64 := 0
  earlyRetransmittedSegments : UInt64 := 0
  lostSegments : UInt64 := 0
  repeatedSegments : UInt64 := 0
  fecRecoveredPackets : UInt64 := 0
  fecReportedErrors : UInt64 := 0
  fecParityShardsReceived : UInt64 := 0
  fecFullShardSets : UInt64 := 0
  deriving DecidableEq, Repr

/-- `Snapshot`, the counters that `DiffMetrics` reads and the gauges that `validateReady`
    reads. -/
structure Snapshot where
  activePaths : Int64 := 0
  activeSessions : Int64 := 0
  connectionLimitRejections : Int64 := 0
  backendLimitRejections : Int64 := 0
  pathReconnects : Int64 := 0
  sessionReconnects : Int64 := 0
  authFailures : Int64 := 0
  queueDrops : Int64 := 0
  bytesRead : UInt64 := 0
  bytesWritten : UInt64 := 0
  readOperations : UInt64 := 0
  writeOperations : UInt64 := 0
  readErrors : UInt64 := 0
  writeErrors : UInt64 := 0
  writeLatencySamples : UInt64 := 0
  writeLatencyTotalNanoseconds : UInt64 := 0
  kcp : KCPSnapshot := {}
  deriving DecidableEq, Repr

/-- `KCPCounterDelta`. -/
structure KCPCounterDelta where
  applicationBytesSent : UInt64 := 0
  applicationBytesReceived : UInt64 := 0
  activeOpens : UInt64 := 0
  passiveOpens : UInt64 := 0
  inputErrors : UInt64 := 0
  checksumErrors : UInt64 := 0
  protocolInputErrors : UInt64 := 0
  packetsReceived : UInt64 := 0
  packetsSent : UInt64 := 0
  segmentsReceived : UInt64 := 0
  segmentsSent : UInt64 := 0
  inputBytes : UInt64 := 0
  outputBytes : UInt64 := 0
  retransmittedSegments : UInt64 := 0
  fastRetransmittedSegments : UInt64 := 0
  earlyRetransmittedSegments : UInt64 := 0
  lostSegments : UInt64 := 0
  repeatedSegments : UInt64 := 0
  fecRecoveredPackets : UInt64 := 0
  fecReportedErrors : UInt64 := 0
  fecParityShardsReceived : UInt64 := 0
  fecFullShardSets : UInt64 := 0
  deriving DecidableEq, Repr

/-- `MetricDelta`. -/
structure MetricDelta where
  connectionLimitRejections : Int64 := 0
  backendLimitRejections : Int64 := 0
  pathReconnects : Int64 := 0
  sessionReconnects : Int64 := 0
  authFailures : Int64 := 0
  queueDrops : Int64 := 0
  bytesRead : UInt64 := 0
  bytesWritten : UInt64 := 0
  readOperations : UInt64 := 0
  writeOperations : UInt64 := 0
  readErrors : UInt64 := 0
  writeErrors : UInt64 := 0
  writeLatencySamples : UInt64 := 0
  writeLatencyTotalNanoseconds : UInt64 := 0
  kcp : KCPCounterDelta := {}
  deriving DecidableEq, Repr

/-! ## `DiffMetrics` -/

/-- A row of a table; `target` assigns through the row's pointer. -/
structure Counter (N : Type) where
  name : Bytes
  before : N
  after : N
  target : MetricDelta → N → MetricDelta

/-- `intCounters`. -/
def intCounters (before after : Snapshot) : List (Counter Int64) :=
  [ ⟨ascii "connection_limit_rejections", before.connectionLimitRejections,
      after.connectionLimitRejections,
      fun delta n => { delta with connectionLimitRejections := n }⟩,
    ⟨ascii "backend_limit_rejections", before.backendLimitRejections, after.backendLimitRejections,
      fun delta n => { delta with backendLimitRejections := n }⟩,
    ⟨ascii "path_reconnects", before.pathReconnects, after.pathReconnects,
      fun delta n => { delta with pathReconnects := n }⟩,
    ⟨ascii "session_reconnects", before.sessionReconnects, after.sessionReconnects,
      fun delta n => { delta with sessionReconnects := n }⟩,
    ⟨ascii "auth_failures", before.authFailures, after.authFailures,
      fun delta n => { delta with authFailures := n }⟩,
    ⟨ascii "queue_drops", before.queueDrops, after.queueDrops,
      fun delta n => { delta with queueDrops := n }⟩ ]

/-- `uintCounters`. -/
def uintCounters (before after : Snapshot) : List (Counter UInt64) :=
  [ ⟨ascii "bytes_read", before.bytesRead, after.bytesRead,
      fun delta n => { delta with bytesRead := n }⟩,
    ⟨ascii "bytes_written", before.bytesWritten, after.bytesWritten,
      fun delta n => { delta with bytesWritten := n }⟩,
    ⟨ascii "read_operations", before.readOperations, after.readOperations,
      fun delta n => { delta with readOperations := n }⟩,
    ⟨ascii "write_operations", before.writeOperations, after.writeOperations,
      fun delta n => { delta with writeOperations := n }⟩,
    ⟨ascii "read_errors", before.readErrors, after.readErrors,
      fun delta n => { delta with readErrors := n }⟩,
    ⟨ascii "write_errors", before.writeErrors, after.writeErrors,
      fun delta n => { delta with writeErrors := n }⟩,
    ⟨ascii "write_latency_samples", before.writeLatencySamples, after.writeLatencySamples,
      fun delta n => { delta with writeLatencySamples := n }⟩,
    ⟨ascii "write_latency_total_nanoseconds", before.writeLatencyTotalNanoseconds,
      after.writeLatencyTotalNanoseconds,
      fun delta n => { delta with writeLatencyTotalNanoseconds := n }⟩,
    ⟨ascii "kcp.application_bytes_sent", before.kcp.applicationBytesSent,
      after.kcp.applicationBytesSent,
      fun delta n => { delta with kcp.applicationBytesSent := n }⟩,
    ⟨ascii "kcp.application_bytes_received", before.kcp.applicationBytesReceived,
      after.kcp.applicationBytesReceived,
      fun delta n => { delta with kcp.applicationBytesReceived := n }⟩,
    ⟨ascii "kcp.active_opens", before.kcp.activeOpens, after.kcp.activeOpens,
      fun delta n => { delta with kcp.activeOpens := n }⟩,
    ⟨ascii "kcp.passive_opens", before.kcp.passiveOpens, after.kcp.passiveOpens,
      fun delta n => { delta with kcp.passiveOpens := n }⟩,
    ⟨ascii "kcp.input_errors", before.kcp.inputErrors, after.kcp.inputErrors,
      fun delta n => { delta with kcp.inputErrors := n }⟩,
    ⟨ascii "kcp.checksum_errors", before.kcp.checksumErrors, after.kcp.checksumErrors,
      fun delta n => { delta with kcp.checksumErrors := n }⟩,
    ⟨ascii "kcp.protocol_input_errors", before.kcp.protocolInputErrors,
      after.kcp.protocolInputErrors,
      fun delta n => { delta with kcp.protocolInputErrors := n }⟩,
    ⟨ascii "kcp.packets_received", before.kcp.packetsReceived, after.kcp.packetsReceived,
      fun delta n => { delta with kcp.packetsReceived := n }⟩,
    ⟨ascii "kcp.packets_sent", before.kcp.packetsSent, after.kcp.packetsSent,
      fun delta n => { delta with kcp.packetsSent := n }⟩,
    ⟨ascii "kcp.segments_received", before.kcp.segmentsReceived, after.kcp.segmentsReceived,
      fun delta n => { delta with kcp.segmentsReceived := n }⟩,
    ⟨ascii "kcp.segments_sent", before.kcp.segmentsSent, after.kcp.segmentsSent,
      fun delta n => { delta with kcp.segmentsSent := n }⟩,
    ⟨ascii "kcp.input_bytes", before.kcp.inputBytes, after.kcp.inputBytes,
      fun delta n => { delta with kcp.inputBytes := n }⟩,
    ⟨ascii "kcp.output_bytes", before.kcp.outputBytes, after.kcp.outputBytes,
      fun delta n => { delta with kcp.outputBytes := n }⟩,
    ⟨ascii "kcp.retransmitted_segments", before.kcp.retransmittedSegments,
      after.kcp.retransmittedSegments,
      fun delta n => { delta with kcp.retransmittedSegments := n }⟩,
    ⟨ascii "kcp.fast_retransmitted_segments", before.kcp.fastRetransmittedSegments,
      after.kcp.fastRetransmittedSegments,
      fun delta n => { delta with kcp.fastRetransmittedSegments := n }⟩,
    ⟨ascii "kcp.early_retransmitted_segments", before.kcp.earlyRetransmittedSegments,
      after.kcp.earlyRetransmittedSegments,
      fun delta n => { delta with kcp.earlyRetransmittedSegments := n }⟩,
    ⟨ascii "kcp.lost_segments", before.kcp.lostSegments, after.kcp.lostSegments,
      fun delta n => { delta with kcp.lostSegments := n }⟩,
    ⟨ascii "kcp.repeated_segments", before.kcp.repeatedSegments, after.kcp.repeatedSegments,
      fun delta n => { delta with kcp.repeatedSegments := n }⟩,
    ⟨ascii "kcp.fec_recovered_packets", before.kcp.fecRecoveredPackets,
      after.kcp.fecRecoveredPackets,
      fun delta n => { delta with kcp.fecRecoveredPackets := n }⟩,
    ⟨ascii "kcp.fec_reported_errors", before.kcp.fecReportedErrors, after.kcp.fecReportedErrors,
      fun delta n => { delta with kcp.fecReportedErrors := n }⟩,
    ⟨ascii "kcp.fec_parity_shards_received", before.kcp.fecParityShardsReceived,
      after.kcp.fecParityShardsReceived,
      fun delta n => { delta with kcp.fecParityShardsReceived := n }⟩,
    ⟨ascii "kcp.fec_full_shard_sets", before.kcp.fecFullShardSets, after.kcp.fecFullShardSets,
      fun delta n => { delta with kcp.fecFullShardSets := n }⟩ ]

/-- The two results of the function. -/
abbrev Results : Type := MetricDelta × Option Bytes

section Loop
variable {N : Type} [Sub N] (decreased : N → N → Bool) (text : N → Bytes)

/-- The error of a row. -/
def Counter.error (counter : Counter N) : Bytes :=
  ascii "metrics counter " ++ counter.name ++ ascii " decreased from " ++ text counter.before
    ++ ascii " to " ++ text counter.after

/-- The body of a loop: the function returns, or the delta has one more field. -/
def subtract (delta : MetricDelta) (counter : Counter N) : Except Results MetricDelta :=
  if decreased counter.before counter.after then .error ({}, some (counter.error text))
  else .ok (counter.target delta (counter.after - counter.before))

/-- A loop over a table. -/
def subtractAll (counters : List (Counter N)) (delta : MetricDelta) :
    Except Results MetricDelta :=
  counters.foldlM (subtract decreased text) delta

end Loop

/-- `counter.before < 0 || counter.after < counter.before`. -/
def intDecreased (before after : Int64) : Bool := before < 0 || after < before

/-- `counter.after < counter.before`. -/
def uintDecreased (before after : UInt64) : Bool := after < before

/-- `DiffMetrics`. -/
def diffMetrics (before after : Snapshot) : Results :=
  let loops := do
    let delta ← subtractAll intDecreased (fun n => itoa n.toInt) (intCounters before after) {}
    subtractAll uintDecreased (fun n => itoa n.toNat) (uintCounters before after) delta
  match loops with
  | .ok delta => (delta, none)
  | .error results => results

/-! ## The counters as indices -/

/-- The `int64` counters. -/
inductive Signed where
  | connectionLimitRejections
  | backendLimitRejections
  | pathReconnects
  | sessionReconnects
  | authFailures
  | queueDrops
  deriving DecidableEq, Repr

/-- The `uint64` counters. -/
inductive Unsigned where
  | bytesRead
  | bytesWritten
  | readOperations
  | writeOperations
  | readErrors
  | writeErrors
  | writeLatencySamples
  | writeLatencyTotalNanoseconds
  | applicationBytesSent
  | applicationBytesReceived
  | activeOpens
  | passiveOpens
  | inputErrors
  | checksumErrors
  | protocolInputErrors
  | packetsReceived
  | packetsSent
  | segmentsReceived
  | segmentsSent
  | inputBytes
  | outputBytes
  | retransmittedSegments
  | fastRetransmittedSegments
  | earlyRetransmittedSegments
  | lostSegments
  | repeatedSegments
  | fecRecoveredPackets
  | fecReportedErrors
  | fecParityShardsReceived
  | fecFullShardSets
  deriving DecidableEq, Repr

def Signed.all : List Signed :=
  [.connectionLimitRejections, .backendLimitRejections, .pathReconnects, .sessionReconnects,
   .authFailures, .queueDrops]

def Unsigned.all : List Unsigned :=
  [.bytesRead, .bytesWritten, .readOperations, .writeOperations, .readErrors, .writeErrors,
   .writeLatencySamples, .writeLatencyTotalNanoseconds, .applicationBytesSent,
   .applicationBytesReceived, .activeOpens, .passiveOpens, .inputErrors, .checksumErrors,
   .protocolInputErrors, .packetsReceived, .packetsSent, .segmentsReceived, .segmentsSent,
   .inputBytes, .outputBytes, .retransmittedSegments, .fastRetransmittedSegments,
   .earlyRetransmittedSegments, .lostSegments, .repeatedSegments, .fecRecoveredPackets,
   .fecReportedErrors, .fecParityShardsReceived, .fecFullShardSets]

theorem Signed.mem_all (f : Signed) : f ∈ Signed.all := by
  cases f <;> decide

theorem Unsigned.mem_all (f : Unsigned) : f ∈ Unsigned.all := by
  cases f <;> decide

/-- The field of a snapshot with this name. -/
def Snapshot.signed (s : Snapshot) : Signed → Int64
  | .connectionLimitRejections => s.connectionLimitRejections
  | .backendLimitRejections => s.backendLimitRejections
  | .pathReconnects => s.pathReconnects
  | .sessionReconnects => s.sessionReconnects
  | .authFailures => s.authFailures
  | .queueDrops => s.queueDrops

/-- The field of a snapshot with this name. -/
def Snapshot.unsigned (s : Snapshot) : Unsigned → UInt64
  | .bytesRead => s.bytesRead
  | .bytesWritten => s.bytesWritten
  | .readOperations => s.readOperations
  | .writeOperations => s.writeOperations
  | .readErrors => s.readErrors
  | .writeErrors => s.writeErrors
  | .writeLatencySamples => s.writeLatencySamples
  | .writeLatencyTotalNanoseconds => s.writeLatencyTotalNanoseconds
  | .applicationBytesSent => s.kcp.applicationBytesSent
  | .applicationBytesReceived => s.kcp.applicationBytesReceived
  | .activeOpens => s.kcp.activeOpens
  | .passiveOpens => s.kcp.passiveOpens
  | .inputErrors => s.kcp.inputErrors
  | .checksumErrors => s.kcp.checksumErrors
  | .protocolInputErrors => s.kcp.protocolInputErrors
  | .packetsReceived => s.kcp.packetsReceived
  | .packetsSent => s.kcp.packetsSent
  | .segmentsReceived => s.kcp.segmentsReceived
  | .segmentsSent => s.kcp.segmentsSent
  | .inputBytes => s.kcp.inputBytes
  | .outputBytes => s.kcp.outputBytes
  | .retransmittedSegments => s.kcp.retransmittedSegments
  | .fastRetransmittedSegments => s.kcp.fastRetransmittedSegments
  | .earlyRetransmittedSegments => s.kcp.earlyRetransmittedSegments
  | .lostSegments => s.kcp.lostSegments
  | .repeatedSegments => s.kcp.repeatedSegments
  | .fecRecoveredPackets => s.kcp.fecRecoveredPackets
  | .fecReportedErrors => s.kcp.fecReportedErrors
  | .fecParityShardsReceived => s.kcp.fecParityShardsReceived
  | .fecFullShardSets => s.kcp.fecFullShardSets

/-- The field of a delta with this name. -/
def MetricDelta.signed (d : MetricDelta) : Signed → Int64
  | .connectionLimitRejections => d.connectionLimitRejections
  | .backendLimitRejections => d.backendLimitRejections
  | .pathReconnects => d.pathReconnects
  | .sessionReconnects => d.sessionReconnects
  | .authFailures => d.authFailures
  | .queueDrops => d.queueDrops

/-- The field of a delta with this name. -/
def MetricDelta.unsigned (d : MetricDelta) : Unsigned → UInt64
  | .bytesRead => d.bytesRead
  | .bytesWritten => d.bytesWritten
  | .readOperations => d.readOperations
  | .writeOperations => d.writeOperations
  | .readErrors => d.readErrors
  | .writeErrors => d.writeErrors
  | .writeLatencySamples => d.writeLatencySamples
  | .writeLatencyTotalNanoseconds => d.writeLatencyTotalNanoseconds
  | .applicationBytesSent => d.kcp.applicationBytesSent
  | .applicationBytesReceived => d.kcp.applicationBytesReceived
  | .activeOpens => d.kcp.activeOpens
  | .passiveOpens => d.kcp.passiveOpens
  | .inputErrors => d.kcp.inputErrors
  | .checksumErrors => d.kcp.checksumErrors
  | .protocolInputErrors => d.kcp.protocolInputErrors
  | .packetsReceived => d.kcp.packetsReceived
  | .packetsSent => d.kcp.packetsSent
  | .segmentsReceived => d.kcp.segmentsReceived
  | .segmentsSent => d.kcp.segmentsSent
  | .inputBytes => d.kcp.inputBytes
  | .outputBytes => d.kcp.outputBytes
  | .retransmittedSegments => d.kcp.retransmittedSegments
  | .fastRetransmittedSegments => d.kcp.fastRetransmittedSegments
  | .earlyRetransmittedSegments => d.kcp.earlyRetransmittedSegments
  | .lostSegments => d.kcp.lostSegments
  | .repeatedSegments => d.kcp.repeatedSegments
  | .fecRecoveredPackets => d.kcp.fecRecoveredPackets
  | .fecReportedErrors => d.kcp.fecReportedErrors
  | .fecParityShardsReceived => d.kcp.fecParityShardsReceived
  | .fecFullShardSets => d.kcp.fecFullShardSets

/-- The delta with these fields. -/
def MetricDelta.ofFields (signed : Signed → Int64) (unsigned : Unsigned → UInt64) :
    MetricDelta where
  connectionLimitRejections := signed .connectionLimitRejections
  backendLimitRejections := signed .backendLimitRejections
  pathReconnects := signed .pathReconnects
  sessionReconnects := signed .sessionReconnects
  authFailures := signed .authFailures
  queueDrops := signed .queueDrops
  bytesRead := unsigned .bytesRead
  bytesWritten := unsigned .bytesWritten
  readOperations := unsigned .readOperations
  writeOperations := unsigned .writeOperations
  readErrors := unsigned .readErrors
  writeErrors := unsigned .writeErrors
  writeLatencySamples := unsigned .writeLatencySamples
  writeLatencyTotalNanoseconds := unsigned .writeLatencyTotalNanoseconds
  kcp :=
    { applicationBytesSent := unsigned .applicationBytesSent
      applicationBytesReceived := unsigned .applicationBytesReceived
      activeOpens := unsigned .activeOpens
      passiveOpens := unsigned .passiveOpens
      inputErrors := unsigned .inputErrors
      checksumErrors := unsigned .checksumErrors
      protocolInputErrors := unsigned .protocolInputErrors
      packetsReceived := unsigned .packetsReceived
      packetsSent := unsigned .packetsSent
      segmentsReceived := unsigned .segmentsReceived
      segmentsSent := unsigned .segmentsSent
      inputBytes := unsigned .inputBytes
      outputBytes := unsigned .outputBytes
      retransmittedSegments := unsigned .retransmittedSegments
      fastRetransmittedSegments := unsigned .fastRetransmittedSegments
      earlyRetransmittedSegments := unsigned .earlyRetransmittedSegments
      lostSegments := unsigned .lostSegments
      repeatedSegments := unsigned .repeatedSegments
      fecRecoveredPackets := unsigned .fecRecoveredPackets
      fecReportedErrors := unsigned .fecReportedErrors
      fecParityShardsReceived := unsigned .fecParityShardsReceived
      fecFullShardSets := unsigned .fecFullShardSets }

@[simp] theorem signed_ofFields (x : Signed → Int64) (y : Unsigned → UInt64) (f : Signed) :
    (MetricDelta.ofFields x y).signed f = x f := by
  cases f <;> rfl

@[simp] theorem unsigned_ofFields (x : Signed → Int64) (y : Unsigned → UInt64) (f : Unsigned) :
    (MetricDelta.ofFields x y).unsigned f = y f := by
  cases f <;> rfl

/-- A delta has no other fields. -/
theorem ofFields_eta (d : MetricDelta) : MetricDelta.ofFields d.signed d.unsigned = d := rfl

theorem delta_ext {d e : MetricDelta} (hs : ∀ f, d.signed f = e.signed f)
    (hu : ∀ f, d.unsigned f = e.unsigned f) : d = e := by
  rw [← ofFields_eta d, ← ofFields_eta e, funext hs, funext hu]

/-- Every field of the difference, as the machine subtracts. -/
def difference (before after : Snapshot) : MetricDelta :=
  .ofFields (fun f => after.signed f - before.signed f)
    fun f => after.unsigned f - before.unsigned f

/-- The rows of the first table compare each counter with itself. -/
theorem intCounters_pairs (before after : Snapshot) :
    (intCounters before after).map (fun c => (c.before, c.after)) =
      Signed.all.map fun f => (before.signed f, after.signed f) := rfl

/-- The rows of the second table compare each counter with itself. -/
theorem uintCounters_pairs (before after : Snapshot) :
    (uintCounters before after).map (fun c => (c.before, c.after)) =
      Unsigned.all.map fun f => (before.unsigned f, after.unsigned f) := rfl

/-- What a table writes, where it is not left early. -/
def written {N : Type} [Sub N] (counters : List (Counter N)) (delta : MetricDelta) : MetricDelta :=
  counters.foldl (fun delta c => c.target delta (c.after - c.before)) delta

/-- Each row writes the difference of its counter to the field of that counter. -/
theorem written_eq (before after : Snapshot) :
    written (uintCounters before after) (written (intCounters before after) {}) =
      difference before after := rfl

/-! ## What the function returns -/

section Loop
variable {N : Type} [Sub N] {decreased : N → N → Bool} {text : N → Bytes}

/-- **A LOOP**: it leaves the function with the error of the first counter that has fallen,
    and otherwise writes every row. -/
theorem subtractAll_eq (counters : List (Counter N)) (delta : MetricDelta) :
    subtractAll decreased text counters delta =
      (counters.find? fun c => decreased c.before c.after).elim (.ok (written counters delta))
        fun c => .error ({}, some (c.error text)) := by
  -- over the rows, the delta so far general
  induction counters generalizing delta with
  | nil => rfl
  | cons c counters ih =>
    rw [subtractAll, List.foldlM_cons, subtract, List.find?_cons]
    cases decreased c.before c.after with
    | true => rfl
    | false => exact ih _

omit [Sub N] in
/-- A condition on the rows is one on the counters, where the rows pair each counter with
    itself. -/
theorem forall_rows {ι : Type} {counters : List (Counter N)} {all : List ι} {x y : ι → N}
    (hall : ∀ f, f ∈ all)
    (hpairs : counters.map (fun c => (c.before, c.after)) = all.map fun f => (x f, y f))
    (P : N → N → Prop) : (∀ c ∈ counters, P c.before c.after) ↔ ∀ f, P (x f) (y f) := by
  have hmap : (∀ p ∈ counters.map fun c => (c.before, c.after), P p.1 p.2) ↔
      ∀ p ∈ all.map fun f => (x f, y f), P p.1 p.2 := by
    rw [hpairs]
  rw [List.forall_mem_map, List.forall_mem_map] at hmap
  rw [hmap]
  exact ⟨fun h f => h f (hall f), fun h f _ => h f⟩

end Loop

/-- The error of the first counter that has fallen, in the order of the tables. -/
def firstDecrease (before after : Snapshot) : Option Bytes :=
  (((intCounters before after).find? fun c => intDecreased c.before c.after).map
      (Counter.error fun n => itoa n.toInt)).or
    (((uintCounters before after).find? fun c => uintDecreased c.before c.after).map
      (Counter.error fun n => itoa n.toNat))

/-- **RESULTS**: the whole difference, or nothing of it and the first error. -/
theorem diffMetrics_eq (before after : Snapshot) :
    diffMetrics before after =
      (firstDecrease before after).elim (difference before after, none)
        fun text => ({}, some text) := by
  unfold diffMetrics firstDecrease
  simp only [subtractAll_eq]
  cases (intCounters before after).find? fun c => intDecreased c.before c.after with
  | some c => rfl
  | none =>
    cases (uintCounters before after).find? fun c => uintDecreased c.before c.after with
    | some c => rfl
    | none => exact congrArg (fun d => (d, none)) (written_eq before after)

/-- No counter has fallen, and the signed ones were not below zero. -/
structure Rises (before after : Snapshot) : Prop where
  signed : ∀ f, 0 ≤ before.signed f ∧ before.signed f ≤ after.signed f
  unsigned : ∀ f, before.unsigned f ≤ after.unsigned f

theorem firstDecrease_eq_none {before after : Snapshot} :
    firstDecrease before after = none ↔ Rises before after := by
  have hint : (∀ c ∈ intCounters before after, ¬ intDecreased c.before c.after = true) ↔
      ∀ f, 0 ≤ before.signed f ∧ before.signed f ≤ after.signed f := by
    rw [forall_rows Signed.mem_all (intCounters_pairs before after)
      fun x y => ¬ intDecreased x y = true]
    simp [intDecreased, Int64.not_lt]
  have huint : (∀ c ∈ uintCounters before after, ¬ uintDecreased c.before c.after = true) ↔
      ∀ f, before.unsigned f ≤ after.unsigned f := by
    rw [forall_rows Unsigned.mem_all (uintCounters_pairs before after)
      fun x y => ¬ uintDecreased x y = true]
    simp [uintDecreased]
  rw [firstDecrease, Option.or_eq_none_iff, Option.map_eq_none_iff, Option.map_eq_none_iff,
    List.find?_eq_none, List.find?_eq_none, hint, huint]
  exact ⟨fun h => ⟨h.1, h.2⟩, fun h => ⟨h.signed, h.unsigned⟩⟩

/-! ## Growth -/

/-- An index of a counter. -/
abbrev Index : Type := Signed ⊕ Unsigned

/-- The counters as integers. -/
def Snapshot.reading (s : Snapshot) : Index → Int :=
  Sum.elim (fun f => (s.signed f).toInt) fun f => (s.unsigned f).toNat

/-- The fields as integers. -/
def MetricDelta.amount (d : MetricDelta) : Index → Int :=
  Sum.elim (fun f => (d.signed f).toInt) fun f => (d.unsigned f).toNat

theorem rises_iff_grown {before after : Snapshot} :
    Rises before after ↔ Grown before.reading after.reading := by
  constructor
  · intro h
    constructor
    · rintro (f | f)
      · exact Int64.le_iff_toInt_le.mp (h.signed f).1
      · exact Int.natCast_nonneg _
    · rintro (f | f)
      · exact Int64.le_iff_toInt_le.mp (h.signed f).2
      · exact Int.ofNat_le.mpr (UInt64.le_iff_toNat_le.mp (h.unsigned f))
  · rintro ⟨h0, hle⟩
    constructor
    · intro f
      exact ⟨Int64.le_iff_toInt_le.mpr (h0 (.inl f)), Int64.le_iff_toInt_le.mpr (hle (.inl f))⟩
    · intro f
      exact UInt64.le_iff_toNat_le.mpr (Int.ofNat_le.mp (hle (.inr f)))

/-- A difference of two counters is below the later one. -/
theorem toInt_sub_of_le {x y : Int64} (h0 : 0 ≤ x) (h : x ≤ y) :
    (y - x).toInt = y.toInt - x.toInt := by
  have hx : 0 ≤ x.toInt := Int64.le_iff_toInt_le.mp h0
  have hxy : x.toInt ≤ y.toInt := Int64.le_iff_toInt_le.mp h
  have hy : y.toInt < 2 ^ 63 := y.toInt_lt
  rw [Int64.toInt_sub]
  exact GoTime.bmod_of_fits ⟨by omega, by omega⟩

/-- **EXACT**: where no counter has fallen, no subtraction overflows. -/
theorem amount_difference {before after : Snapshot} (h : Rises before after) :
    (difference before after).amount = after.reading - before.reading := by
  funext f
  rcases f with f | f
  · show ((difference before after).signed f).toInt = _
    rw [difference, signed_ofFields]
    exact toInt_sub_of_le (h.signed f).1 (h.signed f).2
  · show (((difference before after).unsigned f).toNat : Int) = _
    rw [difference, unsigned_ofFields, UInt64.toNat_sub_of_le _ _ (h.unsigned f)]
    exact Int.ofNat_sub (UInt64.le_iff_toNat_le.mp (h.unsigned f))

/-- `DiffMetrics` measures the growth of the counters. -/
def meter : Meter Snapshot MetricDelta Bytes (Index → Int) where
  diff := diffMetrics
  zero := {}
  reading := Snapshot.reading
  amount := MetricDelta.amount
  grows := by
    intro a b g hg
    obtain ⟨hgrown, rfl⟩ := growth_eq_some.mp hg
    have hrises := rises_iff_grown.mpr hgrown
    rw [diffMetrics_eq, firstDecrease_eq_none.mpr hrises]
    exact ⟨rfl, amount_difference hrises⟩
  fails := by
    intro a b hnone
    have hfell : firstDecrease a b ≠ none := by
      rw [Ne, firstDecrease_eq_none, rises_iff_grown]
      exact growth_eq_none.mp hnone
    obtain ⟨text, htext⟩ := Option.ne_none_iff_exists'.mp hfell
    rw [diffMetrics_eq, htext]
    exact ⟨Option.some_ne_none text, rfl⟩

/-- The fields of two deltas added, as the machine adds. -/
def MetricDelta.add (d e : MetricDelta) : MetricDelta :=
  .ofFields (fun f => d.signed f + e.signed f) fun f => d.unsigned f + e.unsigned f

/-- Where the sums fit, the machine's are the sums of the integers. -/
theorem eq_add_of_amount {d e s : MetricDelta} (h : s.amount = d.amount + e.amount) :
    s = d.add e := by
  refine delta_ext ?_ ?_
  · intro f
    have hf : (s.signed f).toInt = (d.signed f).toInt + (e.signed f).toInt :=
      congrFun h (.inl f)
    rw [MetricDelta.add, signed_ofFields, ← Int64.toInt_inj, Int64.toInt_add, ← hf]
    exact (Int64.toInt_bmod _).symm
  · intro f
    have hf : ((s.unsigned f).toNat : Int) = (d.unsigned f).toNat + (e.unsigned f).toNat :=
      congrFun h (.inr f)
    have hlt := (s.unsigned f).toNat_lt
    rw [MetricDelta.add, unsigned_ofFields, ← UInt64.toNat_inj, UInt64.toNat_add]
    omega

/-- **EXACT AND ADDITIVE**: `DiffMetrics` succeeds just where no counter has fallen and no
    signed one was below zero; each field of its delta is then the difference, over
    integers, of the counter of that name, and after a failure the delta is zero.  Where it
    succeeds from `a` to `b` and from `b` to `c` it does from `a` to `c`, with the sum of
    the two deltas, field by field and without overflow. -/
theorem diffMetrics_exact_additive (a b c : Snapshot) :
    ((diffMetrics a b).2 = none ↔
      (∀ f : Signed, 0 ≤ a.signed f ∧ a.signed f ≤ b.signed f) ∧
        ∀ f : Unsigned, a.unsigned f ≤ b.unsigned f) ∧
    ((diffMetrics a b).2 = none →
      (∀ f : Signed, ((diffMetrics a b).1.signed f).toInt =
        (b.signed f).toInt - (a.signed f).toInt) ∧
      ∀ f : Unsigned, (((diffMetrics a b).1.unsigned f).toNat : Int) =
        (b.unsigned f).toNat - (a.unsigned f).toNat) ∧
    ((diffMetrics a b).2 ≠ none → (diffMetrics a b).1 = {}) ∧
    ((diffMetrics a b).2 = none → (diffMetrics b c).2 = none →
      diffMetrics a c = ((diffMetrics a b).1.add (diffMetrics b c).1, none) ∧
      (∀ f : Signed, ((diffMetrics a c).1.signed f).toInt =
        ((diffMetrics a b).1.signed f).toInt + ((diffMetrics b c).1.signed f).toInt) ∧
      ∀ f : Unsigned, ((diffMetrics a c).1.unsigned f).toNat =
        ((diffMetrics a b).1.unsigned f).toNat + ((diffMetrics b c).1.unsigned f).toNat) := by
  refine ⟨?_, ?_, ?_, ?_⟩
  · have hiff : (diffMetrics a b).2 = none ↔ Rises a b :=
      meter.succeeds_iff.trans rises_iff_grown.symm
    rw [hiff]
    exact ⟨fun h => ⟨h.signed, h.unsigned⟩, fun h => ⟨h.1, h.2⟩⟩
  · intro hab
    have hamount : (diffMetrics a b).1.amount = b.reading - a.reading := meter.amount_diff hab
    exact ⟨fun f => congrFun hamount (.inl f), fun f => congrFun hamount (.inr f)⟩
  · intro hab
    exact meter.diff_of_not_succeeds hab
  · intro hab hbc
    obtain ⟨hac, hadd⟩ := meter.additive hab hbc
    refine ⟨Prod.ext (eq_add_of_amount hadd) hac, fun f => congrFun hadd (.inl f), fun f => ?_⟩
    exact Int.ofNat_inj.mp (congrFun hadd (.inr f))

/-- A counter that was reset. -/
example : diffMetrics { queueDrops := 3, bytesRead := 10 } { queueDrops := 4, bytesRead := 9 } =
    ({}, some (ascii "metrics counter bytes_read decreased from 10 to 9")) := by decide +kernel

end VkTurnMetricDelta
