import Autoscaler.Analysis.DecisionReplay
import Autoscaler.Analysis.WriteChain
import Autoscaler.Controller.ReplayReport
import Mathlib.Data.List.ReduceOption

/-! `decision_replay.py`: from the rows of the controller's log to a recording for the replay, and
the timeline that its results are joined to. Times and decimals are read exactly. -/
namespace Autoscaler.Analysis

open Controller (RecordedConfig RecordedCycle ReplayCycleResult ReplayExpected ReplayInput
  ReplayModeResult ReplaySample)
open MetricsProvider (QueryLog)

/-! The recorded policy. -/

inductive DurationUnit where
  | milliseconds
  | seconds
  | minutes
  | hours
  deriving DecidableEq, Repr

namespace DurationUnit

def text : DurationUnit → List Char
  | milliseconds => ['m', 's']
  | seconds => ['s']
  | minutes => ['m']
  | hours => ['h']

def inSeconds : DurationUnit → ℚ
  | milliseconds => 1 / 1000
  | seconds => 1
  | minutes => 60
  | hours => 3600

/-- The alternatives of the pattern, in its order. -/
def all : List DurationUnit := [milliseconds, seconds, minutes, hours]

end DurationUnit

structure DurationPart where
  whole : List Char
  fraction : List Char
  unit : DurationUnit
  deriving DecidableEq, Repr

namespace DurationPart

def text (part : DurationPart) : List Char :=
  part.whole ++ (if part.fraction = [] then [] else '.' :: part.fraction) ++ part.unit.text

def digits (cs : List Char) : ℕ := cs.foldl (fun n c => 10 * n + (c.toNat - '0'.toNat)) 0

def inSeconds (part : DurationPart) : ℚ :=
  ((digits part.whole : ℚ) + digits part.fraction / 10 ^ part.fraction.length) * part.unit.inSeconds

end DurationPart

/-- A match at the start of the text, with what follows it. No digit may be given back: neither a
dot nor a unit would match it. -/
def matchDurationPart (cs : List Char) : Option (DurationPart × List Char) :=
  let whole := cs.takeWhile Char.isDigit
  let (fraction, rest) := match cs.dropWhile Char.isDigit with
    | '.' :: rest =>
      if rest.takeWhile Char.isDigit = [] then ([], '.' :: rest)
      else (rest.takeWhile Char.isDigit, rest.dropWhile Char.isDigit)
    | rest => ([], rest)
  if whole = [] then none
  else (DurationUnit.all.find? fun unit => unit.text.isPrefixOf rest).map fun unit =>
    (⟨whole, fraction, unit⟩, rest.drop unit.text.length)

/-- `re.findall`, with as much fuel as there are characters. -/
def durationParts : ℕ → List Char → List DurationPart
  | 0, _ => []
  | _ + 1, [] => []
  | n + 1, c :: cs =>
    match matchDurationPart (c :: cs) with
    | some (part, rest) => part :: durationParts n rest
    | none => durationParts n cs

def duration (value : String) : Except String ℤ :=
  let parts := durationParts value.toList.length value.toList
  let seconds := (parts.map DurationPart.inSeconds).sum
  if parts = [] ∨ (parts.map DurationPart.text).flatten ≠ value.toList then
    .error ("Unsupported recorded duration: " ++ value)
  else if seconds ≠ ⌊seconds⌋ then
    .error "Replay accepts recorded whole-second configuration durations"
  else .ok ⌊seconds⌋

structure PolicyRecord where
  key : NamespacedName
  minReplicas : Option ℤ
  maxReplicas : ℤ
  targetCPUUtilizationPercentage : ℤ
  alphaPercent : ℤ
  window : String
  horizon : String
  scaleDownStabilizationWindowSeconds : Option ℤ
  deriving DecidableEq, Repr

def configuration (phpa : PolicyRecord) : Except String RecordedConfig := do
  let window ← duration phpa.window
  let horizon ← duration phpa.horizon
  return ⟨⟨some (phpa.minReplicas.getD 1), phpa.maxReplicas, phpa.targetCPUUtilizationPercentage,
    some (phpa.scaleDownStabilizationWindowSeconds.getD 60)⟩, phpa.alphaPercent, window, horizon⟩

/-! The rows of a cycle. -/

structure LoggedQuery extends QueryLog where
  phpa : NamespacedName
  cpuRateWindowSeconds : ℚ
  observationStartedAt : ℤ
  observationFinishedAt : ℤ
  queryStartedAt : Option ℤ
  queryFinishedAt : Option ℤ
  queryInstantAt : Option ℤ
  sourceTimestamp : Option ℤ
  deriving DecidableEq, Repr

structure LoggedDecision where
  phpa : NamespacedName
  decisionAt : ℤ
  stabilizationEvaluatedAt : ℤ
  stabilizationHistoryEntries : ℕ
  stabilizationHistoryOldestAt : Option ℤ
  coldStartProtection : Bool
  coldStartProtectedUntil : ℤ
  decisionMode : DecisionMode
  decisionCPU : ℚ
  rawPredictedCPU : ℚ
  currentCPU : ℚ
  predictedCPU : ℚ
  currentReplicas : ℤ
  desiredReplicas : ℤ
  finalDesired : ℤ
  stabilized : Bool
  skipReason : String
  samples : ℕ
  latestEvaluationAt : ℤ
  deriving DecidableEq, Repr

structure LoggedScale extends ScaleEvent ℤ where
  phpa : NamespacedName
  deriving DecidableEq, Repr

structure LoggedFinish where
  phpa : NamespacedName
  reconcileFinishedAt : ℤ
  reconcileError : String
  deriving DecidableEq, Repr

structure CycleRows where
  reconcileID : String
  reconcileStartedAt : ℤ
  query : Option LoggedQuery
  decision : Option LoggedDecision
  scale : Option LoggedScale
  finish : Option LoggedFinish
  deriving DecidableEq, Repr

def LoggedDecision.log (decision : LoggedDecision) : DecisionLog :=
  ⟨.finite decision.currentCPU, decision.samples⟩

def CycleRows.toScaleCycle (cycle : CycleRows) : ScaleCycle ℤ where
  decision := cycle.decision.map fun d => ⟨d.skipReason, d.finalDesired, d.currentReplicas⟩
  scale := cycle.scale.map LoggedScale.toScaleEvent

/-! `validate_cycles`. -/

/-- `if bad: raise ValueError(message)`. -/
def reject (bad : Prop) [Decidable bad] (message : String) : Except String Unit :=
  if bad then .error message else .ok ()

def orderedTimes (times : List ℤ) : Bool := (times.zip times.tail).all fun p => decide (p.1 ≤ p.2)

def timesMessage : String := "Recorded event times are out of order"

structure RecordedPlan where
  controllerStartedAt : ℤ
  decisionMode : DecisionMode
  deriving DecidableEq, Repr

def validateSource (query : LoggedQuery) : Except String Unit :=
  match query.sourceTimestamp, query.latestEvaluationAt, query.queryInstantAt,
    query.queryStartedAt, query.queryFinishedAt with
  | some source, some evaluation, some instant, some started, some finished => do
    -- the provider truncates its evaluation time to milliseconds
    let earliest := ⌊Time.unixSeconds query.observationStartedAt * 1000⌋ / (1000 : ℚ)
    reject (Time.unixSeconds source ≤ 0 ∨ evaluation < source ∨ evaluation ≠ instant ∨
        Time.unixSeconds evaluation < earliest ∨ started < evaluation)
      "Successful observation has inconsistent or future source/evaluation time"
    reject (45 < Time.unixSeconds finished - Time.unixSeconds source)
      "Successful observation reports stale source time"
  | _, _, _, _, _ => .error "Successful observation is missing source/evaluation/query time"

def validateFirst (phpa : PolicyRecord) (decision : LoggedDecision) : Except String Unit :=
  match decision.stabilizationHistoryOldestAt with
  | none => .error "Invalid timestamp: None"
  | some oldest =>
    let window := phpa.scaleDownStabilizationWindowSeconds.getD 60
    reject (decision.stabilizationHistoryEntries ≠ 1 ∨
        oldest ≠ decision.stabilizationEvaluatedAt ∨
        1 / 1000000 < |Time.unixSeconds decision.coldStartProtectedUntil -
          Time.unixSeconds decision.stabilizationEvaluatedAt - window|)
      "First decision lacks a complete policy-history prefix"

def validateDecision (plan : RecordedPlan) (phpa : PolicyRecord) (first : Bool)
    (query : LoggedQuery) (decision : LoggedDecision) (scale : Option LoggedScale) (finished : ℤ) :
    Except String Unit := do
  reject (decision.decisionMode ≠ plan.decisionMode ∨
      some decision.latestEvaluationAt ≠ query.latestEvaluationAt)
    "Decision mode or observation time disagrees with query"
  reject (orderedTimes [query.observationFinishedAt, decision.stabilizationEvaluatedAt,
    decision.decisionAt, finished] = false) timesMessage
  reject (∃ write ∈ scale, orderedTimes [decision.decisionAt, write.scaleWriteStartedAt,
    write.scaleWriteFinishedAt, finished] = false) timesMessage
  if first then validateFirst phpa decision else .ok ()
  reject (decision.skipReason = "" ∧ scale.isNone)
    "Decision lacks either a skip reason or a successful write"

def validateCycle (plan : RecordedPlan) (phpa : PolicyRecord) (previous : ℤ) (first : Bool)
    (cycle : CycleRows) (query : LoggedQuery) (finish : LoggedFinish) : Except String Unit := do
  reject (cycle.reconcileStartedAt < previous)
    "Overlapping reconciliations or a missing process boundary"
  reject (finish.reconcileFinishedAt < cycle.reconcileStartedAt)
    "Reconciliation finish precedes its start"
  reject (query.phpa ≠ phpa.key ∨ (∃ decision ∈ cycle.decision, decision.phpa ≠ phpa.key) ∨
      finish.phpa ≠ phpa.key ∨ ∃ scale ∈ cycle.scale, scale.phpa ≠ phpa.key)
    "Controller log identity disagrees with PHPA"
  reject (query.cpuRateWindowSeconds ≠ 60 ∨ query.observationSpacingSeconds ≠ 15)
    "Unsupported recorded sampling configuration"
  reject (orderedTimes [cycle.reconcileStartedAt, query.observationStartedAt,
    query.observationFinishedAt, finish.reconcileFinishedAt] = false) timesMessage
  reject (query.queryStartedAt.isSome ≠ query.queryFinishedAt.isSome)
    "Query time boundary is missing"
  reject (∃ started ∈ query.queryStartedAt, ∃ finished ∈ query.queryFinishedAt,
    orderedTimes [query.observationStartedAt, started, finished, query.observationFinishedAt] =
      false) timesMessage
  if query.queryError ≠ "" then
    reject (cycle.decision.isSome ∨ cycle.scale.isSome)
      "Rejected observation unexpectedly has a decision or write"
  else do
    validateSource query
    match cycle.decision with
    | none =>
      reject (query.samples ≠ 1)
        "Missing decision after a successful multi-sample observation"
    | some decision =>
      validateDecision plan phpa first query decision cycle.scale finish.reconcileFinishedAt

def incompleteMessage : String :=
  "Incomplete or failed reconciliation; complete decision history cannot be established"

def validateCycles.loop (plan : RecordedPlan) (phpa : PolicyRecord) :
    ℤ → Bool → List CycleRows → Except String Unit
  | _, _, [] => .ok ()
  | previous, first, cycle :: rest =>
    match cycle.query, cycle.finish with
    | some query, some finish => do
      reject (finish.reconcileError ≠ "") incompleteMessage
      validateCycle plan phpa previous first cycle query finish
      loop plan phpa finish.reconcileFinishedAt (first && cycle.decision.isNone) rest
    | _, _ => .error incompleteMessage

/-- `starts` counts the lines of the log that start a manager. -/
def validateCycles (plan : RecordedPlan) (phpa : PolicyRecord) (starts : ℕ)
    (cycles : List CycleRows) : Except String Unit := do
  reject (cycles = [] ∨ starts ≠ 1) "Missing startup prefix or multiple controller processes"
  validateCycles.loop plan phpa plan.controllerStartedAt true cycles

/-! `prepare`, on the cycles of the log. -/

/-- What `explanation` names as the reason of a cycle. -/
inductive CycleReason where
  | metricsRejectedBeforeQuery
  | metricsRejectedAfterQuery
  | insufficientHistory
  | unknownNoDecision
  | scaleWritten
  | withinTolerance
  | scaleDownStabilized
  | currentInputAtOrBelowTarget
  | lowerForecastDidNotExpand
  | noReplicaChange
  | decisionWithoutSuccessfulWrite
  deriving DecidableEq, Repr

def explanation (cycle : CycleRows) (requested target : ℤ) : CycleReason :=
  if cycle.query.any fun query => query.queryError ≠ "" then
    if cycle.query.any fun query => query.queryStartedAt.isSome then .metricsRejectedAfterQuery
    else .metricsRejectedBeforeQuery
  else
    match cycle.decision with
    | none =>
      if cycle.query.any fun query => query.samples = 1 then .insufficientHistory
      else .unknownNoDecision
    | some decision =>
      if cycle.scale.isSome then .scaleWritten
      else if decision.skipReason = "WithinToleranceBand" then .withinTolerance
      else if decision.stabilized then .scaleDownStabilized
      else if decision.currentCPU ≤ target then .currentInputAtOrBelowTarget
      else if decision.decisionCPU < decision.currentCPU ∧ decision.finalDesired ≤ requested then
        .lowerForecastDidNotExpand
      else if decision.skipReason ≠ "" then .noReplicaChange
      else .decisionWithoutSuccessfulWrite

/-- A record of the timeline; its times are seconds since the onset of the load. -/
structure TimelineRecord where
  reconcileID : String
  reconcileStartedSeconds : ℚ
  queryError : Option String
  samples : Option ℕ
  reason : CycleReason
  requestedReplicas : ℤ
  replayIndex : Option ℕ
  unobservedSincePreviousFinishSeconds : Option ℚ
  queryStartedSeconds : Option ℚ
  queryFinishedSeconds : Option ℚ
  sourceSampleSeconds : Option ℚ
  evaluationSeconds : Option ℚ
  observationFinishedSeconds : Option ℚ
  sourceAgeAtObservationSeconds : Option ℚ
  decisionSeconds : Option ℚ
  predictionSource : Option String
  currentCPU : Option ℚ
  recordedForecast : Option ℚ
  scaleWriteFinishedSeconds : Option ℚ
  deriving DecidableEq, Repr

def replaySamples (series : List SeriesPoint) : List (ReplaySample ℚ) :=
  series.map fun point => ⟨point.timestamp, point.value.map Float64.exact⟩

/-- A history without unknown values, from which the replay can compute the forecast. -/
def completeSeries (series : List SeriesPoint) : Bool :=
  !series.isEmpty && series.all fun point => point.value.isSome

def LoggedDecision.expected (decision : LoggedDecision) : ReplayExpected ℚ where
  decisionCPU := some decision.decisionCPU
  boundedPrediction := some decision.predictedCPU
  desiredReplicas := some decision.desiredReplicas
  finalDesired := some decision.finalDesired
  skipReason := some decision.skipReason
  stabilized := some decision.stabilized
  rawPrediction := some decision.rawPredictedCPU
  coldStartProtection := some decision.coldStartProtection
  protectedUntil := some decision.coldStartProtectedUntil
  historyEntries := some decision.stabilizationHistoryEntries
  historyOldestAt := decision.stabilizationHistoryOldestAt

/-- The item of the recording for a decision, with the series that the observation reconstructs. -/
def LoggedDecision.item (decision : LoggedDecision) (series : List SeriesPoint) (requested : ℤ) :
    RecordedCycle ℚ :=
  let complete := completeSeries series
  { decidedAt := decision.stabilizationEvaluatedAt
    observedReplicas := some decision.currentReplicas
    requestedReplicas := some requested
    currentCPU := some decision.currentCPU
    predictionSource := if complete then Controller.replayComputedHistory
      else Controller.replayRecordedForecast
    rawPrediction := if complete then none else some decision.rawPredictedCPU
    samples := if complete then some (replaySamples series) else none
    actualMode := decision.decisionMode
    expected := decision.expected }

structure Preparation where
  anchors : List SeriesPoint
  requested : ℤ
  replay : List (RecordedCycle ℚ)
  writes : List (ScaleWrite ℤ)
  timeline : List TimelineRecord
  previousFinished : Option ℤ
  computed : ℕ
  recorded : ℕ
  unknownCPUObservations : ℕ
  deriving DecidableEq, Repr

namespace Preparation

def start (initial : ℤ) : Preparation := ⟨[], initial, [], [], [], none, 0, 0, 0⟩

/-- The series of the cycle's observation, empty for none, and the anchors after it. -/
def series (p : Preparation) (windowSeconds : ℤ) (cycle : CycleRows) :
    Except String (List SeriesPoint) × List SeriesPoint :=
  match cycle.query with
  | none => (.ok [], p.anchors)
  | some query =>
    match prepareHistory p.anchors query.toQueryLog (cycle.decision.map LoggedDecision.log)
        windowSeconds with
    | (none, anchors) => (.ok [], anchors)
    | (some series, anchors) => (series, anchors)

def record (p : Preparation) (config : RecordedConfig) (onset : ℚ) (cycle : CycleRows)
    (item : Option (RecordedCycle ℚ)) : TimelineRecord :=
  let since (t : ℤ) : ℚ := Time.unixSeconds t - onset
  { reconcileID := cycle.reconcileID
    reconcileStartedSeconds := since cycle.reconcileStartedAt
    queryError := cycle.query.map fun query => query.queryError
    samples := cycle.query.map fun query => query.samples
    reason := explanation cycle p.requested config.targetCPU
    requestedReplicas := p.requested
    replayIndex := item.map fun _ => p.replay.length
    unobservedSincePreviousFinishSeconds := p.previousFinished.map fun finished =>
      Time.unixSeconds cycle.reconcileStartedAt - Time.unixSeconds finished
    queryStartedSeconds := (cycle.query.bind LoggedQuery.queryStartedAt).map since
    queryFinishedSeconds := (cycle.query.bind LoggedQuery.queryFinishedAt).map since
    sourceSampleSeconds := (cycle.query.bind LoggedQuery.sourceTimestamp).map since
    evaluationSeconds := (cycle.query.bind fun query => query.latestEvaluationAt).map since
    observationFinishedSeconds := cycle.query.map fun query => since query.observationFinishedAt
    sourceAgeAtObservationSeconds := cycle.query.bind fun query =>
      query.sourceTimestamp.map fun source =>
        Time.unixSeconds query.observationFinishedAt - Time.unixSeconds source
    decisionSeconds := cycle.decision.map fun decision => since decision.decisionAt
    predictionSource := item.map RecordedCycle.predictionSource
    currentCPU := cycle.decision.map LoggedDecision.currentCPU
    recordedForecast := cycle.decision.map LoggedDecision.rawPredictedCPU
    scaleWriteFinishedSeconds := cycle.scale.map fun scale => since scale.scaleWriteFinishedAt }

def next (config : RecordedConfig) (onset : ℚ) (p : Preparation) (cycle : CycleRows)
    (series anchors : List SeriesPoint) : Preparation :=
  let item := cycle.decision.map fun decision => decision.item series p.requested
  { anchors
    requested := (cycle.scale.map fun scale => scale.finalDesired).getD p.requested
    replay := p.replay ++ item.toList
    writes := p.writes ++ (cycle.scale.map fun scale => ScaleWrite.mk scale.scaleWriteStartedAt
      scale.scaleWriteFinishedAt scale.previousDesiredReplicas scale.finalDesired).toList
    timeline := p.timeline ++ [p.record config onset cycle item]
    previousFinished := cycle.finish.map LoggedFinish.reconcileFinishedAt
    computed := p.computed + (item.toList.filter fun item => item.samples.isSome).length
    recorded := p.recorded + (item.toList.filter fun item => item.samples.isNone).length
    unknownCPUObservations := p.unknownCPUObservations +
      if (cycle.query.any fun query => query.queryError = "") && cycle.decision.isNone then 1
      else 0 }

def step (config : RecordedConfig) (onset : ℚ) (p : Preparation) (cycle : CycleRows) :
    Except String Preparation := do
  let (reconstructed, anchors) := p.series config.windowSeconds cycle
  let series ← reconstructed
  reject (∃ scale ∈ cycle.scale, scale.disagrees cycle.toScaleCycle.decision p.requested = true)
    "Successful Scale write chain disagrees with recorded decision"
  return p.next config onset cycle series anchors

end Preparation

def prepareCycles (plan : RecordedPlan) (phpa : PolicyRecord) (starts : ℕ) (onset : ℚ)
    (initial : ℤ) (cycles : List CycleRows) : Except String (ReplayInput ℚ × Preparation) := do
  let config ← configuration phpa
  validateCycles plan phpa starts cycles
  let prepared ← cycles.foldlM (Preparation.step config onset) (.start initial)
  return (⟨1, "complete", config, prepared.replay⟩, prepared)

/-- A row of `write_timeline`: a record, and the results of all modes if a decision was made. -/
def timelineRow (results : List (ReplayCycleResult ℚ)) (record : TimelineRecord) :
    Option (TimelineRecord × List (DecisionMode × ReplayModeResult ℚ)) :=
  match record.replayIndex with
  | none => some (record, [])
  | some i => results[i]?.map fun result => (record, result.modes)

/-! What accepted cycles guarantee. -/

section Accepted

theorem bind_ok {β : Type} {x : Except String Unit} {f : Unit → Except String β} {b : β}
    (h : (x >>= f) = .ok b) : x = .ok () ∧ f () = .ok b := by
  cases x with
  | error err => cases h
  | ok a => exact ⟨rfl, h⟩

structure ValidCycle (cycle : CycleRows) : Prop where
  queried : cycle.query.isSome
  evaluated : ∀ query ∈ cycle.query, ∀ decision ∈ cycle.decision, ∀ evaluation,
    query.latestEvaluationAt = some evaluation →
      Time.unixEpoch ≤ evaluation ∧ evaluation ≤ decision.stabilizationEvaluatedAt

variable {plan : RecordedPlan} {phpa : PolicyRecord}

/-- A cycle that is reconstructed, with a Scale write that continues the chain if it has one, is
taken into the recording. -/
theorem Preparation.step_eq {config : RecordedConfig} {p : Preparation} {cycle : CycleRows}
    {series anchors : List SeriesPoint}
    (hseries : p.series config.windowSeconds cycle = (.ok series, anchors))
    (hscale : ∀ scale ∈ cycle.scale,
      scale.disagrees cycle.toScaleCycle.decision p.requested = false) (onset : ℚ) :
    Preparation.step config onset p cycle = .ok (p.next config onset cycle series anchors) := by
  have hchain : ¬ ∃ scale ∈ cycle.scale,
      scale.disagrees cycle.toScaleCycle.decision p.requested = true := by
    rintro ⟨scale, hmem, hdisagrees⟩
    rw [hscale scale hmem] at hdisagrees
    cases hdisagrees
  unfold Preparation.step reject
  rw [hseries, if_neg hchain]
  rfl

end Accepted

/-! The places of the decisions in the recording. -/

section Places

variable {δ : Type}

/-- The indices of the decisions in a recording, from `n` on. -/
def decidedIndices : ℕ → List (Option δ) → List (Option ℕ)
  | _, [] => []
  | n, none :: rest => none :: decidedIndices n rest
  | n, some _ :: rest => some n :: decidedIndices (n + 1) rest

/-- A row without a decision is empty, and one with a decision has the modes of its result. -/
def Beside (R : δ → ReplayCycleResult ℚ → Prop) :
    Option δ → TimelineRecord × List (DecisionMode × ReplayModeResult ℚ) → Prop
  | none, row => row.2 = []
  | some d, row => ∃ result, R d result ∧ row.2 = result.modes

/-- The indices of the timeline lead to the results of the decisions. -/
theorem timelineRows_of_indices {R : δ → ReplayCycleResult ℚ → Prop} {decided : List (Option δ)}
    {records : List TimelineRecord} {earlier later : List (ReplayCycleResult ℚ)}
    (hindices : records.map TimelineRecord.replayIndex = decidedIndices earlier.length decided)
    (hresults : List.Forall₂ R decided.reduceOption later) :
    ∃ rows, records.mapM (timelineRow (earlier ++ later)) = some rows ∧
      rows.map Prod.fst = records ∧ List.Forall₂ (Beside R) decided rows := by
  induction decided generalizing records earlier later with
  | nil =>
    rw [decidedIndices, List.map_eq_nil_iff] at hindices
    subst hindices
    exact ⟨[], rfl, rfl, .nil⟩
  | cons first rest ih =>
    cases first with
    | none =>
      rw [decidedIndices] at hindices
      obtain ⟨record, records, rfl, hindex, hindices⟩ := List.map_eq_cons_iff.mp hindices
      rw [List.reduceOption_cons_of_none] at hresults
      obtain ⟨rows, hrows, hrecords, hbeside⟩ := ih hindices hresults
      have hrow : timelineRow (earlier ++ later) record = some (record, []) := by
        rw [timelineRow, hindex]
      refine ⟨(record, []) :: rows, ?_, congrArg (record :: ·) hrecords, .cons rfl hbeside⟩
      rw [List.mapM_cons, hrow, hrows]
      rfl
    | some d =>
      rw [decidedIndices] at hindices
      obtain ⟨record, records, rfl, hindex, hindices⟩ := List.map_eq_cons_iff.mp hindices
      rw [List.reduceOption_cons_of_some] at hresults
      obtain ⟨result, later, hfirst, hlater, rfl⟩ := List.forall₂_cons_left_iff.mp hresults
      have hlength : (earlier ++ [result]).length = earlier.length + 1 := by simp
      rw [← hlength] at hindices
      obtain ⟨rows, hrows, hrecords, hbeside⟩ := ih hindices hlater
      have hsplit : (earlier ++ [result]) ++ later = earlier ++ result :: later := by simp
      rw [hsplit] at hrows
      have hrow : timelineRow (earlier ++ result :: later) record =
          some (record, result.modes) := by
        rw [timelineRow, hindex]
        simp
      refine ⟨(record, result.modes) :: rows, ?_, congrArg (record :: ·) hrecords,
        .cons ⟨result, hfirst, rfl⟩ hbeside⟩
      rw [List.mapM_cons, hrow, hrows]
      rfl

theorem mapM_timelineRow_fst {results : List (ReplayCycleResult ℚ)} {records : List TimelineRecord}
    {rows : List (TimelineRecord × List (DecisionMode × ReplayModeResult ℚ))}
    (h : records.mapM (timelineRow results) = some rows) : rows.map Prod.fst = records := by
  induction records generalizing rows with
  | nil =>
    cases h
    rfl
  | cons record rest ih =>
    rw [List.mapM_cons] at h
    obtain ⟨row, hrow, h⟩ := Option.bind_eq_some_iff.mp h
    obtain ⟨later, hlater, h⟩ := Option.bind_eq_some_iff.mp h
    cases h
    have hrecord : row.1 = record := by
      unfold timelineRow at hrow
      split at hrow
      · cases hrow
        rfl
      · obtain ⟨result, -, hresult⟩ := Option.map_eq_some_iff.mp hrow
        rw [← hresult]
    rw [List.map_cons, hrecord, ih hlater]

end Places

/-! What the preparation records of the cycles. -/

section Recorded

/-- The item of the recording tells what the decision is compared with. -/
structure Tells (decision : LoggedDecision) (item : RecordedCycle ℚ) : Prop where
  mode : item.actualMode = decision.decisionMode
  expected : item.expected = decision.expected

theorem Preparation.step_ok {config : RecordedConfig} {onset : ℚ} {p p' : Preparation}
    {cycle : CycleRows} (h : Preparation.step config onset p cycle = .ok p') :
    ∃ series anchors, p' = p.next config onset cycle series anchors := by
  unfold Preparation.step at h
  generalize p.series config.windowSeconds cycle = reconstruction at h
  obtain ⟨reconstructed, anchors⟩ := reconstruction
  cases reconstructed with
  | error err => cases h
  | ok series =>
    obtain ⟨-, h⟩ := bind_ok h
    cases h
    exact ⟨series, anchors, rfl⟩

theorem Preparation.foldlM_ok {config : RecordedConfig} {onset : ℚ} {cycles : List CycleRows}
    {p p' : Preparation} (h : cycles.foldlM (Preparation.step config onset) p = .ok p') :
    ∃ items records, p'.replay = p.replay ++ items ∧ p'.timeline = p.timeline ++ records ∧
      records.map TimelineRecord.reconcileID = cycles.map CycleRows.reconcileID ∧
      records.map TimelineRecord.replayIndex =
        decidedIndices p.replay.length (cycles.map CycleRows.decision) ∧
      List.Forall₂ Tells (cycles.map CycleRows.decision).reduceOption items := by
  induction cycles generalizing p with
  | nil =>
    cases h
    exact ⟨[], [], (List.append_nil _).symm, (List.append_nil _).symm, rfl, rfl, .nil⟩
  | cons cycle rest ih =>
    rw [List.foldlM_cons] at h
    cases hstep : Preparation.step config onset p cycle with
    | error err =>
      rw [hstep] at h
      cases h
    | ok p₁ =>
      rw [hstep] at h
      obtain ⟨series, anchors, rfl⟩ := Preparation.step_ok hstep
      obtain ⟨items, records, hreplay, htimeline, hids, hindices, htells⟩ := ih h
      set item := cycle.decision.map fun decision => decision.item series p.requested with hitem
      have hfirst : (p.next config onset cycle series anchors).replay = p.replay ++ item.toList :=
        rfl
      refine ⟨item.toList ++ items, p.record config onset cycle item :: records, ?_, ?_, ?_, ?_, ?_⟩
      · rw [hreplay, hfirst, List.append_assoc]
      · rw [htimeline]
        exact List.append_assoc ..
      · rw [List.map_cons, List.map_cons, hids]
        rfl
      · rw [List.map_cons, List.map_cons, hindices, hfirst]
        cases hdecision : cycle.decision with
        | none =>
          rw [hdecision] at hitem
          rw [hitem, decidedIndices]
          simp [Preparation.record]
        | some decision =>
          rw [hdecision] at hitem
          rw [hitem, decidedIndices]
          simp [Preparation.record]
      · rw [List.map_cons]
        cases hdecision : cycle.decision with
        | none =>
          rw [hdecision] at hitem
          rw [hitem, List.reduceOption_cons_of_none]
          exact htells
        | some decision =>
          rw [hdecision] at hitem
          rw [hitem, List.reduceOption_cons_of_some]
          exact .cons ⟨rfl, rfl⟩ htells

/-- A recording that was prepared, and its timeline, stem from the decisions of the cycles. -/
theorem prepareCycles_tells {plan : RecordedPlan} {phpa : PolicyRecord} {starts : ℕ} {onset : ℚ}
    {initial : ℤ} {cycles : List CycleRows} {recording : ReplayInput ℚ} {prepared : Preparation}
    (h : prepareCycles plan phpa starts onset initial cycles = .ok (recording, prepared)) :
    prepared.timeline.map TimelineRecord.reconcileID = cycles.map CycleRows.reconcileID ∧
      prepared.timeline.map TimelineRecord.replayIndex =
        decidedIndices 0 (cycles.map CycleRows.decision) ∧
      List.Forall₂ Tells (cycles.map CycleRows.decision).reduceOption recording.cycles := by
  unfold prepareCycles at h
  cases hconfig : configuration phpa with
  | error err =>
    rw [hconfig] at h
    cases h
  | ok config =>
    rw [hconfig] at h
    obtain ⟨-, h⟩ := bind_ok h
    cases hfold : cycles.foldlM (Preparation.step config onset) (.start initial) with
    | error err =>
      rw [hfold] at h
      cases h
    | ok prepared =>
      rw [hfold] at h
      cases h
      obtain ⟨items, records, hreplay, htimeline, hids, hindices, htells⟩ :=
        Preparation.foldlM_ok hfold
      have hitems : prepared.replay = items := hreplay
      have hrecords : prepared.timeline = records := htimeline
      rw [hrecords]
      refine ⟨hids, hindices, ?_⟩
      rw [← hitems] at htells
      exact htells

end Recorded

end Autoscaler.Analysis
