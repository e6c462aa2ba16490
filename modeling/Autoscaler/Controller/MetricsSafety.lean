import Autoscaler.Controller.Client
import Autoscaler.Controller.Configuration

/-! Validation at the consumer boundary, and the status patches of a reconciliation. -/
namespace Autoscaler.Controller

open Effects MetricsProvider

def conditionMetricsReady : String := "MetricsReady"

def conditionScaleDownStabilized : String := "ScaleDownStabilized"

section Validation

variable {K : Type} [Field K] [LinearOrder K]

def unusableSample (history : CPUHistory K) (window : ℤ) (sample : Predictor.Sample K) : Bool :=
  (match sample.value with
    | .finite value => decide (value < 0)
    | _ => true) ||
    Time.isZero sample.timestamp || decide (history.observedAt < sample.timestamp) ||
    decide (sample.timestamp < history.observedAt - window)

def validateSamples (history : CPUHistory K) (window : ℤ) :
    Option (Predictor.Sample K) → List (Predictor.Sample K) → Except Err Unit
  | _, [] => .ok ()
  | previous, sample :: rest =>
    if unusableSample history window sample then
      .error (.wrap .invalidData "unusable CPU sample")
    else if previous.any (fun p => sample.timestamp - p.timestamp < 15 * second) then
      .error (.wrap .invalidData "observations must be ordered and at least 15s apart")
    else validateSamples history window (some sample) rest

def validateCPUHistory (history : CPUHistory K) (now window : ℤ) : Except Err Unit :=
  match history.samples.getLast? with
  | none => .error (.ofSentinel .noData)
  | some last =>
    if last.timestamp ≠ history.observedAt then
      .error (.wrap .invalidData "observation metadata does not identify the latest CPU sample")
    else if Time.isZero history.observedAt ∨ Time.isZero history.sourceTimestamp ∨
        now < history.observedAt ∨ history.observedAt < history.sourceTimestamp then
      .error (.wrap .invalidData "missing or future observation/source timestamp")
    else if defaultMaxSampleAge < now - history.sourceTimestamp ∨
        defaultMaxSampleAge < now - history.observedAt then
      .error (.ofSentinel .staleData)
    else
      match validateSamples history window none history.samples with
      | .error err => .error err
      | .ok () =>
        if defaultMaxSampleAge < now - last.timestamp then .error (.ofSentinel .staleData)
        else if history.samples.length < 2 then .error (.ofSentinel .insufficientData)
        else .ok ()

end Validation

def metricsFailureReason (err : Err) : String × Bool :=
  if err.is .invalidConfiguration then ("InvalidConfiguration", true)
  else if err.is .noData then ("NoData", true)
  else if err.is .staleData then ("StaleData", true)
  else if err.is .invalidData then ("InvalidData", true)
  else if err.is .incompleteData then ("IncompleteData", true)
  else if err.is .targetChanged then ("TargetChanged", true)
  else if err.is .insufficientData then ("InsufficientSamples", true)
  else ("QueryFailed", false)

namespace PredictiveHPAReconciler

variable {K : Type} (r : PredictiveHPAReconciler K)

def policyChanged (name : String) : Err :=
  ⟨[.conflict], "Operation cannot be fulfilled on predictivehpas.autoscaling.brian.io \"" ++ name ++
    "\": PredictiveHPA identity or policy changed during reconciliation"⟩

/-- Whether a freshly read object is still the incarnation and generation of `expected`. -/
def samePolicy (expected latest : PredictiveHPA) : Bool :=
  latest.metadata.uid == expected.metadata.uid &&
    latest.metadata.generation == expected.metadata.generation && latest.metadata.notDeleting

def freshPHPA (expected : PredictiveHPA) : Program K (Except Err PredictiveHPA) := do
  let found : Except Err PredictiveHPA ← Prog.perform (Op.getPHPA r.reader expected.metadata.key)
  match found with
  | .error err => return .error err
  | .ok latest =>
    if samePolicy expected latest then return .ok latest
    else return .error (policyChanged expected.metadata.name)

/-- A decision without a write also publishes observations of one target incarnation. -/
def validateStatusTarget (expected : Deployment) : Program K (Except Err Unit) := do
  let found : Except Err Deployment ← Prog.perform (Op.getDeployment r.reader expected.metadata.key)
  match found with
  | .error err => return .error (.wrap .targetChanged
      ("could not verify target before status publication: " ++ err.message))
  | .ok latest =>
    if latest.metadata.uid ≠ expected.metadata.uid ∨ !latest.metadata.notDeleting then
      return .error (.wrap .targetChanged "target incarnation changed before status publication")
    else return .ok ()

/-- Mutate a freshly read status, and patch it when that changes anything. A time `stamped` by
`metav1.Now` carries a monotonic clock reading, so `reflect.DeepEqual` tells it from any time that
was read; a condition is stamped only where it changes otherwise. -/
def patchStatus (expected : PredictiveHPA) (stamped : Bool)
    (mutate : PredictiveHPAStatus → Program K PredictiveHPAStatus) :
    Program K (Except Err Unit) := do
  let fresh ← r.freshPHPA expected
  match fresh with
  | .error err => return .error err
  | .ok latest =>
    let status ← mutate latest.status
    if stamped = false ∧ latest.status = status then return .ok ()
    else
      let patched : Except Err Unit ← Prog.perform
        (Op.patchStatus latest { latest with status := status })
      match patched with
      | .error err => return .error (err.annotate "patch PredictiveHPA status")
      | .ok () => return .ok ()

/-- `meta.SetStatusCondition`, which stamps a transition with the wall clock. -/
def setStatusCondition (status : PredictiveHPAStatus) (condition : Condition) :
    Program K PredictiveHPAStatus := do
  let now : ℤ ← Prog.perform Op.wallClock
  return { status with
    conditions := r.conditions.setStatusCondition status.conditions condition now }

def unavailableStatus (phpa : PredictiveHPA) (err : Err) (status : PredictiveHPAStatus) :
    Program K PredictiveHPAStatus := do
  let status ← r.setStatusCondition
    { status with
      currentCPUUtilizationPercentage := none
      predictedCPUUtilizationPercentage := none }
    { type := conditionMetricsReady, status := .false, reason := (metricsFailureReason err).1,
      message := err.message, observedGeneration := phpa.metadata.generation,
      lastTransitionTime := 0 }
  r.setStatusCondition status
    { type := conditionScaleDownStabilized, status := .unknown, reason := "MetricsUnavailable",
      message := "No scaling recommendation evaluated while CPU metrics are unavailable",
      observedGeneration := phpa.metadata.generation, lastTransitionTime := 0 }

/-- Report unusable metrics in the status; a result is the requeue interval or an error. -/
def metricsUnavailable (phpa : PredictiveHPA) (err : Err) (interval : ℤ) :
    Program K (Except Err ℤ) := do
  let patched ← r.patchStatus phpa false (r.unavailableStatus phpa err)
  match patched with
  | .error statusErr => return .error (err.join statusErr)
  | .ok () => if (metricsFailureReason err).2 then return .ok interval else return .error err

end PredictiveHPAReconciler

/-- `cpuStatusValue`: rounded half away from zero and saturated at the largest `int32`. -/
def cpuStatusValue {K : Type} [Field K] [LinearOrder K] [FloorRing K] (value : K) : ℤ :=
  let rounded : ℤ := if value < 0 then -⌊-value + 1 / 2⌋ else ⌊value + 1 / 2⌋
  min rounded 2147483647

structure DecisionStatusUpdate (K : Type) where
  currentCPU : K
  predictedCPU : K
  currentReplicas : ℤ
  desiredReplicas : ℤ
  stabilization : StabilizationResult
  scaled : Bool

namespace PredictiveHPAReconciler

variable {K : Type} [Field K] [LinearOrder K] [FloorRing K] (r : PredictiveHPAReconciler K)

def stabilizationCondition (phpa : PredictiveHPA) (update : DecisionStatusUpdate K) :
    Condition :=
  let stabilization := update.stabilization
  let counts := toString update.desiredReplicas
  if !stabilization.stabilized then
    { type := conditionScaleDownStabilized, status := .false, reason := "NoStabilizationNeeded",
      message := "Scaling up, unchanged, or no historical max to apply",
      observedGeneration := phpa.metadata.generation, lastTransitionTime := 0 }
  else if stabilization.coldStart then
    { type := conditionScaleDownStabilized, status := .true, reason := "ColdStartProtection",
      message := "Computed " ++ counts ++ ", retaining " ++ toString stabilization.finalDesired ++
        " while rebuilding history until " ++ r.formatTime stabilization.protectedUntil,
      observedGeneration := phpa.metadata.generation, lastTransitionTime := 0 }
  else
    { type := conditionScaleDownStabilized, status := .true, reason := "WithinStabilizationWindow",
      message := "computed " ++ counts ++ ", stabilized to " ++
        toString stabilization.finalDesired ++ " (window=" ++
        toString stabilization.windowSeconds ++ "s)",
      observedGeneration := phpa.metadata.generation, lastTransitionTime := 0 }

def decisionStatus (phpa : PredictiveHPA) (update : DecisionStatusUpdate K)
    (status : PredictiveHPAStatus) : Program K PredictiveHPAStatus := do
  let status := { status with
    currentReplicas := update.currentReplicas
    desiredReplicas := update.stabilization.finalDesired
    currentCPUUtilizationPercentage := some (cpuStatusValue update.currentCPU)
    predictedCPUUtilizationPercentage := some (cpuStatusValue update.predictedCPU) }
  let status ← if update.scaled then do
      let now : ℤ ← Prog.perform Op.wallClock
      pure { status with lastScaleTime := some now }
    else pure status
  let status ← r.setStatusCondition status (r.stabilizationCondition phpa update)
  r.setStatusCondition status
    { type := conditionMetricsReady, status := .true, reason := "ValidMetrics",
      message := "CPU observations are complete, fresh and ready for prediction",
      observedGeneration := phpa.metadata.generation, lastTransitionTime := 0 }

def publishDecisionStatus (phpa : PredictiveHPA) (target : Deployment)
    (update : DecisionStatusUpdate K) : Program K (Except Err Unit) := do
  let verified ← r.validateStatusTarget target
  match verified with
  | .error err => return .error err
  | .ok () => r.patchStatus phpa update.scaled (r.decisionStatus phpa update)

end PredictiveHPAReconciler

end Autoscaler.Controller
