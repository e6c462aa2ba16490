import Autoscaler.MetricsProvider.FaithfulHistory

/-! The record that a traced call publishes, and the line that it logs. The HTTP receipts are left
out: no check of the record reads them. -/
namespace Autoscaler.MetricsProvider

structure CPUObservation where
  startedAt : ℤ
  finishedAt : ℤ
  targetUID : UID
  status : String
  error : String
  evaluatedAt : Option ℤ
  sourceTimestamp : Option ℤ
  utilizationPercent : Option (Float64 ℚ)
  containers : List ContainerSource
  deriving DecidableEq

/-- The observation that `logObservation` builds; only a success names its sources. -/
def publishedObservation (target : Option Deployment) (traced : List ContainerSource)
    (started finished evaluatedAt : ℤ) (history : CPUHistory ℚ) (err : Option Err) :
    CPUObservation where
  startedAt := started
  finishedAt := finished
  targetUID := match target with
    | none => ""
    | some target => target.metadata.uid
  status := match err with
    | none => "success"
    | some _ => "rejected"
  error := match err with
    | none => ""
    | some err => err.message
  evaluatedAt := optionalTimestamp evaluatedAt
  sourceTimestamp := match err with
    | none => some history.sourceTimestamp
    | some _ => none
  utilizationPercent := match err with
    | none => history.samples.getLast?.map fun sample => sample.value
    | some _ => none
  containers := match err with
    | none => traced
    | some _ => []

/-- What the call has set `evaluatedAt` to when it returns: the first roster comes before it. -/
def Call.evaluatedAt (call : Call) : ℤ :=
  match call.target with
  | none => 0
  | some target =>
    if target.metadata.uid = "" || call.readings.contextErr.isSome ||
        call.readings.gateErr.isSome || call.window < observationSpacing ||
        maxHistoryWindow < call.window then 0
    else
      match call.readings.roster with
      | .error _ => 0
      | .ok _ => Time.truncate call.readings.now millisecond

def tracedContainers (maxSampleAge : ℤ) (call : Call) : List ContainerSource :=
  match attempt maxSampleAge call with
  | .error _ => []
  | .ok (_, observation) => observation.containers

section Publish

variable (p : PrometheusProvider) (call : Call) (started finished : ℤ)

def observeCPU : CPUObservation :=
  let result := averageCPUUtilizationPercentage p call
  publishedObservation call.target (tracedContainers p.maxSampleAge call) started finished
    call.evaluatedAt result.history result.err

end Publish

section Accepted

variable {p : PrometheusProvider} {call : Call} {target : Deployment} {observation : Observation}

end Accepted

end Autoscaler.MetricsProvider
