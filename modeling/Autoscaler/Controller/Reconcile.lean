import Autoscaler.Controller.MetricsSafety

/-! The reconciliation of one PredictiveHPA. -/
namespace Autoscaler.Controller

open Effects MetricsProvider

def defaultRequeueInterval : ℤ := 30 * second

def requeueOnConfigError : ℤ := 60 * second

namespace PredictiveHPAReconciler

variable {K : Type} [Field K] [LinearOrder K] [FloorRing K] (r : PredictiveHPAReconciler K)

def requeue : Except Err ℤ :=
  let interval := if r.requeueInterval = 0 then defaultRequeueInterval else r.requeueInterval
  if interval < second then
    .error ⟨[], "requeue interval must be at least 1s, got " ++ r.formatDuration interval⟩
  else .ok interval

/-- The forecast of a validated history, or the failure it is reported as. A panic of the predictor
ends the reconciliation without touching the status. -/
def forecast (spec : PredictiveHPASpec) (history : CPUHistory K) : Option (Except Err K) :=
  let cfg : Predictor.EWMAConfig K :=
    ⟨.finite ((spec.prediction.alphaPercent : K) / (100 : ℤ)), spec.prediction.horizon⟩
  match Predictor.predict r.pow history.samples cfg with
  | none => none
  | some (.error err) => some (.error (.wrap .invalidData ("prediction: " ++ err.message)))
  | some (.ok (.finite raw)) => some (.ok raw)
  | some (.ok _) => some (.error (.wrap .invalidData "nonfinite forecast"))

def currentCPU (history : CPUHistory K) : K :=
  match history.samples.getLast? with
  | none => 0
  | some last => last.value.exact

/-- Recheck everything the decision rests on and write the Scale. `none` means written, otherwise
the reconciliation returns early. -/
def applyScale (phpa : PredictiveHPA) (deploy : Deployment) (scale : Scale)
    (cpuHistory : CPUHistory K) (decision : ScalingDecision K) (requeueInterval : ℤ) :
    Program K (Option (Except Err ℤ)) := do
  let fresh ← r.freshPHPA phpa
  match fresh with
  | .error err => return some (.error err)
  | .ok _ =>
    let recheck : Except Err Scale ← Prog.perform (Op.getScale deploy.metadata.key)
    match recheck with
    | .error err => return some (.error (err.annotate "recheck Deployment scale"))
    | .ok latestScale =>
      if latestScale.uid ≠ deploy.metadata.uid ∨
          latestScale.resourceVersion ≠ scale.resourceVersion then
        return some (.error
          ⟨[], "deployment scale changed during decision; retry with fresh state"⟩)
      else
        let now : ℤ ← Prog.perform Op.now
        match validateCPUHistory cpuHistory now phpa.spec.prediction.window with
        | .error err =>
          let result ← r.metricsUnavailable phpa err requeueInterval
          return some result
        | .ok () =>
          let written : Except Err Unit ← Prog.perform (Op.updateScale deploy.metadata.key
            { scale with specReplicas := decision.finalDesired })
          match written with
          | .error err => return some (.error (err.annotate "update Deployment scale"))
          | .ok () => return none

def publish (phpa : PredictiveHPA) (deploy : Deployment) (decision : ScalingDecision K)
    (scaled : Bool) (requeueInterval : ℤ) : Program K (Except Err ℤ) := do
  let published ← r.publishDecisionStatus phpa deploy
    { currentCPU := decision.currentCPU, predictedCPU := decision.predictedCPU,
      currentReplicas := decision.currentReplicas, desiredReplicas := decision.desiredReplicas,
      stabilization := decision.stabilization, scaled }
  match published with
  | .error err =>
    if (metricsFailureReason err).2 then r.metricsUnavailable phpa err requeueInterval
    else return .error (err.annotate "update status")
  | .ok () => return .ok requeueInterval

def reconcileScale (phpa : PredictiveHPA) (deploy : Deployment) (cpuHistory : CPUHistory K)
    (rawPredicted : K) (requeueInterval : ℤ) : Program K (Except Err ℤ) := do
  let found : Except Err Scale ← Prog.perform (Op.getScale deploy.metadata.key)
  match found with
  | .error err => return .error (err.annotate "get Deployment scale")
  | .ok scale =>
    if scale.uid ≠ deploy.metadata.uid then
      r.metricsUnavailable phpa (.ofSentinel .targetChanged) requeueInterval
    else
      let now : ℤ ← Prog.perform Op.now
      let decision : ScalingDecision K ← Prog.perform
        (Op.evaluateDecision phpa deploy scale now (currentCPU cpuHistory) rawPredicted)
      if decision.skipReason = .none then
        let early ← r.applyScale phpa deploy scale cpuHistory decision requeueInterval
        match early with
        | some result => return result
        | none => r.publish phpa deploy decision true requeueInterval
      else r.publish phpa deploy decision false requeueInterval

def reconcileMetrics (phpa : PredictiveHPA) (deploy : Deployment) (requeueInterval : ℤ) :
    Program K (Except Err ℤ) := do
  let window := phpa.spec.prediction.window
  let observed : Except Err (CPUHistory K) ← Prog.perform (Op.averageCPU deploy window)
  match observed with
  | .error err => r.metricsUnavailable phpa err requeueInterval
  | .ok cpuHistory =>
    let now : ℤ ← Prog.perform Op.now
    match validateCPUHistory cpuHistory now window with
    | .error err => r.metricsUnavailable phpa err requeueInterval
    | .ok () =>
      match r.forecast phpa.spec cpuHistory with
      | none => return .error ⟨[], "panic in predictor [recovered]"⟩
      | some (.error err) => r.metricsUnavailable phpa err requeueInterval
      | some (.ok rawPredicted) =>
        r.reconcileScale phpa deploy cpuHistory rawPredicted requeueInterval

/-- `reconcileTarget` of one request. -/
def reconcileTarget (key : NamespacedName) (requeueInterval : ℤ) : Program K (Except Err ℤ) := do
  let found : Except Err PredictiveHPA ← Prog.perform (Op.getPHPA .cache key)
  match found with
  | .error err =>
    if err.is .notFound then
      let () ← Prog.perform (Op.forgetHistory key)
      return .ok 0
    else return .error (err.annotate "get PredictiveHPA")
  | .ok phpa =>
    if !phpa.metadata.notDeleting then return .ok 0
    else
      match validateConfiguration r.isDNS1123Subdomain phpa.spec with
      | .error err => r.metricsUnavailable phpa err requeueOnConfigError
      | .ok () =>
        let target : Except Err Deployment ← Prog.perform
          (Op.getDeployment .cache ⟨phpa.metadata.ns, phpa.spec.scaleTargetRef.name⟩)
        match target with
        | .error err =>
          if err.is .notFound then
            r.metricsUnavailable phpa (.wrap .noData "target Deployment not found")
              requeueInterval
          else return .error (err.annotate "get Deployment")
        | .ok deploy => r.reconcileMetrics phpa deploy requeueInterval

/-- `Reconcile`: a result is the interval after which to requeue, zero for none. -/
def reconcile (key : NamespacedName) : Program K (Except Err ℤ) :=
  match r.requeue with
  | .error err => return .error err
  | .ok interval => r.reconcileTarget key interval

end PredictiveHPAReconciler

end Autoscaler.Controller
