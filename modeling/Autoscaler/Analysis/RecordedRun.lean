import Autoscaler.Analysis.RecordedPasses
import Autoscaler.Controller.HybridDominance
import Autoscaler.Controller.LastScaleTime

/-! The recording that is prepared from the log of a run verifies in the replay, and the timeline
shows the decisions that were made. -/
namespace Autoscaler.RecordedRun

open Controller Effects MetricsProvider
open Analysis hiding Field

/-! The replay of the recording. -/

section Replay

variable {lib : ReplayLibrary ℚ} {config : RecordedConfig} {d : DecisionEvent ℚ}
  {item : RecordedCycle ℚ}

variable {phpa : PredictiveHPA} {deploy : Deployment}

end Replay

/-! The timeline that the results are joined to. -/

section Timeline

variable {r : PredictiveHPAReconciler ℚ} {request : NamespacedName}

end Timeline

section Steady

open PredictiveHPAReconciler

def warmedAt (seconds : ℤ) : ℤ := Time.unixEpoch + seconds * second

def firstHistory : CPUHistory ℚ :=
  ⟨[(warmupObservation 1000).sample], warmedAt 1000, warmedAt 1000⟩

def secondHistory : CPUHistory ℚ :=
  ⟨[(warmupObservation 1000).sample, (warmupObservation 1015).sample], warmedAt 1015,
    warmedAt 1015⟩

def insufficientStatus : PredictiveHPAStatus :=
  { safetyPHPA.status with
    currentCPUUtilizationPercentage := none
    predictedCPUUtilizationPercentage := none
    conditions := [
      ⟨"MetricsReady", .false, "InsufficientSamples", "predictor: insufficient data", 1,
        warmedAt 1000⟩,
      ⟨"ScaleDownStabilized", .unknown, "MetricsUnavailable",
        "No scaling recommendation evaluated while CPU metrics are unavailable", 1,
        warmedAt 1000⟩] }

def insufficientCalls : List (APIEvent ℚ) := [
  ⟨safetyWorld, .getPHPA .cache safetyPHPA.metadata.key, .ok safetyPHPA, safetyWorld⟩,
  ⟨safetyWorld, .getDeployment .cache safetyDeployment.metadata.key, .ok safetyDeployment,
    safetyWorld⟩,
  ⟨safetyWorld, .averageCPU safetyDeployment (300 * second), .ok firstHistory, safetyWorld⟩,
  ⟨safetyWorld, .now, warmedAt 1000, safetyWorld⟩,
  ⟨safetyWorld, .getPHPA .api safetyPHPA.metadata.key, .ok safetyPHPA, safetyWorld⟩,
  ⟨safetyWorld, .wallClock, warmedAt 1000, safetyWorld⟩,
  ⟨safetyWorld, .wallClock, warmedAt 1000, safetyWorld⟩,
  ⟨safetyWorld, .patchStatus safetyPHPA { safetyPHPA with status := insufficientStatus },
    .ok (), safetyWorld.putPHPA (withStatus safetyPHPA insufficientStatus 3)⟩]

theorem insufficientCalls_exec :
    Exec (cluster ℚ) safetyWorld (safetyReconciler.reconcile safetyPHPA.metadata.key)
      insufficientCalls (some (.ok (30 * second)))
      (safetyWorld.putPHPA (withStatus safetyPHPA insufficientStatus 3)) := by
  have hchecked : validateCPUHistory firstHistory (warmedAt 1000)
      safetyPHPA.spec.prediction.window = .error (.ofSentinel .insufficientData) := by
    decide +kernel
  refine .call .refl ⟨rfl, rfl, rfl⟩ ?_
  refine .call .refl ⟨rfl, rfl, rfl⟩ ?_
  refine .call .refl rfl ?_
  refine .call .refl rfl ?_
  simp only [Prog.bind, hchecked]
  refine .call .refl ⟨rfl, rfl⟩ ?_
  refine .call .refl rfl ?_
  refine .call .refl rfl ?_
  refine .call .refl (.inl ⟨safetyPHPA, rfl, rfl, rfl⟩) ?_
  exact .done .refl

def steadyDecision : ScalingDecision ℚ × Controller.History :=
  evaluateDecision (fun _ => none) safetyPHPA safetyDeployment safetyDeployment.scale
    (warmedAt 1015) (currentCPU secondHistory) 50

def steadyWorld : World := { safetyWorld with history := steadyDecision.2 }

def steadyCalls : List (APIEvent ℚ) := [
  ⟨safetyWorld, .getPHPA .cache safetyPHPA.metadata.key, .ok safetyPHPA, safetyWorld⟩,
  ⟨safetyWorld, .getDeployment .cache safetyDeployment.metadata.key, .ok safetyDeployment,
    safetyWorld⟩,
  ⟨safetyWorld, .averageCPU safetyDeployment (300 * second), .ok secondHistory, safetyWorld⟩,
  ⟨safetyWorld, .now, warmedAt 1015, safetyWorld⟩,
  ⟨safetyWorld, .getScale safetyDeployment.metadata.key, .ok safetyDeployment.scale, safetyWorld⟩,
  ⟨safetyWorld, .now, warmedAt 1015, safetyWorld⟩,
  ⟨safetyWorld, .evaluateDecision safetyPHPA safetyDeployment safetyDeployment.scale
    (warmedAt 1015) (currentCPU secondHistory) 50, steadyDecision.1, steadyWorld⟩,
  ⟨steadyWorld, .getDeployment .api safetyDeployment.metadata.key, .error unreachable,
    steadyWorld⟩,
  ⟨steadyWorld, .getPHPA .api safetyPHPA.metadata.key, .ok safetyPHPA, steadyWorld⟩,
  ⟨steadyWorld, .wallClock, 130 * second, steadyWorld⟩,
  ⟨steadyWorld, .wallClock, 130 * second, steadyWorld⟩,
  ⟨steadyWorld, .patchStatus safetyPHPA { safetyPHPA with status := unverifiedStatus },
    .ok (), steadyWorld.putPHPA (withStatus safetyPHPA unverifiedStatus 3)⟩]

theorem steadyCalls_exec :
    Exec (cluster ℚ) safetyWorld (safetyReconciler.reconcile safetyPHPA.metadata.key)
      steadyCalls (some (.ok (30 * second)))
      (steadyWorld.putPHPA (withStatus safetyPHPA unverifiedStatus 3)) := by
  have hchecked : validateCPUHistory secondHistory (warmedAt 1015)
      safetyPHPA.spec.prediction.window = .ok () := by
    decide +kernel
  have hforecast : safetyReconciler.forecast safetyPHPA.spec secondHistory = some (.ok 50) := by
    decide +kernel
  have hunreachable : unreachable.is .notFound = false := by decide
  have hskip : steadyDecision.1.skipReason = .desiredEqualsCurrent := by decide +kernel
  refine .call .refl ⟨rfl, rfl, rfl⟩ ?_
  refine .call .refl ⟨rfl, rfl, rfl⟩ ?_
  refine .call .refl rfl ?_
  refine .call .refl rfl ?_
  simp only [Prog.bind, hchecked, hforecast]
  refine .call .refl ⟨rfl, _, rfl, rfl⟩ ?_
  refine .call .refl rfl ?_
  refine .call .refl ⟨rfl, rfl⟩ ?_
  simp only [Prog.bind, hskip]
  refine .call .refl ⟨rfl, fun h => absurd (hunreachable.symm.trans h) (by decide)⟩ ?_
  refine .call .refl ⟨rfl, rfl⟩ ?_
  refine .call .refl rfl ?_
  refine .call .refl rfl ?_
  refine .call .refl (.inl ⟨safetyPHPA, rfl, rfl, rfl⟩) ?_
  exact .done .refl

def instantStamps (id : String) (t : ℤ) : Stamps :=
  ⟨id, t, t, t, some t, some t, some t, t, t, t, t⟩

noncomputable def warmingPass : Pass safetyReconciler safetyPHPA.metadata.key where
  before := safetyWorld
  after := safetyWorld.putPHPA (withStatus safetyPHPA insufficientStatus 3)
  events := insufficientCalls
  result := some (.ok (30 * second))
  runs := insufficientCalls_exec
  call := warmupCall 1000
  stamps := instantStamps "reconcile-1" (warmedAt 1000)

noncomputable def steadyPass : Pass safetyReconciler safetyPHPA.metadata.key where
  before := safetyWorld
  after := steadyWorld.putPHPA (withStatus safetyPHPA unverifiedStatus 3)
  events := steadyCalls
  result := some (.ok (30 * second))
  runs := steadyCalls_exec
  call := warmupCall 1015
  stamps := instantStamps "reconcile-2" (warmedAt 1015)

def safetyRecord : PolicyRecord where
  key := safetyPHPA.metadata.key
  minReplicas := none
  maxReplicas := 10
  targetCPUUtilizationPercentage := 50
  alphaPercent := 30
  window := "5m0s"
  horizon := "30s"
  scaleDownStabilizationWindowSeconds := some 60

def safetyPlan : RecordedPlan := ⟨warmedAt 990, .current⟩

def plainDecoder : ReplayDecoder (ReplayInput ℚ) ℚ := ⟨.ok, fun _ => true⟩

end Steady

end Autoscaler.RecordedRun
