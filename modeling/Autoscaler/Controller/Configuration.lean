import Autoscaler.Controller.ScalingDecision
import Autoscaler.Errors

/-! The policy check that precedes every query and write. -/
namespace Autoscaler.Controller

def invalidConfiguration (detail : String) : Except Err Unit :=
  .error (.wrap .invalidConfiguration detail)

def DecisionMode.supported : DecisionMode → Bool
  | .unset | .predictive | .current | .hybrid => true
  | .unknown _ => false

def PredictionAlgorithm.supported : PredictionAlgorithm → Bool
  | .unset | .ewma => true
  | .unknown _ => false

/-- `isDNS1123Subdomain` lists the problems of an object name. -/
def validateConfiguration (isDNS1123Subdomain : String → List String) (spec : PredictiveHPASpec) :
    Except Err Unit :=
  let problems := isDNS1123Subdomain spec.scaleTargetRef.name
  if spec.scaleTargetRef.apiVersion ≠ "apps/v1" ∨ spec.scaleTargetRef.kind ≠ "Deployment" then
    invalidConfiguration "scaleTargetRef must identify an apps/v1 Deployment"
  else if problems ≠ [] then
    invalidConfiguration ("scaleTargetRef.name must be a valid Deployment name: [" ++
      " ".intercalate problems ++ "]")
  else if spec.targetCPUUtilizationPercentage < 1 ∨ spec.targetCPUUtilizationPercentage > 100 then
    invalidConfiguration "targetCPUUtilizationPercentage must be between 1 and 100"
  else if spec.prediction.alphaPercent < 1 ∨ spec.prediction.alphaPercent > 99 then
    invalidConfiguration "prediction.alphaPercent must be between 1 and 99"
  else if !PredictionAlgorithm.supported spec.prediction.algorithm then
    invalidConfiguration "prediction.algorithm must be EWMA"
  else if !DecisionMode.supported spec.decisionMode then
    invalidConfiguration "decisionMode must be Predictive, Current or Hybrid"
  else if spec.scaleDownStabilizationWindowSeconds.any (· < 0) then
    invalidConfiguration "scaleDownStabilizationWindowSeconds must not be negative"
  else if spec.prediction.window < 15 * second ∨ spec.prediction.window > hour then
    invalidConfiguration "prediction.window must be between 15s and 1h"
  else if spec.prediction.horizon ≤ 0 ∨ spec.prediction.horizon > hour then
    invalidConfiguration "prediction.horizon must be greater than 0s and at most 1h"
  else if spec.minReplicas.any (fun minReplicas => minReplicas < 0 ∨ minReplicas > spec.maxReplicas)
      ∨ spec.maxReplicas < 1 then
    invalidConfiguration "require 0 <= minReplicas <= maxReplicas and maxReplicas >= 1"
  else .ok ()

structure ValidSpec (spec : PredictiveHPASpec) : Prop where
  policy : ValidPolicy (spec.minReplicas.getD 1) spec.maxReplicas
    spec.targetCPUUtilizationPercentage (stabilizationWindowSeconds spec)
  alpha : 1 ≤ spec.prediction.alphaPercent ∧ spec.prediction.alphaPercent ≤ 99
  mode : DecisionMode.supported spec.decisionMode = true
  window : 15 * second ≤ spec.prediction.window ∧ spec.prediction.window ≤ hour
  horizon : 0 < spec.prediction.horizon ∧ spec.prediction.horizon ≤ hour

theorem accepted_of_ok {rejected : Prop} [Decidable rejected] {detail : String}
    {rest : Except Err Unit}
    (h : (if rejected then invalidConfiguration detail else rest) = .ok ()) :
    ¬ rejected ∧ rest = .ok () := by
  by_cases hr : rejected
  · rw [if_pos hr] at h
    cases h
  · rw [if_neg hr] at h
    exact ⟨hr, h⟩

theorem validateConfiguration_ok {isDNS1123Subdomain : String → List String}
    {spec : PredictiveHPASpec} (h : validateConfiguration isDNS1123Subdomain spec = .ok ()) :
    ValidSpec spec := by
  unfold validateConfiguration at h
  obtain ⟨-, h⟩ := accepted_of_ok h
  obtain ⟨-, h⟩ := accepted_of_ok h
  obtain ⟨htarget, h⟩ := accepted_of_ok h
  obtain ⟨halpha, h⟩ := accepted_of_ok h
  obtain ⟨-, h⟩ := accepted_of_ok h
  obtain ⟨hmode, h⟩ := accepted_of_ok h
  obtain ⟨hstab, h⟩ := accepted_of_ok h
  obtain ⟨hwindow, h⟩ := accepted_of_ok h
  obtain ⟨hhorizon, h⟩ := accepted_of_ok h
  obtain ⟨hreplicas, -⟩ := accepted_of_ok h
  have hmin : 0 ≤ spec.minReplicas.getD 1 ∧ spec.minReplicas.getD 1 ≤ spec.maxReplicas := by
    cases hm : spec.minReplicas with
    | none =>
      simp [hm] at hreplicas ⊢
      omega
    | some minReplicas =>
      simp [hm] at hreplicas ⊢
      omega
  have hstabilization : 0 ≤ stabilizationWindowSeconds spec := by
    unfold stabilizationWindowSeconds
    cases hs : spec.scaleDownStabilizationWindowSeconds with
    | none => decide
    | some seconds =>
      simp [hs] at hstab
      exact hstab
  exact
    { policy := ⟨hmin.1, hmin.2, by omega, by omega, by omega, hstabilization⟩
      alpha := by omega
      mode := by simpa using hmode
      window := by omega
      horizon := by omega }

end Autoscaler.Controller
