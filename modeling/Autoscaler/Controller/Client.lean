import Autoscaler.Controller.ScalingDecision
import Autoscaler.Errors
import Autoscaler.Library.Effects
import Autoscaler.MetricsProvider.Prometheus

/-! The calls one reconciliation makes, and the reconciler's fixed parts. -/
namespace Autoscaler.Controller

open Effects MetricsProvider

/-- The informer cache behind `Client`, or the uncached `APIReader`. -/
inductive Reader where
  | cache
  | api
  deriving DecidableEq, Repr

/-- The interactions of a reconciliation with the API server, the provider, its clock and its own
locked history. -/
inductive Op (K : Type) where
  | getPHPA (reader : Reader) (key : NamespacedName)
  | getDeployment (reader : Reader) (key : NamespacedName)
  | averageCPU (target : Deployment) (window : ℤ)
  | now
  | wallClock
  | getScale (target : NamespacedName)
  | forgetHistory (key : NamespacedName)
  | evaluateDecision (phpa : PredictiveHPA) (deploy : Deployment) (scale : Scale) (now : ℤ)
      (currentCPU rawPredictedCPU : K)
  | updateScale (target : NamespacedName) (body : Scale)
  | patchStatus (before after : PredictiveHPA)

@[reducible] def Op.Result {K : Type} : Op K → Type
  | .getPHPA _ _ => Except Err PredictiveHPA
  | .getDeployment _ _ => Except Err Deployment
  | .averageCPU _ _ => Except Err (CPUHistory K)
  | .now => ℤ
  | .wallClock => ℤ
  | .getScale _ => Except Err Scale
  | .forgetHistory _ => Unit
  | .evaluateDecision _ _ _ _ _ _ => ScalingDecision K
  | .updateScale _ _ => Except Err Unit
  | .patchStatus _ _ => Except Err Unit

abbrev Program (K α : Type) := Prog (Op K) Op.Result α

/-- `meta.SetStatusCondition` with the instant it would stamp on a transition: the condition of
that type takes the new content, the others stay as they are. -/
structure StatusConditions where
  setStatusCondition : List Condition → Condition → ℤ → List Condition
  others : ∀ conditions new now,
    (setStatusCondition conditions new now).filter (fun c => c.type != new.type) =
      conditions.filter fun c => c.type != new.type
  found : ∀ conditions new now, ∃ c,
    (setStatusCondition conditions new now).find? (fun c => c.type == new.type) = some c ∧
      c.status = new.status ∧ c.reason = new.reason ∧ c.message = new.message ∧
      c.observedGeneration = new.observedGeneration

/-- The first condition of the type is replaced in place, and keeps its transition time when the
status stays; a new type is appended. -/
def upsertCondition (now : ℤ) (new : Condition) : List Condition → List Condition
  | [] => [{ new with
      lastTransitionTime := if Time.isZero new.lastTransitionTime then now
        else new.lastTransitionTime }]
  | c :: rest =>
    if c.type = new.type then
      { new with
        lastTransitionTime := if c.status = new.status then c.lastTransitionTime
          else if Time.isZero new.lastTransitionTime then now else new.lastTransitionTime } :: rest
    else c :: upsertCondition now new rest

theorem upsertCondition_others (now : ℤ) (new : Condition) (conditions : List Condition) :
    (upsertCondition now new conditions).filter (fun c => c.type != new.type) =
      conditions.filter fun c => c.type != new.type := by
  induction conditions with
  | nil => simp [upsertCondition]
  | cons c rest ih =>
    by_cases h : c.type = new.type
    · rw [upsertCondition, if_pos h]
      simp [h]
    · rw [upsertCondition, if_neg h, List.filter_cons, List.filter_cons, ih]

theorem upsertCondition_found (now : ℤ) (new : Condition) (conditions : List Condition) :
    ∃ c, (upsertCondition now new conditions).find? (fun c => c.type == new.type) = some c ∧
      c.status = new.status ∧ c.reason = new.reason ∧ c.message = new.message ∧
      c.observedGeneration = new.observedGeneration := by
  induction conditions with
  | nil => exact ⟨_, List.find?_cons_of_pos (by simp), rfl, rfl, rfl, rfl⟩
  | cons c rest ih =>
    by_cases h : c.type = new.type
    · rw [upsertCondition, if_pos h]
      exact ⟨_, List.find?_cons_of_pos (by simp), rfl, rfl, rfl, rfl⟩
    · rw [upsertCondition, if_neg h]
      obtain ⟨found, hfound, hcontent⟩ := ih
      exact ⟨found, (List.find?_cons_of_neg (by simpa using h)).trans hfound, hcontent⟩

def metaConditions : StatusConditions where
  setStatusCondition conditions new now := upsertCondition now new conditions
  others conditions new now := upsertCondition_others now new conditions
  found conditions new now := upsertCondition_found now new conditions

structure PredictiveHPAReconciler (K : Type) where
  hasAPIReader : Bool
  requeueInterval : ℤ
  isDNS1123Subdomain : String → List String
  pow : K → K → K
  formatTime : ℤ → String
  formatDuration : ℤ → String
  conditions : StatusConditions

variable {K : Type}

/-- Safety reads use the `APIReader` when there is one. -/
def PredictiveHPAReconciler.reader (r : PredictiveHPAReconciler K) : Reader :=
  if r.hasAPIReader then .api else .cache

def safetyReconciler : PredictiveHPAReconciler ℚ where
  hasAPIReader := true
  requeueInterval := 0
  isDNS1123Subdomain _ := []
  pow x y := x ^ ⌊y⌋.toNat
  formatTime := toString
  formatDuration := toString
  conditions := metaConditions

end Autoscaler.Controller
