import Autoscaler.Time

/-! API objects read and written by the controller, with the fields its code uses. -/
namespace Autoscaler

abbrev UID := String

structure NamespacedName where
  ns : String
  name : String
  deriving DecidableEq, Repr

structure ObjectMeta where
  ns : String
  name : String
  uid : UID
  generation : ℤ
  resourceVersion : ℕ
  deletionTimestamp : Option ℤ
  deriving DecidableEq, Repr

def ObjectMeta.key (m : ObjectMeta) : NamespacedName := ⟨m.ns, m.name⟩

/-- `DeletionTimestamp.IsZero`: a nil pointer and a zero time both count as unset. -/
def ObjectMeta.notDeleting (m : ObjectMeta) : Bool :=
  match m.deletionTimestamp with
  | none => true
  | some t => Time.isZero t

inductive PredictionAlgorithm where
  | unset
  | ewma
  | unknown (value : String)
  deriving DecidableEq, Repr

inductive DecisionMode where
  | unset
  | predictive
  | current
  | hybrid
  | unknown (value : String)
  deriving DecidableEq, Repr

/-- The string value of a mode, which the replay uses as an object name. -/
def DecisionMode.value : DecisionMode → String
  | .unset => ""
  | .predictive => "Predictive"
  | .current => "Current"
  | .hybrid => "Hybrid"
  | .unknown value => value

structure CrossVersionObjectReference where
  apiVersion : String
  kind : String
  name : String
  deriving DecidableEq, Repr

structure PredictionConfig where
  algorithm : PredictionAlgorithm
  alphaPercent : ℤ
  window : ℤ
  horizon : ℤ
  deriving DecidableEq, Repr

structure PredictiveHPASpec where
  scaleTargetRef : CrossVersionObjectReference
  minReplicas : Option ℤ
  maxReplicas : ℤ
  targetCPUUtilizationPercentage : ℤ
  prediction : PredictionConfig
  decisionMode : DecisionMode
  scaleDownStabilizationWindowSeconds : Option ℤ
  deriving DecidableEq, Repr

inductive ConditionStatus where
  | true
  | false
  | unknown
  deriving DecidableEq, Repr

structure Condition where
  type : String
  status : ConditionStatus
  reason : String
  message : String
  observedGeneration : ℤ
  lastTransitionTime : ℤ
  deriving DecidableEq, Repr

structure PredictiveHPAStatus where
  currentReplicas : ℤ
  desiredReplicas : ℤ
  currentCPUUtilizationPercentage : Option ℤ
  predictedCPUUtilizationPercentage : Option ℤ
  lastScaleTime : Option ℤ
  conditions : List Condition
  deriving DecidableEq, Repr

structure PredictiveHPA where
  metadata : ObjectMeta
  spec : PredictiveHPASpec
  status : PredictiveHPAStatus
  deriving DecidableEq, Repr

/-- A Deployment with its requested (`spec`) and observed (`status`) replica counts. -/
structure Deployment where
  metadata : ObjectMeta
  specReplicas : ℤ
  statusReplicas : ℤ
  deriving DecidableEq, Repr

structure Scale where
  uid : UID
  resourceVersion : ℕ
  specReplicas : ℤ
  statusReplicas : ℤ
  deriving DecidableEq, Repr

def Deployment.scale (d : Deployment) : Scale :=
  ⟨d.metadata.uid, d.metadata.resourceVersion, d.specReplicas, d.statusReplicas⟩

/-- The policy of the reconcile safety tests. -/
def safetySpec : PredictiveHPASpec where
  scaleTargetRef := ⟨"apps/v1", "Deployment", "web"⟩
  minReplicas := none
  maxReplicas := 10
  targetCPUUtilizationPercentage := 50
  prediction := ⟨.ewma, 30, 300 * second, 30 * second⟩
  decisionMode := .current
  scaleDownStabilizationWindowSeconds := some 60

def safetyPHPA : PredictiveHPA where
  metadata := ⟨"test", "web", "phpa-one", 1, 1, none⟩
  spec := safetySpec
  status := ⟨0, 0, some 80, some 80, some 1, []⟩

def safetyDeployment : Deployment where
  metadata := ⟨"test", "web", "deployment-one", 1, 2, none⟩
  specReplicas := 5
  statusReplicas := 5

end Autoscaler
