import Autoscaler.Controller.Client
import Mathlib.Data.Set.Insert
import Mathlib.Logic.Function.Basic

/-! The API server that a reconciliation talks to. Every write gets a new resource version, a spec
edit a new generation and a new object a new UID. Uncached reads are live, cached reads may be old,
and a write with a stale resource version is rejected. -/
namespace Autoscaler.Controller

open Effects

structure World where
  phpas : NamespacedName → Option PredictiveHPA
  deployments : NamespacedName → Option Deployment
  phpaVersions : Set PredictiveHPA
  deploymentVersions : Set Deployment
  revision : ℕ
  history : History

namespace World

def putPHPA (w : World) (p : PredictiveHPA) : World :=
  { w with
    phpas := Function.update w.phpas p.metadata.key (some p)
    phpaVersions := insert p w.phpaVersions
    revision := w.revision + 1 }

def putDeployment (w : World) (d : Deployment) : World :=
  { w with
    deployments := Function.update w.deployments d.metadata.key (some d)
    deploymentVersions := insert d w.deploymentVersions
    revision := w.revision + 1 }

theorem putPHPA_self (w : World) (p : PredictiveHPA) :
    (w.putPHPA p).phpas p.metadata.key = some p := Function.update_self ..

theorem putPHPA_of_ne (w : World) {p : PredictiveHPA} {key : NamespacedName}
    (h : key ≠ p.metadata.key) : (w.putPHPA p).phpas key = w.phpas key := Function.update_of_ne h ..

/-- A new object has a new UID; a write to an object keeps the spec or raises the generation. -/
def AdmitsPHPA (w : World) (p : PredictiveHPA) : Prop :=
  p.metadata.resourceVersion = w.revision ∧
    ((∀ q ∈ w.phpaVersions, q.metadata.uid ≠ p.metadata.uid) ∨
      ∃ q, w.phpas p.metadata.key = some q ∧ q.metadata.uid = p.metadata.uid ∧
        (q.metadata.generation < p.metadata.generation ∨
          q.metadata.generation = p.metadata.generation ∧ q.spec = p.spec))

end World

def scaledDeployment (d : Deployment) (body : Scale) (revision : ℕ) : Deployment :=
  { d with
    metadata := { d.metadata with
      generation := d.metadata.generation + 1
      resourceVersion := revision }
    specReplicas := body.specReplicas }

/-- A merge patch sets the fields in which its two sides differ. -/
def mergeField {α : Type} [DecidableEq α] (live before after : α) : α :=
  if before = after then live else after

def mergeStatus (live before after : PredictiveHPAStatus) : PredictiveHPAStatus where
  currentReplicas := mergeField live.currentReplicas before.currentReplicas after.currentReplicas
  desiredReplicas := mergeField live.desiredReplicas before.desiredReplicas after.desiredReplicas
  currentCPUUtilizationPercentage := mergeField live.currentCPUUtilizationPercentage
    before.currentCPUUtilizationPercentage after.currentCPUUtilizationPercentage
  predictedCPUUtilizationPercentage := mergeField live.predictedCPUUtilizationPercentage
    before.predictedCPUUtilizationPercentage after.predictedCPUUtilizationPercentage
  lastScaleTime := mergeField live.lastScaleTime before.lastScaleTime after.lastScaleTime
  conditions := mergeField live.conditions before.conditions after.conditions

def withStatus (p : PredictiveHPA) (status : PredictiveHPAStatus) (revision : ℕ) :
    PredictiveHPA :=
  { p with metadata := { p.metadata with resourceVersion := revision }, status := status }

@[simp] theorem withStatus_key (p : PredictiveHPA) (status : PredictiveHPAStatus) (revision : ℕ) :
    (withStatus p status revision).metadata.key = p.metadata.key := rfl

def patchedPHPA (live before after : PredictiveHPA) (revision : ℕ) : PredictiveHPA :=
  withStatus live (mergeStatus live.status before.status after.status) revision

theorem mergeField_self {α : Type} [DecidableEq α] (before after : α) :
    mergeField before before after = after := by
  unfold mergeField
  split_ifs with h
  · exact h
  · rfl

/-- A patch that applies to the version it was computed from yields its new side. -/
theorem mergeStatus_self (before after : PredictiveHPAStatus) :
    mergeStatus before before after = after := by
  simp [mergeStatus, mergeField_self]

namespace World

/-- The write of a Scale body is accepted: the live object still has its resource version. -/
def ScaleWritten (w : World) (target : NamespacedName) (body : Scale) (w' : World) : Prop :=
  ∃ d, w.deployments target = some d ∧ d.metadata.resourceVersion = body.resourceVersion ∧
    w' = w.putDeployment (scaledDeployment d body w.revision)

/-- A status patch is accepted: the live object still has the resource version it is based on. -/
def StatusPatched (w : World) (before after : PredictiveHPA) (w' : World) : Prop :=
  ∃ p, w.phpas before.metadata.key = some p ∧
    p.metadata.resourceVersion = before.metadata.resourceVersion ∧
    w' = w.putPHPA (patchedPHPA p before after w.revision)

variable {K : Type} [Field K] [LinearOrder K] [FloorRing K]

/-- What each operation may answer and do. A write may be accepted although its answer is lost. -/
def Performs (w : World) : (op : Op K) → op.Result → World → Prop
  | .getPHPA reader key, found, w' => w' = w ∧
      match found, reader with
      | .ok p, .api => w.phpas key = some p
      | .ok p, .cache => p ∈ w.phpaVersions ∧ p.metadata.key = key
      | .error err, .api => err.is .notFound = true → w.phpas key = none
      | .error _, .cache => True
  | .getDeployment reader key, found, w' => w' = w ∧
      match found, reader with
      | .ok d, .api => w.deployments key = some d
      | .ok d, .cache => d ∈ w.deploymentVersions ∧ d.metadata.key = key
      | .error err, .api => err.is .notFound = true → w.deployments key = none
      | .error _, .cache => True
  | .averageCPU _ _, _, w' => w' = w
  | .now, _, w' => w' = w
  | .wallClock, _, w' => w' = w
  | .getScale target, found, w' => w' = w ∧
      match found with
      | .ok scale => ∃ d, w.deployments target = some d ∧ scale = d.scale
      | .error _ => True
  | .forgetHistory key, _, w' => w' = { w with history := Function.update w.history key none }
  | .evaluateDecision phpa deploy scale now currentCPU rawPredictedCPU, decision, w' =>
      (decision, w'.history) =
        evaluateDecision w.history phpa deploy scale now currentCPU rawPredictedCPU ∧
      w' = { w with history := w'.history }
  | .updateScale target body, answer, w' =>
      w.ScaleWritten target body w' ∨ (w' = w ∧ ∃ err, answer = .error err)
  | .patchStatus before after, answer, w' =>
      w.StatusPatched before after w' ∨ (w' = w ∧ ∃ err, answer = .error err)

/-- What others do: they write and delete objects, and reconcile other requests. -/
inductive Interferes : World → World → Prop where
  | writePHPA {w p} : w.AdmitsPHPA p → Interferes w (w.putPHPA p)
  | deletePHPA (w key) : Interferes w { w with phpas := Function.update w.phpas key none }
  | writeDeployment {w d} : d.metadata.resourceVersion = w.revision →
      Interferes w (w.putDeployment d)
  | deleteDeployment (w key) :
      Interferes w { w with deployments := Function.update w.deployments key none }
  | reconcileOther (w history) : Interferes w { w with history := history }

end World

/-- Reconciliations run against the API server under interference by all other actors. -/
def cluster (K : Type) [Field K] [LinearOrder K] [FloorRing K] :
    Semantics World (Op K) Op.Result where
  perform := World.Performs
  interfere := World.Interferes

/-- Versions are told apart by resource version, and policies by UID and generation. -/
structure World.WellFormed (w : World) : Prop where
  phpa_live : ∀ key p, w.phpas key = some p → p ∈ w.phpaVersions ∧ p.metadata.key = key
  phpa_old : ∀ p ∈ w.phpaVersions, p.metadata.resourceVersion < w.revision
  phpa_version : ∀ p ∈ w.phpaVersions, ∀ q ∈ w.phpaVersions,
    p.metadata.resourceVersion = q.metadata.resourceVersion → p = q
  phpa_key : ∀ p ∈ w.phpaVersions, ∀ q ∈ w.phpaVersions, p.metadata.uid = q.metadata.uid →
    p.metadata.key = q.metadata.key
  phpa_spec : ∀ p ∈ w.phpaVersions, ∀ q ∈ w.phpaVersions, p.metadata.uid = q.metadata.uid →
    p.metadata.generation = q.metadata.generation → p.spec = q.spec
  phpa_generation : ∀ key p, w.phpas key = some p → ∀ q ∈ w.phpaVersions,
    q.metadata.uid = p.metadata.uid → q.metadata.generation ≤ p.metadata.generation
  deployment_live : ∀ key d, w.deployments key = some d →
    d ∈ w.deploymentVersions ∧ d.metadata.key = key
  deployment_old : ∀ d ∈ w.deploymentVersions, d.metadata.resourceVersion < w.revision
  deployment_version : ∀ d ∈ w.deploymentVersions, ∀ e ∈ w.deploymentVersions,
    d.metadata.resourceVersion = e.metadata.resourceVersion → d = e

def World.Grows (w w' : World) : Prop :=
  w.phpaVersions ⊆ w'.phpaVersions ∧ w.deploymentVersions ⊆ w'.deploymentVersions

namespace World

theorem Grows.refl (w : World) : w.Grows w := ⟨subset_rfl, subset_rfl⟩

theorem Grows.trans {a b c : World} (hab : a.Grows b) (hbc : b.Grows c) : a.Grows c :=
  ⟨hab.1.trans hbc.1, hab.2.trans hbc.2⟩

theorem grows_putPHPA (w : World) (p : PredictiveHPA) : w.Grows (w.putPHPA p) :=
  ⟨Set.subset_insert _ _, subset_rfl⟩

theorem grows_putDeployment (w : World) (d : Deployment) : w.Grows (w.putDeployment d) :=
  ⟨subset_rfl, Set.subset_insert _ _⟩

theorem Interferes.grows {w w' : World} (h : w.Interferes w') : w.Grows w' := by
  cases h with
  | writePHPA _ => exact grows_putPHPA _ _
  | writeDeployment _ => exact grows_putDeployment _ _
  | deletePHPA _ => exact Grows.refl _
  | deleteDeployment _ => exact Grows.refl _
  | reconcileOther _ => exact Grows.refl _

variable {w : World}

/-- A version written over an object is newer than every version of that object. -/
theorem WellFormed.admitted_cases {p q : PredictiveHPA} (hw : w.WellFormed)
    (hp : w.AdmitsPHPA p) (hq : q ∈ w.phpaVersions) (huid : q.metadata.uid = p.metadata.uid) :
    q.metadata.key = p.metadata.key ∧ q.metadata.generation ≤ p.metadata.generation ∧
      (q.metadata.generation = p.metadata.generation → q.spec = p.spec) := by
  rcases hp.2 with hfresh | ⟨live, hlive, hsame, hgen⟩
  · exact absurd huid (hfresh q hq)
  · have ⟨hmem, hkey⟩ := hw.phpa_live _ _ hlive
    have hql : q.metadata.uid = live.metadata.uid := huid.trans hsame.symm
    have hle := hw.phpa_generation _ _ hlive q hq hql
    refine ⟨(hw.phpa_key q hq live hmem hql).trans hkey, ?_, ?_⟩
    · rcases hgen with hlt | ⟨heq, -⟩ <;> omega
    · intro hqp
      rcases hgen with hlt | ⟨heq, hspec⟩
      · omega
      · exact (hw.phpa_spec q hq live hmem hql (by omega)).trans hspec

theorem WellFormed.putPHPA {p : PredictiveHPA} (hw : w.WellFormed) (hp : w.AdmitsPHPA p) :
    (w.putPHPA p).WellFormed where
  phpa_live key q hq := by
    by_cases hkey : key = p.metadata.key
    · subst hkey
      rw [putPHPA_self] at hq
      cases hq
      exact ⟨Set.mem_insert _ _, rfl⟩
    · rw [putPHPA_of_ne w hkey] at hq
      have ⟨hmem, hk⟩ := hw.phpa_live key q hq
      exact ⟨Set.mem_insert_of_mem _ hmem, hk⟩
  phpa_old q hq := by
    rcases Set.mem_insert_iff.mp hq with rfl | hold
    · rw [hp.1]
      exact Nat.lt_succ_self _
    · exact (hw.phpa_old q hold).trans (Nat.lt_succ_self _)
  phpa_version q hq q' hq' hrv := by
    rcases Set.mem_insert_iff.mp hq with rfl | hold <;>
      rcases Set.mem_insert_iff.mp hq' with rfl | hold'
    · rfl
    · have := hw.phpa_old q' hold'
      have := hp.1
      omega
    · have := hw.phpa_old q hold
      have := hp.1
      omega
    · exact hw.phpa_version q hold q' hold' hrv
  phpa_key q hq q' hq' huid := by
    rcases Set.mem_insert_iff.mp hq with rfl | hold <;>
      rcases Set.mem_insert_iff.mp hq' with rfl | hold'
    · rfl
    · exact (hw.admitted_cases hp hold' huid.symm).1.symm
    · exact (hw.admitted_cases hp hold huid).1
    · exact hw.phpa_key q hold q' hold' huid
  phpa_spec q hq q' hq' huid hgen := by
    rcases Set.mem_insert_iff.mp hq with rfl | hold <;>
      rcases Set.mem_insert_iff.mp hq' with rfl | hold'
    · rfl
    · exact ((hw.admitted_cases hp hold' huid.symm).2.2 hgen.symm).symm
    · exact (hw.admitted_cases hp hold huid).2.2 hgen
    · exact hw.phpa_spec q hold q' hold' huid hgen
  phpa_generation key q hq q' hq' huid := by
    by_cases hkey : key = p.metadata.key
    · subst hkey
      rw [putPHPA_self] at hq
      cases hq
      rcases Set.mem_insert_iff.mp hq' with rfl | hold
      · exact le_rfl
      · exact (hw.admitted_cases hp hold huid).2.1
    · rw [putPHPA_of_ne w hkey] at hq
      have ⟨hmem, hk⟩ := hw.phpa_live key q hq
      rcases Set.mem_insert_iff.mp hq' with rfl | hold
      · exact absurd (hk.symm.trans (hw.admitted_cases hp hmem huid.symm).1) hkey
      · exact hw.phpa_generation key q hq q' hold huid
  deployment_live := hw.deployment_live
  deployment_old d hd := (hw.deployment_old d hd).trans (Nat.lt_succ_self _)
  deployment_version := hw.deployment_version

theorem WellFormed.putDeployment {d : Deployment} (hw : w.WellFormed)
    (hd : d.metadata.resourceVersion = w.revision) : (w.putDeployment d).WellFormed where
  phpa_live := hw.phpa_live
  phpa_old p hp := (hw.phpa_old p hp).trans (Nat.lt_succ_self _)
  phpa_version := hw.phpa_version
  phpa_key := hw.phpa_key
  phpa_spec := hw.phpa_spec
  phpa_generation := hw.phpa_generation
  deployment_live key e he := by
    unfold World.putDeployment at he ⊢
    dsimp only at he ⊢
    by_cases hkey : key = d.metadata.key
    · subst hkey
      rw [Function.update_self] at he
      cases he
      exact ⟨Set.mem_insert _ _, rfl⟩
    · rw [Function.update_of_ne hkey] at he
      have ⟨hmem, hk⟩ := hw.deployment_live key e he
      exact ⟨Set.mem_insert_of_mem _ hmem, hk⟩
  deployment_old e he := by
    rcases Set.mem_insert_iff.mp he with rfl | hold
    · rw [hd]
      exact Nat.lt_succ_self _
    · exact (hw.deployment_old e hold).trans (Nat.lt_succ_self _)
  deployment_version e he e' he' hrv := by
    rcases Set.mem_insert_iff.mp he with rfl | hold <;>
      rcases Set.mem_insert_iff.mp he' with rfl | hold'
    · rfl
    · have := hw.deployment_old e' hold'
      omega
    · have := hw.deployment_old e hold
      omega
    · exact hw.deployment_version e hold e' hold' hrv

theorem WellFormed.of_fewer {w' : World} (hw : w.WellFormed)
    (hp : ∀ key p, w'.phpas key = some p → w.phpas key = some p)
    (hd : ∀ key d, w'.deployments key = some d → w.deployments key = some d)
    (hpv : w'.phpaVersions = w.phpaVersions) (hdv : w'.deploymentVersions = w.deploymentVersions)
    (hrev : w'.revision = w.revision) : w'.WellFormed where
  phpa_live key p h := hpv ▸ hw.phpa_live key p (hp key p h)
  phpa_old p h := hrev ▸ hw.phpa_old p (hpv ▸ h)
  phpa_version p h q h' := hw.phpa_version p (hpv ▸ h) q (hpv ▸ h')
  phpa_key p h q h' := hw.phpa_key p (hpv ▸ h) q (hpv ▸ h')
  phpa_spec p h q h' := hw.phpa_spec p (hpv ▸ h) q (hpv ▸ h')
  phpa_generation key p h q h' := hw.phpa_generation key p (hp key p h) q (hpv ▸ h')
  deployment_live key d h := hdv ▸ hw.deployment_live key d (hd key d h)
  deployment_old d h := hrev ▸ hw.deployment_old d (hdv ▸ h)
  deployment_version d h e h' := hw.deployment_version d (hdv ▸ h) e (hdv ▸ h')

theorem update_none_some {α β : Type} [DecidableEq α] {f : α → Option β} {key k : α} {b : β}
    (h : Function.update f key none k = some b) : f k = some b := by
  by_cases hk : k = key
  · subst hk
    rw [Function.update_self] at h
    cases h
  · rwa [Function.update_of_ne hk] at h

theorem WellFormed.interferes {w' : World} (hw : w.WellFormed) (h : w.Interferes w') :
    w'.WellFormed := by
  cases h with
  | writePHPA hp => exact hw.putPHPA hp
  | writeDeployment hd => exact hw.putDeployment hd
  | deletePHPA key =>
    exact hw.of_fewer (fun _ _ => update_none_some) (fun _ _ h => h) rfl rfl rfl
  | deleteDeployment key =>
    exact hw.of_fewer (fun _ _ h => h) (fun _ _ => update_none_some) rfl rfl rfl
  | reconcileOther history =>
    exact hw.of_fewer (fun _ _ h => h) (fun _ _ h => h) rfl rfl rfl

theorem WellFormed.mem_of_getPHPA {K : Type} [Field K] [LinearOrder K] [FloorRing K]
    {reader : Reader} {key : NamespacedName} {p : PredictiveHPA} {w' : World} (hw : w.WellFormed)
    (h : w.Performs (Op.getPHPA reader key : Op K) (.ok p) w') :
    p ∈ w.phpaVersions ∧ p.metadata.key = key := by
  cases reader with
  | cache => exact h.2
  | api => exact hw.phpa_live key p h.2

theorem WellFormed.eq_of_phpa_version {key : NamespacedName} {p q : PredictiveHPA}
    (hw : w.WellFormed) (hp : w.phpas key = some p) (hq : q ∈ w.phpaVersions)
    (hrv : p.metadata.resourceVersion = q.metadata.resourceVersion) : p = q :=
  hw.phpa_version p (hw.phpa_live key p hp).1 q hq hrv

theorem WellFormed.eq_of_deployment_version {key : NamespacedName} {d e : Deployment}
    (hw : w.WellFormed) (hd : w.deployments key = some d) (he : e ∈ w.deploymentVersions)
    (hrv : d.metadata.resourceVersion = e.metadata.resourceVersion) : d = e :=
  hw.deployment_version d (hw.deployment_live key d hd).1 e he hrv

section Performs

variable {K : Type} [Field K] [LinearOrder K] [FloorRing K]

/-- An accepted Scale write overwrites the version that its body was read from. -/
theorem ScaleWritten.overwrites {target : NamespacedName} {body : Scale} {d : Deployment}
    {w' : World} (hw : w.WellFormed) (h : w.ScaleWritten target body w')
    (hread : d ∈ w.deploymentVersions)
    (hversion : body.resourceVersion = d.metadata.resourceVersion) :
    w.deployments target = some d := by
  obtain ⟨live, hlive, hsame, -⟩ := h
  have heq : live = d := hw.eq_of_deployment_version hlive hread (hsame.trans hversion)
  rw [hlive, heq]

/-- An accepted patch of a stored version applies to that version, and is applied in full. -/
theorem StatusPatched.replaced {before : PredictiveHPA} {status : PredictiveHPAStatus} {w' : World}
    (hw : w.WellFormed) (hmem : before ∈ w.phpaVersions)
    (h : w.StatusPatched before { before with status := status } w') :
    w.phpas before.metadata.key = some before ∧
      w' = w.putPHPA (withStatus before status w.revision) := by
  obtain ⟨live, hlive, hrv, rfl⟩ := h
  obtain rfl := hw.eq_of_phpa_version hlive hmem hrv
  refine ⟨hlive, ?_⟩
  unfold patchedPHPA
  rw [mergeStatus_self]

theorem StatusPatched.admits {before after : PredictiveHPA} {w' : World} (hw : w.WellFormed)
    (h : w.StatusPatched before after w') :
    ∃ p, w.AdmitsPHPA p ∧ w' = w.putPHPA p := by
  obtain ⟨live, hlive, -, rfl⟩ := h
  have hkey := (hw.phpa_live _ _ hlive).2
  have hlive' : w.phpas live.metadata.key = some live := hkey ▸ hlive
  exact ⟨patchedPHPA live before after w.revision,
    ⟨rfl, .inr ⟨live, hlive', rfl, .inr ⟨rfl, rfl⟩⟩⟩, rfl⟩

/-- An operation writes one object, changes the history, or changes nothing. -/
theorem Performs.cases {op : Op K} {answer : op.Result} {w' : World} (hw : w.WellFormed)
    (h : w.Performs op answer w') :
    (∃ p, w.AdmitsPHPA p ∧ w' = w.putPHPA p) ∨
    (∃ d, d.metadata.resourceVersion = w.revision ∧ w' = w.putDeployment d) ∨
    ∃ history, w' = { w with history := history } := by
  cases op with
  | getPHPA reader key => exact .inr (.inr ⟨w.history, h.1⟩)
  | getDeployment reader key => exact .inr (.inr ⟨w.history, h.1⟩)
  | averageCPU target window => exact .inr (.inr ⟨w.history, h⟩)
  | now => exact .inr (.inr ⟨w.history, h⟩)
  | wallClock => exact .inr (.inr ⟨w.history, h⟩)
  | getScale target => exact .inr (.inr ⟨w.history, h.1⟩)
  | forgetHistory key => exact .inr (.inr ⟨_, h⟩)
  | evaluateDecision phpa deploy scale now currentCPU rawPredictedCPU =>
    exact .inr (.inr ⟨_, h.2⟩)
  | updateScale target body =>
    rcases h with ⟨d, -, -, rfl⟩ | ⟨rfl, -⟩
    · exact .inr (.inl ⟨_, rfl, rfl⟩)
    · exact .inr (.inr ⟨_, rfl⟩)
  | patchStatus before after =>
    rcases h with h | ⟨rfl, -⟩
    · exact .inl (h.admits hw)
    · exact .inr (.inr ⟨_, rfl⟩)

theorem WellFormed.performs {op : Op K} {answer : op.Result} {w' : World} (hw : w.WellFormed)
    (h : w.Performs op answer w') : w'.WellFormed := by
  rcases h.cases hw with ⟨p, hp, rfl⟩ | ⟨d, hd, rfl⟩ | ⟨history, rfl⟩
  · exact hw.putPHPA hp
  · exact hw.putDeployment hd
  · exact hw.interferes (.reconcileOther w history)

theorem Performs.grows {op : Op K} {answer : op.Result} {w' : World}
    (h : w.Performs op answer w') : w.Grows w' := by
  cases op with
  | getPHPA reader key => exact h.1 ▸ Grows.refl w
  | getDeployment reader key => exact h.1 ▸ Grows.refl w
  | averageCPU target window => exact h ▸ Grows.refl w
  | now => exact h ▸ Grows.refl w
  | wallClock => exact h ▸ Grows.refl w
  | getScale target => exact h.1 ▸ Grows.refl w
  | forgetHistory key => exact h ▸ Grows.refl w
  | evaluateDecision phpa deploy scale now currentCPU rawPredictedCPU =>
    exact h.2 ▸ Grows.refl w
  | updateScale target body =>
    rcases h with ⟨d, -, -, rfl⟩ | ⟨rfl, -⟩
    · exact grows_putDeployment _ _
    · exact Grows.refl _
  | patchStatus before after =>
    rcases h with ⟨p, -, -, rfl⟩ | ⟨rfl, -⟩
    · exact grows_putPHPA _ _
    · exact Grows.refl _

variable {α : Type} {p : Program K α} {events : List (Event World (Op K) Op.Result)}
  {result : Option α} {w' : World}

theorem WellFormed.exec (hw : w.WellFormed) (h : Exec (cluster K) w p events result w') :
    (∀ e ∈ events, e.before.WellFormed ∧ e.after.WellFormed) ∧ w'.WellFormed :=
  h.invariant (fun _ _ hstep hw => hw.interferes hstep) (fun _ _ _ _ hstep hw => hw.performs hstep)
    hw

theorem grows_exec (h : Exec (cluster K) w p events result w') :
    (∀ e ∈ events, w.Grows e.before ∧ e.after.Grows w') ∧
      (events.Pairwise fun e e' => e.after.Grows e'.before) ∧ w.Grows w' :=
  h.ordered Grows.refl (fun _ _ _ => Grows.trans) (fun _ _ => Interferes.grows)
    (fun _ _ _ _ => Performs.grows)

end Performs

end World

def safetyWorld : World where
  phpas key := if key = safetyPHPA.metadata.key then some safetyPHPA else none
  deployments key := if key = safetyDeployment.metadata.key then some safetyDeployment else none
  phpaVersions := {safetyPHPA}
  deploymentVersions := {safetyDeployment}
  revision := 3
  history _ := none

theorem safetyWorld_wellFormed : safetyWorld.WellFormed where
  phpa_live key p h := by
    unfold safetyWorld at h ⊢
    dsimp only at h ⊢
    split_ifs at h with hkey
    cases h
    exact ⟨rfl, hkey.symm⟩
  phpa_old p hp := by
    cases hp
    decide
  phpa_version p hp q hq _ := hp.trans hq.symm
  phpa_key p hp q hq _ := congrArg (fun x => x.metadata.key) (hp.trans hq.symm)
  phpa_spec p hp q hq _ _ := congrArg (fun x => x.spec) (hp.trans hq.symm)
  phpa_generation key p h q hq _ := by
    unfold safetyWorld at h
    dsimp only at h
    split_ifs at h with hkey
    cases h
    cases hq
    exact le_rfl
  deployment_live key d h := by
    unfold safetyWorld at h ⊢
    dsimp only at h ⊢
    split_ifs at h with hkey
    cases h
    exact ⟨rfl, hkey.symm⟩
  deployment_old d hd := by
    cases hd
    decide
  deployment_version d hd e he _ := hd.trans he.symm

end Autoscaler.Controller
