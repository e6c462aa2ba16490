import Autoscaler.Controller.Reconcile
import Autoscaler.Controller.StatusWrites

/-! A reconciliation without usable metrics scales nothing, and says so in the status. -/
namespace Autoscaler.Controller

open Effects MetricsProvider PredictiveHPAReconciler

/-- The part of a status that belongs to completed decisions and to other writers. -/
structure ScalingState where
  lastScaleTime : Option ℤ
  currentReplicas : ℤ
  desiredReplicas : ℤ
  conditions : List Condition
  deriving DecidableEq, Repr

def scalingState (status : PredictiveHPAStatus) : ScalingState where
  lastScaleTime := status.lastScaleTime
  currentReplicas := status.currentReplicas
  desiredReplicas := status.desiredReplicas
  conditions := status.conditions.filter fun c =>
    c.type != conditionMetricsReady && c.type != conditionScaleDownStabilized

/-- Both CPU values are absent and `MetricsReady` is false. -/
structure ReportsUnavailable (status : PredictiveHPAStatus) : Prop where
  currentCPU : status.currentCPUUtilizationPercentage = none
  predictedCPU : status.predictedCPUUtilizationPercentage = none
  metricsReady : ∃ c, status.conditions.find? (fun c => c.type == conditionMetricsReady) = some c ∧
    c.status = .false

namespace PredictiveHPAReconciler

variable {K : Type} (r : PredictiveHPAReconciler K)

/-- Setting one condition leaves a filter that excludes its type alone. -/
theorem filter_setStatusCondition {P : Condition → Bool} (conditions : List Condition)
    (new : Condition) (now : ℤ) (hP : ∀ c, P c = true → (c.type != new.type) = true) :
    (r.conditions.setStatusCondition conditions new now).filter P = conditions.filter P := by
  have hfilter : ∀ l : List Condition,
      l.filter P = (l.filter fun c => c.type != new.type).filter P := by
    intro l
    rw [List.filter_filter]
    refine List.filter_congr fun c _ => ?_
    cases h : P c
    · rfl
    · rw [hP c h]
      rfl
  rw [hfilter, r.conditions.others, ← hfilter]

theorem find_setStatusCondition {P : Condition → Bool} (conditions : List Condition)
    (new : Condition) (now : ℤ) (hP : ∀ c, P c = true → (c.type != new.type) = true) :
    (r.conditions.setStatusCondition conditions new now).find? P = conditions.find? P := by
  rw [← List.head?_filter, r.filter_setStatusCondition conditions new now hP, List.head?_filter]

theorem unavailableStatus_ensures (phpa : PredictiveHPA) (err : Err)
    (status : PredictiveHPAStatus) :
    (r.unavailableStatus phpa err status).Ensures (fun op => op = .wallClock) fun status' =>
      scalingState status' = scalingState status ∧ ReportsUnavailable status' := by
  unfold unavailableStatus
  refine Prog.ensures_bind (r.setStatusCondition_ensures _ _) ?_
  rintro _ ⟨now, rfl⟩
  refine ⟨rfl, fun now' => ⟨?_, rfl, rfl, ?_⟩⟩
  · simp only [scalingState, ScalingState.mk.injEq, true_and]
    rw [filter_setStatusCondition, filter_setStatusCondition]
    · intro c hc
      exact (Bool.and_eq_true _ _ ▸ hc).1
    · intro c hc
      exact (Bool.and_eq_true _ _ ▸ hc).2
  · obtain ⟨c, hc, hstatus, -⟩ := r.conditions.found status.conditions
      { type := conditionMetricsReady, status := .false, reason := (metricsFailureReason err).1,
        message := err.message, observedGeneration := phpa.metadata.generation,
        lastTransitionTime := 0 } now
    refine ⟨c, ?_, hstatus⟩
    dsimp only
    rw [find_setStatusCondition]
    · exact hc
    · intro c hc
      rw [beq_iff_eq] at hc
      rw [hc]
      exact (by decide : (conditionMetricsReady != conditionScaleDownStabilized) = true)

/-- What a call leaves as it is when no decision is made. -/
structure LeavesScaling (e : APIEvent K) : Prop where
  keepsScale : KeepsScale e.op
  history : e.after.history = e.before.history
  deployments : e.after.deployments = e.before.deployments
  status : ∀ key, (e.after.phpas key).map (fun p => scalingState p.status) =
    (e.before.phpas key).map fun p => scalingState p.status

theorem LeavesScaling.of_unchanged {e : APIEvent K} (hop : KeepsScale e.op)
    (h : e.after = e.before) : LeavesScaling e where
  keepsScale := hop
  history := h ▸ rfl
  deployments := h ▸ rfl
  status _ := h ▸ rfl

theorem LeavesScaling.of_onlyStatus {e : APIEvent K} {key : NamespacedName}
    {Q : PredictiveHPA → PredictiveHPAStatus → Prop}
    (hQ : ∀ live status, Q live status → scalingState status = scalingState live.status)
    (hop : KeepsScale e.op) (h : OnlyStatus Q key e) : LeavesScaling e := by
  rcases h with h | ⟨live, status, hlive, hkey, hstatus, hafter⟩
  · exact .of_unchanged hop h
  · refine ⟨hop, by rw [hafter]; rfl, by rw [hafter]; rfl, fun key' => ?_⟩
    rw [hafter]
    by_cases hk : key' = (withStatus live status e.before.revision).metadata.key
    · rw [hk, World.putPHPA_self, withStatus_key, hkey, hlive]
      exact congrArg some (hQ _ _ hstatus)
    · rw [World.putPHPA_of_ne _ hk]

variable [Field K] [LinearOrder K] [FloorRing K] {r} {w w' : World} {events : List (APIEvent K)}

/-- Reporting unusable metrics scales nothing, and succeeds only with the report published. -/
theorem metricsUnavailable_exec (hw : w.WellFormed)
    {phpa : PredictiveHPA} {err : Err} {interval : ℤ} {result : Option (Except Err ℤ)}
    (h : Exec (cluster K) w (r.metricsUnavailable phpa err interval) events result w') :
    (∀ e ∈ events, LeavesScaling e) ∧
      ∀ i, result = some (.ok i) → Published r phpa ReportsUnavailable events := by
  have hops := (h.ensures (r.metricsUnavailable_keepsScale phpa err interval)).1
  unfold metricsUnavailable at h
  rcases exec_bind h with ⟨patched, w₁, first, second, hfirst, hsecond, rfl⟩ | ⟨hfirst, rfl⟩
  · obtain ⟨honly, hpublished⟩ :=
      patchStatus_exec hw (r.unavailableStatus_ensures phpa err) hfirst
    have hnil : second = [] := by
      cases patched with
      | error => exact (exec_pure hsecond).1
      | ok =>
        dsimp only at hsecond
        split_ifs at hsecond <;> exact (exec_pure hsecond).1
    subst hnil
    rw [List.append_nil] at hops ⊢
    refine ⟨fun e he => .of_onlyStatus (fun _ _ h => h.1) (hops e he) (honly e he), ?_⟩
    intro i hi
    cases patched with
    | error => cases (exec_pure hsecond).2 _ hi
    | ok => exact (hpublished rfl).imp fun _ ⟨_, h⟩ => h.2
  · have honly := (patchStatus_exec hw (r.unavailableStatus_ensures phpa err) hfirst).1
    exact ⟨fun e he => .of_onlyStatus (fun _ _ h => h.1) (hops e he) (honly e he), by simp⟩

def ScaleReplaced (deploy : Deployment) : List (APIEvent K) → Prop
  | ⟨_, .getScale _, .ok scale, _⟩ :: _ => scale.uid ≠ deploy.metadata.uid
  | _ => False

/-- The provider fails, its history is rejected, the prediction fails, or the Scale is replaced. -/
def MetricsUnusable (r : PredictiveHPAReconciler K) (phpa : PredictiveHPA) (deploy : Deployment) :
    List (APIEvent K) → Prop
  | ⟨_, .averageCPU _ _, .error _, _⟩ :: _ => True
  | ⟨_, .averageCPU _ window, .ok cpuHistory, _⟩ :: ⟨_, .now, now, _⟩ :: rest =>
    (∃ err, validateCPUHistory cpuHistory now window = .error err) ∨
      (∀ raw, r.forecast phpa.spec cpuHistory ≠ some (.ok raw)) ∨ ScaleReplaced deploy rest
  | _ => False

def TargetUnusable (r : PredictiveHPAReconciler K) (phpa : PredictiveHPA) :
    List (APIEvent K) → Prop
  | ⟨_, .getDeployment _ _, .error err, _⟩ :: _ => err.is .notFound = true
  | ⟨_, .getDeployment _ _, .ok deploy, _⟩ :: rest => r.MetricsUnusable phpa deploy rest
  | _ => False

/-- The calls of a reconciliation that reads a live policy but has no usable input for it. -/
def InputUnavailable (r : PredictiveHPAReconciler K) : List (APIEvent K) → Prop
  | ⟨_, .getPHPA _ _, .ok phpa, _⟩ :: rest =>
    phpa.metadata.notDeleting = true ∧
      ((∃ err, validateConfiguration r.isDNS1123Subdomain phpa.spec = .error err) ∨
        r.TargetUnusable phpa rest)
  | _ => False

/-- Nothing is scaled, and a success means that the missing metrics are reported. -/
def ReportsOnly (r : PredictiveHPAReconciler K) (phpa : PredictiveHPA)
    (events : List (APIEvent K)) (result : Option (Except Err ℤ)) : Prop :=
  (∀ e ∈ events, LeavesScaling e) ∧
    ∀ i, result = some (.ok i) → Published r phpa ReportsUnavailable events

omit [Field K] [LinearOrder K] [FloorRing K] in
theorem ReportsOnly.cons {phpa : PredictiveHPA} {result : Option (Except Err ℤ)} {e : APIEvent K}
    (hop : KeepsScale e.op) (hsame : e.after = e.before) (h : r.ReportsOnly phpa events result) :
    r.ReportsOnly phpa (e :: events) result :=
  ⟨List.forall_mem_cons.mpr ⟨.of_unchanged hop hsame, h.1⟩, fun i hi => (h.2 i hi).cons e⟩

theorem reconcileScale_unavailable (hw : w.WellFormed) {phpa : PredictiveHPA} {deploy : Deployment}
    {cpuHistory : CPUHistory K} {raw : K} {interval : ℤ} {result : Option (Except Err ℤ)}
    (h : Exec (cluster K) w (r.reconcileScale phpa deploy cpuHistory raw interval) events result w')
    (hu : ScaleReplaced deploy events) : r.ReportsOnly phpa events result := by
  have hwf := (hw.exec h).1
  unfold reconcileScale at h
  rcases exec_perform h with ⟨rfl, -⟩ | ⟨w₁, found, w₂, rest, -, hread, rfl, hrest⟩
  · exact hu.elim
  · cases found with
    | error err => exact hu.elim
    | ok scale =>
      dsimp only at hrest
      rw [if_pos (show scale.uid ≠ deploy.metadata.uid from hu)] at hrest
      exact .cons nofun hread.1 (metricsUnavailable_exec (hwf _ (List.mem_cons_self ..)).2 hrest)

theorem reconcileMetrics_unavailable (hw : w.WellFormed) {phpa : PredictiveHPA}
    {deploy : Deployment} {interval : ℤ} {result : Option (Except Err ℤ)}
    (h : Exec (cluster K) w (r.reconcileMetrics phpa deploy interval) events result w')
    (hu : r.MetricsUnusable phpa deploy events) : r.ReportsOnly phpa events result := by
  have hwf := (hw.exec h).1
  unfold reconcileMetrics at h
  rcases exec_perform h with ⟨rfl, -⟩ | ⟨w₁, observed, w₂, rest, -, hread, rfl, hrest⟩
  · exact hu.elim
  · have hw₂ := (hwf _ (List.mem_cons_self ..)).2
    refine .cons nofun hread ?_
    cases observed with
    | error err => exact metricsUnavailable_exec hw₂ hrest
    | ok cpuHistory =>
      rcases exec_perform hrest with ⟨rfl, -⟩ | ⟨w₃, now, w₄, rest, -, hclock, rfl, htail⟩
      · exact hu.elim
      · have hw₄ := (hwf ⟨w₃, .now, now, w₄⟩ (by simp)).2
        refine .cons nofun hclock ?_
        rcases hvalid : validateCPUHistory cpuHistory now phpa.spec.prediction.window with err | ⟨⟩
        · rw [hvalid] at htail
          exact metricsUnavailable_exec hw₄ htail
        · rw [hvalid] at htail
          rcases hforecast : r.forecast phpa.spec cpuHistory with _ | err | raw
          · rw [hforecast] at htail
            obtain ⟨rfl, hresult⟩ := exec_pure htail
            exact ⟨by simp, fun i hi => by cases hresult _ hi⟩
          · rw [hforecast] at htail
            exact metricsUnavailable_exec hw₄ htail
          · rw [hforecast] at htail
            refine reconcileScale_unavailable hw₄ htail ?_
            rcases hu with ⟨err, herr⟩ | hfails | hreplaced
            · cases hvalid.symm.trans herr
            · exact absurd hforecast (hfails raw)
            · exact hreplaced

theorem reconcileTarget_unavailable (hw : w.WellFormed) {key : NamespacedName} {interval : ℤ}
    {result : Option (Except Err ℤ)}
    (h : Exec (cluster K) w (r.reconcileTarget key interval) events result w')
    (hu : r.InputUnavailable events) :
    ∃ phpa, phpa.metadata.key = key ∧ r.ReportsOnly phpa events result := by
  have hwf := (hw.exec h).1
  unfold reconcileTarget at h
  rcases exec_perform h with ⟨rfl, -⟩ | ⟨w₁, found, w₂, rest, -, hread, rfl, hrest⟩
  · exact hu.elim
  · have hw₂ := (hwf _ (List.mem_cons_self ..)).2
    cases found with
    | error err => exact hu.elim
    | ok phpa =>
      obtain ⟨hdeleting, hu⟩ := hu
      refine ⟨phpa, hread.2.2, .cons nofun hread.1 ?_⟩
      dsimp only at hrest
      rw [hdeleting] at hrest
      simp only [Bool.not_true, Bool.false_eq_true, if_false] at hrest
      rcases hvalid : validateConfiguration r.isDNS1123Subdomain phpa.spec with err | ⟨⟩
      · rw [hvalid] at hrest
        exact metricsUnavailable_exec hw₂ hrest
      · rw [hvalid] at hrest
        replace hu : r.TargetUnusable phpa rest := by
          rcases hu with ⟨err, herr⟩ | hu
          · cases hvalid.symm.trans herr
          · exact hu
        rcases exec_perform hrest with ⟨rfl, -⟩ | ⟨w₃, target, w₄, rest, -, htarget, rfl, htail⟩
        · exact hu.elim
        · have hw₄ := (hwf ⟨w₃, _, target, w₄⟩ (by simp)).2
          refine .cons nofun htarget.1 ?_
          cases target with
          | error err =>
            dsimp only at htail
            rw [if_pos (show err.is .notFound = true from hu)] at htail
            exact metricsUnavailable_exec hw₄ htail
          | ok deploy => exact reconcileMetrics_unavailable hw₄ htail hu

/-- Without usable input no reconciliation scales, touches a recommendation history or rewrites the
outcome of an earlier decision, and one that succeeds has reported the missing metrics. -/
theorem reconcile_unavailable (hw : w.WellFormed) {key : NamespacedName}
    {result : Option (Except Err ℤ)} (h : Exec (cluster K) w (r.reconcile key) events result w')
    (hu : r.InputUnavailable events) :
    (∀ e ∈ events, LeavesScaling e) ∧ ∀ i, result = some (.ok i) →
      ∃ phpa, phpa.metadata.key = key ∧ Published r phpa ReportsUnavailable events := by
  unfold reconcile at h
  cases hrequeue : r.requeue with
  | error err =>
    rw [hrequeue] at h
    obtain ⟨rfl, -⟩ := exec_pure h
    exact hu.elim
  | ok interval =>
    rw [hrequeue] at h
    obtain ⟨phpa, hkey, hkeeps, hreported⟩ := reconcileTarget_unavailable hw h hu
    exact ⟨hkeeps, fun i hi => ⟨phpa, hkey, hreported i hi⟩⟩

def noDataStatus (now : ℤ) : PredictiveHPAStatus :=
  { safetyPHPA.status with
    currentCPUUtilizationPercentage := none
    predictedCPUUtilizationPercentage := none
    conditions := [
      ⟨"MetricsReady", .false, "NoData", "metricsprovider: no data returned", 1, now⟩,
      ⟨"ScaleDownStabilized", .unknown, "MetricsUnavailable",
        "No scaling recommendation evaluated while CPU metrics are unavailable", 1, now⟩] }

def noDataCalls : List (APIEvent ℚ) := [
  ⟨safetyWorld, .getPHPA .cache safetyPHPA.metadata.key, .ok safetyPHPA, safetyWorld⟩,
  ⟨safetyWorld, .getDeployment .cache safetyDeployment.metadata.key, .ok safetyDeployment,
    safetyWorld⟩,
  ⟨safetyWorld, .averageCPU safetyDeployment (300 * second), .error (.ofSentinel .noData),
    safetyWorld⟩,
  ⟨safetyWorld, .getPHPA .api safetyPHPA.metadata.key, .ok safetyPHPA, safetyWorld⟩,
  ⟨safetyWorld, .wallClock, 5 * second, safetyWorld⟩,
  ⟨safetyWorld, .wallClock, 5 * second, safetyWorld⟩,
  ⟨safetyWorld, .patchStatus safetyPHPA { safetyPHPA with status := noDataStatus (5 * second) },
    .ok (), safetyWorld.putPHPA (withStatus safetyPHPA (noDataStatus (5 * second)) 3)⟩]

theorem noDataCalls_exec :
    Exec (cluster ℚ) safetyWorld (safetyReconciler.reconcile safetyPHPA.metadata.key) noDataCalls
      (some (.ok (30 * second)))
      (safetyWorld.putPHPA (withStatus safetyPHPA (noDataStatus (5 * second)) 3)) := by
  refine .call .refl ⟨rfl, rfl, rfl⟩ ?_
  refine .call .refl ⟨rfl, rfl, rfl⟩ ?_
  refine .call .refl rfl ?_
  refine .call .refl ⟨rfl, rfl⟩ ?_
  refine .call .refl rfl ?_
  refine .call .refl rfl ?_
  refine .call .refl (.inl ⟨safetyPHPA, rfl, rfl, rfl⟩) ?_
  exact .done .refl

theorem reconcile_unavailable_noData :
    (∀ e ∈ noDataCalls, LeavesScaling e) ∧ ∃ phpa,
      phpa.metadata.key = safetyPHPA.metadata.key ∧
        Published safetyReconciler phpa ReportsUnavailable noDataCalls := by
  have h := reconcile_unavailable safetyWorld_wellFormed noDataCalls_exec ⟨rfl, .inr trivial⟩
  exact ⟨h.1, h.2 _ rfl⟩

end PredictiveHPAReconciler

end Autoscaler.Controller
