import Autoscaler.Controller.Reconcile
import Autoscaler.Controller.StatusWrites

/-! A Scale write overwrites exactly the state that its decision was computed from. -/
namespace Autoscaler.Controller.PredictiveHPAReconciler

open Effects MetricsProvider

variable {K : Type} (r : PredictiveHPAReconciler K)

section KeepsScale

theorem validateStatusTarget_keepsScale (target : Deployment) :
    (r.validateStatusTarget target).Ensures KeepsScale fun _ => True := by
  unfold validateStatusTarget
  refine (Prog.ensures_perform_bind _ _).mpr ⟨nofun, fun found => ?_⟩
  cases found with
  | error => trivial
  | ok latest =>
    dsimp only
    split_ifs <;> trivial

variable [Field K] [LinearOrder K] [FloorRing K]

theorem decisionStatus_readsClock (phpa : PredictiveHPA) (update : DecisionStatusUpdate K)
    (status : PredictiveHPAStatus) :
    (r.decisionStatus phpa update status).Ensures (fun op => op = .wallClock) fun _ => True := by
  unfold decisionStatus
  cases update.scaled with
  | false => exact ⟨rfl, fun _ => ⟨rfl, fun _ => trivial⟩⟩
  | true => exact ⟨rfl, fun _ => ⟨rfl, fun _ => ⟨rfl, fun _ => trivial⟩⟩⟩

theorem publish_keepsScale (phpa : PredictiveHPA) (deploy : Deployment)
    (decision : ScalingDecision K) (scaled : Bool) (interval : ℤ) :
    (r.publish phpa deploy decision scaled interval).Ensures KeepsScale fun _ => True := by
  unfold publish publishDecisionStatus
  refine Prog.ensures_bind (R := fun _ => True)
    (Prog.ensures_bind (r.validateStatusTarget_keepsScale deploy) fun verified _ => ?_)
    fun published _ => ?_
  · cases verified with
    | error => trivial
    | ok => exact r.patchStatus_keepsScale phpa _ (r.decisionStatus_readsClock phpa _)
  · cases published with
    | ok => trivial
    | error err =>
      dsimp only
      split_ifs
      · exact r.metricsUnavailable_keepsScale phpa err interval
      · trivial

end KeepsScale

variable [Field K] [LinearOrder K] [FloorRing K]

def Rechecked (phpa : PredictiveHPA) (deploy : Deployment) (scale : Scale)
    (cpuHistory : CPUHistory K) (pre : List (APIEvent K)) : Prop :=
  ∃ wf latest ws latestScale ws' wn recheckedAt wn',
    pre = [⟨wf, .getPHPA r.reader phpa.metadata.key, .ok latest, wf⟩,
      ⟨ws, .getScale deploy.metadata.key, .ok latestScale, ws'⟩, ⟨wn, .now, recheckedAt, wn'⟩] ∧
    samePolicy phpa latest = true ∧ latestScale.uid = deploy.metadata.uid ∧
    latestScale.resourceVersion = scale.resourceVersion ∧
    validateCPUHistory cpuHistory recheckedAt phpa.spec.prediction.window = .ok ()

variable {r} {w : World} {pre : List (APIEvent K)} {e : APIEvent K} {target : NamespacedName}
  {body : Scale}

/-- Before the write come the calls that precede it. -/
theorem reaches_read {α : Type} {op : Op K} {f : op.Result → Program K α}
    (he : e.op = .updateScale target body)
    (h : Reaches (cluster K) w (Prog.perform op >>= f) pre e) (hop : KeepsScale op) :
    ∃ w₁ answer w₂ rest, w₁.Performs op answer w₂ ∧ pre = ⟨w₁, op, answer, w₂⟩ :: rest ∧
      Reaches (cluster K) w₂ (f answer) rest e := by
  rcases reaches_perform h with ⟨heq, -⟩ | h
  · exact absurd (heq.symm.trans he) (hop target body)
  · exact h

/-- A program that keeps the Scale does not get to its write. -/
theorem not_reaches_of_keepsScale {α : Type} {p : Program K α}
    (he : e.op = .updateScale target body) (hp : p.Ensures KeepsScale fun _ => True) :
    ¬ Reaches (cluster K) w p pre e :=
  fun h => h.op_of_ensures hp target body he

theorem applyScale_reaches {phpa : PredictiveHPA} {deploy : Deployment} {scale : Scale}
    {cpuHistory : CPUHistory K} {decision : ScalingDecision K} {interval : ℤ}
    (he : e.op = .updateScale target body)
    (h : Reaches (cluster K) w
      (r.applyScale phpa deploy scale cpuHistory decision interval) pre e) :
    r.Rechecked phpa deploy scale cpuHistory pre ∧ target = deploy.metadata.key ∧
      body = { scale with specReplicas := decision.finalDesired } := by
  unfold applyScale at h
  rcases reaches_bind h with hin | ⟨fresh, w₁, first, rest₁, hfresh, rfl, h₁⟩
  · exact absurd hin (not_reaches_of_keepsScale he (r.freshPHPA_keepsScale phpa))
  rcases freshPHPA_exec hfresh with ⟨-, hnone⟩ | ⟨wf, found, rfl, hfound⟩
  · cases hnone
  cases fresh with
  | error => exact absurd h₁ not_reaches_pure
  | ok latest =>
    obtain ⟨rfl, hsame⟩ := hfound.1 latest rfl
    obtain ⟨ws, recheck, ws', rest₂, -, rfl, h₂⟩ := reaches_read he h₁ nofun
    cases recheck with
    | error => exact absurd h₂ not_reaches_pure
    | ok latestScale =>
      dsimp only at h₂
      by_cases hchanged : latestScale.uid ≠ deploy.metadata.uid ∨
          latestScale.resourceVersion ≠ scale.resourceVersion
      · rw [if_pos hchanged] at h₂
        exact absurd h₂ not_reaches_pure
      rw [if_neg hchanged] at h₂
      obtain ⟨wn, now, wn', rest₃, -, rfl, h₃⟩ := reaches_read he h₂ nofun
      rcases hvalid : validateCPUHistory cpuHistory now phpa.spec.prediction.window with err | ⟨⟩
      · rw [hvalid] at h₃
        rcases reaches_bind h₃ with hin | ⟨result, w₂, first, rest, -, -, h₄⟩
        · exact absurd hin
            (not_reaches_of_keepsScale he (r.metricsUnavailable_keepsScale phpa err interval))
        · exact absurd h₄ not_reaches_pure
      rw [hvalid] at h₃
      rcases reaches_perform h₃ with ⟨heq, rfl⟩ | ⟨w₂, written, w₃, rest, -, -, h₄⟩
      · cases he.symm.trans heq
        push Not at hchanged
        exact ⟨⟨wf, latest, ws, latestScale, ws', wn, now, wn', rfl, hsame, hchanged.1, hchanged.2,
          hvalid⟩, rfl, rfl⟩
      · cases written <;> exact absurd h₄ not_reaches_pure

def Decided (phpa : PredictiveHPA) (deploy : Deployment) (cpuHistory : CPUHistory K)
    (body : Scale) (pre : List (APIEvent K)) : Prop :=
  ∃ ws scale ws' wt evaluatedAt wt' wd rawPredicted decision wd' rest,
    pre = ⟨ws, .getScale deploy.metadata.key, .ok scale, ws'⟩ :: ⟨wt, .now, evaluatedAt, wt'⟩ ::
      ⟨wd, .evaluateDecision phpa deploy scale evaluatedAt (currentCPU cpuHistory) rawPredicted,
        decision, wd'⟩ :: rest ∧
    scale.uid = deploy.metadata.uid ∧ body = { scale with specReplicas := decision.finalDesired } ∧
    r.Rechecked phpa deploy scale cpuHistory rest

theorem reconcileScale_reaches {phpa : PredictiveHPA} {deploy : Deployment}
    {cpuHistory : CPUHistory K} {raw : K} {interval : ℤ} (he : e.op = .updateScale target body)
    (h : Reaches (cluster K) w (r.reconcileScale phpa deploy cpuHistory raw interval) pre e) :
    r.Decided phpa deploy cpuHistory body pre ∧ target = deploy.metadata.key := by
  unfold reconcileScale at h
  obtain ⟨ws, found, ws', rest₁, -, rfl, h₁⟩ := reaches_read he h nofun
  cases found with
  | error => exact absurd h₁ not_reaches_pure
  | ok scale =>
    dsimp only at h₁
    by_cases huid : scale.uid ≠ deploy.metadata.uid
    · rw [if_pos huid] at h₁
      exact absurd h₁ (not_reaches_of_keepsScale he (r.metricsUnavailable_keepsScale ..))
    rw [if_neg huid] at h₁
    obtain ⟨wt, now, wt', rest₂, -, rfl, h₂⟩ := reaches_read he h₁ nofun
    obtain ⟨wd, decision, wd', rest₃, -, rfl, h₃⟩ := reaches_read he h₂ nofun
    by_cases hskip : decision.skipReason = .none
    · rw [if_pos hskip] at h₃
      rcases reaches_bind h₃ with hin | ⟨early, w₂, first, rest, -, -, h₄⟩
      · obtain ⟨hrechecked, htarget, hbody⟩ := applyScale_reaches he hin
        exact ⟨⟨ws, scale, ws', wt, now, wt', wd, raw, decision, wd', rest₃, rfl, not_not.mp huid,
          hbody, hrechecked⟩, htarget⟩
      · cases early with
        | none => exact absurd h₄ (not_reaches_of_keepsScale he (r.publish_keepsScale ..))
        | some => exact absurd h₄ not_reaches_pure
    · rw [if_neg hskip] at h₃
      exact absurd h₃ (not_reaches_of_keepsScale he (r.publish_keepsScale ..))

theorem reconcileMetrics_reaches {phpa : PredictiveHPA} {deploy : Deployment} {interval : ℤ}
    (he : e.op = .updateScale target body)
    (h : Reaches (cluster K) w (r.reconcileMetrics phpa deploy interval) pre e) :
    ∃ wm cpuHistory wm' wn now wn' rest,
      pre = ⟨wm, .averageCPU deploy phpa.spec.prediction.window, .ok cpuHistory, wm'⟩ ::
        ⟨wn, .now, now, wn'⟩ :: rest ∧
      r.Decided phpa deploy cpuHistory body rest ∧ target = deploy.metadata.key := by
  unfold reconcileMetrics at h
  obtain ⟨wm, observed, wm', rest₁, -, rfl, h₁⟩ := reaches_read he h nofun
  cases observed with
  | error => exact absurd h₁ (not_reaches_of_keepsScale he (r.metricsUnavailable_keepsScale ..))
  | ok cpuHistory =>
    obtain ⟨wn, now, wn', rest₂, -, rfl, h₂⟩ := reaches_read he h₁ nofun
    rcases hvalid : validateCPUHistory cpuHistory now phpa.spec.prediction.window with err | ⟨⟩
    · rw [hvalid] at h₂
      exact absurd h₂ (not_reaches_of_keepsScale he (r.metricsUnavailable_keepsScale ..))
    rw [hvalid] at h₂
    rcases hforecast : r.forecast phpa.spec cpuHistory with _ | err | raw
    · rw [hforecast] at h₂
      exact absurd h₂ not_reaches_pure
    · rw [hforecast] at h₂
      exact absurd h₂ (not_reaches_of_keepsScale he (r.metricsUnavailable_keepsScale ..))
    · rw [hforecast] at h₂
      exact ⟨wm, cpuHistory, wm', wn, now, wn', rest₂, rfl, reconcileScale_reaches he h₂⟩

theorem reconcileTarget_reaches {key : NamespacedName} {interval : ℤ}
    (he : e.op = .updateScale target body)
    (h : Reaches (cluster K) w (r.reconcileTarget key interval) pre e) :
    ∃ wp phpa wp' wt deploy wt' wm cpuHistory wm' wn now wn' rest,
      pre = ⟨wp, .getPHPA .cache key, .ok phpa, wp'⟩ ::
        ⟨wt, .getDeployment .cache ⟨phpa.metadata.ns, phpa.spec.scaleTargetRef.name⟩, .ok deploy,
          wt'⟩ ::
        ⟨wm, .averageCPU deploy phpa.spec.prediction.window, .ok cpuHistory, wm'⟩ ::
        ⟨wn, .now, now, wn'⟩ :: rest ∧
      validateConfiguration r.isDNS1123Subdomain phpa.spec = .ok () ∧
      r.Decided phpa deploy cpuHistory body rest ∧ target = deploy.metadata.key := by
  unfold reconcileTarget at h
  obtain ⟨wp, found, wp', rest₁, -, rfl, h₁⟩ := reaches_read he h nofun
  cases found with
  | error err =>
    dsimp only at h₁
    split_ifs at h₁
    · obtain ⟨_, _, _, _, -, -, h₂⟩ := reaches_read he h₁ nofun
      exact absurd h₂ not_reaches_pure
    · exact absurd h₁ not_reaches_pure
  | ok phpa =>
    dsimp only at h₁
    by_cases hdeleting : (!phpa.metadata.notDeleting) = true
    · rw [if_pos hdeleting] at h₁
      exact absurd h₁ not_reaches_pure
    rw [if_neg hdeleting] at h₁
    rcases hvalid : validateConfiguration r.isDNS1123Subdomain phpa.spec with err | ⟨⟩
    · rw [hvalid] at h₁
      exact absurd h₁ (not_reaches_of_keepsScale he (r.metricsUnavailable_keepsScale ..))
    rw [hvalid] at h₁
    obtain ⟨wt, deployed, wt', rest₂, -, rfl, h₂⟩ := reaches_read he h₁ nofun
    cases deployed with
    | error err =>
      dsimp only at h₂
      split_ifs at h₂
      · exact absurd h₂ (not_reaches_of_keepsScale he (r.metricsUnavailable_keepsScale ..))
      · exact absurd h₂ not_reaches_pure
    | ok deploy =>
      obtain ⟨wm, cpuHistory, wm', wn, now, wn', rest₃, rfl, hdecided⟩ :=
        reconcileMetrics_reaches he h₂
      exact ⟨wp, phpa, wp', wt, deploy, wt', wm, cpuHistory, wm', wn, now, wn', rest₃, rfl, hvalid,
        hdecided⟩

/-- The written value stays within the bounds of the policy it was computed for. -/
theorem evaluateDecision_bounds {phpa : PredictiveHPA} (hvalid : ValidSpec phpa.spec)
    (history : History) (deploy : Deployment) (scale : Scale) (now : ℤ) (cpu raw : K) :
    let final := (evaluateDecision history phpa deploy scale now cpu raw).1.finalDesired
    effectiveMinReplicas phpa.spec ≤ final ∧ final ≤ phpa.spec.maxReplicas := by
  intro final
  have hlower : max (effectiveMinReplicas phpa.spec) 1 ≤ phpa.spec.maxReplicas := by
    have hpolicy := hvalid.policy
    have hmin := hpolicy.minimum_le
    have hmax := hpolicy.maximum_pos
    unfold effectiveMinReplicas
    omega
  have hclamped : ∃ x, final = clampReplicas (effectiveMinReplicas phpa.spec)
      phpa.spec.maxReplicas x := ⟨_, rfl⟩
  obtain ⟨x, hx⟩ := hclamped
  rw [hx]
  exact ⟨(le_max_left _ _).trans (le_clampReplicas _ _ hlower x), clampReplicas_le _ _ x⟩

/-- What a Scale write of a reconciliation of `key` rests on, in the order of its calls: the CPU
history of one Deployment, the decision, the live policy after it, and the history once more. -/
def Grounded (key target : NamespacedName) (body : Scale) (pre : List (APIEvent K)) (w : World) :
    Prop :=
  ∃ phpa deploy cpuHistory scale evaluatedAt rawPredicted decision latest measured wd wd' wf rest,
    pre = measured ++
      ⟨wd, .evaluateDecision phpa deploy scale evaluatedAt (currentCPU cpuHistory) rawPredicted,
        decision, wd'⟩ :: ⟨wf, .getPHPA .api key, .ok latest, wf⟩ :: rest ∧
    decision = (evaluateDecision wd.history phpa deploy scale evaluatedAt (currentCPU cpuHistory)
      rawPredicted).1 ∧
    (∃ wm wm', ⟨wm, .averageCPU deploy phpa.spec.prediction.window, .ok cpuHistory, wm'⟩ ∈
      measured) ∧
    target = ⟨phpa.metadata.ns, phpa.spec.scaleTargetRef.name⟩ ∧
    (∃ live, w.deployments target = some live ∧ live.metadata.uid = deploy.metadata.uid ∧
      live.specReplicas = decision.requestedReplicas) ∧
    (wf.phpas key = some latest ∧ latest.metadata.uid = phpa.metadata.uid ∧
      latest.metadata.generation = phpa.metadata.generation ∧ latest.metadata.notDeleting = true) ∧
    (∃ wn now wn', ⟨wn, .now, now, wn'⟩ ∈ rest ∧
      validateCPUHistory cpuHistory now phpa.spec.prediction.window = .ok ()) ∧
    body.specReplicas = decision.finalDesired ∧
    max 1 (latest.spec.minReplicas.getD 1) ≤ body.specReplicas ∧
    body.specReplicas ≤ latest.spec.maxReplicas

/-- Whatever others do between the calls, an accepted Scale write is grounded. -/
theorem scale_write_grounded (hr : r.hasAPIReader = true) (hw : w.WellFormed)
    {key : NamespacedName} {events post : List (APIEvent K)} {result : Option (Except Err ℤ)}
    {w₁ w₂ w' : World} {answer : Except Err Unit}
    (h : Exec (cluster K) w (r.reconcile key) events result w')
    (hevents : events = pre ++ ⟨w₁, .updateScale target body, answer, w₂⟩ :: post)
    (haccepted : w₁.ScaleWritten target body w₂) : Grounded key target body pre w₁ := by
  have hwf := (hw.exec h).1
  have hperformed := h.performed
  have hpairs := (World.grows_exec h).2.1
  have hreader : r.reader = .api := if_pos hr
  unfold reconcile at h
  cases hrequeue : r.requeue with
  | error err =>
    rw [hrequeue] at h
    rw [(exec_pure h).1] at hevents
    simp at hevents
  | ok interval =>
    rw [hrequeue] at h
    subst hevents
    obtain ⟨wp, phpa, wp', wt, deploy, wt', wm, cpuHistory, wm', wn, now, wn', rest, rfl, hvalid,
      ⟨ws, scale, ws', wt₁, evaluatedAt, wt₁', wd, raw, decision, wd', rest, rfl, huid, rfl,
        ⟨wf, latest, ws₁, latestScale, ws₁', wn₁, recheckedAt, wn₁', rfl, hsame, -, -, hfresh⟩⟩,
      rfl⟩ := reconcileTarget_reaches rfl ⟨post, result, w', h⟩
    rw [hreader] at hperformed hpairs hwf ⊢
    simp only [List.cons_append, List.nil_append, List.pairwise_cons, List.forall_mem_cons]
      at hperformed hpairs hwf
    obtain ⟨hread, htarget, -, -, hscale, -, hdecision, hlatest, -⟩ := hperformed
    obtain ⟨⟨-, -, -, -, -, -, hafterRead, -⟩, -, -, -, hpairs⟩ := hpairs
    obtain ⟨⟨-, -, -, -, -, hafterScale, -⟩, -⟩ := hpairs
    obtain ⟨-, -, -, -, hwfScale, -, -, hwfLatest, -, -, hwfWrite, -⟩ := hwf
    obtain ⟨rfl, hphpa, hkey⟩ := hread
    obtain ⟨-, -, htarget⟩ := htarget
    obtain ⟨rfl, d, hd, rfl⟩ := hscale
    obtain ⟨hdecision, -⟩ := hdecision
    obtain ⟨-, hlive⟩ := hlatest
    obtain ⟨hsameUID, hsameGeneration, hnotDeleting⟩ := samePolicy_iff.mp hsame
    have hdecided : decision = (evaluateDecision wd.history phpa deploy d.scale evaluatedAt
      (currentCPU cpuHistory) raw).1 := congrArg Prod.fst hdecision
    -- The version behind the first Scale read is still live when the write is accepted.
    have hstored : d ∈ w₁.deploymentVersions :=
      hafterScale.2 (hwfScale.1.deployment_live _ d hd).1
    have hwritten : w₁.deployments deploy.metadata.key = some d :=
      haccepted.overwrites hwfWrite.1 hstored rfl
    have hrequested : d.specReplicas = decision.requestedReplicas := by
      rw [hdecided]
      rfl
    -- An unchanged generation means an unchanged spec, so the bounds are those of the live policy.
    have hspec : latest.spec = phpa.spec := hwfLatest.1.phpa_spec _
      (hwfLatest.1.phpa_live _ _ hlive).1 _ (hafterRead.1 hphpa) hsameUID hsameGeneration
    have hbounds := evaluateDecision_bounds (validateConfiguration_ok hvalid) wd.history deploy
      d.scale evaluatedAt (currentCPU cpuHistory) raw
    rw [← hdecided, ← hspec] at hbounds
    rw [hkey] at hlive ⊢
    exact ⟨phpa, deploy, cpuHistory, d.scale, evaluatedAt, raw, decision, latest,
      [_, _, _, _, _, _], wd, wd', wf, [_, _], rfl, hdecided, ⟨wm, wm', by simp⟩, htarget,
      ⟨d, hwritten, huid, hrequested⟩, ⟨hlive, hsameUID, hsameGeneration, hnotDeleting⟩,
      ⟨wn₁, recheckedAt, wn₁', by simp, hfresh⟩, rfl, hbounds⟩

def busyHistory : CPUHistory ℚ where
  samples := [⟨100 * second, .finite 100⟩, ⟨130 * second, .finite 100⟩]
  observedAt := 130 * second
  sourceTimestamp := 130 * second

def busyDecision : ScalingDecision ℚ × History :=
  evaluateDecision (fun _ => none) safetyPHPA safetyDeployment safetyDeployment.scale
    (130 * second) (currentCPU busyHistory) 100

def busyWorld : World := { safetyWorld with history := busyDecision.2 }

def busyReads : List (APIEvent ℚ) := [
  ⟨safetyWorld, .getPHPA .cache safetyPHPA.metadata.key, .ok safetyPHPA, safetyWorld⟩,
  ⟨safetyWorld, .getDeployment .cache safetyDeployment.metadata.key, .ok safetyDeployment,
    safetyWorld⟩,
  ⟨safetyWorld, .averageCPU safetyDeployment (300 * second), .ok busyHistory, safetyWorld⟩,
  ⟨safetyWorld, .now, 130 * second, safetyWorld⟩,
  ⟨safetyWorld, .getScale safetyDeployment.metadata.key, .ok safetyDeployment.scale, safetyWorld⟩,
  ⟨safetyWorld, .now, 130 * second, safetyWorld⟩,
  ⟨safetyWorld, .evaluateDecision safetyPHPA safetyDeployment safetyDeployment.scale
    (130 * second) (currentCPU busyHistory) 100, busyDecision.1, busyWorld⟩,
  ⟨busyWorld, .getPHPA .api safetyPHPA.metadata.key, .ok safetyPHPA, busyWorld⟩,
  ⟨busyWorld, .getScale safetyDeployment.metadata.key, .ok safetyDeployment.scale, busyWorld⟩,
  ⟨busyWorld, .now, 130 * second, busyWorld⟩]

def busyBody : Scale := { safetyDeployment.scale with specReplicas := busyDecision.1.finalDesired }

def busyWritten : World := busyWorld.putDeployment (scaledDeployment safetyDeployment busyBody 3)

theorem busyWritten_accepted :
    busyWorld.ScaleWritten safetyDeployment.metadata.key busyBody busyWritten :=
  ⟨safetyDeployment, rfl, rfl, rfl⟩

/-- The calls up to the Scale write, and whatever the publication of the decision does then. -/
theorem busyCalls_publish {rest : List (APIEvent ℚ)} {result : Option (Except Err ℤ)} {w' : World}
    (hpublish : Exec (cluster ℚ) busyWritten (safetyReconciler.publish safetyPHPA safetyDeployment
      busyDecision.1 true (30 * second)) rest result w') :
    Exec (cluster ℚ) safetyWorld (safetyReconciler.reconcile safetyPHPA.metadata.key)
      (busyReads ++ ⟨busyWorld, .updateScale safetyDeployment.metadata.key busyBody, .ok (),
        busyWritten⟩ :: rest) result w' := by
  have hvalid : validateCPUHistory busyHistory (130 * second)
      safetyPHPA.spec.prediction.window = .ok () := by
    decide +kernel
  have hforecast : safetyReconciler.forecast safetyPHPA.spec busyHistory = some (.ok 100) := by
    decide +kernel
  have hskip : busyDecision.1.skipReason = .none := by decide +kernel
  refine .call .refl ⟨rfl, rfl, rfl⟩ ?_
  refine .call .refl ⟨rfl, rfl, rfl⟩ ?_
  refine .call .refl rfl ?_
  refine .call .refl rfl ?_
  simp only [Prog.bind, hvalid, hforecast]
  refine .call .refl ⟨rfl, _, rfl, rfl⟩ ?_
  refine .call .refl rfl ?_
  refine .call .refl ⟨rfl, rfl⟩ ?_
  simp only [Prog.bind, hskip, if_true]
  refine .call .refl ⟨rfl, rfl⟩ ?_
  refine .call .refl ⟨rfl, _, rfl, rfl⟩ ?_
  refine .call .refl rfl ?_
  simp only [Prog.bind, hvalid]
  have hwrite : busyWorld.Performs (.updateScale safetyDeployment.metadata.key busyBody : Op ℚ)
    (.ok ()) busyWritten := .inl busyWritten_accepted
  exact .call .refl hwrite hpublish

theorem busyCalls_exec :
    Exec (cluster ℚ) safetyWorld (safetyReconciler.reconcile safetyPHPA.metadata.key)
      (busyReads ++ [⟨busyWorld, .updateScale safetyDeployment.metadata.key busyBody, .ok (),
        busyWritten⟩]) none busyWritten :=
  busyCalls_publish (.stop .refl)

theorem scale_write_grounded_busy :
    Grounded (K := ℚ) safetyPHPA.metadata.key safetyDeployment.metadata.key busyBody busyReads
      busyWorld :=
  scale_write_grounded rfl safetyWorld_wellFormed busyCalls_exec rfl busyWritten_accepted

end Autoscaler.Controller.PredictiveHPAReconciler
