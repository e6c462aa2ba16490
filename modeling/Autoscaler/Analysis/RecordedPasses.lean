import Autoscaler.Analysis.PrepareReplay
import Autoscaler.Analysis.ReconciliationLog
import Autoscaler.Controller.DecisionPipeline
import Autoscaler.Library.Trails

/-! Runs of the controller with the provider, what they log, and what the preparation makes of the
log. -/
namespace Autoscaler.RecordedRun

open Controller Effects MetricsProvider ReconciliationLog
open Analysis hiding Field

/-! What a reconciliation logs of its calls. -/

section Trail

variable {K : Type} [Field K] [LinearOrder K] [FloorRing K]

def loud (op : Op K) : Bool := (logStage op).isSome

/-- What a decision of a policy rests on. -/
structure Grounded (r : PredictiveHPAReconciler K) (phpa : PredictiveHPA)
    (history : CPUHistory K) (raw : K) : Prop where
  policy : validateConfiguration r.isDNS1123Subdomain phpa.spec = .ok ()
  checked : ∃ now, validateCPUHistory history now phpa.spec.prediction.window = .ok ()
  forecast : r.forecast phpa.spec history = some (.ok raw)

/-- The logged calls of a reconciliation. -/
inductive Trail {W : Type} (r : PredictiveHPAReconciler K) :
    List (Event W (Op K) Op.Result) → Prop where
  | silent : Trail r []
  | observed (before after deploy window answer) :
      Trail r [⟨before, .averageCPU deploy window, answer, after⟩]
  | decided {phpa deploy history scale now raw} (before after before' after' decision) :
      Grounded r phpa history raw →
      Trail r [⟨before, .averageCPU deploy phpa.spec.prediction.window, .ok history, after⟩,
        ⟨before', .evaluateDecision phpa deploy scale now
          (PredictiveHPAReconciler.currentCPU history) raw, decision, after'⟩]
  | wrote {phpa deploy history scale now raw} (before after before' after')
      (decision : ScalingDecision K) (before'' answer after'') : Grounded r phpa history raw →
      decision.skipReason = .none →
      Trail r [⟨before, .averageCPU deploy phpa.spec.prediction.window, .ok history, after⟩,
        ⟨before', .evaluateDecision phpa deploy scale now
          (PredictiveHPAReconciler.currentCPU history) raw, decision, after'⟩,
        ⟨before'', .updateScale deploy.metadata.key
          { scale with specReplicas := decision.finalDesired }, answer, after''⟩]

open PredictiveHPAReconciler

variable {W : Type} {S : Semantics W (Op K) Op.Result} (r : PredictiveHPAReconciler K)

omit [Field K] [LinearOrder K] [FloorRing K] in
theorem quiet_of_unlogged {α : Type} {p : Program K α} {Q : α → Prop}
    (h : p.Ensures (fun op => logStage op = none) Q) : p.Ensures (fun op => loud op = false) Q :=
  h.imp fun op hop => by simp [loud, hop]

omit [Field K] [LinearOrder K] [FloorRing K] in
theorem metricsUnavailable_quiet (phpa : PredictiveHPA) (err : Err) (interval : ℤ) :
    (r.metricsUnavailable phpa err interval).Ensures (fun op => loud op = false)
      (Returns interval) :=
  quiet_of_unlogged (metricsUnavailable_unlogged r phpa err interval)

omit [FloorRing K] in
theorem applyScale_leaves {P : List (Event W (Op K) Op.Result) → Prop} (phpa : PredictiveHPA)
    (deploy : Deployment) (scale : Scale) (history : CPUHistory K) (decision : ScalingDecision K)
    (interval : ℤ) (hnil : P [])
    (hwrote : ∀ before answer after, P [⟨before, .updateScale deploy.metadata.key
      { scale with specReplicas := decision.finalDesired }, answer, after⟩]) :
    (r.applyScale phpa deploy scale history decision interval).Leaves S loud P := by
  unfold applyScale
  refine Prog.leaves_bind (quiet_of_unlogged ((r.freshPHPA_routine phpa).imp logStage_of_routine))
    hnil fun fresh => ?_
  cases fresh with
  | error => exact Prog.leaves_pure _ hnil
  | ok =>
    refine Prog.leaves_perform rfl hnil fun recheck => ?_
    cases recheck with
    | error => exact Prog.leaves_pure _ hnil
    | ok latestScale =>
      dsimp only
      split_ifs
      · exact Prog.leaves_pure _ hnil
      refine Prog.leaves_perform rfl hnil fun now => ?_
      cases validateCPUHistory history now phpa.spec.prediction.window with
      | error err =>
        exact Prog.leaves_bind (metricsUnavailable_quiet r phpa err interval) hnil
          fun _ => Prog.leaves_pure _ hnil
      | ok =>
        refine Prog.leaves_perform_loud rfl hnil fun before answer after => ?_
        cases answer <;> exact Prog.leaves_pure _ (hwrote before _ after)

theorem reconcileScale_leaves (phpa : PredictiveHPA) (deploy : Deployment)
    (history : CPUHistory K) (raw : K) (interval : ℤ) (hgrounded : Grounded r phpa history raw)
    (before after : W) :
    (r.reconcileScale phpa deploy history raw interval).Leaves S loud fun later =>
      Trail r (⟨before, .averageCPU deploy phpa.spec.prediction.window, .ok history, after⟩ ::
        later) := by
  have hnil := Trail.observed (r := r) before after deploy phpa.spec.prediction.window (.ok history)
  have hpublish : ∀ (decision : ScalingDecision K) (scaled : Bool),
      (r.publish phpa deploy decision scaled interval).Ensures (fun op => loud op = false)
        (Returns interval) :=
    fun decision scaled => quiet_of_unlogged
      ((r.publish_returns phpa deploy decision scaled interval).imp logStage_of_routine)
  unfold reconcileScale
  refine Prog.leaves_perform rfl hnil fun found => ?_
  cases found with
  | error => exact Prog.leaves_pure _ hnil
  | ok scale =>
    dsimp only
    split_ifs
    · exact Prog.leaves_of_ensures (metricsUnavailable_quiet r phpa _ interval) hnil
    refine Prog.leaves_perform rfl hnil fun now => ?_
    refine Prog.leaves_perform_loud rfl hnil fun before' decision after' => ?_
    have hdecided : Trail r
        [⟨before, .averageCPU deploy phpa.spec.prediction.window, .ok history, after⟩,
          ⟨before', .evaluateDecision phpa deploy scale now (currentCPU history) raw, decision,
            after'⟩] :=
      .decided before after before' after' decision hgrounded
    split_ifs with hskip
    · refine (applyScale_leaves r phpa deploy scale history decision interval hdecided
        fun before'' answer after'' => .wrote before after before' after' decision before'' answer
          after'' hgrounded hskip).bind_quiet (Q := fun _ => True) fun early => ?_
      cases early with
      | some result => trivial
      | none => exact (hpublish decision true).weaken
    · exact Prog.leaves_of_ensures (hpublish decision false) hdecided

/-- Whatever happens in a reconciliation, its logged calls are a trail. -/
theorem reconcile_leaves (request : NamespacedName) :
    (r.reconcile request).Leaves S loud (Trail r) := by
  unfold reconcile
  cases r.requeue with
  | error => exact Prog.leaves_pure _ .silent
  | ok interval =>
    refine Prog.leaves_perform rfl .silent fun found => ?_
    cases found with
    | error err =>
      dsimp only
      split_ifs
      · exact Prog.leaves_perform rfl .silent fun _ => Prog.leaves_pure _ .silent
      · exact Prog.leaves_pure _ .silent
    | ok phpa =>
      dsimp only
      split_ifs
      · exact Prog.leaves_pure _ .silent
      cases hpolicy : validateConfiguration r.isDNS1123Subdomain phpa.spec with
      | error err => exact Prog.leaves_of_ensures (metricsUnavailable_quiet r phpa err _) .silent
      | ok =>
        refine Prog.leaves_perform rfl .silent fun target => ?_
        cases target with
        | error err =>
          dsimp only
          split_ifs
          · exact Prog.leaves_of_ensures (metricsUnavailable_quiet r phpa _ interval) .silent
          · exact Prog.leaves_pure _ .silent
        | ok deploy =>
          dsimp only
          unfold reconcileMetrics
          refine Prog.leaves_perform_loud rfl .silent fun before observed after => ?_
          have hobserved := Trail.observed (r := r) before after deploy
            phpa.spec.prediction.window observed
          cases observed with
          | error err =>
            exact Prog.leaves_of_ensures (metricsUnavailable_quiet r phpa err _) hobserved
          | ok history =>
            refine Prog.leaves_perform rfl hobserved fun now => ?_
            cases hchecked : validateCPUHistory history now phpa.spec.prediction.window with
            | error err =>
              exact Prog.leaves_of_ensures (metricsUnavailable_quiet r phpa err _) hobserved
            | ok =>
              dsimp only
              cases hforecast : r.forecast phpa.spec history with
              | none => exact Prog.leaves_pure _ hobserved
              | some forecast =>
                cases forecast with
                | error err =>
                  exact Prog.leaves_of_ensures (metricsUnavailable_quiet r phpa err _) hobserved
                | ok raw =>
                  exact reconcileScale_leaves r phpa deploy history raw interval
                    ⟨hpolicy, ⟨now, hchecked⟩, hforecast⟩ before after

end Trail

/-! The forecast that the replay computes from the samples of a validated history. -/

section Forecast

variable {K : Type} [Field K] [LinearOrder K]

def recoveredSamples (samples : List (Predictor.Sample K)) : List (ReplaySample K) :=
  samples.map fun sample => ⟨sample.timestamp, some sample.value.exact⟩

/-- The recorded configuration has the policy's values, its durations in whole seconds. -/
structure Describes (config : RecordedConfig) (spec : PredictiveHPASpec) : Prop where
  policy : config.toReplayConfig = recordedConfig spec
  alphaPercent : config.alphaPercent = spec.prediction.alphaPercent
  window : config.windowSeconds * second = spec.prediction.window
  horizon : config.horizonSeconds * second = spec.prediction.horizon

variable {config : RecordedConfig} {spec : PredictiveHPASpec} {history : CPUHistory K}

/-- Samples that the controller accepts pass the checks of the replay. -/
theorem validateReplaySampleList_of_validateSamples (hwindow : Describes config spec)
    {previous : Option (Predictor.Sample K)} {samples : List (Predictor.Sample K)}
    (h : validateSamples history spec.prediction.window previous samples = .ok ()) :
    validateReplaySampleList config history.observedAt (previous.map Predictor.Sample.timestamp)
      (recoveredSamples samples) = .ok () := by
  induction samples generalizing previous with
  | nil => rfl
  | cons sample rest ih =>
    unfold validateSamples at h
    obtain ⟨husable, h⟩ := ok_of_unless h
    obtain ⟨hspaced, h⟩ := ok_of_unless h
    have hrest := ih h
    have hsample : ¬ (Time.isZero sample.timestamp = true ∨
        (some sample.value.exact).all (· < 0) = true ∨
        sample.timestamp < history.observedAt - config.windowSeconds * second) := by
      rw [hwindow.window]
      cases hvalue : sample.value with
      | finite value =>
        simp [unusableSample, hvalue] at husable
        simp [husable]
      | nan => simp [unusableSample, hvalue] at husable
      | inf negative => simp [unusableSample, hvalue] at husable
    have hapart : ¬ ((previous.map Predictor.Sample.timestamp).any
        (fun p => sample.timestamp - p < 15 * second)) = true := by
      rw [Option.any_map]
      exact hspaced
    unfold recoveredSamples
    rw [List.map_cons, validateReplaySampleList, if_neg hsample, if_neg hapart]
    exact hrest

theorem mapM_toSample {samples : List (Predictor.Sample K)}
    (h : ∀ sample ∈ samples, ∃ value, sample.value = .finite value ∧ 0 ≤ value) :
    (recoveredSamples samples).mapM ReplaySample.toSample = some samples := by
  induction samples with
  | nil => rfl
  | cons sample rest ih =>
    obtain ⟨⟨value, hvalue, -⟩, hrest⟩ := List.forall_mem_cons.mp h
    have hsample : (ReplaySample.mk sample.timestamp (some sample.value.exact)).toSample =
        some sample := by
      cases sample
      cases hvalue
      rfl
    have htail := ih hrest
    unfold recoveredSamples at htail ⊢
    rw [List.map_cons, List.mapM_cons, hsample, htail]
    rfl

theorem validateCPUHistory_inv {now window : ℤ}
    (h : validateCPUHistory history now window = .ok ()) :
    ∃ last, history.samples.getLast? = some last ∧ last.timestamp = history.observedAt ∧
      Time.isZero history.observedAt = false ∧
      validateSamples history window none history.samples = .ok () := by
  obtain ⟨-, last, hlast⟩ := validateCPUHistory_ok h
  unfold validateCPUHistory at h
  rw [hlast] at h
  obtain ⟨htime, h⟩ := ok_of_unless h
  obtain ⟨hpast, h⟩ := ok_of_unless h
  obtain ⟨-, h⟩ := ok_of_unless h
  push Not at hpast
  cases hsamples : validateSamples history window none history.samples with
  | error err =>
    rw [hsamples] at h
    cases h
  | ok => exact ⟨last, hlast, not_not.mp htime, by simpa using hpast.1, rfl⟩

theorem forecast_inv {r : PredictiveHPAReconciler K} {raw : K}
    (h : r.forecast spec history = some (.ok raw)) :
    Predictor.predict r.pow history.samples
        ⟨.finite ((spec.prediction.alphaPercent : K) / (100 : ℤ)), spec.prediction.horizon⟩ =
      some (.ok (.finite raw)) := by
  unfold PredictiveHPAReconciler.forecast at h
  dsimp only at h
  split at h
  next => cases h
  next => cases h
  next hpredicted =>
    cases h
    exact hpredicted
  next => cases h

omit [LinearOrder K] in
theorem currentCPU_of_last {last : Predictor.Sample K} (h : history.samples.getLast? = some last) :
    PredictiveHPAReconciler.currentCPU history = last.value.exact := by
  unfold PredictiveHPAReconciler.currentCPU
  rw [h]

omit [LinearOrder K] in
theorem getLast?_recoveredSamples {samples : List (Predictor.Sample K)}
    {last : Predictor.Sample K} (h : samples.getLast? = some last) :
    (recoveredSamples samples).getLast? = some ⟨last.timestamp, some last.value.exact⟩ := by
  rw [recoveredSamples, List.getLast?_map, h]
  rfl

variable [IsStrictOrderedRing K]

theorem replayFloatEqual_self (x : K) : replayFloatEqual x x = true := by
  have hbound : |x - x| ≤ 1 / 1000000000 * max 1 |x| := by
    rw [sub_self, abs_zero]
    positivity
  exact decide_eq_true hbound

/-- From the samples of a history that the controller forecast from, soon after it was observed,
the replay computes the same forecast. -/
theorem computedForecast_recovered {lib : ReplayLibrary K} {r : PredictiveHPAReconciler K}
    (hpow : lib.pow = r.pow) (hdescribes : Describes config spec) {raw : K} {now : ℤ}
    (hchecked : validateCPUHistory history now spec.prediction.window = .ok ())
    (hforecast : r.forecast spec history = some (.ok raw)) {cycle : RecordedCycle K}
    (hsamples : cycle.samples = some (recoveredSamples history.samples))
    (hcpu : cycle.currentCPU = some (PredictiveHPAReconciler.currentCPU history))
    (hafter : history.observedAt ≤ cycle.decidedAt)
    (hprompt : cycle.decidedAt - history.observedAt ≤ defaultMaxSampleAge) :
    computedForecast lib config cycle = some (.ok raw) := by
  obtain ⟨last, hlast, htime, -, hvalid⟩ := validateCPUHistory_inv hchecked
  obtain ⟨hseries, -⟩ := validateCPUHistory_ok hchecked
  have htail := getLast?_recoveredSamples hlast
  have hmany : ¬ (recoveredSamples history.samples).length < 2 := by
    have hlength := hseries.many
    simp only [recoveredSamples, List.length_map]
    omega
  have hfresh : ¬ (cycle.decidedAt < last.timestamp ∨
      defaultMaxSampleAge < cycle.decidedAt - last.timestamp) := by
    rw [htime]
    omega
  have hlist := validateReplaySampleList_of_validateSamples hdescribes hvalid
  rw [Option.map_none, ← htime] at hlist
  have hcurrent := currentCPU_of_last hlast
  have haccepted : validateReplaySamples config cycle (recoveredSamples history.samples) =
      some (.ok ()) := by
    unfold validateReplaySamples
    rw [htail]
    dsimp only
    rw [if_neg hmany, if_neg hfresh, hlist]
    simp only [hcpu, hcurrent, Option.bind_eq_bind, Option.bind_some, replayFloatEqual_self]
    rfl
  unfold computedForecast
  rw [hsamples, Option.getD_some, haccepted, mapM_toSample hseries.values,
    hdescribes.alphaPercent, hdescribes.horizon, hpow]
  simp only [Option.bind_eq_bind, Option.bind_some, forecast_inv hforecast]
  rfl

end Forecast

/-! Runs, and what they log. -/

/-- The identifier and the times that a reconciliation logs, besides the times that its decision
rests on. -/
structure Stamps where
  reconcileID : String
  reconcileStartedAt : ℤ
  observationStartedAt : ℤ
  observationFinishedAt : ℤ
  queryStartedAt : Option ℤ
  queryFinishedAt : Option ℤ
  queryInstantAt : Option ℤ
  decisionAt : ℤ
  scaleWriteStartedAt : ℤ
  scaleWriteFinishedAt : ℤ
  reconcileFinishedAt : ℤ

structure Pass (r : PredictiveHPAReconciler ℚ) (request : NamespacedName) where
  before : World
  after : World
  events : List (Event World (Op ℚ) Op.Result)
  result : Option (Except Err ℤ)
  runs : Exec (cluster ℚ) before (r.reconcile request) events result after
  call : Call
  stamps : Stamps

def isQuery : Event World (Op ℚ) Op.Result → Bool
  | ⟨_, .averageCPU _ _, _, _⟩ => true
  | _ => false

def isAcceptedWrite : Event World (Op ℚ) Op.Result → Bool
  | ⟨_, .updateScale _ _, .ok (), _⟩ => true
  | _ => false

def decisionOf : Event World (Op ℚ) Op.Result → Option (DecisionEvent ℚ)
  | ⟨before, .evaluateDecision phpa deploy scale now currentCPU raw, decision, after⟩ =>
    some ⟨before, phpa, deploy, scale, now, currentCPU, raw, decision, after⟩
  | _ => none

def answerOf (result : CallResult) : Except Err (CPUHistory ℚ) :=
  match result.err with
  | none => .ok result.history
  | some err => .error err

namespace Pass

variable {r : PredictiveHPAReconciler ℚ} {request : NamespacedName}

def logged (pass : Pass r request) : List (Event World (Op ℚ) Op.Result) := trail loud pass.events

def queried (pass : Pass r request) : Bool := pass.logged.any isQuery

def decision (pass : Pass r request) : Option (DecisionEvent ℚ) := pass.logged.findSome? decisionOf

def wrote (pass : Pass r request) : Bool := pass.logged.any isAcceptedWrite

def entry (pass : Pass r request) : Entry := ⟨pass.call, pass.decision.isSome⟩

def Answered (pass : Pass r request) (result : CallResult) : Prop :=
  ∀ before target window answer after,
    (⟨before, .averageCPU target window, answer, after⟩ : Event World (Op ℚ) Op.Result) ∈
      pass.events → pass.call.target = some target ∧ pass.call.window = window ∧
        answer = answerOf result

def queryRow (pass : Pass r request) (result : CallResult) : LoggedQuery where
  toQueryLog := logObservation result.history result.err
  phpa := request
  cpuRateWindowSeconds := 60
  observationStartedAt := pass.stamps.observationStartedAt
  observationFinishedAt := pass.stamps.observationFinishedAt
  queryStartedAt := pass.stamps.queryStartedAt
  queryFinishedAt := pass.stamps.queryFinishedAt
  queryInstantAt := pass.stamps.queryInstantAt
  sourceTimestamp := optionalTimestamp result.history.sourceTimestamp

def decisionRow (pass : Pass r request) (history : CPUHistory ℚ) (d : DecisionEvent ℚ) :
    LoggedDecision where
  phpa := request
  decisionAt := pass.stamps.decisionAt
  stabilizationEvaluatedAt := d.now
  stabilizationHistoryEntries := d.decision.stabilization.historyEntries
  stabilizationHistoryOldestAt := d.decision.stabilization.historyOldest
  coldStartProtection := d.decision.stabilization.coldStart
  coldStartProtectedUntil := d.decision.stabilization.protectedUntil
  decisionMode := d.decision.mode
  decisionCPU := d.decision.decisionCPU
  rawPredictedCPU := d.rawPredictedCPU
  currentCPU := d.currentCPU
  predictedCPU := d.decision.predictedCPU
  currentReplicas := d.decision.currentReplicas
  desiredReplicas := d.decision.desiredReplicas
  finalDesired := d.decision.finalDesired
  stabilized := d.decision.stabilization.stabilized
  skipReason := d.decision.skipReason.text
  samples := history.samples.length
  latestEvaluationAt := history.samples.getLast?.elim 0 Predictor.Sample.timestamp

def scaleRow (pass : Pass r request) (d : DecisionEvent ℚ) : LoggedScale where
  phpa := request
  scaled := true
  previousDesiredReplicas := d.decision.requestedReplicas
  finalDesired := d.decision.finalDesired
  currentReplicas := d.decision.currentReplicas
  scaleWriteStartedAt := pass.stamps.scaleWriteStartedAt
  scaleWriteFinishedAt := pass.stamps.scaleWriteFinishedAt

def finishRow (pass : Pass r request) (result : Except Err ℤ) : LoggedFinish where
  phpa := request
  reconcileFinishedAt := pass.stamps.reconcileFinishedAt
  reconcileError := match result with
    | .ok _ => ""
    | .error err => err.message

def cycle (pass : Pass r request) (result : CallResult) : CycleRows where
  reconcileID := pass.stamps.reconcileID
  reconcileStartedAt := pass.stamps.reconcileStartedAt
  query := if pass.queried then some (pass.queryRow result) else none
  decision := pass.decision.map (pass.decisionRow result.history)
  scale := if pass.wrote then pass.decision.map pass.scaleRow else none
  finish := pass.result.map pass.finishRow

theorem logged_trail (pass : Pass r request) : Trail r pass.logged :=
  reconcile_leaves r request _ _ _ _ pass.runs

structure Decided (pass : Pass r request) (result : CallResult) (d : DecisionEvent ℚ) : Prop where
  mem : d.event ∈ pass.events
  queried : pass.queried = true
  err : result.err = none
  grounded : Grounded r d.phpa result.history d.rawPredictedCPU
  current : d.currentCPU = PredictiveHPAReconciler.currentCPU result.history
  written : pass.wrote = true → d.decision.skipReason = .none

theorem answerOf_ok {result : CallResult} {history : CPUHistory ℚ}
    (h : Except.ok history = answerOf result) : result.err = none ∧ result.history = history := by
  unfold answerOf at h
  cases herr : result.err with
  | none =>
    rw [herr] at h
    exact ⟨rfl, (Except.ok.inj h).symm⟩
  | some err =>
    rw [herr] at h
    cases h

theorem decided {pass : Pass r request} {result : CallResult} {d : DecisionEvent ℚ}
    (hanswered : pass.Answered result) (h : pass.decision = some d) : pass.Decided result d := by
  have htrail := pass.logged_trail
  have hsub : ∀ e ∈ pass.logged, e ∈ pass.events := fun e he => (List.mem_filter.mp he).1
  unfold Pass.decision at h
  have hqueried : pass.queried = pass.logged.any isQuery := rfl
  have hwrote : pass.wrote = pass.logged.any isAcceptedWrite := rfl
  generalize pass.logged = logged at htrail hsub h hqueried hwrote
  cases htrail with
  | silent => cases h
  | observed => cases h
  | decided before after before' after' decision hgrounded =>
    cases h
    obtain ⟨hquery, hrest⟩ := List.forall_mem_cons.mp hsub
    obtain ⟨-, -, hanswer⟩ := hanswered _ _ _ _ _ hquery
    obtain ⟨herr, rfl⟩ := answerOf_ok hanswer
    have hunwritten : pass.wrote = false := hwrote
    exact ⟨hrest _ List.mem_cons_self, hqueried, herr, hgrounded, rfl,
      fun hwritten => absurd hwritten (by simp [hunwritten])⟩
  | wrote before after before' after' decision before'' answer after'' hgrounded hskip =>
    cases h
    obtain ⟨hquery, hrest⟩ := List.forall_mem_cons.mp hsub
    obtain ⟨-, -, hanswer⟩ := hanswered _ _ _ _ _ hquery
    obtain ⟨herr, rfl⟩ := answerOf_ok hanswer
    exact ⟨hrest _ List.mem_cons_self, hqueried, herr, hgrounded, rfl, fun _ => hskip⟩

/-- The logged decision is the one that the reconstruction of the history takes. -/
theorem decision_log {pass : Pass r request} {result : CallResult}
    (hanswered : pass.Answered result) :
    (pass.cycle result).decision.map LoggedDecision.log = pass.entry.decision result := by
  have hcycle : (pass.cycle result).decision =
      pass.decision.map (pass.decisionRow result.history) := rfl
  have hentry : pass.entry.decided = pass.decision.isSome := rfl
  unfold Entry.decision
  rw [hcycle, hentry]
  cases hdecision : pass.decision with
  | none => rfl
  | some d =>
    have hd := decided hanswered hdecision
    obtain ⟨now, hchecked⟩ := hd.grounded.checked
    obtain ⟨hseries, last, hlast⟩ := validateCPUHistory_ok hchecked
    obtain ⟨value, hvalue, -⟩ := hseries.values last (List.mem_of_getLast? hlast)
    have hcurrent : d.currentCPU = value := by
      rw [hd.current, currentCPU_of_last hlast, hvalue]
      rfl
    simp only [Option.map_some, Option.isSome_some, if_true, hd.err, hlast, hvalue]
    unfold LoggedDecision.log decisionRow
    rw [hcurrent]

/-- On what a reconciliation logged, the preparation reconstructs the history as the pair of the
provider and the reconstruction does. -/
theorem series_eq {pass : Pass r request} {pair : Pair} {p : Preparation}
    (hanchors : p.anchors = pair.anchors) (hqueried : pass.queried = true)
    (hanswered : pass.Answered (pair.result pass.entry)) {windowSeconds window : ℤ}
    (hwindow : windowSeconds * second = window) :
    p.series windowSeconds (pass.cycle (pair.result pass.entry)) =
      match pair.reconstruct window pass.entry with
      | (none, anchors) => (.ok [], anchors)
      | (some series, anchors) => (series, anchors) := by
  have hseconds : (windowSeconds : ℚ) = (window : ℚ) / (second : ℚ) := by
    have hpos : (second : ℚ) ≠ 0 := by norm_num [second]
    rw [← hwindow, Int.cast_mul, mul_div_cancel_right₀ _ hpos]
  have hquery : (pass.cycle (pair.result pass.entry)).query =
      some (pass.queryRow (pair.result pass.entry)) := if_pos hqueried
  unfold Preparation.series
  rw [hquery, decision_log hanswered, hanchors, hseconds]
  rfl

/-- An observation that was rejected reconstructs nothing. -/
theorem reconstruct_rejected {pair : Pair} {entry : Entry} {err : Err} {gateHeld : Bool}
    (hfail : attempt pair.provider.maxSampleAge entry.call = .error (err, gateHeld))
    (herr : Recognisable err) (window : ℤ) :
    (pair.reconstruct window entry).1 = none := by
  have hresult : pair.result entry = _ := averageCPU_of_error hfail
  have hlog : (logObservation (pair.result entry).history (pair.result entry).err).queryError =
      err.message := by
    rw [hresult]
    rfl
  unfold Pair.reconstruct prepareHistory
  dsimp only
  rw [hlog, if_neg herr.1]
  split_ifs <;> rfl

/-- The preparation reconstructs the cycle of a reconciliation, and keeps matching anchors. -/
theorem reconstructed {pass : Pass r request} {pair : Pair} {p : Preparation}
    {entries : List Entry} {key : NamespacedName} {uid : UID} {window windowSeconds : ℤ}
    {k : ℕ}
    (hrun : BinadeRun pair.provider.maxSampleAge key uid window k [pass.entry])
    (hsim : List.Forall₂ (Logged pair.provider.maxSampleAge k entries)
      (priorSamples pair.provider.history key uid) pair.anchors)
    (hanchors : p.anchors = pair.anchors) (hqueried : pass.queried = true)
    (hanswered : pass.Answered (pair.result pass.entry))
    (hwindow : windowSeconds * second = window) :
    ∃ series, p.series windowSeconds (pass.cycle (pair.result pass.entry)) =
        (.ok series, (pair.step window pass.entry).anchors) ∧
      ((pair.result pass.entry).err = none →
        List.Forall₂ (Logged pair.provider.maxSampleAge k (entries ++ [pass.entry]))
          (pair.result pass.entry).history.samples series) ∧
      List.Forall₂ (Logged pair.provider.maxSampleAge k (entries ++ [pass.entry]))
        (priorSamples (pair.step window pass.entry).provider.history key uid)
        (pair.step window pass.entry).anchors := by
  obtain ⟨target, htarget, hkey, huid⟩ := hrun.run.target _ List.mem_cons_self
  have hsame := hrun.run.window _ List.mem_cons_self
  have hseries := series_eq hanchors hqueried hanswered hwindow
  have hpair : pair.reconstruct window pass.entry =
      ((pair.reconstruct window pass.entry).1, (pair.step window pass.entry).anchors) := rfl
  cases hattempt : attempt pair.provider.maxSampleAge pass.entry.call with
  | ok accepted =>
    obtain ⟨target', observation⟩ := accepted
    obtain rfl := target_unique hattempt htarget
    obtain ⟨⟨series, hreconstructed, hlogged⟩, hnext⟩ :=
      step_accepted hsim hattempt hkey huid hsame hrun.binade hrun.whole
        (hrun.dated List.mem_cons_self hattempt)
    rw [hpair, hreconstructed] at hseries
    exact ⟨series, hseries, fun _ => hlogged, hnext⟩
  | error failure =>
    obtain ⟨err, gateHeld⟩ := failure
    obtain ⟨rfl, herr⟩ := hrun.run.rejected _ List.mem_cons_self err gateHeld hattempt
    rw [hpair, reconstruct_rejected hattempt herr] at hseries
    refine ⟨[], hseries, fun hnone => ?_, step_failed hsim hattempt htarget hkey herr⟩
    have hresult : (pair.result pass.entry).err = some err := by
      rw [show pair.result pass.entry = _ from averageCPU_of_error hattempt]
    rw [hresult] at hnone
    cases hnone

end Pass

/-! The items of the recording. -/

section Items

theorem replaySamples_of_logged {maxSampleAge : ℤ} {k : ℕ} {entries : List Entry}
    {samples : List (Predictor.Sample ℚ)} {series : List SeriesPoint}
    (h : List.Forall₂ (Logged maxSampleAge k entries) samples series)
    (hknown : ∀ point ∈ series, point.value.isSome = true) :
    replaySamples series = recoveredSamples samples := by
  induction h with
  | nil => rfl
  | @cons sample point samples series hpoint _ ih =>
    obtain ⟨hvalue, hrest⟩ := List.forall_mem_cons.mp hknown
    obtain ⟨htime, -, entry, -, target, observation, -, -, hlogged⟩ := hpoint
    have hsame : point.value = some sample.value := by
      rw [hlogged] at hvalue ⊢
      split_ifs at hvalue ⊢
      · rfl
      · cases hvalue
    have htail := ih hrest
    unfold replaySamples recoveredSamples at htail ⊢
    rw [List.map_cons, List.map_cons, htail, htime, hsame]
    rfl

def expectedOf (d : DecisionEvent ℚ) : ReplayExpected ℚ where
  decisionCPU := some d.decision.decisionCPU
  boundedPrediction := some d.decision.predictedCPU
  desiredReplicas := some d.decision.desiredReplicas
  finalDesired := some d.decision.finalDesired
  skipReason := some d.decision.skipReason.text
  stabilized := some d.decision.stabilization.stabilized
  rawPrediction := some d.rawPredictedCPU
  coldStartProtection := some d.decision.stabilization.coldStart
  protectedUntil := some d.decision.stabilization.protectedUntil
  historyEntries := some d.decision.stabilization.historyEntries
  historyOldestAt := d.decision.stabilization.historyOldest

structure Recovers (lib : ReplayLibrary ℚ) (config : RecordedConfig) (d : DecisionEvent ℚ)
    (item : RecordedCycle ℚ) : Prop where
  inputs : item.toReplayCycle = recordedCycle d.scale d.now d.currentCPU
  forecast : replayPrediction lib config item = some (.ok d.rawPredictedCPU)
  source : item.predictionSource = replayComputedHistory ∨
    item.predictionSource = replayRecordedForecast
  mode : item.actualMode = recordedMode d.phpa.spec.decisionMode
  expected : item.expected = expectedOf d

theorem checkForecast_self (lib : ReplayLibrary ℚ) (raw : ℚ) (field field' : String) :
    checkForecast lib raw [(field, some raw)] = .ok raw ∧
      checkForecast lib raw [(field, none), (field', some raw)] = .ok raw := by
  have hsame : ∀ field, replayFloatMismatch lib field raw (some raw) = none := by
    intro field
    simp [replayFloatMismatch, replayFloatEqual_self]
  have hmissing : replayFloatMismatch lib field raw none = none := rfl
  constructor
  · simp only [checkForecast, hsame]
  · simp only [checkForecast, hsame, hmissing]

theorem evaluateDecision_mode (history : Controller.History) (phpa : PredictiveHPA)
    (deploy : Deployment) (scale : Scale) (now : ℤ) (currentCPU raw : ℚ) :
    let decision := (evaluateDecision history phpa deploy scale now currentCPU raw).1
    decision.mode = recordedMode phpa.spec.decisionMode ∧
      decision.currentReplicas = scale.statusReplicas ∧
      decision.requestedReplicas = scale.specReplicas := by
  refine ⟨?_, rfl, rfl⟩
  unfold evaluateDecision selectDecisionSignal recordedMode
  cases phpa.spec.decisionMode <;> rfl

variable {r : PredictiveHPAReconciler ℚ} {request : NamespacedName} {lib : ReplayLibrary ℚ}
  {config : RecordedConfig}

theorem evaluated (pass : Pass r request) {d : DecisionEvent ℚ} (hmem : d.event ∈ pass.events) :
    d.decision.mode = recordedMode d.phpa.spec.decisionMode ∧
      d.decision.currentReplicas = d.scale.statusReplicas ∧
      d.decision.requestedReplicas = d.scale.specReplicas := by
  have hdecision : (d.decision, d.after.history) = evaluateDecision d.before.history d.phpa
    d.deploy d.scale d.now d.currentCPU d.rawPredictedCPU := (pass.runs.performed _ hmem).1
  have hfirst : d.decision = (evaluateDecision d.before.history d.phpa d.deploy d.scale d.now
    d.currentCPU d.rawPredictedCPU).1 := congrArg Prod.fst hdecision
  rw [hfirst]
  exact evaluateDecision_mode ..

theorem item_computed {decision : LoggedDecision} {series : List SeriesPoint} {requested : ℤ}
    (h : completeSeries series = true) :
    (decision.item series requested).predictionSource = replayComputedHistory ∧
      (decision.item series requested).rawPrediction = none ∧
      (decision.item series requested).samples = some (replaySamples series) := by
  unfold LoggedDecision.item
  rw [h]
  exact ⟨rfl, rfl, rfl⟩

theorem item_recorded {decision : LoggedDecision} {series : List SeriesPoint} {requested : ℤ}
    (h : completeSeries series = false) :
    (decision.item series requested).predictionSource = replayRecordedForecast ∧
      (decision.item series requested).rawPrediction = some decision.rawPredictedCPU ∧
      (decision.item series requested).samples = none := by
  unfold LoggedDecision.item
  rw [h]
  exact ⟨rfl, rfl, rfl⟩

/-- The item of a decision recovers it, if it was made soon after the observation. -/
theorem recovers_item {pass : Pass r request} {result : CallResult} {d : DecisionEvent ℚ}
    (hpow : lib.pow = r.pow) (hdescribes : Describes config d.phpa.spec)
    (hd : pass.Decided result d) {maxSampleAge : ℤ} {k : ℕ} {entries : List Entry}
    {series : List SeriesPoint}
    (hlogged : List.Forall₂ (Logged maxSampleAge k entries) result.history.samples series)
    (hafter : result.history.observedAt ≤ d.now)
    (hprompt : d.now - result.history.observedAt ≤ defaultMaxSampleAge) :
    Recovers lib config d
      ((pass.decisionRow result.history d).item series d.scale.specReplicas) := by
  obtain ⟨hmode, hcurrent, -⟩ := evaluated pass hd.mem
  obtain ⟨now, hchecked⟩ := hd.grounded.checked
  set item := (pass.decisionRow result.history d).item series d.scale.specReplicas with hitem
  have hexpected : item.expected = expectedOf d := rfl
  have hraw : (expectedOf d).rawPrediction = some d.rawPredictedCPU := rfl
  have hinputs : item.toReplayCycle = recordedCycle d.scale d.now d.currentCPU := by
    show ReplayCycle.mk d.now (some d.decision.currentReplicas) _ _ = _
    rw [hcurrent]
    rfl
  cases hcomplete : completeSeries series with
  | true =>
    obtain ⟨hsource, hnone, hsamples⟩ :
        item.predictionSource = _ ∧ item.rawPrediction = _ ∧ item.samples = _ :=
      item_computed hcomplete
    have hknown := (Bool.and_eq_true _ _ ▸ hcomplete :
      _ ∧ (series.all fun point => point.value.isSome) = true).2
    rw [replaySamples_of_logged hlogged (List.all_eq_true.mp hknown)] at hsamples
    have hforecast := computedForecast_recovered hpow hdescribes hchecked hd.grounded.forecast
      hsamples (congrArg some hd.current) hafter hprompt
    refine ⟨hinputs, ?_, .inl hsource, hmode, hexpected⟩
    unfold replayPrediction
    rw [if_neg (by rw [hsource]; decide), hforecast, hnone, hexpected, hraw]
    exact congrArg some (checkForecast_self lib d.rawPredictedCPU _ _).2
  | false =>
    obtain ⟨hsource, hforecast, hsamples⟩ :
        item.predictionSource = _ ∧ item.rawPrediction = some d.rawPredictedCPU ∧
          item.samples = _ := item_recorded hcomplete
    refine ⟨hinputs, ?_, .inr hsource, hmode, hexpected⟩
    unfold replayPrediction
    rw [if_pos hsource, hforecast, hsamples, hexpected, hraw]
    exact congrArg some (checkForecast_self lib d.rawPredictedCPU _ "").1

end Items

/-! The run of the preparation over a run of the controller. -/

section Runs

variable {r : PredictiveHPAReconciler ℚ} {request : NamespacedName}

def Pass.requestedAfter (pass : Pass r request) (requested : ℤ) : ℤ :=
  if pass.wrote then pass.decision.elim requested fun d => d.decision.finalDesired else requested

/-- The decision follows its observation within the age that the replay allows. -/
def Fresh (cycle : CycleRows) : Prop :=
  ∀ query ∈ cycle.query, ∀ decision ∈ cycle.decision, ∀ evaluation,
    query.latestEvaluationAt = some evaluation →
      decision.stabilizationEvaluatedAt - evaluation ≤ defaultMaxSampleAge

/-- What the replay checks of the inputs of a decision. -/
structure Admissible (d : DecisionEvent ℚ) : Prop where
  policy : ValidSpec d.phpa.spec
  decidedAt : Time.isZero d.now = false
  currentCPU : 0 ≤ d.currentCPU

variable {lib : ReplayLibrary ℚ} {config : RecordedConfig} {spec : PredictiveHPASpec}

/-- A logged Scale write continues the chain of the requested replicas. -/
theorem Pass.chained {pass : Pass r request} {result : CallResult} {requested : ℤ}
    (hanswered : pass.Answered result)
    (hsteady : ∀ d ∈ pass.decision, d.scale.specReplicas = requested) :
    ∀ scale ∈ (pass.cycle result).scale,
      scale.disagrees (pass.cycle result).toScaleCycle.decision requested = false := by
  intro scale hscale
  have hrow : (pass.cycle result).scale = if pass.wrote then pass.decision.map pass.scaleRow
    else none := rfl
  rw [hrow] at hscale
  split_ifs at hscale with hwrote
  · cases hdecision : pass.decision with
    | none =>
      rw [hdecision] at hscale
      cases hscale
    | some d =>
      rw [hdecision] at hscale
      cases hscale
      have hd := Pass.decided hanswered hdecision
      obtain ⟨-, -, hrequested⟩ := evaluated pass hd.mem
      rw [hsteady d hdecision] at hrequested
      have hlogged : (pass.cycle result).toScaleCycle.decision = some
          ⟨d.decision.skipReason.text, d.decision.finalDesired, d.decision.currentReplicas⟩ := by
        show ((pass.decision.map (pass.decisionRow result.history)).map _) = _
        rw [hdecision]
        rfl
      rw [hlogged, ScaleEvent.disagrees]
      simp [Pass.scaleRow, hrequested, hd.written hwrote, SkipReason.text]
  · cases hscale

/-- The item of a decision recovers it, when the cycle is valid and the decision prompt. -/
theorem Pass.Decided.recovered {pass : Pass r request} {result : CallResult} {d : DecisionEvent ℚ}
    (hd : pass.Decided result d) (hdecision : pass.decision = some d) (hpow : lib.pow = r.pow)
    (hdescribes : Describes config d.phpa.spec) (hvalid : ValidCycle (pass.cycle result))
    (hfresh : Fresh (pass.cycle result)) {maxSampleAge : ℤ} {k : ℕ} {entries : List Entry}
    {series : List SeriesPoint}
    (hlogged : List.Forall₂ (Logged maxSampleAge k entries) result.history.samples series) :
    Recovers lib config d
        ((pass.decisionRow result.history d).item series d.scale.specReplicas) ∧
      Admissible d := by
  obtain ⟨now, hchecked⟩ := hd.grounded.checked
  obtain ⟨last, hlast, -, hnonzero, -⟩ := validateCPUHistory_inv hchecked
  obtain ⟨value, hvalue, hnonneg⟩ := (validateCPUHistory_ok hchecked).1.values last
    (List.mem_of_getLast? hlast)
  have hquery : pass.queryRow result ∈ (pass.cycle result).query := if_pos hd.queried
  have hdecided : pass.decisionRow result.history d ∈ (pass.cycle result).decision := by
    show pass.decision.map (pass.decisionRow result.history) = _
    rw [hdecision]
    rfl
  have hobserved : (pass.queryRow result).latestEvaluationAt =
      some result.history.observedAt := by
    show optionalTimestamp result.history.observedAt = _
    rw [optionalTimestamp, hnonzero]
    rfl
  obtain ⟨hepoch, hafter⟩ := hvalid.evaluated _ hquery _ hdecided _ hobserved
  have hprompt := hfresh _ hquery _ hdecided _ hobserved
  have hpos : 0 < Time.unixEpoch := by decide
  have hnow : result.history.observedAt ≤ d.now := hafter
  constructor
  · exact recovers_item hpow hdescribes hd hlogged hafter hprompt
  constructor
  · exact validateConfiguration_ok hd.grounded.policy
  · simp only [Time.isZero, beq_eq_false_iff_ne]
    omega
  · rw [hd.current, currentCPU_of_last hlast, hvalue]
    exact hnonneg

/-- What the preparation makes of one reconciliation. -/
theorem Pass.prepared {pass : Pass r request} {pair : Pair} {p : Preparation}
    {entries : List Entry} {key : NamespacedName} {uid : UID} {k : ℕ} (hpow : lib.pow = r.pow)
    (hdescribes : Describes config spec)
    (hrun : BinadeRun pair.provider.maxSampleAge key uid spec.prediction.window k [pass.entry])
    (hsim : List.Forall₂ (Logged pair.provider.maxSampleAge k entries)
      (priorSamples pair.provider.history key uid) pair.anchors)
    (hanchors : p.anchors = pair.anchors) (hanswered : pass.Answered (pair.result pass.entry))
    (hsteady : ∀ d ∈ pass.decision, d.scale.specReplicas = p.requested)
    (hspec : ∀ d ∈ pass.decision, d.phpa.spec = spec)
    (hvalid : ValidCycle (pass.cycle (pair.result pass.entry)))
    (hfresh : Fresh (pass.cycle (pair.result pass.entry))) (onset : ℚ) :
    ∃ p' items record, Preparation.step config onset p (pass.cycle (pair.result pass.entry)) =
        .ok p' ∧
      p'.anchors = (pair.step spec.prediction.window pass.entry).anchors ∧
      p'.requested = pass.requestedAfter p.requested ∧
      p'.replay = p.replay ++ items ∧ p'.timeline = p.timeline ++ [record] ∧
      record.replayIndex = pass.decision.map (fun _ => p.replay.length) ∧
      List.Forall₂ (Recovers lib config) pass.decision.toList items ∧
      (∀ d ∈ pass.decision, Admissible d) ∧
      List.Forall₂ (Logged pair.provider.maxSampleAge k (entries ++ [pass.entry]))
        (priorSamples (pair.step spec.prediction.window pass.entry).provider.history key uid)
        (pair.step spec.prediction.window pass.entry).anchors := by
  set result := pair.result pass.entry with hresult
  have hqueried : pass.queried = true := by
    have hquery : (if pass.queried then some (pass.queryRow result) else none).isSome :=
      hvalid.queried
    by_contra hnot
    rw [if_neg hnot] at hquery
    cases hquery
  obtain ⟨series, hseries, hlogged, hnext⟩ :=
    Pass.reconstructed hrun hsim hanchors hqueried hanswered hdescribes.window
  have hstep := Preparation.step_eq hseries (Pass.chained hanswered hsteady) onset
  have hscale : (pass.cycle result).scale =
      if pass.wrote then pass.decision.map pass.scaleRow else none := rfl
  have hrow : (pass.cycle result).decision = pass.decision.map (pass.decisionRow result.history) :=
    rfl
  refine ⟨_, _, _, hstep, rfl, ?_, rfl, rfl, ?_, ?_⟩
  · unfold Preparation.next Pass.requestedAfter
    dsimp only
    rw [hscale]
    split_ifs
    · cases pass.decision <;> rfl
    · rfl
  · unfold Preparation.record
    dsimp only
    rw [hrow, Option.map_map, Option.map_map]
    rfl
  · rw [hrow]
    cases hdecision : pass.decision with
    | none => exact ⟨.nil, fun d hd => absurd hd (by simp), hnext⟩
    | some d =>
      have hd := Pass.decided hanswered hdecision
      obtain ⟨hitem, hadmissible⟩ := hd.recovered hdecision hpow (hspec d hdecision ▸ hdescribes)
        hvalid hfresh (hlogged hd.err)
      rw [hsteady d hdecision] at hitem
      refine ⟨.cons hitem .nil, ?_, hnext⟩
      rintro _ ⟨⟩
      exact hadmissible

def decisions (passes : List (Pass r request)) : List (DecisionEvent ℚ) :=
  passes.filterMap Pass.decision

end Runs

end Autoscaler.RecordedRun
