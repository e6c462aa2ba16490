import Autoscaler.Controller.ScaleWrites

/-! Offline replay: recorded inputs through the production policy, one history per decision mode. -/
namespace Autoscaler.Controller

open Effects PredictiveHPAReconciler

/-- The policy fields of a recording; `none` is a missing value, which the policy would
dereference. -/
structure ReplayConfig where
  minReplicas : Option ℤ
  maxReplicas : ℤ
  targetCPU : ℤ
  stabilizationSeconds : Option ℤ
  deriving DecidableEq, Repr

structure ReplayCycle (K : Type) where
  decidedAt : ℤ
  observedReplicas : Option ℤ
  requestedReplicas : Option ℤ
  currentCPU : Option K
  deriving DecidableEq, Repr

structure ReplayModeResult (K : Type) where
  decisionCPU : K
  boundedPrediction : K
  formulaReplicas : ℤ
  directionClamped : Bool
  withinTolerance : Bool
  desiredReplicas : ℤ
  finalDesired : ℤ
  skipReason : SkipReason
  stabilized : Bool
  coldStartProtection : Bool
  protectedUntil : ℤ
  historyEntries : ℕ
  historyOldestAt : Option ℤ
  deriving DecidableEq, Repr

/-- The policy object of a mode: only its name, namespace, upper bound and window are set. -/
def replayPHPA (config : ReplayConfig) (mode : DecisionMode) : PredictiveHPA where
  metadata := ⟨"offline-replay", mode.value, "", 0, 0, none⟩
  spec :=
    { scaleTargetRef := ⟨"", "", ""⟩
      minReplicas := none
      maxReplicas := config.maxReplicas
      targetCPUUtilizationPercentage := 0
      prediction := ⟨.unset, 0, 0, 0⟩
      decisionMode := .unset
      scaleDownStabilizationWindowSeconds := config.stabilizationSeconds }
  status := ⟨0, 0, none, none, none, []⟩

def replayTarget : Deployment where
  metadata := ⟨"", "offline-target", "", 0, 0, none⟩
  specReplicas := 0
  statusReplicas := 0

section Replay

variable {K : Type} [Field K] [LinearOrder K] [FloorRing K]

def replayMode (history : History) (config : ReplayConfig) (cycle : ReplayCycle K) (raw : K)
    (mode : DecisionMode) : Option (ReplayModeResult K × History) := do
  let currentCPU ← cycle.currentCPU
  let observedReplicas ← cycle.observedReplicas
  let requestedReplicas ← cycle.requestedReplicas
  let minReplicas ← config.minReplicas
  let bounded := capPrediction raw currentCPU
  let signal := (selectDecisionSignal mode currentCPU bounded config.targetCPU).2
  let desired := directedRecommendation observedReplicas requestedReplicas signal config.targetCPU
    minReplicas config.maxReplicas
  let (stabilization, history) := stabilizeRecommendation history (replayPHPA config mode)
    replayTarget cycle.decidedAt desired requestedReplicas minReplicas
  let formula := computeDesiredReplicas observedReplicas signal config.targetCPU minReplicas
    config.maxReplicas
  return ({ decisionCPU := signal, boundedPrediction := bounded, desiredReplicas := desired,
            formulaReplicas := formula, directionClamped := desired ≠ formula,
            withinTolerance := withinTolerance signal config.targetCPU,
            finalDesired := stabilization.finalDesired, stabilized := stabilization.stabilized,
            skipReason := scalingSkipReason stabilization.finalDesired requestedReplicas signal
              config.targetCPU minReplicas config.maxReplicas,
            coldStartProtection := stabilization.coldStart,
            protectedUntil := stabilization.protectedUntil,
            historyEntries := stabilization.historyEntries,
            historyOldestAt := stabilization.historyOldest }, history)

def replayModes : List DecisionMode := [.current, .predictive, .hybrid]

/-- One cycle in each of the modes, on the histories of one reconciler. -/
def replayCycle (config : ReplayConfig) (cycle : ReplayCycle K) (raw : K) :
    List DecisionMode → History → Option (List (DecisionMode × ReplayModeResult K) × History)
  | [], history => some ([], history)
  | mode :: modes, history => do
    let (result, history) ← replayMode history config cycle raw mode
    let (results, history) ← replayCycle config cycle raw modes history
    return ((mode, result) :: results, history)

def replayDecisions (config : ReplayConfig) :
    List (ReplayCycle K × K) → History → Option (List (List (DecisionMode × ReplayModeResult K)))
  | [], _ => some []
  | (cycle, raw) :: cycles, history => do
    let (results, history) ← replayCycle config cycle raw replayModes history
    let rest ← replayDecisions config cycles history
    return results :: rest

end Replay

section Relabel

/-- The entry of another policy and target with the same content. -/
def ScaleHistory.relabel (phpa : PredictiveHPA) (deploy : Deployment) (h : ScaleHistory) :
    ScaleHistory :=
  { h with
    phpaUID := phpa.metadata.uid
    targetUID := deploy.metadata.uid
    targetName := deploy.metadata.name }

def ScaleHistory.BelongsTo (phpa : PredictiveHPA) (deploy : Deployment) (h : ScaleHistory) :
    Prop :=
  h.phpaUID = phpa.metadata.uid ∧ h.targetUID = deploy.metadata.uid ∧
    h.targetName = deploy.metadata.name

variable {phpa phpa' : PredictiveHPA} {deploy deploy' : Deployment}

theorem freshHistory_relabel
    (hwindow : stabilizationWindow phpa'.spec = stabilizationWindow phpa.spec)
    (now requested : ℤ) :
    freshHistory phpa' deploy' now requested =
      (freshHistory phpa deploy now requested).relabel phpa' deploy' := by
  unfold freshHistory ScaleHistory.relabel
  rw [hwindow]

/-- Identities that match on both sides leave the window and the clock to compare. -/
theorem invalidFor_relabel {h : ScaleHistory} (hold : h.BelongsTo phpa deploy)
    (hwindow : stabilizationWindow phpa'.spec = stabilizationWindow phpa.spec) (now : ℤ) :
    (h.relabel phpa' deploy').invalidFor phpa' deploy' now = h.invalidFor phpa deploy now := by
  obtain ⟨hphpa, htarget, hname⟩ := hold
  simp only [ScaleHistory.invalidFor, ScaleHistory.relabel, hphpa, htarget, hname, hwindow,
    bne_self_eq_false, Bool.false_or]
  rfl

variable {stored : Option ScaleHistory}

theorem historyInForce_relabel (hstored : ∀ h ∈ stored, h.BelongsTo phpa deploy)
    (hwindow : stabilizationWindow phpa'.spec = stabilizationWindow phpa.spec)
    (now requested : ℤ) :
    historyInForce (stored.map (ScaleHistory.relabel phpa' deploy')) phpa' deploy' now requested =
      (historyInForce stored phpa deploy now requested).relabel phpa' deploy' := by
  cases stored with
  | none => exact freshHistory_relabel hwindow now requested
  | some h =>
    simp only [Option.map_some, historyInForce,
      invalidFor_relabel (hstored h rfl) hwindow now]
    split_ifs
    · exact freshHistory_relabel hwindow now requested
    · rfl

/-- The content evolves in the same way whatever identity it is stored under. -/
theorem advanceHistory_relabel (hstored : ∀ h ∈ stored, h.BelongsTo phpa deploy)
    (hwindow : stabilizationWindow phpa'.spec = stabilizationWindow phpa.spec)
    (now desired requested : ℤ) :
    advanceHistory (stored.map (ScaleHistory.relabel phpa' deploy')) phpa' deploy' now desired
        requested =
      ((advanceHistory stored phpa deploy now desired requested).1,
        (advanceHistory stored phpa deploy now desired requested).2.relabel phpa' deploy') := by
  unfold advanceHistory
  rw [historyInForce_relabel hstored hwindow, hwindow]
  rfl

theorem advanceHistory_belongsTo (now desired requested : ℤ) :
    (advanceHistory stored phpa deploy now desired requested).2.BelongsTo phpa deploy := by
  obtain ⟨hphpa, htarget, hname, -⟩ := historyInForce_matches stored phpa deploy now requested
  exact ⟨hphpa, htarget, hname⟩

theorem clampReplicas_of_max {minimum minimum' : ℤ} (h : max minimum 1 = max minimum' 1)
    (maximum x : ℤ) : clampReplicas minimum maximum x = clampReplicas minimum' maximum x := by
  unfold clampReplicas
  rw [h]

variable {history history' : History} {minimum minimum' : ℤ}

/-- Under another identity with the same window and bounds a recommendation is stabilized alike. -/
theorem stabilizeRecommendation_relabel
    (hstored : ∀ h ∈ history phpa.metadata.key, h.BelongsTo phpa deploy)
    (hrelabel : history' phpa'.metadata.key =
      (history phpa.metadata.key).map (ScaleHistory.relabel phpa' deploy'))
    (hseconds : stabilizationWindowSeconds phpa'.spec = stabilizationWindowSeconds phpa.spec)
    (hmaximum : phpa'.spec.maxReplicas = phpa.spec.maxReplicas)
    (hminimum : max minimum' 1 = max minimum 1) (now desired requested : ℤ) :
    (stabilizeRecommendation history' phpa' deploy' now desired requested minimum').1 =
      (stabilizeRecommendation history phpa deploy now desired requested minimum).1 := by
  have hwindow : stabilizationWindow phpa'.spec = stabilizationWindow phpa.spec := by
    unfold stabilizationWindow
    rw [hseconds]
  unfold stabilizeRecommendation
  simp only [hrelabel, advanceHistory_relabel hstored hwindow, hwindow, hseconds, hmaximum,
    clampReplicas_of_max hminimum]
  rfl

theorem stabilizeRecommendation_snd_relabel
    (hstored : ∀ h ∈ history phpa.metadata.key, h.BelongsTo phpa deploy)
    (hrelabel : history' phpa'.metadata.key =
      (history phpa.metadata.key).map (ScaleHistory.relabel phpa' deploy'))
    (hseconds : stabilizationWindowSeconds phpa'.spec = stabilizationWindowSeconds phpa.spec)
    (now desired requested : ℤ) :
    (stabilizeRecommendation history' phpa' deploy' now desired requested minimum').2
        phpa'.metadata.key =
      ((stabilizeRecommendation history phpa deploy now desired requested minimum).2
        phpa.metadata.key).map (ScaleHistory.relabel phpa' deploy') := by
  have hwindow : stabilizationWindow phpa'.spec = stabilizationWindow phpa.spec := by
    unfold stabilizationWindow
    rw [hseconds]
  rw [stabilizeRecommendation_snd, stabilizeRecommendation_snd, Function.update_self,
    Function.update_self, hrelabel, advanceHistory_relabel hstored hwindow]
  rfl

end Relabel

section Bounds

variable {K : Type} [Field K] [LinearOrder K] {minimum minimum' : ℤ}

theorem computeDesiredReplicas_of_max [FloorRing K] (h : max minimum' 1 = max minimum 1)
    (observed : ℤ) (cpu : K) (target maximum : ℤ) :
    computeDesiredReplicas observed cpu target minimum' maximum =
      computeDesiredReplicas observed cpu target minimum maximum := by
  have hmin : (if minimum' < 1 then 1 else minimum') = if minimum < 1 then 1 else minimum := by
    split_ifs <;> omega
  unfold computeDesiredReplicas
  simp only [hmin]

theorem directedRecommendation_of_max [FloorRing K] (h : max minimum' 1 = max minimum 1)
    (observed requested : ℤ) (cpu : K) (target maximum : ℤ) :
    directedRecommendation observed requested cpu target minimum' maximum =
      directedRecommendation observed requested cpu target minimum maximum := by
  unfold directedRecommendation
  simp only [computeDesiredReplicas_of_max h, clampReplicas_of_max h]

theorem scalingSkipReason_of_max (h : max minimum' 1 = max minimum 1)
    (final requested : ℤ) (cpu : K) (target maximum : ℤ) :
    scalingSkipReason final requested cpu target minimum' maximum =
      scalingSkipReason final requested cpu target minimum maximum := by
  unfold scalingSkipReason
  rw [h]

theorem max_effectiveMinReplicas (spec : PredictiveHPASpec) :
    max (spec.minReplicas.getD 1) 1 = max (effectiveMinReplicas spec) 1 := by
  unfold effectiveMinReplicas
  omega

/-- The mode a recording is replayed under: an empty mode means Predictive. -/
def recordedMode (mode : DecisionMode) : DecisionMode := if mode = .unset then .predictive else mode

theorem selectDecisionSignal_recordedMode (mode : DecisionMode) (current predicted : K)
    (target : ℤ) :
    selectDecisionSignal (recordedMode mode) current predicted target =
      selectDecisionSignal mode current predicted target := by
  cases mode <;> rfl

theorem recordedMode_mem {spec : PredictiveHPASpec} (h : ValidSpec spec) :
    recordedMode spec.decisionMode ∈ replayModes := by
  have hmode := h.mode
  cases hm : spec.decisionMode with
  | unknown value =>
    rw [hm] at hmode
    cases hmode
  | _ => decide

end Bounds

/-- What a recording and its replay have in common. -/
structure DecisionOutcome (K : Type) where
  boundedPrediction : K
  decisionCPU : K
  desiredReplicas : ℤ
  finalDesired : ℤ
  stabilized : Bool
  skipReason : SkipReason
  coldStart : Bool
  protectedUntil : ℤ
  historyEntries : ℕ
  historyOldest : Option ℤ

variable {K : Type}

/-- The outcome of a bounded prediction, a signal and a recommendation once it is stabilized. -/
def StabilizationResult.outcome (s : StabilizationResult) (bounded signal : K) (desired : ℤ)
    (skipReason : SkipReason) : DecisionOutcome K where
  boundedPrediction := bounded
  decisionCPU := signal
  desiredReplicas := desired
  finalDesired := s.finalDesired
  stabilized := s.stabilized
  skipReason := skipReason
  coldStart := s.coldStart
  protectedUntil := s.protectedUntil
  historyEntries := s.historyEntries
  historyOldest := s.historyOldest

def ScalingDecision.outcome (d : ScalingDecision K) : DecisionOutcome K :=
  d.stabilization.outcome d.predictedCPU d.decisionCPU d.desiredReplicas d.skipReason

def ReplayModeResult.outcome (r : ReplayModeResult K) : DecisionOutcome K where
  boundedPrediction := r.boundedPrediction
  decisionCPU := r.decisionCPU
  desiredReplicas := r.desiredReplicas
  finalDesired := r.finalDesired
  stabilized := r.stabilized
  skipReason := r.skipReason
  coldStart := r.coldStartProtection
  protectedUntil := r.protectedUntil
  historyEntries := r.historyEntries
  historyOldest := r.historyOldestAt

def recordedConfig (spec : PredictiveHPASpec) : ReplayConfig where
  minReplicas := some (spec.minReplicas.getD 1)
  maxReplicas := spec.maxReplicas
  targetCPU := spec.targetCPUUtilizationPercentage
  stabilizationSeconds := some (stabilizationWindowSeconds spec)

def recordedCycle (scale : Scale) (now : ℤ) (currentCPU : K) : ReplayCycle K where
  decidedAt := now
  observedReplicas := some scale.statusReplicas
  requestedReplicas := some scale.specReplicas
  currentCPU := some currentCPU

def replayKey (mode : DecisionMode) : NamespacedName := ⟨"offline-replay", mode.value⟩

variable [Field K] [LinearOrder K] [FloorRing K]

theorem replayMode_recorded (history : History) (spec : PredictiveHPASpec) (scale : Scale)
    (now : ℤ) (currentCPU raw : K) (mode : DecisionMode) :
    let minimum := spec.minReplicas.getD 1
    let target := spec.targetCPUUtilizationPercentage
    let bounded := capPrediction raw currentCPU
    let signal := (selectDecisionSignal mode currentCPU bounded target).2
    let desired := directedRecommendation scale.statusReplicas scale.specReplicas signal target
      minimum spec.maxReplicas
    let stabilized := stabilizeRecommendation history (replayPHPA (recordedConfig spec) mode)
      replayTarget now desired scale.specReplicas minimum
    ∃ result, replayMode history (recordedConfig spec) (recordedCycle scale now currentCPU) raw
        mode = some (result, stabilized.2) ∧
      result.outcome = stabilized.1.outcome bounded signal desired
        (scalingSkipReason stabilized.1.finalDesired scale.specReplicas signal target minimum
          spec.maxReplicas) :=
  ⟨_, rfl, rfl⟩

theorem evaluateDecision_outcome (history : History) (phpa : PredictiveHPA) (deploy : Deployment)
    (scale : Scale) (now : ℤ) (currentCPU raw : K) :
    let minimum := effectiveMinReplicas phpa.spec
    let target := phpa.spec.targetCPUUtilizationPercentage
    let bounded := capPrediction raw currentCPU
    let signal := (selectDecisionSignal phpa.spec.decisionMode currentCPU bounded target).2
    let desired := directedRecommendation scale.statusReplicas scale.specReplicas signal target
      minimum phpa.spec.maxReplicas
    let stabilized := stabilizeRecommendation history phpa deploy now desired scale.specReplicas
      minimum
    (evaluateDecision history phpa deploy scale now currentCPU raw).1.outcome =
        stabilized.1.outcome bounded signal desired
          (scalingSkipReason stabilized.1.finalDesired scale.specReplicas signal target minimum
            phpa.spec.maxReplicas) ∧
      (evaluateDecision history phpa deploy scale now currentCPU raw).2 = stabilized.2 :=
  ⟨rfl, rfl⟩

def replayPolicy (spec : PredictiveHPASpec) : PredictiveHPA :=
  replayPHPA (recordedConfig spec) (recordedMode spec.decisionMode)

/-- The replayed history is the stored one under another identity. -/
def Replays (spec : PredictiveHPASpec) (stored : Option ScaleHistory) (history : History) : Prop :=
  history (replayPolicy spec).metadata.key =
    stored.map (ScaleHistory.relabel (replayPolicy spec) replayTarget)

/-- On the relabelled history the recorded mode decides as the controller did. -/
theorem replayMode_agrees {phpa : PredictiveHPA} {deploy : Deployment} {history history' : History}
    (hstored : ∀ h ∈ history phpa.metadata.key, h.BelongsTo phpa deploy)
    (hreplays : Replays phpa.spec (history phpa.metadata.key) history') (scale : Scale) (now : ℤ)
    (currentCPU raw : K) :
    let decided := evaluateDecision history phpa deploy scale now currentCPU raw
    ∃ result history'', replayMode history' (recordedConfig phpa.spec)
        (recordedCycle scale now currentCPU) raw (recordedMode phpa.spec.decisionMode) =
          some (result, history'') ∧
      result.outcome = decided.1.outcome ∧
      Replays phpa.spec (decided.2 phpa.metadata.key) history'' := by
  intro decided
  have hmin := max_effectiveMinReplicas phpa.spec
  obtain ⟨houtcome, hhistory⟩ :=
    evaluateDecision_outcome history phpa deploy scale now currentCPU raw
  obtain ⟨result, hreplay, hresult⟩ := replayMode_recorded history' phpa.spec scale now currentCPU
    raw (recordedMode phpa.spec.decisionMode)
  rw [selectDecisionSignal_recordedMode, directedRecommendation_of_max hmin] at hreplay hresult
  refine ⟨result, _, hreplay, ?_, ?_⟩
  · have hstabilized := stabilizeRecommendation_relabel hstored hreplays rfl rfl hmin now
      (directedRecommendation scale.statusReplicas scale.specReplicas
        (selectDecisionSignal phpa.spec.decisionMode currentCPU (capPrediction raw currentCPU)
          phpa.spec.targetCPUUtilizationPercentage).2 phpa.spec.targetCPUUtilizationPercentage
        (effectiveMinReplicas phpa.spec) phpa.spec.maxReplicas) scale.specReplicas
    unfold replayPolicy at hstabilized
    rw [hresult, houtcome, hstabilized, scalingSkipReason_of_max hmin]
  · unfold Replays
    rw [hhistory]
    exact stabilizeRecommendation_snd_relabel hstored hreplays rfl now _ _

theorem replayMode_frame (history : History) (spec : PredictiveHPASpec) (scale : Scale) (now : ℤ)
    (currentCPU raw : K) (mode : DecisionMode) :
    ∃ result history', replayMode history (recordedConfig spec)
        (recordedCycle scale now currentCPU) raw mode = some (result, history') ∧
      ∀ key, key ≠ replayKey mode → history' key = history key :=
  ⟨_, _, rfl, fun _ hkey => Function.update_of_ne hkey ..⟩

section Cycle

variable (spec : PredictiveHPASpec) (scale : Scale) (now : ℤ) (currentCPU raw : K)

theorem replayCycle_cons {mode : DecisionMode} {modes : List DecisionMode}
    {history history' history'' : History} {result : ReplayModeResult K}
    {results : List (DecisionMode × ReplayModeResult K)} {config : ReplayConfig}
    {cycle : ReplayCycle K}
    (hmode : replayMode history config cycle raw mode = some (result, history'))
    (hrest : replayCycle config cycle raw modes history' = some (results, history'')) :
    replayCycle config cycle raw (mode :: modes) history =
      some ((mode, result) :: results, history'') := by
  simp only [replayCycle, hmode, hrest, Option.bind_eq_bind, Option.bind_some]
  rfl

theorem replayCycle_frame {key : NamespacedName} {modes : List DecisionMode}
    (hmodes : ∀ mode ∈ modes, key ≠ replayKey mode) (history : History) :
    ∃ results history', replayCycle (recordedConfig spec) (recordedCycle scale now currentCPU) raw
        modes history = some (results, history') ∧ history' key = history key := by
  induction modes generalizing history with
  | nil => exact ⟨[], history, rfl, rfl⟩
  | cons mode modes ih =>
    obtain ⟨hmode, hrest⟩ := List.forall_mem_cons.mp hmodes
    obtain ⟨result, history₁, hresult, hframe⟩ :=
      replayMode_frame history spec scale now currentCPU raw mode
    obtain ⟨results, history₂, hresults, hsame⟩ := ih hrest history₁
    exact ⟨_, history₂, replayCycle_cons raw hresult hresults, hsame.trans (hframe key hmode)⟩

/-- Among modes with histories of their own, the recorded one decides as the controller did. -/
theorem replayCycle_agrees {phpa : PredictiveHPA} {deploy : Deployment} {history : History}
    (hstored : ∀ h ∈ history phpa.metadata.key, h.BelongsTo phpa deploy)
    {modes : List DecisionMode} (hnodup : (modes.map replayKey).Nodup)
    (hmem : recordedMode phpa.spec.decisionMode ∈ modes) {history' : History}
    (hreplays : Replays phpa.spec (history phpa.metadata.key) history') :
    let decided := evaluateDecision history phpa deploy scale now currentCPU raw
    ∃ results history'', replayCycle (recordedConfig phpa.spec)
        (recordedCycle scale now currentCPU) raw modes history' = some (results, history'') ∧
      (results.lookup (recordedMode phpa.spec.decisionMode)).map ReplayModeResult.outcome =
        some decided.1.outcome ∧
      Replays phpa.spec (decided.2 phpa.metadata.key) history'' := by
  intro decided
  induction modes generalizing history' with
  | nil => cases hmem
  | cons mode modes ih =>
    obtain ⟨hfresh, hnodup⟩ := List.nodup_cons.mp hnodup
    have hothers : ∀ other ∈ modes, replayKey mode ≠ replayKey other := fun other hother heq =>
      hfresh (heq ▸ List.mem_map_of_mem hother)
    by_cases heq : recordedMode phpa.spec.decisionMode = mode
    · subst heq
      obtain ⟨result, history₁, hresult, houtcome, hreplays₁⟩ :=
        replayMode_agrees hstored hreplays scale now currentCPU raw
      obtain ⟨results, history₂, hresults, hsame⟩ :=
        replayCycle_frame phpa.spec scale now currentCPU raw hothers history₁
      refine ⟨_, history₂, replayCycle_cons raw hresult hresults, ?_, ?_⟩
      · rw [List.lookup_cons_self, Option.map_some, houtcome]
      · exact hsame.trans hreplays₁
    · have hmem := (List.mem_cons.mp hmem).resolve_left heq
      obtain ⟨result, history₁, hresult, hframe⟩ :=
        replayMode_frame history' phpa.spec scale now currentCPU raw mode
      have hreplays₁ : Replays phpa.spec (history phpa.metadata.key) history₁ :=
        (hframe _ (hothers _ hmem).symm).trans hreplays
      obtain ⟨results, history₂, hresults, hlookup, hreplays₂⟩ := ih hnodup hmem hreplays₁
      refine ⟨_, history₂, replayCycle_cons raw hresult hresults, ?_, hreplays₂⟩
      rw [List.lookup_cons, beq_eq_false_iff_ne.mpr heq]
      exact hlookup

end Cycle

/-- One decision of the controller, with the worlds around it. -/
structure DecisionEvent (K : Type) where
  before : World
  phpa : PredictiveHPA
  deploy : Deployment
  scale : Scale
  now : ℤ
  currentCPU : K
  rawPredictedCPU : K
  decision : ScalingDecision K
  after : World

namespace DecisionEvent

def event (d : DecisionEvent K) : Event World (Op K) Op.Result :=
  ⟨d.before, .evaluateDecision d.phpa d.deploy d.scale d.now d.currentCPU d.rawPredictedCPU,
    d.decision, d.after⟩

/-- What a recording keeps of a decision, with its forecast. -/
def recorded (d : DecisionEvent K) : ReplayCycle K × K :=
  (recordedCycle d.scale d.now d.currentCPU, d.rawPredictedCPU)

/-- The decision is about an unchanged policy and target incarnation. -/
structure IsOf (phpa : PredictiveHPA) (deploy : Deployment) (d : DecisionEvent K) : Prop where
  key : d.phpa.metadata.key = phpa.metadata.key
  uid : d.phpa.metadata.uid = phpa.metadata.uid
  spec : d.phpa.spec = phpa.spec
  targetUID : d.deploy.metadata.uid = deploy.metadata.uid
  targetName : d.deploy.metadata.name = deploy.metadata.name

omit [Field K] [LinearOrder K] [FloorRing K] in
theorem IsOf.belongsTo_iff {phpa : PredictiveHPA} {deploy : Deployment} {d : DecisionEvent K}
    (hd : d.IsOf phpa deploy) (h : ScaleHistory) :
    h.BelongsTo d.phpa d.deploy ↔ h.BelongsTo phpa deploy := by
  unfold ScaleHistory.BelongsTo
  rw [hd.uid, hd.targetUID, hd.targetName]

end DecisionEvent

/-- Decisions of successive reconciliations, each on the history that the one before it left. -/
def ProductionRun (r : PredictiveHPAReconciler K) (phpa : PredictiveHPA) (deploy : Deployment) :
    Option ScaleHistory → List (DecisionEvent K) → Prop
  | _, [] => True
  | stored, d :: rest =>
    (∃ w events result w', Exec (cluster K) w (r.reconcile phpa.metadata.key) events result w' ∧
      d.event ∈ events) ∧
    d.IsOf phpa deploy ∧ d.before.history phpa.metadata.key = stored ∧
    ProductionRun r phpa deploy (d.after.history phpa.metadata.key) rest

theorem evaluateDecision_belongsTo (history : History) (phpa : PredictiveHPA) (deploy : Deployment)
    (scale : Scale) (now : ℤ) (currentCPU raw : K) :
    ∀ h ∈ (evaluateDecision history phpa deploy scale now currentCPU raw).2 phpa.metadata.key,
      h.BelongsTo phpa deploy := by
  intro h hh
  rw [(evaluateDecision_outcome history phpa deploy scale now currentCPU raw).2,
    stabilizeRecommendation_snd, Function.update_self] at hh
  cases hh
  exact advanceHistory_belongsTo ..

theorem replayDecisions_cons {config : ReplayConfig} {cycle : ReplayCycle K} {raw : K}
    {cycles : List (ReplayCycle K × K)} {history history' : History}
    {results : List (DecisionMode × ReplayModeResult K)}
    {reports : List (List (DecisionMode × ReplayModeResult K))}
    (hcycle : replayCycle config cycle raw replayModes history = some (results, history'))
    (hrest : replayDecisions config cycles history' = some reports) :
    replayDecisions config ((cycle, raw) :: cycles) history = some (results :: reports) := by
  simp only [replayDecisions, hcycle, hrest, Option.bind_eq_bind, Option.bind_some]
  rfl

/-- The replay follows the run, from any stored history that it replays. -/
theorem replayDecisions_agrees {r : PredictiveHPAReconciler K} {phpa : PredictiveHPA}
    {deploy : Deployment} (hvalid : ValidSpec phpa.spec) {run : List (DecisionEvent K)}
    {stored : Option ScaleHistory} (hstored : ∀ h ∈ stored, h.BelongsTo phpa deploy)
    (hrun : ProductionRun r phpa deploy stored run) {history : History}
    (hreplays : Replays phpa.spec stored history) :
    ∃ reports, replayDecisions (recordedConfig phpa.spec) (run.map DecisionEvent.recorded)
        history = some reports ∧
      reports.map (fun results => (results.lookup (recordedMode phpa.spec.decisionMode)).map
        ReplayModeResult.outcome) = run.map fun d => some d.decision.outcome := by
  induction run generalizing stored history with
  | nil => exact ⟨[], rfl, rfl⟩
  | cons d rest ih =>
    obtain ⟨⟨w, events, result, w', hexec, hmem⟩, hd, hbefore, hrest⟩ := hrun
    have hdecision : (d.decision, d.after.history) = evaluateDecision d.before.history d.phpa
      d.deploy d.scale d.now d.currentCPU d.rawPredictedCPU := (hexec.performed d.event hmem).1
    have hfound : d.before.history d.phpa.metadata.key = stored := by rw [hd.key, hbefore]
    have hcycle := replayCycle_agrees d.scale d.now d.currentCPU d.rawPredictedCPU
      (fun h hh => (hd.belongsTo_iff h).mpr (hstored h (hfound ▸ hh)))
      (by decide : (replayModes.map replayKey).Nodup) (recordedMode_mem (hd.spec ▸ hvalid))
      (by rw [hd.spec, hfound]; exact hreplays)
    have hleft := evaluateDecision_belongsTo d.before.history d.phpa d.deploy d.scale d.now
      d.currentCPU d.rawPredictedCPU
    rw [← hdecision, hd.key] at hleft hcycle
    rw [hd.spec] at hcycle
    obtain ⟨results, history₁, hresults, hlookup, hreplays₁⟩ := hcycle
    obtain ⟨reports, hreports, hagree⟩ :=
      ih (fun h hh => (hd.belongsTo_iff h).mp (hleft h hh)) hrest hreplays₁
    refine ⟨results :: reports, replayDecisions_cons hresults hreports, ?_⟩
    rw [List.map_cons, List.map_cons, hlookup, hagree]

/-- Replayed from an empty history, a recorded run reproduces every decision of the controller. -/
theorem replay_reproduces_production {r : PredictiveHPAReconciler K} {phpa : PredictiveHPA}
    {deploy : Deployment} (hvalid : ValidSpec phpa.spec) {run : List (DecisionEvent K)}
    (hrun : ProductionRun r phpa deploy none run) :
    ∃ reports, replayDecisions (recordedConfig phpa.spec) (run.map DecisionEvent.recorded)
        (fun _ => none) = some reports ∧
      reports.map (fun results => (results.lookup (recordedMode phpa.spec.decisionMode)).map
        ReplayModeResult.outcome) = run.map fun d => some d.decision.outcome :=
  replayDecisions_agrees hvalid (fun _ h => by cases h) hrun rfl

/-- The decision of the safety fixture's busy reconciliation. -/
def busyEvent : DecisionEvent ℚ where
  before := safetyWorld
  phpa := safetyPHPA
  deploy := safetyDeployment
  scale := safetyDeployment.scale
  now := 130 * second
  currentCPU := currentCPU busyHistory
  rawPredictedCPU := 100
  decision := busyDecision.1
  after := busyWorld

/-- The target after the busy reconciliation, whose status still shows the old replicas. -/
def laggingDeployment : Deployment := scaledDeployment safetyDeployment busyBody 3

def quietHistory : MetricsProvider.CPUHistory ℚ where
  samples := [⟨100 * second, .finite 100⟩, ⟨130 * second, .finite 100⟩, ⟨160 * second, .finite 20⟩]
  observedAt := 160 * second
  sourceTimestamp := 160 * second

/-- The decision that follows, on the history of the busy one. -/
def quietEvent : DecisionEvent ℚ where
  before := busyWritten
  phpa := safetyPHPA
  deploy := laggingDeployment
  scale := laggingDeployment.scale
  now := 160 * second
  currentCPU := currentCPU quietHistory
  rawPredictedCPU := 278 / 5
  decision := (evaluateDecision busyWritten.history safetyPHPA laggingDeployment
    laggingDeployment.scale (160 * second) (currentCPU quietHistory) (278 / 5)).1
  after := { busyWritten with history := (evaluateDecision busyWritten.history safetyPHPA
    laggingDeployment laggingDeployment.scale (160 * second) (currentCPU quietHistory)
    (278 / 5)).2 }

theorem quietEvent_exec :
    Exec (cluster ℚ) busyWritten (safetyReconciler.reconcile safetyPHPA.metadata.key)
      [⟨busyWritten, .getPHPA .cache safetyPHPA.metadata.key, .ok safetyPHPA, busyWritten⟩,
        ⟨busyWritten, .getDeployment .cache safetyDeployment.metadata.key, .ok laggingDeployment,
          busyWritten⟩,
        ⟨busyWritten, .averageCPU laggingDeployment (300 * second), .ok quietHistory, busyWritten⟩,
        ⟨busyWritten, .now, 160 * second, busyWritten⟩,
        ⟨busyWritten, .getScale laggingDeployment.metadata.key, .ok laggingDeployment.scale,
          busyWritten⟩,
        ⟨busyWritten, .now, 160 * second, busyWritten⟩, quietEvent.event]
      none quietEvent.after := by
  have hvalid : validateCPUHistory quietHistory (160 * second)
      safetyPHPA.spec.prediction.window = .ok () := by
    decide +kernel
  have hforecast : safetyReconciler.forecast safetyPHPA.spec quietHistory =
      some (.ok (278 / 5)) := by
    decide +kernel
  refine .call .refl ⟨rfl, rfl, rfl⟩ ?_
  refine .call .refl ⟨rfl, .inl rfl, rfl⟩ ?_
  refine .call .refl rfl ?_
  refine .call .refl rfl ?_
  simp only [Prog.bind, hvalid, hforecast]
  refine .call .refl ⟨rfl, _, rfl, rfl⟩ ?_
  refine .call .refl rfl ?_
  exact .call .refl ⟨rfl, rfl⟩ (.stop .refl)

theorem busyRun : ProductionRun safetyReconciler safetyPHPA safetyDeployment none
    [busyEvent, quietEvent] :=
  ⟨⟨safetyWorld, _, none, busyWritten, busyCalls_exec, by simp [busyReads, busyEvent,
    DecisionEvent.event]⟩, ⟨rfl, rfl, rfl, rfl, rfl⟩, rfl,
    ⟨busyWritten, _, none, _, quietEvent_exec, by simp⟩, ⟨rfl, rfl, rfl, rfl, rfl⟩, rfl, trivial⟩

/-- The second decision would keep two replicas, but for the history of the first. -/
theorem replay_reproduces_production_busy :
    quietEvent.decision.desiredReplicas = 2 ∧ quietEvent.decision.finalDesired = 10 ∧
      ∃ reports, replayDecisions (recordedConfig safetySpec)
          [busyEvent.recorded, quietEvent.recorded] (fun _ => none) = some reports ∧
        reports.map (fun results => (results.lookup .current).map ReplayModeResult.outcome) =
          [some busyEvent.decision.outcome, some quietEvent.decision.outcome] :=
  ⟨by decide +kernel, by decide +kernel, replay_reproduces_production
    (validateConfiguration_ok (by decide : validateConfiguration (fun _ => []) safetySpec = .ok ()))
    busyRun⟩

end Autoscaler.Controller
