import Autoscaler.Controller.DecisionBounds
import Autoscaler.Controller.ReplayReport

/-! Hybrid recommends at least what Current does, over a whole recording. -/
namespace Autoscaler.Controller

section Signal

variable {K : Type*} [Field K] [LinearOrder K] [IsStrictOrderedRing K] [FloorRing K]
  {observed requested minimum maximum target : ℤ} {cpu cpu' : K}

variable (requested minimum maximum) in
/-- Raising the signal up to the target, or not at all, never lowers the recommendation. -/
theorem directedRecommendation_hybrid (hobserved : 0 ≤ observed) (htarget : 1 ≤ target)
    (cpu predicted : K) :
    let hybrid := (selectDecisionSignal .hybrid cpu predicted target).2
    directedRecommendation observed requested cpu target minimum maximum ≤
        directedRecommendation observed requested hybrid target minimum maximum ∧
      ((target : K) < cpu → directedRecommendation observed requested cpu target minimum maximum =
        directedRecommendation observed requested hybrid target minimum maximum) := by
  intro hybrid
  have hsignal : hybrid = max cpu (min predicted (target : K)) := rfl
  have hle : cpu ≤ hybrid := hsignal ▸ le_max_left _ _
  refine ⟨directedRecommendation_mono minimum maximum hobserved htarget requested hle,
    fun hgt => ?_⟩
  have heq : hybrid = cpu := by
    rw [hsignal]
    exact max_eq_left ((min_le_right _ _).trans hgt.le)
  rw [heq]

end Signal

/-- The same guard, and no larger recommendations at the same times. -/
structure ScaleHistory.Below (h h' : ScaleHistory) : Prop where
  guard : { h with entries := [] } = { h' with entries := [] }
  marks : RollingMax.Below h.marks h'.marks

namespace ScaleHistory.Below

variable {h h' : ScaleHistory}

theorem protectedAt (hbelow : h.Below h') : h.protectedAt = h'.protectedAt := by
  have hsame := congrArg ScaleHistory.protectedAt hbelow.guard
  exact hsame

theorem protectedReplicas (hbelow : h.Below h') :
    h.protectedReplicas = h'.protectedReplicas := by
  have hsame := congrArg ScaleHistory.protectedReplicas hbelow.guard
  exact hsame

end ScaleHistory.Below

section Below

variable {stored stored' : Option ScaleHistory} {phpa phpa' : PredictiveHPA} (deploy : Deployment)
  (now requested : ℤ) {desired desired' : ℤ}

theorem historyInForce_below (h : Option.Rel ScaleHistory.Below stored stored')
    (huid : phpa'.metadata.uid = phpa.metadata.uid) (hspec : phpa'.spec = phpa.spec) :
    (historyInForce stored phpa deploy now requested).Below
      (historyInForce stored' phpa' deploy now requested) := by
  have hfresh : (freshHistory phpa deploy now requested).Below
      (freshHistory phpa' deploy now requested) := by
    unfold freshHistory
    rw [huid, hspec]
    exact ⟨rfl, .nil⟩
  cases h with
  | none => exact hfresh
  | @some hist hist' hbelow =>
    have hinvalid : hist'.invalidFor phpa' deploy now = hist.invalidFor phpa deploy now := by
      obtain ⟨hphpa, htarget, hname, hwindow, hlast, -⟩ := ScaleHistory.mk.inj hbelow.guard |>.2
      unfold ScaleHistory.invalidFor
      rw [huid, hspec, hphpa, htarget, hname, hwindow, hlast]
    unfold historyInForce
    dsimp only
    rw [hinvalid]
    split_ifs
    · exact hfresh
    · exact hbelow

/-- Recording no larger a recommendation keeps the order, of the peaks too. -/
theorem advanceHistory_below (h : Option.Rel ScaleHistory.Below stored stored')
    (huid : phpa'.metadata.uid = phpa.metadata.uid) (hspec : phpa'.spec = phpa.spec)
    (hdesired : desired ≤ desired') :
    (advanceHistory stored phpa deploy now desired requested).1 ≤
        (advanceHistory stored' phpa' deploy now desired' requested).1 ∧
      (advanceHistory stored phpa deploy now desired requested).2.Below
        (advanceHistory stored' phpa' deploy now desired' requested).2 := by
  have hforce : (historyInForce stored phpa deploy now requested).Below
    (historyInForce stored' phpa' deploy now requested) :=
      historyInForce_below deploy now requested h huid hspec
  have hmarks : RollingMax.Below (advanceHistory stored phpa deploy now desired requested).2.marks
      (advanceHistory stored' phpa' deploy now desired' requested).2.marks := by
    rw [advanceHistory_marks_eq, advanceHistory_marks_eq, hspec]
    refine (RollingMax.Below.push ?_ _ now hdesired).prune _
    split_ifs
    · exact .nil
    · exact hforce.marks
  refine ⟨?_, ⟨?_, hmarks⟩⟩
  · obtain ⟨-, -, hattained⟩ := advanceHistory_peak stored phpa deploy now desired requested
    obtain ⟨hzero, hbound, -⟩ := advanceHistory_peak stored' phpa' deploy now desired' requested
    rcases hattained with hpeak | ⟨m, hm, hpeak⟩
    · exact hpeak ▸ hzero
    · obtain ⟨m', hm', hle⟩ := hmarks.exists_le hm
      exact hpeak ▸ hle.trans (hbound m' hm')
  · exact congrArg (fun hist : ScaleHistory => { hist with lastRecordedAt := now }) hforce.guard

/-- So the stabilized replicas keep the order. -/
theorem finalDesired_below {history history' : History} {minimum : ℤ}
    (h : Option.Rel ScaleHistory.Below (history phpa.metadata.key) (history' phpa'.metadata.key))
    (huid : phpa'.metadata.uid = phpa.metadata.uid) (hspec : phpa'.spec = phpa.spec)
    (hdesired : desired ≤ desired') :
    (stabilizeRecommendation history phpa deploy now desired requested minimum).1.finalDesired ≤
      (stabilizeRecommendation history' phpa' deploy now desired' requested
        minimum).1.finalDesired := by
  have hfinal := stabilizeRecommendation_finalDesired history phpa deploy now desired requested
    minimum
  have hfinal' := stabilizeRecommendation_finalDesired history' phpa' deploy now desired' requested
    minimum
  dsimp only at hfinal hfinal'
  rw [hfinal, hfinal', hspec]
  refine clampReplicas_mono _ _ ?_
  by_cases hw : 0 < stabilizationWindow phpa.spec
  swap
  · rw [if_neg fun h => hw h.1, if_neg fun h => hw h.1]
    exact hdesired
  obtain ⟨hpeak, hbelow⟩ := advanceHistory_below deploy now requested h huid hspec hdesired
  have hprotected := (historyInForce_below deploy now requested h huid hspec).protectedReplicas
  have hcold : (stabilizeRecommendation history phpa deploy now desired requested
      minimum).1.coldStart = (stabilizeRecommendation history' phpa' deploy now desired' requested
        minimum).1.coldStart := by
    change (decide _ && !decide (now > (advanceHistory _ _ _ _ _ _).2.protectedAt + _)) =
      (decide _ && !decide (now > (advanceHistory _ _ _ _ _ _).2.protectedAt + _))
    rw [hbelow.protectedAt, hspec]
  rw [hcold, hprotected]
  have hreduces : ∀ x, stabilizationWindow phpa.spec > 0 ∧ x < requested ↔ x < requested :=
    fun x => ⟨And.right, fun hx => ⟨hw, hx⟩⟩
  simp only [hreduces]
  -- whether history retains anything, it retains no less on the other side
  split_ifs <;> omega

theorem stabilizeRecommendation_below {history history' : History} {minimum : ℤ}
    (h : Option.Rel ScaleHistory.Below (history phpa.metadata.key) (history' phpa'.metadata.key))
    (huid : phpa'.metadata.uid = phpa.metadata.uid) (hspec : phpa'.spec = phpa.spec)
    (hdesired : desired ≤ desired') :
    Option.Rel ScaleHistory.Below
      ((stabilizeRecommendation history phpa deploy now desired requested minimum).2
        phpa.metadata.key)
      ((stabilizeRecommendation history' phpa' deploy now desired' requested minimum).2
        phpa'.metadata.key) := by
  rw [stabilizeRecommendation_snd, stabilizeRecommendation_snd, Function.update_self,
    Function.update_self]
  exact .some (advanceHistory_below deploy now requested h huid hspec hdesired).2

end Below

section Recording

variable {K : Type} [Field K] [LinearOrder K] [FloorRing K]

/-- In one cycle Hybrid is at least Current, and equal to it on demand above the target. -/
def HybridDominates (target : ℤ) (cycle : ReplayCycle K)
    (results : List (DecisionMode × ReplayModeResult K)) : Prop :=
  ∃ current hybrid, results.lookup .current = some current ∧ results.lookup .hybrid = some hybrid ∧
    current.desiredReplicas ≤ hybrid.desiredReplicas ∧ current.finalDesired ≤ hybrid.finalDesired ∧
    ∀ cpu ∈ cycle.currentCPU, (target : K) < cpu →
      current.desiredReplicas = hybrid.desiredReplicas

variable [IsStrictOrderedRing K] {config : ReplayConfig} {cycle : ReplayCycle K}
  {minimum seconds : ℤ}

/-- One cycle keeps the order between the two histories. -/
theorem replayCycle_dominated (hconfig : ValidReplayConfig config minimum seconds)
    {observed requested : ℤ} {cpu : K} (hcycle : ValidReplayCycle cycle observed requested cpu)
    (raw : K) {history : History}
    (h : Option.Rel ScaleHistory.Below (history (replayKey .current))
      (history (replayKey .hybrid))) :
    ∃ results history', replayCycle config cycle raw replayModes history =
        some (results, history') ∧ HybridDominates config.targetCPU cycle results ∧
      Option.Rel ScaleHistory.Below (history' (replayKey .current))
        (history' (replayKey .hybrid)) := by
  obtain ⟨results, history', hresults, -⟩ :=
    replayCycle_total hconfig hcycle raw replayModes history
  refine ⟨results, history', hresults, ?_⟩
  obtain ⟨-, -, hsolo⟩ := replayCycle_solo replayModes_nodup hresults
  obtain ⟨current, after, hcurrent, hlookup, hleft⟩ := hsolo .current (by decide) history rfl
  obtain ⟨hybrid, after', hhybrid, hlookup', hleft'⟩ := hsolo .hybrid (by decide) history rfl
  obtain ⟨current₁, hcurrent₁, hdesired₁, hfinal₁, -⟩ :=
    replayMode_valid hconfig hcycle history raw .current
  obtain ⟨hybrid₁, hhybrid₁, hdesired₂, hfinal₂, -⟩ :=
    replayMode_valid hconfig hcycle history raw .hybrid
  obtain ⟨rfl, rfl⟩ := Prod.mk.inj (Option.some.inj (hcurrent.symm.trans hcurrent₁))
  obtain ⟨rfl, rfl⟩ := Prod.mk.inj (Option.some.inj (hhybrid.symm.trans hhybrid₁))
  have hspec : (replayPHPA config .hybrid).spec = (replayPHPA config .current).spec := rfl
  obtain ⟨hmono, hequal⟩ := directedRecommendation_hybrid requested minimum config.maxReplicas
    hcycle.observed_nonneg hconfig.policy.target_pos cpu (capPrediction raw cpu)
  refine ⟨⟨current, hybrid, hlookup, hlookup', ?_, ?_, ?_⟩, ?_⟩
  · rw [hdesired₁, hdesired₂]
    exact hmono
  · rw [hfinal₁, hfinal₂]
    exact finalDesired_below replayTarget cycle.decidedAt requested h rfl hspec hmono
  · intro c hc habove
    obtain rfl : cpu = c := Option.some.inj (hcycle.currentCPU.symm.trans hc)
    rw [hdesired₁, hdesired₂]
    exact hequal habove
  · rw [← hleft, ← hleft']
    exact stabilizeRecommendation_below replayTarget cycle.decidedAt requested h rfl hspec hmono

def forecastInputs (cycles : List (RecordedCycle K)) (raws : List K) : List (ReplayCycle K × K) :=
  List.zipWith (fun cycle raw => (cycle.toReplayCycle, raw)) cycles raws

theorem replayDecisions_dominated (hconfig : ValidReplayConfig config minimum seconds)
    {cycles : List (RecordedCycle K)}
    (hcycles : ∀ cycle ∈ cycles, validateReplayCycle cycle = .ok ()) {raws : List K}
    (hlength : cycles.length = raws.length) {history : History}
    (h : Option.Rel ScaleHistory.Below (history (replayKey .current))
      (history (replayKey .hybrid))) :
    ∃ reports, replayDecisions config (forecastInputs cycles raws) history = some reports ∧
      List.Forall₂ (fun cycle results =>
        HybridDominates config.targetCPU cycle.toReplayCycle results) cycles reports := by
  induction cycles generalizing raws history with
  | nil => exact ⟨[], rfl, .nil⟩
  | cons cycle cycles ih =>
    cases raws with
    | nil => cases hlength
    | cons raw raws =>
      obtain ⟨hcycle, hcycles⟩ := List.forall_mem_cons.mp hcycles
      obtain ⟨⟨observed, requested, cpu, hcycle⟩, -⟩ := validateReplayCycle_ok hcycle
      obtain ⟨results, history', hresults, hdominates, h'⟩ :=
        replayCycle_dominated hconfig hcycle raw h
      obtain ⟨reports, hreports, hall⟩ := ih hcycles (Nat.succ.inj hlength) h'
      exact ⟨_, replayDecisions_cons hresults hreports, .cons hdominates hall⟩

/-- On every accepted recording with a forecast for each cycle, Hybrid keeps at least the replicas
that Current keeps, and recommends the same on demand above the target. -/
theorem hybrid_dominates_current (lib : ReplayLibrary K) {recording : ReplayInput K}
    (hvalid : validateReplayInput recording = .ok ()) {raws : List K}
    (hraws : List.Forall₂ (fun cycle raw =>
      replayPrediction lib recording.config cycle = some (.ok raw)) recording.cycles raws) :
    ∃ reports, replayDecisions recording.config.toReplayConfig
        (forecastInputs recording.cycles raws) (fun _ => none) = some reports ∧
      List.Forall₂ (fun cycle results =>
        HybridDominates recording.config.targetCPU cycle.toReplayCycle results)
        recording.cycles reports := by
  obtain ⟨hconfig, hcycles⟩ := validateReplayInput_ok hvalid
  obtain ⟨minimum, seconds, hconfig⟩ := validateReplayConfig_ok hconfig
  exact replayDecisions_dominated hconfig hcycles hraws.length_eq .none

end Recording

section Fixed

def fixedExpected (cpu : ℚ) (replicas : ℤ) : ReplayExpected ℚ where
  decisionCPU := some cpu
  boundedPrediction := some cpu
  desiredReplicas := some replicas
  finalDesired := some replicas
  skipReason := some ""
  stabilized := some false
  rawPrediction := none
  coldStartProtection := none
  protectedUntil := none
  historyEntries := none
  historyOldestAt := none

def fixedCycle (decidedAt : ℤ) (cpu raw : ℚ) (replicas : ℤ) : RecordedCycle ℚ where
  decidedAt := decidedAt
  observedReplicas := some 2
  requestedReplicas := some 2
  currentCPU := some cpu
  predictionSource := replayRecordedForecast
  rawPrediction := some raw
  samples := none
  actualMode := .predictive
  expected := fixedExpected raw replicas

/-- The recording of the replay command's test, with instants counted from the epoch. -/
def fixedReplicaInput : ReplayInput ℚ where
  schemaVersion := 1
  policyHistoryCompleteness := "complete"
  config :=
    { minReplicas := some 1, maxReplicas := 20, targetCPU := 50, stabilizationSeconds := some 0,
      alphaPercent := 30, windowSeconds := 300, horizonSeconds := 30 }
  cycles := [fixedCycle Time.unixEpoch 100 130 6,
    fixedCycle (Time.unixEpoch + 30 * second) 25 25 1]

def exactLibrary : ReplayLibrary ℚ where
  pow x y := x ^ ⌊y⌋.toNat
  formatFloat := toString
  formatTime := toString
  formatRFC3339Nano := toString

theorem hybrid_dominates_current_fixed :
    ∃ reports, replayDecisions fixedReplicaInput.config.toReplayConfig
        (forecastInputs fixedReplicaInput.cycles [130, 25]) (fun _ => none) = some reports ∧
      List.Forall₂ (fun cycle results =>
        HybridDominates 50 cycle.toReplayCycle results) fixedReplicaInput.cycles reports :=
  hybrid_dominates_current exactLibrary (by decide +kernel)
    (.cons (by decide +kernel) (.cons (by decide +kernel) .nil))

end Fixed

end Autoscaler.Controller
