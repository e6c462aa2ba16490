import Autoscaler.Controller.Configuration
import Autoscaler.Controller.DecisionStability
import Autoscaler.Controller.HistoryBuckets
import Mathlib.Data.Int.ConditionallyCompleteOrder

/-! The loop of decisions and the Deployment they resize, under a demand that stays the same. What
the API server and the metrics answer is a parameter. -/
namespace Autoscaler.Controller
open Time

section Loop

variable {K : Type*} [Field K] [LinearOrder K]

/-- What the next decision depends on: the request it finds, and the recorded recommendations. -/
structure LoopState where
  requested : ℤ
  history : History

/-- What is answered for one decision: the time, the replicas that the status shows, the verified
CPU and its forecast, and whether its Scale write is accepted. -/
structure Tick (K : Type*) where
  now : ℤ
  observed : ℤ
  cpu : K
  rawPredicted : K
  accepted : Bool

variable (phpa : PredictiveHPA) (deploy : Deployment)

/-- One decision. The Scale is written unless the decision skips. -/
def tick [FloorRing K] (t : Tick K) (s : LoopState) : LoopState :=
  let scale : Scale :=
    { deploy.scale with specReplicas := s.requested, statusReplicas := t.observed }
  let (decision, history) := evaluateDecision s.history phpa deploy scale t.now t.cpu
    t.rawPredicted
  { requested :=
      if decision.skipReason = .none ∧ t.accepted = true then decision.finalDesired
      else s.requested
    history }

def loop [FloorRing K] (ticks : ℕ → Tick K) (start : LoopState) : ℕ → LoopState
  | 0 => start
  | k + 1 => tick phpa deploy (ticks k) (loop ticks start k)

/-- The observed replicas share the demand, a percentage of what one of them requests, and the
metrics show it. -/
structure Tick.Shares (demand : K) (t : Tick K) : Prop where
  observed_pos : 1 ≤ t.observed
  cpu_eq : t.cpu = demand / (t.observed : K)

def Tick.Settled (t : Tick K) (requested : ℤ) : Prop := t.observed = requested

/-- The replicas that carry the demand at the target utilization, within the bounds. -/
def neededReplicas [FloorRing K] (spec : PredictiveHPASpec) (demand : K) : ℤ :=
  clampReplicas (effectiveMinReplicas spec) spec.maxReplicas
    ⌈demand / (spec.targetCPUUtilizationPercentage : K)⌉

/-- A request within its bounds at a utilization that is close enough to the target. -/
def Tolerated (spec : PredictiveHPASpec) (cpu : K) (requested : ℤ) : Prop :=
  effectiveMinReplicas spec ≤ requested ∧ requested ≤ spec.maxReplicas ∧
    withinTolerance cpu spec.targetCPUUtilizationPercentage = true

end Loop

/-- An entry as the calls leave it: nothing in it is later than its last recording. -/
structure Dated (hist : ScaleHistory) : Prop where
  spread : hist.Spread
  guarded : hist.protectedAt ≤ hist.lastRecordedAt

/-- The entry of a loop that has recorded only `needed` since `start`, up to `now`. -/
structure Fed (phpa : PredictiveHPA) (deploy : Deployment) (needed start now : ℤ)
    (hist : ScaleHistory) : Prop where
  phpaUID : hist.phpaUID = phpa.metadata.uid
  targetUID : hist.targetUID = deploy.metadata.uid
  targetName : hist.targetName = deploy.metadata.name
  window : hist.window = stabilizationWindow phpa.spec
  recorded : hist.lastRecordedAt = now
  spread : hist.Spread
  guarded : hist.protectedAt ≤ start
  capped : RollingMax.CappedAfter
    (fun t => truncate t (bucketWidth (stabilizationWindow phpa.spec)))
    (truncate start (bucketWidth (stabilizationWindow phpa.spec))) needed hist.marks

section Entry

variable {phpa : PredictiveHPA} {deploy : Deployment} {stored : Option ScaleHistory}
  {needed start now later requested : ℤ} {hist : ScaleHistory}

/-- A rebuilt entry starts its guard now, a kept one was last recorded before. -/
theorem historyInForce_guarded (h : ∀ hist ∈ stored, Dated hist) :
    (historyInForce stored phpa deploy now requested).protectedAt ≤ now := by
  cases hr : rebuilds stored phpa deploy now with
  | true =>
    rw [historyInForce_of_rebuilds hr]
    exact le_refl now
  | false =>
    cases stored with
    | none => cases hr
    | some hist =>
      rw [historyInForce_of_kept hr]
      exact (h hist rfl).guarded.trans
        ((rebuilds_some_eq_false hist phpa deploy now).mp hr).2.2.2.2

theorem advanceHistory_dated (hw : 0 ≤ stabilizationWindow phpa.spec)
    (h : ∀ hist ∈ stored, Dated hist) (desired : ℤ) :
    Dated (advanceHistory stored phpa deploy now desired requested).2 :=
  ⟨advanceHistory_spread _ _ _ _ _ _ hw fun hist hh => (h hist hh).spread,
    historyInForce_guarded h⟩

/-- One more recommendation of `needed`, on an entry whose marks it may merge with. -/
theorem Fed.advance (hw : 0 ≤ stabilizationWindow phpa.spec)
    (hspread : ∀ hist ∈ stored, hist.Spread)
    (hguarded : (historyInForce stored phpa deploy now requested).protectedAt ≤ start)
    (hcapped : RollingMax.CappedAfter
      (fun t => truncate t (bucketWidth (stabilizationWindow phpa.spec)))
      (truncate start (bucketWidth (stabilizationWindow phpa.spec))) needed
      (historyInForce stored phpa deploy now requested).marks) :
    Fed phpa deploy needed start now
      (advanceHistory stored phpa deploy now needed requested).2 := by
  obtain ⟨huid, htarget, hname, hwindow⟩ := historyInForce_matches stored phpa deploy now requested
  refine ⟨huid, htarget, hname, hwindow, rfl, advanceHistory_spread _ _ _ _ _ _ hw hspread,
    hguarded, ?_⟩
  rw [advanceHistory_marks_eq]
  refine RollingMax.CappedAfter.prune (RollingMax.CappedAfter.push ?_ now le_rfl) _
  split_ifs
  · exact fun m hm => absurd hm List.not_mem_nil
  · exact hcapped

theorem Fed.first (hw : 0 ≤ stabilizationWindow phpa.spec) (h : ∀ hist ∈ stored, Dated hist) :
    Fed phpa deploy needed now now
      (advanceHistory stored phpa deploy now needed requested).2 := by
  refine Fed.advance hw (fun hist hh => (h hist hh).spread) (historyInForce_guarded h) ?_
  obtain ⟨last, hlast, hspread⟩ := historyInForce_spread stored phpa deploy now requested
    fun hist hh => (h hist hh).spread
  exact fun m hm => .inr (truncate_le_truncate (bucketWidth_pos _)
    ((hspread.within m hm).2.trans hlast))

theorem Fed.kept (h : Fed phpa deploy needed start now hist) (hlater : now ≤ later)
    (requested : ℤ) : historyInForce (some hist) phpa deploy later requested = hist :=
  historyInForce_of_kept ((rebuilds_some_eq_false _ _ _ _).mpr
    ⟨h.phpaUID, h.targetUID, h.targetName, h.window, h.recorded.le.trans hlater⟩) requested

theorem Fed.next (hw : 0 ≤ stabilizationWindow phpa.spec)
    (h : Fed phpa deploy needed start now hist) (hlater : now ≤ later) (requested : ℤ) :
    Fed phpa deploy needed start later
      (advanceHistory (some hist) phpa deploy later needed requested).2 := by
  have hkept := h.kept hlater requested
  refine Fed.advance hw (fun hist' hh => Option.some.inj hh ▸ h.spread) ?_ ?_ <;> rw [hkept]
  · exact h.guarded
  · exact h.capped

/-- Once a window and a bucket have passed, only the recommendations of the loop are left. -/
theorem Fed.retained (hw : 0 < stabilizationWindow phpa.spec)
    (h : Fed phpa deploy needed start now hist) (hlater : now ≤ later) (hneeded : 0 ≤ needed)
    (hpassed : start + stabilizationWindow phpa.spec +
      bucketWidth (stabilizationWindow phpa.spec) ≤ later)
    {history : History} (hstored : history phpa.metadata.key = some hist) (requested : ℤ) :
    retainedPeak history phpa deploy later needed requested ≤ needed := by
  have hwidth := bucketWidth_pos (stabilizationWindow phpa.spec)
  have hfed := h.next hw.le hlater requested
  have hguard : ¬ later ≤ (advanceHistory (some hist) phpa deploy later needed
      requested).2.protectedAt + stabilizationWindow phpa.spec := by
    have := hfed.guarded
    omega
  unfold retainedPeak
  dsimp only
  rw [hstored, if_neg hguard]
  obtain ⟨-, -, hzero | ⟨m, hm, hpeak⟩⟩ :=
    advanceHistory_peak (some hist) phpa deploy later needed requested
  · exact hzero.le.trans hneeded
  rw [← hpeak]
  refine (hfed.capped m hm).resolve_right fun hbucket => ?_
  -- A mark inside the window is later than the bucket in which the loop started.
  have hstart := truncate_le start (bucketWidth (stabilizationWindow phpa.spec))
  have hmark := lt_truncate_add m.1 hwidth
  have hwithin := (hfed.spread.within m hm).1
  rw [hfed.recorded, hfed.window] at hwithin
  dsimp only at hbucket
  omega

end Entry

section Target

def settledTarget (phpa : PredictiveHPA) (deploy : Deployment) (desired now : ℤ) (s : LoopState) :
    ℤ :=
  (stabilizeRecommendation s.history phpa deploy now desired s.requested
    (effectiveMinReplicas phpa.spec)).1.finalDesired

def Bounded (spec : PredictiveHPASpec) (x : ℤ) : Prop :=
  clampReplicas (effectiveMinReplicas spec) spec.maxReplicas x = x

variable {K : Type*} [Field K] [LinearOrder K] [FloorRing K]
variable (phpa : PredictiveHPA) (deploy : Deployment) {desired : ℤ} (now : ℤ) {s : LoopState}

theorem neededReplicas_bounded (spec : PredictiveHPASpec) (demand : K) :
    Bounded spec (neededReplicas spec demand) :=
  clampReplicas_idem _ _ _

theorem one_le_neededReplicas {spec : PredictiveHPASpec} (hvalid : ValidSpec spec) (demand : K) :
    1 ≤ neededReplicas spec demand :=
  (le_max_right _ _).trans (le_clampReplicas _ _ hvalid.policy.effective.lower_le _)

theorem settledTarget_of_le (hbounded : Bounded phpa.spec desired) (h : s.requested ≤ desired) :
    settledTarget phpa deploy desired now s = desired :=
  (finalDesired_of_le _ _ _ _ _ _ _ h).trans hbounded

theorem settledTarget_bounds (hbounded : Bounded phpa.spec desired) (h : desired ≤ s.requested) :
    desired ≤ settledTarget phpa deploy desired now s ∧
      settledTarget phpa deploy desired now s ≤ s.requested := by
  unfold settledTarget
  rw [finalDesired_eq_retained]
  split_ifs with hreduce
  · have hretained := desired_le_retained s.history phpa deploy now desired s.requested hreduce.1
    unfold Bounded clampReplicas at hbounded
    unfold clampReplicas
    omega
  · rw [hbounded]
    exact ⟨le_rfl, h⟩

/-- Stabilization leads from the request towards the recommendation, and not past it. -/
theorem settledTarget_mem (hbounded : Bounded phpa.spec desired) :
    settledTarget phpa deploy desired now s ∈ Set.uIcc s.requested desired := by
  rcases le_total s.requested desired with hle | hle
  · rw [settledTarget_of_le phpa deploy now hbounded hle]
    exact Set.right_mem_uIcc
  · rw [Set.uIcc_of_ge hle]
    exact settledTarget_bounds phpa deploy now hbounded hle

end Target

section Step

variable {K : Type*} [Field K] [LinearOrder K] [FloorRing K]
variable (phpa : PredictiveHPA) (deploy : Deployment) {demand : K} (t : Tick K) {s : LoopState}

def recommended (spec : PredictiveHPASpec) (t : Tick K) (requested : ℤ) : ℤ :=
  directedRecommendation t.observed requested t.cpu spec.targetCPUUtilizationPercentage
    (effectiveMinReplicas spec) spec.maxReplicas

theorem recommended_bounded (spec : PredictiveHPASpec) (requested : ℤ) :
    Bounded spec (recommended spec t requested) :=
  clampReplicas_idem _ _ _

/-- A tick records its recommendation and moves to what stabilization leaves of it. -/
theorem tick_eq (hmode : phpa.spec.decisionMode = .current) :
    let desired := recommended phpa.spec t s.requested
    let final := settledTarget phpa deploy desired t.now s
    tick phpa deploy t s =
      { requested :=
          if scalingSkipReason final s.requested t.cpu phpa.spec.targetCPUUtilizationPercentage
            (effectiveMinReplicas phpa.spec) phpa.spec.maxReplicas = .none ∧ t.accepted = true
          then final else s.requested
        history := Function.update s.history phpa.metadata.key (some
          (advanceHistory (s.history phpa.metadata.key) phpa deploy t.now desired
            s.requested).2) } := by
  simp only [tick, evaluateDecision, hmode, selectDecisionSignal, reduceCtorEq, if_false,
    ScalingDecision.finalDesired]
  rfl

theorem tick_history (hmode : phpa.spec.decisionMode = .current) :
    (tick phpa deploy t s).history phpa.metadata.key =
      some (advanceHistory (s.history phpa.metadata.key) phpa deploy t.now
        (recommended phpa.spec t s.requested) s.requested).2 := by
  rw [tick_eq phpa deploy t hmode]
  exact Function.update_self ..

/-- The request becomes what stabilization leaves, or it is tolerated, or the write was
rejected. -/
theorem tick_requested (hmode : phpa.spec.decisionMode = .current) :
    (tick phpa deploy t s).requested =
        settledTarget phpa deploy (recommended phpa.spec t s.requested) t.now s ∨
      ((tick phpa deploy t s).requested = s.requested ∧
        (t.accepted = true → Tolerated phpa.spec t.cpu s.requested)) := by
  rw [tick_eq phpa deploy t hmode]
  dsimp only
  set final := settledTarget phpa deploy (recommended phpa.spec t s.requested) t.now s
  by_cases hequal : final = s.requested
  · rw [hequal, ite_self]
    exact .inl rfl
  unfold scalingSkipReason
  rw [if_neg hequal]
  by_cases hband : s.requested ≥ max (effectiveMinReplicas phpa.spec) 1 ∧
      s.requested ≤ phpa.spec.maxReplicas ∧
      withinTolerance t.cpu phpa.spec.targetCPUUtilizationPercentage = true
  · rw [if_pos hband, if_neg fun hwrite => SkipReason.noConfusion hwrite.1]
    exact .inr ⟨rfl, fun _ => ⟨(le_max_left _ _).trans hband.1, hband.2⟩⟩
  · rw [if_neg hband]
    split_ifs with hwrite
    · exact .inl rfl
    · exact .inr ⟨rfl, fun haccepted => absurd ⟨rfl, haccepted⟩ hwrite⟩

variable [IsStrictOrderedRing K]

theorem Tick.Shares.computed {t : Tick K} (h : t.Shares demand) (hdemand : 0 ≤ demand)
    (target minimum maximum : ℤ) :
    computeDesiredReplicas t.observed t.cpu target minimum maximum =
      clampReplicas minimum maximum ⌈demand / (target : K)⌉ := by
  have hobserved : (0 : K) < t.observed := by exact_mod_cast h.observed_pos
  rw [computeDesiredReplicas_eq, h.cpu_eq, max_eq_left (div_nonneg hdemand hobserved.le),
    mul_div_cancel₀ _ hobserved.ne']

/-- Whatever the status shows, the recommendation lies between the request and what is needed. -/
theorem recommended_mem {spec : PredictiveHPASpec} {t : Tick K} (h : t.Shares demand)
    (hdemand : 0 ≤ demand) (htarget : 1 ≤ spec.targetCPUUtilizationPercentage) (requested : ℤ) :
    recommended spec t requested ∈ Set.uIcc requested (neededReplicas spec demand) := by
  have hcomputed := h.computed hdemand spec.targetCPUUtilizationPercentage
    (effectiveMinReplicas spec) spec.maxReplicas
  rw [Set.mem_uIcc]
  unfold recommended neededReplicas
  rcases lt_trichotomy t.cpu spec.targetCPUUtilizationPercentage with hlt | heq | hgt
  · rw [directedRecommendation_of_lt hlt, hcomputed]
    unfold clampReplicas
    omega
  · rw [heq, computeDesiredReplicas_target _ htarget] at hcomputed
    rw [heq, directedRecommendation_target _ _ htarget, hcomputed]
    exact (le_total _ _).imp (fun h => ⟨h, le_rfl⟩) fun h => ⟨le_rfl, h⟩
  · rw [directedRecommendation_of_gt hgt, hcomputed]
    unfold clampReplicas
    omega

/-- With the status settled it is what is needed. -/
theorem recommended_settled {spec : PredictiveHPASpec} {t : Tick K} (h : t.Shares demand)
    (hdemand : 0 ≤ demand) (htarget : 1 ≤ spec.targetCPUUtilizationPercentage) {requested : ℤ}
    (hsettled : t.Settled requested) :
    recommended spec t requested = neededReplicas spec demand := by
  have hcomputed := h.computed hdemand spec.targetCPUUtilizationPercentage
    (effectiveMinReplicas spec) spec.maxReplicas
  have hrequested : (0 : K) < requested := by exact_mod_cast hsettled ▸ h.observed_pos
  have htarget' : (0 : K) < spec.targetCPUUtilizationPercentage := by exact_mod_cast htarget
  have hcpu : t.cpu = demand / (requested : K) := by rw [h.cpu_eq, hsettled]
  unfold recommended neededReplicas
  rcases lt_trichotomy t.cpu spec.targetCPUUtilizationPercentage with hlt | heq | hgt
  · have hceil : ⌈demand / (spec.targetCPUUtilizationPercentage : K)⌉ ≤ requested := by
      rw [Int.ceil_le, div_le_iff₀ htarget', mul_comm]
      exact ((div_lt_iff₀ hrequested).mp (hcpu ▸ hlt)).le
    rw [directedRecommendation_of_lt hlt, hcomputed]
    unfold clampReplicas
    omega
  · rw [heq, computeDesiredReplicas_target _ htarget] at hcomputed
    rw [heq, directedRecommendation_target _ _ htarget, hcomputed]
  · have hceil : requested ≤ ⌈demand / (spec.targetCPUUtilizationPercentage : K)⌉ := by
      refine (Int.cast_le (R := K)).mp (le_trans ?_ (Int.le_ceil _))
      rw [le_div_iff₀ htarget', mul_comm]
      exact ((lt_div_iff₀ hrequested).mp (hcpu ▸ hgt)).le
    rw [directedRecommendation_of_gt hgt, hcomputed]
    unfold clampReplicas
    omega

end Step

section Run

variable {K : Type*} [Field K] [LinearOrder K] [FloorRing K]

/-- The hypotheses of a loop: a valid policy on the observed CPU, a clock that never rolls back, and
metrics of the constant demand. The status may lag behind the requests as it likes. -/
structure Looping (phpa : PredictiveHPA) (demand : K) (ticks : ℕ → Tick K) (start : LoopState) :
    Prop where
  valid : ValidSpec phpa.spec
  mode : phpa.spec.decisionMode = .current
  demand_nonneg : 0 ≤ demand
  shares : ∀ k, (ticks k).Shares demand
  clock : Monotone fun k => (ticks k).now
  requested_pos : 1 ≤ start.requested
  dated : ∀ hist ∈ start.history phpa.metadata.key, Dated hist

variable {phpa : PredictiveHPA} (deploy : Deployment) {demand : K} {ticks : ℕ → Tick K}
  {start : LoopState}

omit [FloorRing K] in
theorem Looping.target_pos (h : Looping phpa demand ticks start) :
    1 ≤ phpa.spec.targetCPUUtilizationPercentage := h.valid.policy.target_pos

omit [FloorRing K] in
theorem Looping.window_nonneg (h : Looping phpa demand ticks start) :
    0 ≤ stabilizationWindow phpa.spec := by
  have := h.valid.policy.window_nonneg
  unfold stabilizationWindow second
  omega

theorem Looping.loop_dated (h : Looping phpa demand ticks start) (k : ℕ) :
    ∀ hist ∈ (loop phpa deploy ticks start k).history phpa.metadata.key, Dated hist := by
  induction k with
  | zero => exact h.dated
  | succ k ih =>
    intro hist hhist
    rw [loop, tick_history phpa deploy _ h.mode] at hhist
    obtain rfl := Option.mem_some_iff.mp hhist
    exact advanceHistory_dated h.window_nonneg ih _

variable [IsStrictOrderedRing K]

/-- A tick moves the request towards what is needed, and not past it. -/
theorem Looping.step_mem (h : Looping phpa demand ticks start) (k : ℕ) :
    (loop phpa deploy ticks start (k + 1)).requested ∈
      Set.uIcc (loop phpa deploy ticks start k).requested (neededReplicas phpa.spec demand) := by
  have hrecommended := recommended_mem (h.shares k) h.demand_nonneg h.target_pos
    (loop phpa deploy ticks start k).requested
  rcases tick_requested phpa deploy (ticks k) h.mode with hwritten | ⟨hkept, -⟩
  · rw [loop, hwritten]
    exact Set.uIcc_subset_uIcc Set.left_mem_uIcc hrecommended
      (settledTarget_mem phpa deploy _ (recommended_bounded ..))
  · rw [loop, hkept]
    exact Set.left_mem_uIcc

theorem Looping.pos (h : Looping phpa demand ticks start) (k : ℕ) :
    1 ≤ (loop phpa deploy ticks start k).requested := by
  induction k with
  | zero => exact h.requested_pos
  | succ k ih =>
    have hneeded := one_le_neededReplicas h.valid demand
    exact (le_min ih hneeded).trans (h.step_mem deploy k).1

/-- What is needed is kept, whatever the status shows. -/
theorem Looping.reached (h : Looping phpa demand ticks start) {k j : ℕ}
    (hneeded : (loop phpa deploy ticks start k).requested = neededReplicas phpa.spec demand)
    (hj : k ≤ j) :
    (loop phpa deploy ticks start j).requested = neededReplicas phpa.spec demand := by
  induction j, hj using Nat.le_induction with
  | base => exact hneeded
  | succ j hj ih =>
    have hmem := h.step_mem deploy j
    rwa [ih, Set.uIcc_self, Set.mem_singleton_iff] at hmem

def SettledOn (phpa : PredictiveHPA) (deploy : Deployment) (ticks : ℕ → Tick K)
    (start : LoopState) (i k : ℕ) : Prop :=
  ∀ j, i ≤ j → j < k → (ticks j).Settled (loop phpa deploy ticks start j).requested

theorem Looping.recommends (h : Looping phpa demand ticks start) {k : ℕ}
    (hsettled : (ticks k).Settled (loop phpa deploy ticks start k).requested) :
    recommended phpa.spec (ticks k) (loop phpa deploy ticks start k).requested =
      neededReplicas phpa.spec demand :=
  recommended_settled (h.shares k) h.demand_nonneg h.target_pos hsettled

/-- Over settled ticks the entry records only what is needed. -/
theorem Looping.fed (h : Looping phpa demand ticks start) {i k : ℕ} (hik : i ≤ k)
    (hsettled : SettledOn phpa deploy ticks start i (k + 1)) :
    ∃ hist, (loop phpa deploy ticks start (k + 1)).history phpa.metadata.key = some hist ∧
      Fed phpa deploy (neededReplicas phpa.spec demand) (ticks i).now (ticks k).now hist := by
  induction k, hik using Nat.le_induction with
  | base =>
    rw [loop, tick_history phpa deploy _ h.mode,
      h.recommends deploy (hsettled i le_rfl (Nat.lt_succ_self i))]
    exact ⟨_, rfl, Fed.first h.window_nonneg (h.loop_dated deploy i)⟩
  | succ k hik ih =>
    obtain ⟨hist, hstored, hfed⟩ :=
      ih fun j hij hjk => hsettled j hij (hjk.trans (Nat.lt_succ_self _))
    rw [loop, tick_history phpa deploy _ h.mode, hstored,
      h.recommends deploy (hsettled (k + 1) (hik.trans (Nat.le_succ k)) (Nat.lt_succ_self _))]
    exact ⟨_, rfl, hfed.next h.window_nonneg (h.clock (Nat.le_succ k)) _⟩

/-- A reduction reaches what is needed once a window and a bucket of settled ticks have passed. -/
theorem Looping.released (h : Looping phpa demand ticks start) {i k : ℕ} (hik : i ≤ k)
    (hsettled : SettledOn phpa deploy ticks start i (k + 1))
    (hle : neededReplicas phpa.spec demand ≤ (loop phpa deploy ticks start k).requested)
    (hpassed : (ticks i).now + stabilizationWindow phpa.spec +
      bucketWidth (stabilizationWindow phpa.spec) ≤ (ticks k).now) :
    settledTarget phpa deploy (neededReplicas phpa.spec demand) (ticks k).now
      (loop phpa deploy ticks start k) = neededReplicas phpa.spec demand := by
  have hneeded := one_le_neededReplicas h.valid demand
  have hwidth := bucketWidth_pos (stabilizationWindow phpa.spec)
  have hbounded := neededReplicas_bounded phpa.spec demand
  unfold settledTarget
  rw [finalDesired_eq_retained]
  split_ifs with hreduce
  · -- the window is positive, so that the first of the ticks is an earlier one
    have hlt : i < k := by
      refine lt_of_le_of_ne hik fun heq => ?_
      subst heq
      omega
    obtain ⟨k, rfl⟩ := Nat.exists_eq_succ_of_ne_zero (Nat.ne_zero_of_lt hlt)
    obtain ⟨hist, hstored, hfed⟩ := h.fed deploy (Nat.le_of_lt_succ hlt)
      fun j hij hjk => hsettled j hij (hjk.trans (Nat.lt_succ_self _))
    have hretained := hfed.retained hreduce.1 (h.clock (Nat.le_succ k)) (by omega) hpassed
      hstored (loop phpa deploy ticks start (k + 1)).requested
    have hpeak := desired_le_retained (loop phpa deploy ticks start (k + 1)).history phpa
      deploy (ticks (k + 1)).now (neededReplicas phpa.spec demand)
      (loop phpa deploy ticks start (k + 1)).requested hreduce.1
    rw [le_antisymm hretained hpeak, min_eq_right hle]
    exact hbounded
  · exact hbounded

end Run

end Autoscaler.Controller
