import Autoscaler.Controller.Recording

/-! A replay reports all cycles or none, and each mode's results are those of that mode alone. -/
namespace Autoscaler.Controller

section Forecast

variable {K : Type} [Field K] [LinearOrder K] {lib : ReplayLibrary K} {config : RecordedConfig}
  {cycle cycle' : RecordedCycle K}

variable (config) in
theorem validateReplaySamples_total {cpu : K} (hcpu : cycle.currentCPU = some cpu)
    (samples : List (ReplaySample K)) :
    ∃ outcome, validateReplaySamples config cycle samples = some outcome ∧
      (outcome = .ok () → (∀ sample ∈ samples, ∃ value, sample.value = some value ∧ 0 ≤ value) ∧
        (samples.map ReplaySample.timestamp).Pairwise (· < ·)) := by
  unfold validateReplaySamples
  cases hlast : samples.getLast? with
  | none => exact ⟨_, rfl, nofun⟩
  | some latest =>
    dsimp only
    split_ifs
    · exact ⟨_, rfl, nofun⟩
    · exact ⟨_, rfl, nofun⟩
    · cases hlist : validateReplaySampleList config latest.timestamp none samples with
      | error detail => exact ⟨_, rfl, nofun⟩
      | ok =>
        have hvalid := validateReplaySampleList_ok hlist
        obtain ⟨value, hvalue, -⟩ := hvalid.1 latest (List.mem_of_getLast? hlast)
        simp only [hvalue, hcpu, Option.bind_eq_bind, Option.bind_some]
        split_ifs
        · exact ⟨_, rfl, nofun⟩
        · exact ⟨_, rfl, fun _ => hvalid⟩

omit [Field K] [LinearOrder K] in
theorem toSamples_total {samples : List (ReplaySample K)} {p : K → Prop}
    (h : ∀ sample ∈ samples, ∃ value, sample.value = some value ∧ p value) :
    ∃ converted, samples.mapM ReplaySample.toSample = some converted ∧
      converted.map Predictor.Sample.timestamp = samples.map ReplaySample.timestamp ∧
      ∀ sample ∈ converted, ∃ value, sample.value = .finite value ∧ p value := by
  induction samples with
  | nil => exact ⟨[], rfl, rfl, fun _ hs => absurd hs List.not_mem_nil⟩
  | cons sample rest ih =>
    obtain ⟨⟨value, hvalue, hp⟩, hrest⟩ := List.forall_mem_cons.mp h
    obtain ⟨converted, hconverted, htimes, hvalues⟩ := ih hrest
    refine ⟨⟨sample.timestamp, .finite value⟩ :: converted, ?_, ?_, ?_⟩
    · have hsample : sample.toSample = some ⟨sample.timestamp, .finite value⟩ := by
        simp [ReplaySample.toSample, hvalue]
      rw [List.mapM_cons, hsample, hconverted]
      rfl
    · rw [List.map_cons, List.map_cons, htimes]
    · exact List.forall_mem_cons.mpr ⟨⟨value, rfl, hp⟩, hvalues⟩

variable (lib config) in
theorem computedForecast_total {cpu : K} (hcpu : cycle.currentCPU = some cpu) :
    ∃ outcome, computedForecast lib config cycle = some outcome := by
  obtain ⟨outcome, houtcome, hok⟩ :=
    validateReplaySamples_total config hcpu (cycle.samples.getD [])
  unfold computedForecast
  rw [houtcome]
  cases outcome with
  | error detail => exact ⟨_, rfl⟩
  | ok =>
    obtain ⟨hvalues, hincreasing⟩ := hok rfl
    obtain ⟨converted, hconverted, htimes, -⟩ := toSamples_total hvalues
    obtain ⟨predicted, hpredicted⟩ := Predictor.predict_total lib.pow (htimes ▸ hincreasing)
      ⟨.finite ((config.alphaPercent : K) / (100 : ℤ)), config.horizonSeconds * second⟩
    simp only [hconverted, hpredicted, Option.bind_eq_bind, Option.bind_some]
    cases predicted with
    | error err => exact ⟨_, rfl⟩
    | ok value => cases value <;> exact ⟨_, rfl⟩

variable (lib config) in
/-- On an accepted cycle the forecast neither dereferences a missing value nor panics. -/
theorem replayPrediction_total {cpu : K} (hcpu : cycle.currentCPU = some cpu) :
    ∃ outcome, replayPrediction lib config cycle = some outcome := by
  unfold replayPrediction
  split_ifs
  · split <;> exact ⟨_, rfl⟩
  · obtain ⟨outcome, houtcome⟩ := computedForecast_total lib config hcpu
    rw [houtcome]
    cases outcome <;> exact ⟨_, rfl⟩

/-- The value of a forecast that is provided agrees with it. -/
def Close (got want : K) : Prop := |got - want| ≤ 1 / (1000000000 : ℕ) * max 1 |want|

theorem replayFloatMismatch_none {field : String} {got : K} {want : Option K}
    (h : replayFloatMismatch lib field got want = none) : ∀ w ∈ want, Close got w := by
  cases want with
  | none => exact fun w hw => by cases hw
  | some w =>
    intro w' hw'
    obtain rfl := Option.mem_some_iff.mp hw'
    by_contra hfar
    have hmismatch : (!replayFloatEqual got w) = true := by
      simpa [replayFloatEqual, Close] using hfar
    rw [replayFloatMismatch, if_pos hmismatch] at h
    cases h

/-- A forecast that passes is unchanged, and close to every provided value. -/
theorem checkForecast_ok {raw raw' : K} {wanted : List (String × Option K)}
    (h : checkForecast lib raw wanted = .ok raw') :
    raw' = raw ∧ ∀ want ∈ wanted, ∀ w ∈ want.2, Close raw w := by
  induction wanted with
  | nil =>
    cases h
    exact ⟨rfl, nofun⟩
  | cons want rest ih =>
    unfold checkForecast at h
    cases hmismatch : replayFloatMismatch lib want.1 raw want.2 with
    | some mismatch =>
      rw [hmismatch] at h
      cases h
    | none =>
      rw [hmismatch] at h
      obtain ⟨hraw, hrest⟩ := ih h
      exact ⟨hraw, List.forall_mem_cons.mpr ⟨replayFloatMismatch_none hmismatch, hrest⟩⟩

/-- The inputs of a cycle: everything but the recorded mode and its outcome. -/
def RecordedCycle.observed (cycle : RecordedCycle K) : RecordedCycle K :=
  { cycle with
    actualMode := .unset
    expected := ⟨none, none, none, none, none, none, none, none, none, none, none⟩ }

/-- The forecast before it is compared with what is expected of it. -/
def forecastOf (lib : ReplayLibrary K) (config : RecordedConfig) (cycle : RecordedCycle K) :
    Option (Except ReplayErr K) :=
  if cycle.predictionSource = replayRecordedForecast then cycle.rawPrediction.map .ok
  else computedForecast lib config cycle

theorem replayPrediction_ok {raw : K} (h : replayPrediction lib config cycle = some (.ok raw)) :
    forecastOf lib config cycle.observed = some (.ok raw) ∧
      ∀ want ∈ cycle.expected.rawPrediction, Close raw want := by
  unfold replayPrediction at h
  by_cases hsource : cycle.predictionSource = replayRecordedForecast
  · rw [if_pos hsource] at h
    split at h
    next recorded hraw hsamples =>
      obtain ⟨rfl, hclose⟩ := checkForecast_ok (Option.some.inj h)
      refine ⟨?_, hclose _ (List.mem_singleton_self _)⟩
      exact (if_pos hsource).trans (congrArg (Option.map Except.ok) hraw)
    next => cases h
  · rw [if_neg hsource] at h
    cases hcomputed : computedForecast lib config cycle with
    | none =>
      rw [hcomputed] at h
      cases h
    | some outcome =>
      rw [hcomputed] at h
      cases outcome with
      | error err => cases h
      | ok computed =>
        obtain ⟨rfl, hclose⟩ := checkForecast_ok (Option.some.inj h)
        exact ⟨(if_neg hsource).trans hcomputed, hclose ("expected.rawPrediction", _) (by simp)⟩

/-- What is expected of a cycle has no part in its forecast. -/
theorem replayPrediction_observed {raw raw' : K} (hobserved : cycle.observed = cycle'.observed)
    (h : replayPrediction lib config cycle = some (.ok raw))
    (h' : replayPrediction lib config cycle' = some (.ok raw')) : raw = raw' := by
  have hforecast := (replayPrediction_ok h).1
  rw [hobserved, (replayPrediction_ok h').1] at hforecast
  cases hforecast
  rfl

end Forecast

section Modes

variable {K : Type} [Field K] [LinearOrder K] [FloorRing K] {config : ReplayConfig}
  {cycle : ReplayCycle K} {raw : K} {mode : DecisionMode} {history history' : History}

/-- The results of one mode alone, on a history of its own. -/
def replaySolo (config : ReplayConfig) (mode : DecisionMode) :
    List (ReplayCycle K × K) → History → Option (List (ReplayModeResult K))
  | [], _ => some []
  | (cycle, raw) :: cycles, history => do
    let (result, history) ← replayMode history config cycle raw mode
    let rest ← replaySolo config mode cycles history
    return result :: rest

/-- On accepted inputs a mode has a result, which stabilizes its recommendation. -/
theorem replayMode_valid {minimum seconds observed requested : ℤ} {cpu : K}
    (hconfig : ValidReplayConfig config minimum seconds)
    (hcycle : ValidReplayCycle cycle observed requested cpu) (history : History) (raw : K)
    (mode : DecisionMode) :
    let signal := (selectDecisionSignal mode cpu (capPrediction raw cpu) config.targetCPU).2
    let desired := directedRecommendation observed requested signal config.targetCPU minimum
      config.maxReplicas
    let stabilized := stabilizeRecommendation history (replayPHPA config mode) replayTarget
      cycle.decidedAt desired requested minimum
    ∃ result, replayMode history config cycle raw mode = some (result, stabilized.2) ∧
      result.desiredReplicas = desired ∧ result.finalDesired = stabilized.1.finalDesired ∧
      result.historyOldestAt = stabilized.1.historyOldest := by
  unfold replayMode
  simp only [hconfig.minReplicas, hcycle.observedReplicas, hcycle.requestedReplicas,
    hcycle.currentCPU]
  exact ⟨_, rfl, rfl, rfl, rfl⟩

theorem ValidReplayConfig.window_nonneg {minimum seconds : ℤ}
    (hconfig : ValidReplayConfig config minimum seconds) (mode : DecisionMode) :
    0 ≤ stabilizationWindow (replayPHPA config mode).spec := by
  have hseconds : stabilizationWindow (replayPHPA config mode).spec = seconds * second := by
    simp [stabilizationWindow, stabilizationWindowSeconds, replayPHPA,
      hconfig.stabilizationSeconds]
  rw [hseconds]
  exact mul_nonneg hconfig.policy.window_nonneg (by decide)

/-- No mode indexes an empty history. -/
theorem replayMode_total {minimum seconds observed requested : ℤ} {cpu : K}
    (hconfig : ValidReplayConfig config minimum seconds)
    (hcycle : ValidReplayCycle cycle observed requested cpu) (history : History) (raw : K)
    (mode : DecisionMode) :
    ∃ result history', replayMode history config cycle raw mode = some (result, history') ∧
      result.historyOldestAt.isSome := by
  obtain ⟨result, hresult, -, -, holdest⟩ := replayMode_valid hconfig hcycle history raw mode
  refine ⟨result, _, hresult, ?_⟩
  rw [holdest]
  exact stabilizeEntry_oldest _ _ _ _ _ _ _ (hconfig.window_nonneg mode)

def replayEntry (config : ReplayConfig) (cycle : ReplayCycle K) (raw : K) (mode : DecisionMode)
    (stored : Option ScaleHistory) : Option (ReplayModeResult K × Option ScaleHistory) :=
  (replayMode (fun _ => stored) config cycle raw mode).map fun p => (p.1, p.2 (replayKey mode))

theorem replayMode_eq (history : History) (config : ReplayConfig) (cycle : ReplayCycle K) (raw : K)
    (mode : DecisionMode) :
    replayMode history config cycle raw mode =
      (replayEntry config cycle raw mode (history (replayKey mode))).map fun p =>
        (p.1, Function.update history (replayKey mode) p.2) := by
  rcases cycle with ⟨decidedAt, - | observed, - | requested, - | cpu⟩
  all_goals try rfl
  rcases config with ⟨- | minimum, maximum, target, seconds⟩
  · rfl
  · simp only [replayEntry, replayMode, stabilizeRecommendation_eq, Option.map_some,
      Option.bind_eq_bind, Option.bind_some, Option.pure_def]
    rw [show (replayPHPA _ mode).metadata.key = replayKey mode from rfl, Function.update_self]

/-- A mode reads and writes its own entry only. -/
theorem replayMode_local {result : ReplayModeResult K}
    (h : replayMode history config cycle raw mode = some (result, history')) :
    (∀ key ≠ replayKey mode, history' key = history key) ∧
      ∀ solo : History, solo (replayKey mode) = history (replayKey mode) →
        ∃ solo', replayMode solo config cycle raw mode = some (result, solo') ∧
          solo' (replayKey mode) = history' (replayKey mode) := by
  rw [replayMode_eq, Option.map_eq_some_iff] at h
  obtain ⟨p, hp, hresult⟩ := h
  cases hresult
  refine ⟨fun key hne => Function.update_of_ne hne .., fun solo hsolo => ?_⟩
  rw [replayMode_eq, hsolo, hp]
  exact ⟨_, rfl, by rw [Function.update_self, Function.update_self]⟩

theorem replayCycle_cons_iff {modes : List DecisionMode}
    {results : List (DecisionMode × ReplayModeResult K)} :
    replayCycle config cycle raw (mode :: modes) history = some (results, history') ↔
      ∃ result history₁ rest, replayMode history config cycle raw mode = some (result, history₁) ∧
        replayCycle config cycle raw modes history₁ = some (rest, history') ∧
        results = (mode, result) :: rest := by
  constructor
  · intro h
    obtain ⟨⟨result, history₁⟩, hmode, h⟩ := Option.bind_eq_some_iff.mp h
    obtain ⟨⟨rest, history₂⟩, hrest, h⟩ := Option.bind_eq_some_iff.mp h
    cases h
    exact ⟨result, history₁, rest, hmode, hrest, rfl⟩
  · rintro ⟨result, history₁, rest, hmode, hrest, rfl⟩
    exact replayCycle_cons raw hmode hrest

/-- Modes with distinct histories do not see each other. -/
theorem replayCycle_solo {modes : List DecisionMode} (hnodup : (modes.map replayKey).Nodup)
    {results : List (DecisionMode × ReplayModeResult K)}
    (h : replayCycle config cycle raw modes history = some (results, history')) :
    (∀ key, (∀ mode ∈ modes, key ≠ replayKey mode) → history' key = history key) ∧
      results.map Prod.fst = modes ∧
      ∀ mode ∈ modes, ∀ solo : History, solo (replayKey mode) = history (replayKey mode) →
        ∃ result solo', replayMode solo config cycle raw mode = some (result, solo') ∧
          results.lookup mode = some result ∧
          solo' (replayKey mode) = history' (replayKey mode) := by
  induction modes generalizing history results with
  | nil =>
    cases h
    exact ⟨fun _ _ => rfl, rfl, fun mode hmem => absurd hmem List.not_mem_nil⟩
  | cons first modes ih =>
    obtain ⟨result, history₁, rest, hmode, hrest, rfl⟩ := replayCycle_cons_iff.mp h
    obtain ⟨hfresh, hnodup⟩ := List.nodup_cons.mp hnodup
    have hothers : ∀ other ∈ modes, replayKey first ≠ replayKey other := fun other hother heq =>
      hfresh (heq ▸ List.mem_map_of_mem hother)
    obtain ⟨hframe, hlocal⟩ := replayMode_local hmode
    obtain ⟨hframe', hmodes, hsolo'⟩ := ih hnodup hrest
    refine ⟨fun key hkey => ?_, by rw [List.map_cons, hmodes], fun mode hmem solo hsolo => ?_⟩
    · obtain ⟨hne, hkey⟩ := List.forall_mem_cons.mp hkey
      exact (hframe' key hkey).trans (hframe key hne)
    · rcases List.mem_cons.mp hmem with rfl | hmem
      · obtain ⟨solo', hresult, hsame⟩ := hlocal solo hsolo
        exact ⟨result, solo', hresult, List.lookup_cons_self, hsame.trans (hframe' _ hothers).symm⟩
      · have hne : replayKey mode ≠ replayKey first := (hothers mode hmem).symm
        obtain ⟨result', solo', hresult, hlookup, hsame⟩ :=
          hsolo' mode hmem solo (hsolo.trans (hframe _ hne).symm)
        refine ⟨result', solo', hresult, ?_, hsame⟩
        rw [List.lookup_cons, beq_eq_false_iff_ne.mpr fun heq => hne (congrArg replayKey heq)]
        exact hlookup

theorem replayCycle_total {minimum seconds observed requested : ℤ} {cpu : K}
    (hconfig : ValidReplayConfig config minimum seconds)
    (hcycle : ValidReplayCycle cycle observed requested cpu) (raw : K) (modes : List DecisionMode)
    (history : History) :
    ∃ results history', replayCycle config cycle raw modes history = some (results, history') ∧
      ∀ m ∈ results, m.2.historyOldestAt.isSome := by
  induction modes generalizing history with
  | nil => exact ⟨[], history, rfl, fun m hm => absurd hm List.not_mem_nil⟩
  | cons mode modes ih =>
    obtain ⟨result, history₁, hresult, holdest⟩ :=
      replayMode_total hconfig hcycle history raw mode
    obtain ⟨results, history₂, hresults, hall⟩ := ih history₁
    exact ⟨_, history₂, replayCycle_cons raw hresult hresults,
      List.forall_mem_cons.mpr ⟨holdest, hall⟩⟩

end Modes

section Report

variable {K : Type} [Field K] [LinearOrder K] {lib : ReplayLibrary K} {config : RecordedConfig}

/-- A mode's result is close to every number that is expected of it, and equal otherwise. -/
structure Agrees (raw : K) (actual : ReplayModeResult K) (expected : ReplayExpected K) : Prop where
  decisionCPU : ∀ want ∈ expected.decisionCPU, Close actual.decisionCPU want
  boundedPrediction : ∀ want ∈ expected.boundedPrediction, Close actual.boundedPrediction want
  desiredReplicas : ∀ want ∈ expected.desiredReplicas, actual.desiredReplicas = want
  finalDesired : ∀ want ∈ expected.finalDesired, actual.finalDesired = want
  skipReason : ∀ want ∈ expected.skipReason, actual.skipReason.text = want
  stabilized : ∀ want ∈ expected.stabilized, actual.stabilized = want
  rawPrediction : ∀ want ∈ expected.rawPrediction, Close raw want
  coldStartProtection : ∀ want ∈ expected.coldStartProtection, actual.coldStartProtection = want
  protectedUntil : ∀ want ∈ expected.protectedUntil, actual.protectedUntil = want
  historyEntries : ∀ want ∈ expected.historyEntries, (actual.historyEntries : ℤ) = want
  historyOldestAt : ∀ want ∈ expected.historyOldestAt, actual.historyOldestAt = some want

theorem replayMismatch_none {α : Type} [DecidableEq α] {format : α → String} {field : String}
    {got : α} {want : Option α} (h : replayMismatch format field got want = none) :
    ∀ w ∈ want, got = w := by
  cases want with
  | none => exact fun w hw => by cases hw
  | some w =>
    intro w' hw'
    obtain rfl := Option.mem_some_iff.mp hw'
    by_contra hne
    rw [replayMismatch, if_pos hne] at h
    cases h

theorem verifyReplayMode_ok {raw : K} {actual : ReplayModeResult K} {oldest : ℤ}
    {expected : ReplayExpected K} (holdest : actual.historyOldestAt = some oldest)
    (hraw : ∀ want ∈ expected.rawPrediction, Close raw want)
    (h : verifyReplayMode lib actual oldest expected = .ok ()) : Agrees raw actual expected := by
  have hnone : replayMismatches lib actual oldest expected = [] := by
    unfold verifyReplayMode at h
    split at h
    next heq => exact heq
    next => cases h
  have hall := List.filterMap_eq_nil_iff.mp hnone
  simp only [List.forall_mem_cons, id] at hall
  obtain ⟨hdecision, hbounded, hdesired, hfinal, hskip, hstabilized, hcold, hentries, huntil, hat,
    -⟩ := hall
  exact
    { decisionCPU := replayFloatMismatch_none hdecision
      boundedPrediction := replayFloatMismatch_none hbounded
      desiredReplicas := replayMismatch_none hdesired
      finalDesired := replayMismatch_none hfinal
      skipReason := replayMismatch_none hskip
      stabilized := replayMismatch_none hstabilized
      rawPrediction := hraw
      coldStartProtection := replayMismatch_none hcold
      protectedUntil := replayMismatch_none huntil
      historyEntries := replayMismatch_none hentries
      historyOldestAt := fun want hwant => by rw [holdest, replayMismatch_none hat want hwant] }

/-- What a report says about one recorded cycle. -/
structure CycleReported (lib : ReplayLibrary K) (config : RecordedConfig) (cycle : RecordedCycle K)
    (result : ReplayCycleResult K) : Prop where
  decidedAt : result.decidedAt = cycle.decidedAt
  predictionSource : result.predictionSource = cycle.predictionSource
  actualMode : result.actualMode = cycle.actualMode
  forecast : forecastOf lib config cycle.observed = some (.ok result.rawPrediction)
  modes : result.modes.map Prod.fst = replayModes
  agrees : ∃ actual, result.modes.lookup cycle.actualMode = some actual ∧
    Agrees result.rawPrediction actual cycle.expected

variable [FloorRing K] {i : ℕ} {cycle : RecordedCycle K} {history history' : History}

theorem replayModes_nodup : (replayModes.map replayKey).Nodup := by decide

theorem replayCycleResult_ok (hmode : cycle.actualMode ∈ replayModes)
    {result : ReplayCycleResult K}
    (h : replayCycleResult lib config i cycle history = some (.ok (result, history'))) :
    CycleReported lib config cycle result ∧
      replayPrediction lib config cycle = some (.ok result.rawPrediction) ∧
      replayCycle config.toReplayConfig cycle.toReplayCycle result.rawPrediction replayModes
        history = some (result.modes, history') := by
  unfold replayCycleResult at h
  obtain ⟨forecast, hforecast, h⟩ := Option.bind_eq_some_iff.mp h
  cases forecast with
  | error err => cases h
  | ok raw =>
    obtain ⟨⟨modes, history₁⟩, hmodes, h⟩ := Option.bind_eq_some_iff.mp h
    dsimp only at h
    split_ifs at h with hempty
    · cases h
    · obtain ⟨oldest, holdest, h⟩ := Option.bind_eq_some_iff.mp h
      cases hverify : verifyReplayMode lib ((modes.lookup cycle.actualMode).getD .zero) oldest
          cycle.expected with
      | error err =>
        rw [hverify] at h
        cases h
      | ok =>
        rw [hverify] at h
        cases h
        obtain ⟨-, hreplayed, hsolo⟩ := replayCycle_solo replayModes_nodup hmodes
        obtain ⟨actual, -, -, hlookup, -⟩ := hsolo cycle.actualMode hmode history rfl
        rw [hlookup] at hverify holdest
        obtain ⟨hobserved, hraw⟩ := replayPrediction_ok hforecast
        exact ⟨⟨rfl, rfl, rfl, hobserved, hreplayed, actual, hlookup,
          verifyReplayMode_ok holdest hraw hverify⟩, hforecast, hmodes⟩

variable (lib i) in
theorem replayCycleResult_total {minimum seconds observed requested : ℤ} {cpu : K}
    (hconfig : ValidReplayConfig config.toReplayConfig minimum seconds)
    (hcycle : ValidReplayCycle cycle.toReplayCycle observed requested cpu)
    (hmode : cycle.actualMode ∈ replayModes) (history : History) :
    ∃ outcome, replayCycleResult lib config i cycle history = some outcome := by
  obtain ⟨forecast, hforecast⟩ := replayPrediction_total lib config hcycle.currentCPU
  unfold replayCycleResult
  rw [hforecast]
  cases forecast with
  | error err => exact ⟨_, rfl⟩
  | ok raw =>
    obtain ⟨modes, history', hmodes, holdest⟩ :=
      replayCycle_total hconfig hcycle raw replayModes history
    obtain ⟨-, -, hsolo⟩ := replayCycle_solo replayModes_nodup hmodes
    obtain ⟨actual, -, -, hlookup, -⟩ := hsolo cycle.actualMode hmode history rfl
    have hmem : (cycle.actualMode, actual) ∈ modes := by
      obtain ⟨l₁, l₂, rfl, -⟩ := List.lookup_eq_some_iff.mp hlookup
      simp
    obtain ⟨oldest, hsome⟩ : ∃ oldest, actual.historyOldestAt = some oldest :=
      Option.isSome_iff_exists.mp (holdest _ hmem)
    have hnonempty : ¬ (modes.any fun m => m.2.historyOldestAt.isNone) = true := by
      rw [List.any_eq_true]
      rintro ⟨m, hm, hnone⟩
      rw [Option.isNone_iff_eq_none] at hnone
      simpa [hnone] using holdest m hm
    simp only [hmodes, hlookup, Option.getD_some, hsome, Option.bind_eq_bind, Option.bind_some,
      if_neg hnonempty]
    cases verifyReplayMode lib actual oldest cycle.expected <;> exact ⟨_, rfl⟩

theorem replayCycles_cons_ok {cycles : List (RecordedCycle K)}
    {results : List (ReplayCycleResult K)}
    (h : replayCycles lib config i (cycle :: cycles) history = some (.ok results)) :
    ∃ result history₁ rest,
      replayCycleResult lib config i cycle history = some (.ok (result, history₁)) ∧
      replayCycles lib config (i + 1) cycles history₁ = some (.ok rest) ∧
      results = result :: rest := by
  obtain ⟨outcome, houtcome, h⟩ := Option.bind_eq_some_iff.mp h
  cases outcome with
  | error err => cases h
  | ok pair =>
    obtain ⟨rest, hrest, h⟩ := Option.bind_eq_some_iff.mp h
    cases rest with
    | error err => cases h
    | ok rest =>
      cases h
      exact ⟨pair.1, pair.2, rest, houtcome, hrest, rfl⟩

variable (lib) in
theorem replayCycles_total {minimum seconds : ℤ}
    (hconfig : ValidReplayConfig config.toReplayConfig minimum seconds)
    {cycles : List (RecordedCycle K)}
    (hcycles : ∀ cycle ∈ cycles, validateReplayCycle cycle = .ok ()) (i : ℕ) (history : History) :
    ∃ outcome, replayCycles lib config i cycles history = some outcome := by
  induction cycles generalizing i history with
  | nil => exact ⟨_, rfl⟩
  | cons cycle rest ih =>
    obtain ⟨hcycle, hrest⟩ := List.forall_mem_cons.mp hcycles
    obtain ⟨⟨observed, requested, cpu, hvalid⟩, hmode⟩ := validateReplayCycle_ok hcycle
    obtain ⟨outcome, houtcome⟩ :=
      replayCycleResult_total lib i hconfig hvalid hmode history
    unfold replayCycles
    rw [houtcome]
    cases outcome with
    | error err => exact ⟨_, rfl⟩
    | ok pair =>
      obtain ⟨results, hresults⟩ := ih hrest (i + 1) pair.2
      simp only [Option.bind_eq_bind, Option.bind_some, hresults]
      cases results <;> exact ⟨_, rfl⟩

theorem replayCycles_reported {cycles : List (RecordedCycle K)}
    (hmodes : ∀ cycle ∈ cycles, cycle.actualMode ∈ replayModes)
    {results : List (ReplayCycleResult K)}
    (h : replayCycles lib config i cycles history = some (.ok results)) :
    List.Forall₂ (CycleReported lib config) cycles results := by
  induction cycles generalizing i history results with
  | nil =>
    cases h
    exact .nil
  | cons cycle cycles ih =>
    obtain ⟨result, history₁, rest, hresult, hrest, rfl⟩ := replayCycles_cons_ok h
    obtain ⟨hmode, hmodes⟩ := List.forall_mem_cons.mp hmodes
    exact .cons (replayCycleResult_ok hmode hresult).1 (ih hmodes hrest)

def replayInputs (cycles : List (RecordedCycle K)) (results : List (ReplayCycleResult K)) :
    List (ReplayCycle K × K) :=
  List.zipWith (fun cycle result => (cycle.toReplayCycle, result.rawPrediction)) cycles results

/-- Each mode's results are those of a replay of that mode alone. -/
theorem replayCycles_solo {cycles : List (RecordedCycle K)}
    (hmodes : ∀ cycle ∈ cycles, cycle.actualMode ∈ replayModes)
    {results : List (ReplayCycleResult K)}
    (h : replayCycles lib config i cycles history = some (.ok results)) {mode : DecisionMode}
    (hmode : mode ∈ replayModes) {solo : History}
    (hsolo : solo (replayKey mode) = history (replayKey mode)) :
    ∃ alone, replaySolo config.toReplayConfig mode (replayInputs cycles results) solo =
        some alone ∧
      results.map (fun result => result.modes.lookup mode) = alone.map some := by
  induction cycles generalizing i history solo results with
  | nil =>
    cases h
    exact ⟨[], rfl, rfl⟩
  | cons cycle cycles ih =>
    obtain ⟨result, history₁, rest, hresult, hrest, rfl⟩ := replayCycles_cons_ok h
    obtain ⟨hactual, hmodes⟩ := List.forall_mem_cons.mp hmodes
    obtain ⟨-, -, hcycle⟩ := replayCycleResult_ok hactual hresult
    obtain ⟨-, -, hlocal⟩ := replayCycle_solo replayModes_nodup hcycle
    obtain ⟨own, solo₁, hown, hlookup, hsame⟩ := hlocal mode hmode solo hsolo
    obtain ⟨alone, halone, hmap⟩ := ih hmodes hrest hsame
    refine ⟨own :: alone, ?_, ?_⟩
    · have hinputs : replayInputs (cycle :: cycles) (result :: rest) =
          (cycle.toReplayCycle, result.rawPrediction) :: replayInputs cycles rest := rfl
      rw [hinputs, replaySolo, hown]
      simp only [Option.bind_eq_bind, Option.bind_some, halone, Option.pure_def]
    · rw [List.map_cons, List.map_cons, hlookup, hmap]

/-- As long as two recordings have the same inputs, their modes have the same results. -/
theorem replayCycles_prefix {cycles cycles' : List (RecordedCycle K)}
    (hmodes : ∀ cycle ∈ cycles, cycle.actualMode ∈ replayModes)
    (hmodes' : ∀ cycle ∈ cycles', cycle.actualMode ∈ replayModes) {i' n : ℕ}
    {results results' : List (ReplayCycleResult K)}
    (h : replayCycles lib config i cycles history = some (.ok results))
    (h' : replayCycles lib config i' cycles' history = some (.ok results'))
    (hsame : (cycles.take n).map RecordedCycle.observed =
      (cycles'.take n).map RecordedCycle.observed) :
    (results.take n).map ReplayCycleResult.modes =
      (results'.take n).map ReplayCycleResult.modes := by
  induction n generalizing i i' cycles cycles' history results results' with
  | zero => rfl
  | succ n ih =>
    cases cycles with
    | nil =>
      cases cycles' with
      | nil =>
        cases h
        cases h'
        rfl
      | cons => cases hsame
    | cons cycle cycles =>
      cases cycles' with
      | nil => cases hsame
      | cons cycle' cycles' =>
        obtain ⟨result, history₁, rest, hresult, hrest, rfl⟩ := replayCycles_cons_ok h
        obtain ⟨result', history₁', rest', hresult', hrest', rfl⟩ := replayCycles_cons_ok h'
        obtain ⟨hactual, hmodes⟩ := List.forall_mem_cons.mp hmodes
        obtain ⟨hactual', hmodes'⟩ := List.forall_mem_cons.mp hmodes'
        obtain ⟨hobserved, hsame⟩ := List.cons.inj hsame
        obtain ⟨-, hforecast, hcycle⟩ := replayCycleResult_ok hactual hresult
        obtain ⟨-, hforecast', hcycle'⟩ := replayCycleResult_ok hactual' hresult'
        have hraw := replayPrediction_observed hobserved hforecast hforecast'
        have hinputs : cycle.observed.toReplayCycle = cycle'.observed.toReplayCycle := by
          rw [hobserved]
        change cycle.toReplayCycle = cycle'.toReplayCycle at hinputs
        rw [hraw, hinputs, hcycle'] at hcycle
        obtain ⟨heq, rfl⟩ := Prod.mk.inj (Option.some.inj hcycle)
        have htail := ih hmodes hmodes' hrest hrest' hsame
        rw [List.take_succ_cons, List.take_succ_cons, List.map_cons, List.map_cons, heq, htail]

/-- A report is the loop over an accepted recording. -/
theorem replayDecisions_ok {Input : Type} {decoder : ReplayDecoder Input K} {input : Input}
    {report : ReplayReport K} (h : decoder.replayDecisions lib input = some (.ok report)) :
    ∃ recording, decoder.decode input = .ok recording ∧ validateReplayInput recording = .ok () ∧
      replayCycles lib recording.config 0 recording.cycles (fun _ => none) =
        some (.ok report.cycles) := by
  unfold ReplayDecoder.replayDecisions at h
  cases hdecode : decoder.decode input with
  | error detail =>
    rw [hdecode] at h
    cases h
  | ok recording =>
    rw [hdecode] at h
    dsimp only at h
    split_ifs at h
    · cases h
    · cases hvalid : validateReplayInput recording with
      | error detail =>
        rw [hvalid] at h
        cases h
      | ok =>
        rw [hvalid] at h
        obtain ⟨outcome, houtcome, h⟩ := Option.bind_eq_some_iff.mp h
        cases outcome with
        | error err => cases h
        | ok cycles =>
          cases h
          exact ⟨recording, rfl, hvalid, houtcome⟩

variable (lib) in
theorem replayDecisions_total {Input : Type} (decoder : ReplayDecoder Input K) (input : Input) :
    ∃ outcome, decoder.replayDecisions lib input = some outcome := by
  unfold ReplayDecoder.replayDecisions
  cases decoder.decode input with
  | error detail => exact ⟨_, rfl⟩
  | ok recording =>
    dsimp only
    split_ifs
    · exact ⟨_, rfl⟩
    · cases hvalid : validateReplayInput recording with
      | error detail => exact ⟨_, rfl⟩
      | ok =>
        obtain ⟨hconfig, hcycles⟩ := validateReplayInput_ok hvalid
        obtain ⟨minimum, seconds, hconfig⟩ := validateReplayConfig_ok hconfig
        obtain ⟨outcome, houtcome⟩ :=
          replayCycles_total lib hconfig hcycles 0 fun _ => none
        simp only [houtcome, Option.bind_eq_bind, Option.bind_some]
        cases outcome <;> exact ⟨_, rfl⟩

/-- A replay always ends with an error or a report. A report covers every recorded cycle in order,
agrees with all that is expected of the recorded mode, and holds for each mode what a replay of
that mode alone gives. Up to where two recordings have the same inputs, whatever they expect, their
reports hold the same modes. -/
theorem replay_all_or_nothing {Input : Type} (decoder : ReplayDecoder Input K)
    (lib : ReplayLibrary K) (input : Input) :
    ∃ outcome, decoder.replayDecisions lib input = some outcome ∧
      ∀ report, outcome = .ok report →
        ∃ recording, decoder.decode input = .ok recording ∧
          List.Forall₂ (CycleReported lib recording.config) recording.cycles report.cycles ∧
          (∀ mode ∈ replayModes, ∃ alone,
            replaySolo recording.config.toReplayConfig mode
                (replayInputs recording.cycles report.cycles) (fun _ => none) = some alone ∧
              report.cycles.map (fun result => result.modes.lookup mode) = alone.map some) ∧
          ∀ input' recording' report', decoder.decode input' = .ok recording' →
            decoder.replayDecisions lib input' = some (.ok report') →
            recording'.config = recording.config →
            ∀ n, (recording.cycles.take n).map RecordedCycle.observed =
                (recording'.cycles.take n).map RecordedCycle.observed →
              (report.cycles.take n).map ReplayCycleResult.modes =
                (report'.cycles.take n).map ReplayCycleResult.modes := by
  obtain ⟨outcome, houtcome⟩ := replayDecisions_total lib decoder input
  refine ⟨outcome, houtcome, ?_⟩
  rintro report rfl
  have hmodes : ∀ {recording : ReplayInput K}, validateReplayInput recording = .ok () →
      ∀ cycle ∈ recording.cycles, cycle.actualMode ∈ replayModes := fun hvalid cycle hcycle =>
    (validateReplayCycle_ok ((validateReplayInput_ok hvalid).2 cycle hcycle)).2
  obtain ⟨recording, hdecode, hvalid, hrun⟩ := replayDecisions_ok houtcome
  refine ⟨recording, hdecode, replayCycles_reported (hmodes hvalid) hrun,
    fun mode hmode => replayCycles_solo (hmodes hvalid) hrun hmode rfl, ?_⟩
  intro input' recording' report' hdecode' houtcome' hconfig n hsame
  obtain ⟨accepted, haccepted, hvalid', hrun'⟩ := replayDecisions_ok houtcome'
  obtain rfl : accepted = recording' := Except.ok.inj (haccepted.symm.trans hdecode')
  rw [hconfig] at hrun'
  exact replayCycles_prefix (hmodes hvalid) (hmodes hvalid') hrun hrun' hsame

end Report

end Autoscaler.Controller
