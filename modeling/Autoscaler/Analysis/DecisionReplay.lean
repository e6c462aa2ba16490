import Autoscaler.Analysis.EpochSeconds
import Autoscaler.MetricsProvider.FaithfulHistory

/-! Offline reconstruction of CPU histories from the controller's logs, and its agreement with the
histories the provider returned. -/
namespace Autoscaler.Analysis

open MetricsProvider

structure DecisionLog where
  currentCPU : Float64 ℚ
  samples : ℕ
  deriving DecidableEq, Repr

structure SeriesPoint where
  timestamp : ℤ
  value : Option (Float64 ℚ)
  deriving DecidableEq, Repr

def SeriesPoint.epoch (point : SeriesPoint) : ℚ := epochSeconds point.timestamp

def countsDisagree (returned : List SeriesPoint) (query : QueryLog)
    (decision : Option DecisionLog) : Bool :=
  returned.length != query.samples || match decision with
    | none => false
    | some decision => returned.length != decision.samples

/-- `history_series`: the series, or the message of its `ValueError`, and the anchors it leaves. -/
def historySeries (anchors : List SeriesPoint) (query : QueryLog) (decision : Option DecisionLog)
    (window : ℚ) : Except String (List SeriesPoint) × List SeriesPoint :=
  match query.latestEvaluationAt with
  | none => (.error "Invalid timestamp: None", anchors)
  | some evaluatedAt =>
    let instant := epochSeconds evaluatedAt
    let anchors := anchors.filter fun point =>
      decide (Binary64.sub instant (Binary64.round window) ≤ point.epoch) &&
        decide (point.epoch < instant)
    let live : SeriesPoint := ⟨evaluatedAt, decision.map DecisionLog.currentCPU⟩
    let appended := match anchors.getLast? with
      | none => true
      | some last =>
        decide (query.observationSpacingSeconds ≤ Binary64.sub instant last.epoch)
    let (anchors, returned) :=
      if appended then (anchors ++ [live], anchors ++ [live])
      else (anchors, anchors.dropLast ++ [live])
    if countsDisagree returned query decision then
      (.error "CPU history count disagrees with recorded observation; prefix may be missing",
        anchors)
    else (.ok returned, anchors)

/-- The texts of query errors after which `prepare` keeps the anchors. -/
def preserve : List String :=
  ["metricsprovider: incomplete data", "metricsprovider: no data",
    "metricsprovider: target changed"]

def preserved (queryError : String) : Bool :=
  preserve.any fun reason => decide (reason.toList <:+: queryError.toList)

/-- What `prepare` does with the history of one cycle: the series of an accepted observation, and
the anchors for the next cycle. -/
def prepareHistory (anchors : List SeriesPoint) (query : QueryLog) (decision : Option DecisionLog)
    (window : ℚ) : Option (Except String (List SeriesPoint)) × List SeriesPoint :=
  if query.queryError = "" then
    let (series, anchors) := historySeries anchors query decision window
    (some series, anchors)
  else if preserved query.queryError then (none, anchors)
  else (none, [])

/-- A controller observation, and whether a decision was logged for it. -/
structure Entry where
  call : Call
  decided : Bool

def Entry.decision (entry : Entry) (result : CallResult) : Option DecisionLog :=
  if entry.decided then
    match result.err, result.history.samples.getLast? with
    | none, some last => some ⟨last.value, result.history.samples.length⟩
    | _, _ => none
  else none

structure Pair where
  provider : PrometheusProvider
  anchors : List SeriesPoint

def Pair.result (pair : Pair) (entry : Entry) : CallResult :=
  averageCPUUtilizationPercentage pair.provider entry.call

/-- Reconstruction of one logged observation, for a window given in nanoseconds. -/
def Pair.reconstruct (pair : Pair) (window : ℤ) (entry : Entry) :
    Option (Except String (List SeriesPoint)) × List SeriesPoint :=
  let result := pair.result entry
  prepareHistory pair.anchors (logObservation result.history result.err) (entry.decision result)
    ((window : ℚ) / (second : ℚ))

def Pair.step (window : ℤ) (pair : Pair) (entry : Entry) : Pair :=
  ⟨(pair.result entry).provider, (pair.reconstruct window entry).2⟩

def Pair.run (window : ℤ) (pair : Pair) (entries : List Entry) : Pair :=
  entries.foldl (Pair.step window) pair

theorem Pair.run_concat (window : ℤ) (pair : Pair) (entries : List Entry) (entry : Entry) :
    pair.run window (entries ++ [entry]) = (pair.run window entries).step window entry := by
  simp [Pair.run]

/-- The message tells the classes that keep the history from the others. -/
def Recognisable (err : Err) : Prop :=
  err.message ≠ "" ∧
    (preserved err.message = true ↔ invalidatesObservationHistory (some err) = false)

/-- On times of one binade, and for a window and a spacing of whole seconds, the reconstruction
shows the view and keeps the anchors of a spaced window. -/
theorem historySeries_eq {k : ℕ} (hk : k ≤ 37) {anchors : List SeriesPoint}
    (hanchors : ∀ point ∈ anchors, Dated k point.timestamp) {query : QueryLog} {evaluatedAt : ℤ}
    (hevaluated : Dated k evaluatedAt) (h : query.latestEvaluationAt = some evaluatedAt)
    {seconds spacing : ℤ} (hseconds : 0 ≤ seconds) (hbound : seconds ≤ 2 ^ 53)
    (hspacing : query.observationSpacingSeconds = spacing) (decision : Option DecisionLog)
    (hcount : countsDisagree (SpacedWindow.view SeriesPoint.timestamp (seconds * second)
        (spacing * second) anchors ⟨evaluatedAt, decision.map DecisionLog.currentCPU⟩) query
        decision = false) :
    historySeries anchors query decision seconds =
      (.ok (SpacedWindow.view SeriesPoint.timestamp (seconds * second) (spacing * second) anchors
          ⟨evaluatedAt, decision.map DecisionLog.currentCPU⟩),
        SpacedWindow.store SeriesPoint.timestamp (seconds * second) (spacing * second) anchors
          ⟨evaluatedAt, decision.map DecisionLog.currentCPU⟩) := by
  have hretain : (anchors.filter fun point =>
      decide (Binary64.sub (epochSeconds evaluatedAt) (Binary64.round seconds) ≤ point.epoch) &&
        decide (point.epoch < epochSeconds evaluatedAt)) =
      SpacedWindow.retain SeriesPoint.timestamp (seconds * second) evaluatedAt anchors := by
    apply List.filter_congr
    intro point hpoint
    have hdated := hanchors point hpoint
    unfold SeriesPoint.epoch
    rw [decide_eq_decide.mpr (hdated.window_iff hk hevaluated hseconds hbound),
      decide_eq_decide.mpr (hdated.epochSeconds_lt_iff hk hevaluated)]
  have hopens : ∀ kept : List SeriesPoint, (∀ point ∈ kept, point ∈ anchors) →
      (match kept.getLast? with
        | none => true
        | some last => decide (query.observationSpacingSeconds ≤
            Binary64.sub (epochSeconds evaluatedAt) last.epoch)) =
        SpacedWindow.opens SeriesPoint.timestamp (spacing * second) evaluatedAt kept := by
    intro kept hkept
    unfold SpacedWindow.opens
    cases hlast : kept.getLast? with
    | none => rfl
    | some last =>
      have hdated := hanchors last (hkept last (List.mem_of_getLast? hlast))
      rw [hspacing]
      exact decide_eq_decide.mpr (hdated.distance_iff hk hevaluated spacing)
  have hopens := hopens (SpacedWindow.retain SeriesPoint.timestamp (seconds * second) evaluatedAt
    anchors) fun point hpoint => ((SpacedWindow.mem_retain _).mp hpoint).1
  unfold SpacedWindow.view at hcount
  unfold historySeries SpacedWindow.view SpacedWindow.store
  rw [h]
  dsimp only at hcount ⊢
  rw [hretain, hopens]
  cases ho : SpacedWindow.opens SeriesPoint.timestamp (spacing * second) evaluatedAt
      (SpacedWindow.retain SeriesPoint.timestamp (seconds * second) evaluatedAt anchors) with
  | true =>
    rw [ho, if_pos rfl] at hcount
    simp only [if_true, hcount, Bool.false_eq_true, if_false]
  | false =>
    rw [ho, if_neg (by simp)] at hcount
    simp only [hcount, Bool.false_eq_true, if_false]

/-- A reconstructed point is an accepted observation, with its value if a decision was logged. -/
def Logged (maxSampleAge : ℤ) (k : ℕ) (entries : List Entry) (sample : Predictor.Sample ℚ)
    (point : SeriesPoint) : Prop :=
  point.timestamp = sample.timestamp ∧ Dated k point.timestamp ∧
    ∃ entry ∈ entries, ∃ target observation,
    Accepts maxSampleAge entry.call target observation ∧ observation.sample = sample ∧
    point.value = if entry.decided then some sample.value else none

theorem Logged.concat {maxSampleAge : ℤ} {k : ℕ} {entries : List Entry} (entry : Entry)
    {sample : Predictor.Sample ℚ} {point : SeriesPoint}
    (h : Logged maxSampleAge k entries sample point) :
    Logged maxSampleAge k (entries ++ [entry]) sample point := by
  obtain ⟨htime, hdated, entry', hmem, target, observation, hrest⟩ := h
  exact ⟨htime, hdated, entry', List.mem_append_left _ hmem, target, observation, hrest⟩

theorem forall₂_logged_concat {maxSampleAge : ℤ} {k : ℕ} {entries : List Entry} (entry : Entry)
    {samples : List (Predictor.Sample ℚ)} {series : List SeriesPoint}
    (h : List.Forall₂ (Logged maxSampleAge k entries) samples series) :
    List.Forall₂ (Logged maxSampleAge k (entries ++ [entry])) samples series :=
  h.imp fun _ _ => Logged.concat entry

/-- The provider compares the times of its samples as those of the reconstructed points. -/
theorem logged_sameClock {maxSampleAge : ℤ} {k : ℕ} {entries : List Entry} (window : ℤ)
    {sample : Predictor.Sample ℚ} {point : SeriesPoint}
    (h : Logged maxSampleAge k entries sample point) :
    SpacedWindow.SameClock Predictor.Sample.timestamp SeriesPoint.timestamp
      (Logged maxSampleAge k entries) window observationSpacing window observationSpacing sample
      point where
  within a b hab := by rw [hab.1, h.1]
  before a b hab := by rw [hab.1, h.1]
  spaced a b hab := by rw [hab.1, h.1]
  related := h

theorem dated_of_logged {maxSampleAge : ℤ} {k : ℕ} {entries : List Entry}
    {samples : List (Predictor.Sample ℚ)} {series : List SeriesPoint}
    (h : List.Forall₂ (Logged maxSampleAge k entries) samples series) :
    ∀ point ∈ series, Dated k point.timestamp := by
  induction h with
  | nil => simp
  | cons hpoint _ ih => exact List.forall_mem_cons.mpr ⟨hpoint.2.1, ih⟩

section Step

variable {pair : Pair} {entries : List Entry} {entry : Entry} {target : Deployment}
  {observation : Observation} {key : NamespacedName} {uid : UID} {window : ℤ} {k : ℕ}

theorem logObservation_accepted (hobserve : Time.unixEpoch ≤ observation.sample.timestamp)
    (history : CPUHistory ℚ) (hat : history.observedAt = observation.sample.timestamp) :
    logObservation history none = ⟨some observation.sample.timestamp, history.samples.length,
      (observationSpacing : ℚ) / (second : ℚ), ""⟩ := by
  have hne : Time.isZero observation.sample.timestamp = false := by
    have hpos : 0 < Time.unixEpoch := by decide
    have : observation.sample.timestamp ≠ 0 := by omega
    simpa [Time.isZero] using this
  unfold logObservation optionalTimestamp
  rw [hat, hne]
  rfl

/-- What the provider returns and keeps for an accepted observation. -/
theorem result_accepted
    (haccept : Accepts pair.provider.maxSampleAge entry.call target observation) :
    let prior := priorSamples pair.provider.history target.metadata.key target.metadata.uid
    (pair.result entry).err = none ∧
      (pair.result entry).history.observedAt = observation.sample.timestamp ∧
      (pair.result entry).history.samples = SpacedWindow.view Predictor.Sample.timestamp
        entry.call.window observationSpacing prior observation.sample ∧
      priorSamples (pair.result entry).provider.history target.metadata.key target.metadata.uid =
        SpacedWindow.store Predictor.Sample.timestamp entry.call.window observationSpacing prior
          observation.sample := by
  have hresult : pair.result entry = _ := averageCPU_of_accepts haccept
  have hhistory : (pair.result entry).history = _ := history_of_accepts haccept
  refine ⟨?_, ?_, ?_, priorSamples_of_accepts haccept⟩
  · rw [hresult]
  · rw [hhistory]
  · rw [hhistory]

theorem decision_accepted {result : CallResult} (herr : result.err = none)
    (hlast : result.history.samples.getLast? = some observation.sample) :
    entry.decision result = if entry.decided then
      some ⟨observation.sample.value, result.history.samples.length⟩ else none := by
  unfold Entry.decision
  rw [herr, hlast]

def acceptedQuery (observation : Observation) (samples : ℕ) : QueryLog :=
  ⟨some observation.sample.timestamp, samples, (observationSpacing : ℚ) / (second : ℚ), ""⟩

def acceptedDecision (entry : Entry) (observation : Observation) (samples : ℕ) :
    Option DecisionLog :=
  if entry.decided then some ⟨observation.sample.value, samples⟩ else none

theorem countsDisagree_accepted {returned : List SeriesPoint} {samples : ℕ}
    (h : samples = returned.length) :
    countsDisagree returned (acceptedQuery observation samples)
      (acceptedDecision entry observation samples) = false := by
  subst h
  unfold countsDisagree acceptedDecision acceptedQuery
  split_ifs <;> simp

/-- What the reconstruction of an accepted observation is made of. -/
theorem reconstruct_accepted
    (haccept : Accepts pair.provider.maxSampleAge entry.call target observation) (window : ℤ) :
    let samples := (SpacedWindow.view Predictor.Sample.timestamp entry.call.window
      observationSpacing (priorSamples pair.provider.history target.metadata.key
        target.metadata.uid) observation.sample).length
    pair.reconstruct window entry =
      (some (historySeries pair.anchors (acceptedQuery observation samples)
          (acceptedDecision entry observation samples) ((window : ℚ) / (second : ℚ))).1,
        (historySeries pair.anchors (acceptedQuery observation samples)
          (acceptedDecision entry observation samples) ((window : ℚ) / (second : ℚ))).2) := by
  intro samples
  obtain ⟨herr, hat, hsamples, -⟩ := result_accepted haccept
  have hlength : (pair.result entry).history.samples.length = samples := by rw [hsamples]
  have hlast : (pair.result entry).history.samples.getLast? = some observation.sample := by
    rw [hsamples, SpacedWindow.view_getLast]
  have hlog := logObservation_accepted (observe_ok haccept.target_eq.2).2.2.2 _ hat
  unfold Pair.reconstruct prepareHistory
  dsimp only
  rw [herr, hlog, if_pos rfl, decision_accepted herr hlast, hlength]
  rfl

/-- An accepted observation is reconstructed, and leaves matching anchors. -/
theorem step_accepted
    (hsim : List.Forall₂ (Logged pair.provider.maxSampleAge k entries)
      (priorSamples pair.provider.history key uid) pair.anchors)
    (haccept : Accepts pair.provider.maxSampleAge entry.call target observation)
    (hkey : target.metadata.key = key) (huid : target.metadata.uid = uid)
    (hwindow : entry.call.window = window) (hk : k ≤ 37) (hwhole : second ∣ window)
    (hdated : Dated k observation.sample.timestamp) :
    (∃ series, (pair.reconstruct window entry).1 = some (.ok series) ∧
      List.Forall₂ (Logged pair.provider.maxSampleAge k (entries ++ [entry]))
        (pair.result entry).history.samples series) ∧
    List.Forall₂ (Logged pair.provider.maxSampleAge k (entries ++ [entry]))
      (priorSamples (pair.step window entry).provider.history key uid)
      (pair.step window entry).anchors := by
  subst hkey huid hwindow
  obtain ⟨-, -, hsamples, hstored⟩ := result_accepted haccept
  have hreconstruct := reconstruct_accepted haccept entry.call.window
  dsimp only at hreconstruct
  rw [← hsamples] at hreconstruct
  have hlive : Logged pair.provider.maxSampleAge k (entries ++ [entry]) observation.sample
      ⟨observation.sample.timestamp, (acceptedDecision entry observation
        (pair.result entry).history.samples.length).map DecisionLog.currentCPU⟩ := by
    refine ⟨rfl, hdated, entry, by simp, target, observation, haccept, rfl, ?_⟩
    unfold acceptedDecision
    split_ifs <;> rfl
  have hclock := logged_sameClock entry.call.window hlive
  have hview := hclock.view (forall₂_logged_concat entry hsim)
  have hstore := hclock.store (forall₂_logged_concat entry hsim)
  rw [← hsamples] at hview
  -- the window is of whole seconds, between the spacing and an hour
  obtain ⟨seconds, hseconds⟩ := hwhole
  rw [mul_comm] at hseconds
  obtain ⟨hlow, hhigh, -⟩ := observe_inv haccept.target_eq.2
  have hquotient : ((entry.call.window : ℚ) / (second : ℚ)) = seconds := by
    rw [hseconds]
    push_cast
    exact mul_div_cancel_right₀ _ (by decide +kernel)
  have hspacing : (acceptedQuery observation (pair.result entry).history.samples.length
      ).observationSpacingSeconds = (15 : ℤ) := by
    simp only [acceptedQuery, observationSpacing]
    decide +kernel
  have hbounds : 0 ≤ seconds ∧ seconds ≤ 2 ^ 53 := by
    simp only [observationSpacing, maxHistoryWindow, hour, second] at hlow hhigh hseconds
    omega
  rw [hseconds] at hview hstore
  have hseries := historySeries_eq hk (dated_of_logged hsim) hdated rfl hbounds.1 hbounds.2 hspacing
    (acceptedDecision entry observation (pair.result entry).history.samples.length)
    (countsDisagree_accepted hview.length_eq)
  rw [hquotient, hseries] at hreconstruct
  constructor
  · exact ⟨_, congrArg Prod.fst hreconstruct, hview⟩
  · unfold Pair.step
    rw [hreconstruct, hstored, hseconds]
    exact hstore

/-- A failure with the gate held clears both histories, or neither. -/
theorem step_failed {err : Err}
    (hsim : List.Forall₂ (Logged pair.provider.maxSampleAge k entries)
      (priorSamples pair.provider.history key uid) pair.anchors)
    (hfail : attempt pair.provider.maxSampleAge entry.call = .error (err, true))
    (htarget : entry.call.target = some target) (hkey : target.metadata.key = key)
    (herr : Recognisable err) :
    List.Forall₂ (Logged pair.provider.maxSampleAge k (entries ++ [entry]))
      (priorSamples (pair.step window entry).provider.history key uid)
      (pair.step window entry).anchors := by
  have hresult : pair.result entry = _ := averageCPU_of_error hfail
  have hlog : (logObservation (pair.result entry).history (pair.result entry).err).queryError =
      err.message := by
    rw [hresult]
    rfl
  unfold Pair.step Pair.reconstruct prepareHistory
  dsimp only
  rw [hlog, if_neg herr.1, hresult]
  cases hkept : invalidatesObservationHistory (some err) with
  | false =>
    rw [if_pos (herr.2.mpr hkept), deferredDiscard_of_kept hkept]
    exact forall₂_logged_concat entry hsim
  | true =>
    have hclear : preserved err.message = false := by
      have := herr.2.not.mpr (by simp [hkept])
      simpa using this
    have hnone : priorSamples (deferredDiscard pair.provider.history entry.call.target true
        (some err)) key uid = [] := by
      unfold priorSamples
      rw [htarget, ← hkey]
      simp [deferredDiscard, hkept, MetricsProvider.discard, Finmap.lookup_erase]
    rw [hclear, if_neg (by simp), hnone]
    exact .nil

end Step

def acceptedTime (maxSampleAge : ℤ) (entry : Entry) : Option ℤ :=
  match attempt maxSampleAge entry.call with
  | .ok (_, observation) => some observation.sample.timestamp
  | .error _ => none

theorem Accepts.acceptedTime_eq {maxSampleAge : ℤ} {entry : Entry} {target : Deployment}
    {observation : Observation} (h : Accepts maxSampleAge entry.call target observation) :
    acceptedTime maxSampleAge entry = some observation.sample.timestamp := by
  rw [acceptedTime, h]

/-- Observations of one incarnation with one window, accepted at increasing times or rejected with
the gate held by errors recognisable from their texts. -/
structure TargetRun (maxSampleAge : ℤ) (key : NamespacedName) (uid : UID) (window : ℤ)
    (entries : List Entry) : Prop where
  target : ∀ entry ∈ entries, ∃ target, entry.call.target = some target ∧
    target.metadata.key = key ∧ target.metadata.uid = uid
  window : ∀ entry ∈ entries, entry.call.window = window
  rejected : ∀ entry ∈ entries, ∀ err gateHeld,
    attempt maxSampleAge entry.call = .error (err, gateHeld) → gateHeld = true ∧ Recognisable err
  increasing : (entries.filterMap (acceptedTime maxSampleAge)).Pairwise (· < ·)

/-- A window of whole seconds, and accepted times between two neighbouring powers of two of Unix
seconds, where binary64 numbers are evenly spaced. -/
structure BinadeRun (maxSampleAge : ℤ) (key : NamespacedName) (uid : UID) (window : ℤ) (k : ℕ)
    (entries : List Entry) : Prop where
  run : TargetRun maxSampleAge key uid window entries
  binade : k ≤ 37
  whole : second ∣ window
  times : ∀ entry ∈ entries, ∀ t ∈ acceptedTime maxSampleAge entry,
    2 ^ k * second ≤ t - Time.unixEpoch ∧ t - Time.unixEpoch < 2 ^ (k + 1) * second

section Run

variable {maxSampleAge : ℤ} {key : NamespacedName} {uid : UID} {window : ℤ} {k : ℕ}
  {entries : List Entry}

theorem TargetRun.sublist {entries' : List Entry}
    (h : TargetRun maxSampleAge key uid window entries) (hsub : entries'.Sublist entries) :
    TargetRun maxSampleAge key uid window entries' where
  target entry hentry := h.target entry (hsub.subset hentry)
  window entry hentry := h.window entry (hsub.subset hentry)
  rejected entry hentry := h.rejected entry (hsub.subset hentry)
  increasing := h.increasing.sublist (hsub.filterMap _)

theorem BinadeRun.sublist {entries' : List Entry}
    (h : BinadeRun maxSampleAge key uid window k entries) (hsub : entries'.Sublist entries) :
    BinadeRun maxSampleAge key uid window k entries' where
  run := h.run.sublist hsub
  binade := h.binade
  whole := h.whole
  times entry hentry := h.times entry (hsub.subset hentry)

theorem BinadeRun.dated (h : BinadeRun maxSampleAge key uid window k entries) {entry : Entry}
    (hentry : entry ∈ entries) {target : Deployment} {observation : Observation}
    (haccept : Accepts maxSampleAge entry.call target observation) :
    Dated k observation.sample.timestamp := by
  have htimes := h.times entry hentry _ (Accepts.acceptedTime_eq haccept)
  obtain ⟨-, -, _, _, _, _, -, -, -, -, -, rfl⟩ := observe_inv haccept.target_eq.2
  exact truncate_dated htimes.1 htimes.2

theorem TargetRun.eq_of_acceptedTime (h : TargetRun maxSampleAge key uid window entries)
    {a b : Entry} (ha : a ∈ entries) (hb : b ∈ entries) {t : ℤ}
    (hat : acceptedTime maxSampleAge a = some t) (hbt : acceptedTime maxSampleAge b = some t) :
    a = b := by
  have hdistinct : entries.Pairwise fun a b => ∀ t t', acceptedTime maxSampleAge a = some t →
      acceptedTime maxSampleAge b = some t' → t ≠ t' := by
    refine (List.pairwise_filterMap.mp h.increasing).imp ?_
    intro a b hlt t t' ha hb
    exact (hlt t ha t' hb).ne
  have hsymm : Std.Symm fun a b : Entry => ∀ t t', acceptedTime maxSampleAge a = some t →
      acceptedTime maxSampleAge b = some t' → t ≠ t' :=
    ⟨fun a b hab t t' hb ha => (hab t' t ha hb).symm⟩
  by_contra hne
  exact hdistinct.forall ha hb hne t t hat hbt rfl

theorem target_unique {target target' : Deployment} {entry : Entry} {observation : Observation}
    (haccept : Accepts maxSampleAge entry.call target observation)
    (htarget : entry.call.target = some target') : target = target' := by
  rw [haccept.target_eq.1] at htarget
  exact Option.some.inj htarget

theorem run_maxSampleAge (window : ℤ) (pair : Pair) (entries : List Entry) :
    (pair.run window entries).provider.maxSampleAge = pair.provider.maxSampleAge := by
  induction entries using List.reverseRecOn with
  | nil => rfl
  | append_singleton entries entry ih =>
    rw [Pair.run_concat]
    exact (averageCPU_maxSampleAge _ _).trans ih

/-- The anchors of the reconstruction match the stored samples after every run. -/
theorem run_logged {pair : Pair}
    (hrun : BinadeRun pair.provider.maxSampleAge key uid window k entries)
    (hfresh : priorSamples pair.provider.history key uid = []) (hanchors : pair.anchors = []) :
    List.Forall₂ (Logged pair.provider.maxSampleAge k entries)
      (priorSamples (pair.run window entries).provider.history key uid)
      (pair.run window entries).anchors := by
  induction entries using List.reverseRecOn with
  | nil =>
    unfold Pair.run
    rw [List.foldl_nil, hfresh, hanchors]
    exact .nil
  | append_singleton entries entry ih =>
    have hsim := ih (hrun.sublist (List.sublist_append_left _ _))
    obtain ⟨target, htarget, hkey, huid⟩ := hrun.run.target entry (by simp)
    have hwindow := hrun.run.window entry (by simp)
    have hage := run_maxSampleAge window pair entries
    rw [Pair.run_concat]
    cases hattempt : attempt pair.provider.maxSampleAge entry.call with
    | ok accepted =>
      obtain ⟨target', observation⟩ := accepted
      have htarget' := target_unique hattempt htarget
      subst htarget'
      have hdated := hrun.dated (by simp) hattempt
      rw [← hage] at hsim hattempt ⊢
      exact (step_accepted hsim hattempt hkey huid hwindow hrun.binade hrun.whole hdated).2
    | error failure =>
      obtain ⟨err, gateHeld⟩ := failure
      obtain ⟨rfl, herr⟩ := hrun.run.rejected entry (by simp) err gateHeld hattempt
      rw [← hage] at hsim hattempt ⊢
      exact step_failed hsim hattempt htarget hkey herr

end Run

/-- For a window of whole seconds and accepted times in one binade, at every accepted observation
the reconstructed series has the timestamps of the returned history, and its values wherever a
decision was logged. -/
theorem replay_series_agrees (provider : PrometheusProvider) (key : NamespacedName) (uid : UID)
    (window : ℤ) (k : ℕ) (entries : List Entry)
    (hrun : BinadeRun provider.maxSampleAge key uid window k entries)
    (hfresh : priorSamples provider.history key uid = [])
    (before : List Entry) (entry : Entry) (after : List Entry)
    (hsplit : entries = before ++ entry :: after) (target : Deployment)
    (observation : Observation)
    (haccept : Accepts provider.maxSampleAge entry.call target observation) :
    ∃ series,
      (((Pair.mk provider []).run window before).reconstruct window entry).1 =
        some (.ok series) ∧
      series.map SeriesPoint.timestamp =
        (((Pair.mk provider []).run window before).result entry).history.samples.map
          Predictor.Sample.timestamp ∧
      ∀ sample point, (sample, point) ∈
          (((Pair.mk provider []).run window before).result entry).history.samples.zip series →
        ∀ logged ∈ before ++ [entry], logged.decided = true →
          acceptedTime provider.maxSampleAge logged = some sample.timestamp →
          point.value = some sample.value := by
  have hupTo : BinadeRun provider.maxSampleAge key uid window k (before ++ [entry]) := by
    have happend : entries = (before ++ [entry]) ++ after := by simp [hsplit]
    rw [happend] at hrun
    exact hrun.sublist (List.sublist_append_left _ _)
  have hmem : entry ∈ before ++ [entry] := by simp
  obtain ⟨target', htarget, hkey, huid⟩ := hupTo.run.target entry hmem
  have hsame := target_unique haccept htarget
  subst hsame
  have hdated := hupTo.dated hmem haccept
  have hsim : List.Forall₂ (Logged (Pair.mk provider []).provider.maxSampleAge k before)
      (priorSamples ((Pair.mk provider []).run window before).provider.history key uid)
      ((Pair.mk provider []).run window before).anchors :=
    run_logged (hupTo.sublist (List.sublist_append_left _ _)) hfresh rfl
  have hage := run_maxSampleAge window ⟨provider, []⟩ before
  dsimp only at hage hsim
  rw [← hage] at hsim haccept
  obtain ⟨⟨series, hseries, hlogged⟩, -⟩ := step_accepted hsim haccept hkey huid
    (hupTo.run.window entry hmem) hupTo.binade hupTo.whole hdated
  rw [hage] at hlogged
  refine ⟨series, hseries, ?_, ?_⟩
  · refine List.forall₂_eq_eq_eq ▸ ?_
    refine List.forall₂_map_left_iff.mpr (List.forall₂_map_right_iff.mpr ?_)
    exact (hlogged.imp fun _ _ h => h.1).flip
  · intro sample point hpair logged hloggedMem hdecided htime
    have hpoint := (List.forall₂_iff_zip.mp hlogged).2 hpair
    obtain ⟨-, -, accepted, hacceptedMem, target'', observation', haccepted, rfl, hvalue⟩ := hpoint
    have heq := hupTo.run.eq_of_acceptedTime hacceptedMem hloggedMem
      (Accepts.acceptedTime_eq haccepted) htime
    rw [hvalue, heq, if_pos hdecided]

/-! Runs of two observations, at given milliseconds of Unix time. -/

noncomputable def millisCall (window millis : ℤ) : Call where
  target := some safetyDeployment
  window := window
  readings :=
    { contextErr := none
      gateErr := none
      roster := .ok warmupRoster
      now := Time.unixEpoch + millis * millisecond
      rates := .answered [] (.vector [⟨warmupMetric, .finite (1 / 4), millis⟩])
      sources := .answered [] (.vector [⟨warmupMetric, .finite (millis / 1000 : ℤ), millis⟩])
      rosterAfter := .ok warmupRoster
      nowAfter := Time.unixEpoch + millis * millisecond }
  order := someMapOrder

noncomputable def millisEntry (window millis : ℤ) : Entry := ⟨millisCall window millis, true⟩

def millisObservation (millis : ℤ) : Observation where
  sample := ⟨Time.unixEpoch + millis * millisecond, .finite 50⟩
  sourceAt := Time.unixEpoch + millis / 1000 * second
  containers := [⟨"web-a", "uid-a", "app", "cid-a", Time.unixEpoch + millis / 1000 * second⟩]

theorem millisEntry_accepts : ∀ run ∈ [(300 * second, (1000000 : ℤ)), (300 * second, 1015000),
      (15001 * millisecond, 1716828808034), (15001 * millisecond, 1716828823035),
      (300 * second, 2147483633002), (300 * second, 2147483648002)],
    Accepts 0 (millisEntry run.1 run.2).call safetyDeployment (millisObservation run.2) := by
  unfold Accepts
  decide +kernel

theorem millis_targetRun {window first last : ℤ} (hlt : first < last)
    (hfirst : Accepts 0 (millisEntry window first).call safetyDeployment (millisObservation first))
    (hlast : Accepts 0 (millisEntry window last).call safetyDeployment (millisObservation last)) :
    TargetRun 0 safetyDeployment.metadata.key safetyDeployment.metadata.uid window
      [millisEntry window first, millisEntry window last] := by
  constructor
  · simp only [List.mem_cons, List.not_mem_nil, or_false]
    rintro entry (rfl | rfl) <;> exact ⟨safetyDeployment, rfl, rfl, rfl⟩
  · simp only [List.mem_cons, List.not_mem_nil, or_false]
    rintro entry (rfl | rfl) <;> rfl
  · simp only [List.mem_cons, List.not_mem_nil, or_false]
    rintro entry (rfl | rfl) err gateHeld herr
    · rw [hfirst] at herr
      cases herr
    · rw [hlast] at herr
      cases herr
  · have htimes :
        [millisEntry window first, millisEntry window last].filterMap (acceptedTime 0) =
          [(millisObservation first).sample.timestamp,
            (millisObservation last).sample.timestamp] := by
      simp [Accepts.acceptedTime_eq hfirst, Accepts.acceptedTime_eq hlast]
    rw [htimes, List.pairwise_pair]
    simp only [millisObservation, millisecond]
    omega

theorem replay_series_agrees_warmup :
    ∃ series, (((Pair.mk (newPrometheus 0) []).run (300 * second)
        [millisEntry (300 * second) 1000000]).reconstruct (300 * second)
          (millisEntry (300 * second) 1015000)).1 = some (.ok series) ∧
      series.map SeriesPoint.timestamp = (((Pair.mk (newPrometheus 0) []).run (300 * second)
        [millisEntry (300 * second) 1000000]).result
          (millisEntry (300 * second) 1015000)).history.samples.map Predictor.Sample.timestamp := by
  have hfirst := millisEntry_accepts (300 * second, 1000000) (by decide)
  have hlast := millisEntry_accepts (300 * second, 1015000) (by decide)
  have hrun : BinadeRun 0 safetyDeployment.metadata.key safetyDeployment.metadata.uid (300 * second)
      9 [millisEntry (300 * second) 1000000, millisEntry (300 * second) 1015000] := by
    refine ⟨millis_targetRun (by decide) hfirst hlast, by decide, by decide, ?_⟩
    simp only [List.mem_cons, List.not_mem_nil, or_false]
    rintro entry (rfl | rfl) t ht
    · rw [Accepts.acceptedTime_eq hfirst] at ht
      cases ht
      decide
    · rw [Accepts.acceptedTime_eq hlast] at ht
      cases ht
      decide
  obtain ⟨series, hseries, htimes, -⟩ := replay_series_agrees (newPrometheus 0)
    safetyDeployment.metadata.key safetyDeployment.metadata.uid (300 * second) 9 _ hrun rfl
    [millisEntry (300 * second) 1000000] (millisEntry (300 * second) 1015000) [] rfl
    safetyDeployment (millisObservation 1015000) hlast
  exact ⟨series, hseries, htimes⟩

/-- The samples that the provider keeps and returns in a run of two observations. -/
def millisKept (window first : ℤ) : List (Predictor.Sample ℚ) :=
  SpacedWindow.store Predictor.Sample.timestamp window observationSpacing []
    (millisObservation first).sample

def millisReturned (window first last : ℤ) : List (Predictor.Sample ℚ) :=
  SpacedWindow.view Predictor.Sample.timestamp window observationSpacing (millisKept window first)
    (millisObservation last).sample

/-- The two calls of the reconstruction in a run of two observations. -/
theorem millis_reconstruct {window first last : ℤ}
    (hfirst : Accepts 0 (millisEntry window first).call safetyDeployment (millisObservation first))
    (hlast : Accepts 0 (millisEntry window last).call safetyDeployment (millisObservation last)) :
    (((Pair.mk (newPrometheus 0) []).run window [millisEntry window first]).reconstruct window
        (millisEntry window last)).1 =
      some (historySeries
        (historySeries [] (acceptedQuery (millisObservation first) 1)
          (some ⟨.finite 50, 1⟩) ((window : ℚ) / (second : ℚ))).2
        (acceptedQuery (millisObservation last) (millisReturned window first last).length)
        (some ⟨.finite 50, (millisReturned window first last).length⟩)
        ((window : ℚ) / (second : ℚ))).1 := by
  set pair := (Pair.mk (newPrometheus 0) []).run window [millisEntry window first] with hpair
  have haccept : Accepts pair.provider.maxSampleAge (millisEntry window last).call safetyDeployment
      (millisObservation last) := by
    rw [hpair, run_maxSampleAge]
    exact hlast
  have hfresh : Accepts (Pair.mk (newPrometheus 0) []).provider.maxSampleAge
    (millisEntry window first).call safetyDeployment (millisObservation first) := hfirst
  have hone := reconstruct_accepted hfresh window
  have hkept := priorSamples_of_accepts (p := newPrometheus 0) hfirst
  change priorSamples pair.provider.history _ _ = _ at hkept
  have hanchors : pair.anchors = (Pair.reconstruct ⟨newPrometheus 0, []⟩ window
    (millisEntry window first)).2 := rfl
  rw [reconstruct_accepted haccept window, hkept, hanchors, hone]
  rfl

/-- Both observations are accepted, and the reconstruction does not find what the provider returns
for the second one. -/
def MissesPrefix (window first last : ℤ) : Prop :=
  TargetRun 0 safetyDeployment.metadata.key safetyDeployment.metadata.uid window
      [millisEntry window first, millisEntry window last] ∧
    Accepts 0 (millisEntry window last).call safetyDeployment (millisObservation last) ∧
    (((Pair.mk (newPrometheus 0) []).run window [millisEntry window first]).reconstruct window
      (millisEntry window last)).1 =
        some (.error "CPU history count disagrees with recorded observation; prefix may be missing")

/-- A fractional window, and a spacing across a power of two: the reconstruction drops a point that
the provider returns, and reports a missing prefix. -/
theorem replay_series_agrees_rounding :
    MissesPrefix (15001 * millisecond) 1716828808034 1716828823035 ∧
      MissesPrefix (300 * second) 2147483633002 2147483648002 := by
  constructor
  · have hfirst := millisEntry_accepts (15001 * millisecond, 1716828808034) (by decide)
    have hlast := millisEntry_accepts (15001 * millisecond, 1716828823035) (by decide)
    refine ⟨millis_targetRun (by decide) hfirst hlast, hlast, ?_⟩
    rw [millis_reconstruct hfirst hlast]
    decide +kernel
  · have hfirst := millisEntry_accepts (300 * second, 2147483633002) (by decide)
    have hlast := millisEntry_accepts (300 * second, 2147483648002) (by decide)
    refine ⟨millis_targetRun (by decide) hfirst hlast, hlast, ?_⟩
    rw [millis_reconstruct hfirst hlast]
    decide +kernel

end Autoscaler.Analysis
