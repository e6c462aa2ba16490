import Autoscaler.Library.SpacedWindow
import Autoscaler.MetricsProvider.Samples
import Autoscaler.Predictor.Ewma

/-! The provider's observations and the history it keeps for each target. What a call learns from
its context, the API reader, the clock and Prometheus is part of the call. -/
namespace Autoscaler.MetricsProvider

structure CPUHistory (K : Type*) where
  samples : List (Predictor.Sample K)
  observedAt : ℤ
  sourceTimestamp : ℤ
  deriving DecidableEq, Repr

def CPUHistory.zero {K : Type*} : CPUHistory K := ⟨[], 0, 0⟩

def observationSpacing : ℤ := 15 * second

def maxHistoryWindow : ℤ := hour

def maxTargets : ℕ := 256

structure TargetHistory where
  uid : UID
  samples : List (Predictor.Sample ℚ)
  lastUsed : ℤ
  deriving DecidableEq, Repr

abbrev History := Finmap fun _ : NamespacedName => TargetHistory

/-- The order in which ranging over the history map meets its keys. -/
structure MapOrder where
  keys : History → List NamespacedName
  nodup : ∀ history, (keys history).Nodup
  mem_keys_iff : ∀ history key, key ∈ keys history ↔ key ∈ history

structure PrometheusProvider where
  maxSampleAge : ℤ
  history : History

def newPrometheus (maxSampleAge : ℤ) : PrometheusProvider := ⟨maxSampleAge, ∅⟩

def evictOldest.scan (history : History) :
    List NamespacedName → NamespacedName → ℤ → NamespacedName
  | [], oldestKey, _ => oldestKey
  | key :: rest, oldestKey, oldest =>
    match history.lookup key with
    | none => scan history rest oldestKey oldest
    | some stored =>
      if Time.isZero oldest || stored.lastUsed < oldest then scan history rest key stored.lastUsed
      else scan history rest oldestKey oldest

def evictOldest (history : History) (order : MapOrder) : History :=
  history.erase (evictOldest.scan history (order.keys history) ⟨"", ""⟩ 0)

def openHistory (history : History) (order : MapOrder) (target : Deployment) :
    History × TargetHistory :=
  let fresh : TargetHistory := ⟨target.metadata.uid, [], 0⟩
  match history.lookup target.metadata.key with
  | none =>
    (if maxTargets ≤ history.keys.card then evictOldest history order else history, fresh)
  | some stored => (history, if stored.uid = target.metadata.uid then stored else fresh)

def record (history : History) (order : MapOrder) (target : Deployment) (window : ℤ)
    (sample : Predictor.Sample ℚ) (sourceAt : ℤ) : CPUHistory ℚ × History :=
  let (history, stored) := openHistory history order target
  let cutoff := sample.timestamp - window
  let retained := stored.samples.filter fun previous =>
    !decide (previous.timestamp < cutoff) && decide (previous.timestamp < sample.timestamp)
  let spaced := match retained.getLast? with
    | none => true
    | some last => decide (observationSpacing ≤ sample.timestamp - last.timestamp)
  if spaced then
    (⟨retained ++ [sample], sample.timestamp, sourceAt⟩,
      history.insert target.metadata.key ⟨stored.uid, retained ++ [sample], sample.timestamp⟩)
  else
    -- the last anchor stays stored, the live observation is returned in its place
    (⟨retained.dropLast ++ [sample], sample.timestamp, sourceAt⟩,
      history.insert target.metadata.key ⟨stored.uid, retained, sample.timestamp⟩)

/-- What `api.Query` returns: an error, or warnings and a value of some type. -/
inductive QueryValue where
  | vector (samples : Vector)
  | other (typeName : String)

inductive QueryResponse where
  | failed (err : Err)
  | answered (warnings : List String) (value : QueryValue)

def query : QueryResponse → Except Err Vector
  | .failed err => .error (err.annotate "metricsprovider: instant query")
  | .answered warnings value =>
    if warnings ≠ [] then
      .error (.wrap .incompleteData
        ("Prometheus warnings: [" ++ " ".intercalate warnings ++ "]"))
    else
      match value with
      | .vector samples => .ok samples
      | .other typeName =>
        .error (.wrap .invalidData ("expected Prometheus vector, got " ++ typeName))

def sameRoster (roster after : TargetRoster) : Bool :=
  roster.generation == after.generation && decide (roster.containers.Perm after.containers)

/-- What one call reads from outside, in the order of the reads. -/
structure Readings where
  contextErr : Option Err
  gateErr : Option Err
  roster : Except Err TargetRoster
  now : ℤ
  rates : QueryResponse
  sources : QueryResponse
  rosterAfter : Except Err TargetRoster
  nowAfter : ℤ

structure Call where
  target : Option Deployment
  window : ℤ
  readings : Readings
  order : MapOrder

structure Observation where
  sample : Predictor.Sample ℚ
  sourceAt : ℤ
  containers : List ContainerSource
  deriving DecidableEq

/-- The part of the call between acquiring the gate and recording the observation. -/
def observe (maxSampleAge window : ℤ) (readings : Readings) : Except Err Observation := do
  if window < observationSpacing ∨ maxHistoryWindow < window then
    throw (.wrap .invalidData "history window must be between 15s and 1h")
  let roster ← readings.roster
  let evaluatedAt := Time.truncate readings.now millisecond
  let rates ← query readings.rates
  let sources ← query readings.sources
  let result ← utilization maxSampleAge roster rates sources evaluatedAt
  match readings.rosterAfter with
  | .error err => throw (.wrap .targetChanged ("post-query roster: " ++ err.message))
  | .ok after =>
    if !sameRoster roster after then throw (.ofSentinel .targetChanged)
    if effectiveMaxSampleAge maxSampleAge < readings.nowAfter - result.oldest then
      throw (.ofSentinel .staleData)
    return ⟨⟨evaluatedAt, .finite result.value⟩, result.oldest, result.containers⟩

/-- What an accepted observation went through. -/
theorem observe_inv {maxSampleAge window : ℤ} {readings : Readings} {observation : Observation}
    (h : observe maxSampleAge window readings = .ok observation) :
    observationSpacing ≤ window ∧ window ≤ maxHistoryWindow ∧
      ∃ roster rates sources result, readings.roster = .ok roster ∧
        query readings.rates = .ok rates ∧ query readings.sources = .ok sources ∧
        utilization maxSampleAge roster rates sources (Time.truncate readings.now millisecond) =
          .ok result ∧
        readings.nowAfter - result.oldest ≤ effectiveMaxSampleAge maxSampleAge ∧
        observation = ⟨⟨Time.truncate readings.now millisecond, .finite result.value⟩,
          result.oldest, result.containers⟩ := by
  unfold observe at h
  by_cases hw : window < observationSpacing ∨ maxHistoryWindow < window
  · rw [if_pos hw] at h
    cases h
  rw [if_neg hw] at h
  cases hroster : readings.roster with
  | error e => rw [hroster] at h; cases h
  | ok roster =>
  cases hrates : query readings.rates with
  | error e => rw [hroster, hrates] at h; cases h
  | ok rates =>
  cases hsources : query readings.sources with
  | error e => rw [hroster, hrates, hsources] at h; cases h
  | ok sources =>
  rw [hroster, hrates, hsources] at h
  simp only [bind, Except.bind, pure, Except.pure] at h
  cases hresult : utilization maxSampleAge roster rates sources
      (Time.truncate readings.now millisecond) with
  | error e => rw [hresult] at h; cases h
  | ok result =>
  rw [hresult] at h
  cases hafter : readings.rosterAfter with
  | error e => rw [hafter] at h; cases h
  | ok after =>
    rw [hafter] at h
    dsimp only at h
    split_ifs at h with hsame hstale
    cases h
    exact ⟨by omega, by omega, roster, rates, sources, result, rfl, rfl, rfl, hresult,
      not_lt.mp hstale, rfl⟩

/-- The outcome of a call before recording; an error comes with whether the gate was held. -/
def attempt (maxSampleAge : ℤ) (call : Call) : Except (Err × Bool) (Deployment × Observation) :=
  match call.target with
  | none => .error (.wrap .invalidData "target UID is required", false)
  | some target =>
    if target.metadata.uid = "" then .error (.wrap .invalidData "target UID is required", false)
    else
      match call.readings.contextErr with
      | some err => .error (err, false)
      | none =>
        match call.readings.gateErr with
        | some err => .error (err, false)
        | none =>
          match observe maxSampleAge call.window call.readings with
          | .error err => .error (err, true)
          | .ok observation => .ok (target, observation)

def discard (history : History) (key : NamespacedName) : History := history.erase key

/-- The deferred discard, which runs on every return. -/
def deferredDiscard (history : History) (target : Option Deployment) (gateHeld : Bool)
    (observationErr : Option Err) : History :=
  match target with
  | none => history
  | some target =>
    if invalidatesObservationHistory observationErr && gateHeld then
      discard history target.metadata.key
    else history

structure CallResult where
  history : CPUHistory ℚ
  err : Option Err
  provider : PrometheusProvider

def averageCPUUtilizationPercentage (p : PrometheusProvider) (call : Call) : CallResult :=
  match attempt p.maxSampleAge call with
  | .error (err, gateHeld) =>
    ⟨.zero, some err,
      { p with history := deferredDiscard p.history call.target gateHeld (some err) }⟩
  | .ok (target, observation) =>
    let (result, history) := record p.history call.order target call.window observation.sample
      observation.sourceAt
    ⟨result, none, { p with history := history }⟩

def optionalTimestamp (value : ℤ) : Option ℤ := if Time.isZero value then none else some value

/-- The fields of the logged observation that the offline analysis reads. -/
structure QueryLog where
  latestEvaluationAt : Option ℤ
  samples : ℕ
  observationSpacingSeconds : ℚ
  queryError : String
  deriving DecidableEq, Repr

def logObservation (history : CPUHistory ℚ) (err : Option Err) : QueryLog where
  latestEvaluationAt := optionalTimestamp history.observedAt
  samples := history.samples.length
  observationSpacingSeconds := (observationSpacing : ℚ) / (second : ℚ)
  queryError := match err with
    | none => ""
    | some err => err.message

def runCalls (p : PrometheusProvider) (calls : List Call) : PrometheusProvider :=
  calls.foldl (fun p call => (averageCPUUtilizationPercentage p call).provider) p

theorem runCalls_concat (p : PrometheusProvider) (calls : List Call) (call : Call) :
    runCalls p (calls ++ [call]) =
      (averageCPUUtilizationPercentage (runCalls p calls) call).provider := by
  simp [runCalls]

/-! What the operations do to the history map. -/

theorem lookup_evictOldest (history : History) (order : MapOrder) (key : NamespacedName) :
    (evictOldest history order).lookup key = history.lookup key ∨
      (evictOldest history order).lookup key = none := by
  unfold evictOldest
  by_cases h : key = evictOldest.scan history (order.keys history) ⟨"", ""⟩ 0
  · exact .inr (by rw [h, Finmap.lookup_erase])
  · exact .inl (Finmap.lookup_erase_ne h)

/-- The samples that `record` continues from: those of the same incarnation, or none. -/
def priorSamples (history : History) (key : NamespacedName) (uid : UID) :
    List (Predictor.Sample ℚ) :=
  match history.lookup key with
  | none => []
  | some stored => if stored.uid = uid then stored.samples else []

theorem openHistory_entry (history : History) (order : MapOrder) (target : Deployment) :
    (openHistory history order target).2.uid = target.metadata.uid ∧
      (openHistory history order target).2.samples =
        priorSamples history target.metadata.key target.metadata.uid := by
  unfold openHistory priorSamples
  cases history.lookup target.metadata.key with
  | none => exact ⟨rfl, rfl⟩
  | some stored =>
    by_cases h : stored.uid = target.metadata.uid
    · simp [h]
    · simp [h]

theorem lookup_openHistory (history : History) (order : MapOrder) (target : Deployment)
    (key : NamespacedName) :
    (openHistory history order target).1.lookup key = history.lookup key ∨
      (openHistory history order target).1.lookup key = none := by
  unfold openHistory
  cases history.lookup target.metadata.key with
  | some stored => exact .inl rfl
  | none =>
    by_cases h : maxTargets ≤ history.keys.card
    · simpa [h] using lookup_evictOldest history order key
    · simp [h]

section Record

variable (history : History) (order : MapOrder) (target : Deployment) (window : ℤ)
  (sample : Predictor.Sample ℚ) (sourceAt : ℤ)

/-- `record` returns the view and stores the anchors of a spaced window. -/
theorem record_eq :
    record history order target window sample sourceAt =
      (⟨SpacedWindow.view Predictor.Sample.timestamp window observationSpacing
          (priorSamples history target.metadata.key target.metadata.uid) sample,
          sample.timestamp, sourceAt⟩,
        (openHistory history order target).1.insert target.metadata.key
          ⟨target.metadata.uid,
            SpacedWindow.store Predictor.Sample.timestamp window observationSpacing
              (priorSamples history target.metadata.key target.metadata.uid) sample,
            sample.timestamp⟩) := by
  have ⟨huid, hsamples⟩ := openHistory_entry history order target
  have hretain : (priorSamples history target.metadata.key target.metadata.uid).filter
        (fun previous => !decide (previous.timestamp < sample.timestamp - window) &&
          decide (previous.timestamp < sample.timestamp)) =
      SpacedWindow.retain Predictor.Sample.timestamp window sample.timestamp
        (priorSamples history target.metadata.key target.metadata.uid) := by
    unfold SpacedWindow.retain
    refine List.filter_congr fun previous _ => ?_
    rw [← decide_not, decide_eq_decide.mpr not_lt]
  have hopens : ∀ kept : List (Predictor.Sample ℚ), (match kept.getLast? with
      | none => true
      | some last => decide (observationSpacing ≤ sample.timestamp - last.timestamp)) =
        SpacedWindow.opens Predictor.Sample.timestamp observationSpacing sample.timestamp kept := by
    intro kept
    unfold SpacedWindow.opens
    cases kept.getLast? <;> rfl
  unfold record SpacedWindow.view SpacedWindow.store
  dsimp only
  rw [huid, hsamples, hretain, hopens]
  split_ifs <;> rfl

theorem lookup_record_self :
    (record history order target window sample sourceAt).2.lookup target.metadata.key =
      some ⟨target.metadata.uid, SpacedWindow.store Predictor.Sample.timestamp window
        observationSpacing (priorSamples history target.metadata.key target.metadata.uid) sample,
        sample.timestamp⟩ := by
  rw [record_eq, Finmap.lookup_insert]

/-- A stored entry is the one recorded now, or another target's from before. -/
theorem lookup_record_cases {key : NamespacedName} {stored : TargetHistory}
    (h : (record history order target window sample sourceAt).2.lookup key = some stored) :
    history.lookup key = some stored ∨ key = target.metadata.key ∧
      stored = ⟨target.metadata.uid, SpacedWindow.store Predictor.Sample.timestamp window
        observationSpacing (priorSamples history target.metadata.key target.metadata.uid) sample,
        sample.timestamp⟩ := by
  by_cases hkey : key = target.metadata.key
  · subst hkey
    rw [lookup_record_self] at h
    exact .inr ⟨rfl, (Option.some.inj h).symm⟩
  · rw [record_eq, Finmap.lookup_insert_of_ne _ hkey] at h
    rcases lookup_openHistory history order target key with hkept | hevicted
    · exact .inl (hkept ▸ h)
    · rw [hevicted] at h
      cases h

end Record

theorem deferredDiscard_of_kept {err : Option Err}
    (h : invalidatesObservationHistory err = false) (history : History)
    (target : Option Deployment) (gateHeld : Bool) :
    deferredDiscard history target gateHeld err = history := by
  cases target with
  | none => rfl
  | some target => simp [deferredDiscard, h]

theorem lookup_discard {history : History} {key discarded : NamespacedName}
    {stored : TargetHistory} (h : (discard history discarded).lookup key = some stored) :
    key ≠ discarded ∧ history.lookup key = some stored := by
  unfold discard at h
  by_cases hkey : key = discarded
  · rw [hkey, Finmap.lookup_erase] at h
    cases h
  · rw [Finmap.lookup_erase_ne hkey] at h
    exact ⟨hkey, h⟩

theorem lookup_deferredDiscard {history : History} {target : Option Deployment} {gateHeld : Bool}
    {err : Option Err} {key : NamespacedName} {stored : TargetHistory}
    (h : (deferredDiscard history target gateHeld err).lookup key = some stored) :
    history.lookup key = some stored ∧ ∀ t ∈ target, t.metadata.key = key →
      (invalidatesObservationHistory err && gateHeld) = false := by
  cases target with
  | none => exact ⟨h, fun t ht => by cases ht⟩
  | some target =>
    unfold deferredDiscard at h
    dsimp only at h
    split_ifs at h with hcond
    · obtain ⟨hne, hbefore⟩ := lookup_discard h
      refine ⟨hbefore, fun t ht hkey => absurd ?_ hne⟩
      rw [← hkey, Option.mem_some_iff.mp ht]
    · exact ⟨h, fun _ _ _ => Bool.eq_false_iff.mpr hcond⟩

theorem deferredDiscard_of_not_held (history : History) (target : Option Deployment)
    (err : Option Err) : deferredDiscard history target false err = history := by
  cases target with
  | none => rfl
  | some target => simp [deferredDiscard]

end Autoscaler.MetricsProvider
