import Autoscaler.MetricsProvider.OrderIndependence
import Autoscaler.MetricsProvider.Prometheus

/-! The history of a target consists of its accepted observations, over every run of calls. -/
namespace Autoscaler.MetricsProvider

/-- The call accepts an observation of this target. -/
def Accepts (maxSampleAge : ℤ) (call : Call) (target : Deployment) (observation : Observation) :
    Prop :=
  attempt maxSampleAge call = .ok (target, observation)

/-- The call fails with the gate held, in a class that restarts the target's history. -/
def Discards (maxSampleAge : ℤ) (call : Call) (key : NamespacedName) : Prop :=
  ∃ err target, attempt maxSampleAge call = .error (err, true) ∧ call.target = some target ∧
    target.metadata.key = key ∧ invalidatesObservationHistory (some err) = true

/-- The sample was accepted for this incarnation, and no later call discarded its history. -/
def AcceptedSince (maxSampleAge : ℤ) (key : NamespacedName) (uid : UID)
    (sample : Predictor.Sample ℚ) (calls : List Call) : Prop :=
  ∃ before call after target observation, calls = before ++ call :: after ∧
    Accepts maxSampleAge call target observation ∧ target.metadata.key = key ∧
    target.metadata.uid = uid ∧ observation.sample = sample ∧
    ∀ later ∈ after, ¬ Discards maxSampleAge later key

theorem AcceptedSince.concat {maxSampleAge : ℤ} {key : NamespacedName} {uid : UID}
    {sample : Predictor.Sample ℚ} {calls : List Call}
    (h : AcceptedSince maxSampleAge key uid sample calls) {call : Call}
    (hcall : ¬ Discards maxSampleAge call key) :
    AcceptedSince maxSampleAge key uid sample (calls ++ [call]) := by
  obtain ⟨before, first, after, target, observation, hsplit, haccept, hkey, huid, hsample,
    hafter⟩ := h
  refine ⟨before, first, after ++ [call], target, observation, by simp [hsplit], haccept, hkey,
    huid, hsample, ?_⟩
  intro later hlater
  rcases List.mem_append.mp hlater with hlater | hlater
  · exact hafter later hlater
  · rw [List.mem_singleton.mp hlater]
    exact hcall

theorem AcceptedSince.of_accepts {maxSampleAge : ℤ} {call : Call} {target : Deployment}
    {observation : Observation} (h : Accepts maxSampleAge call target observation)
    (calls : List Call) :
    AcceptedSince maxSampleAge target.metadata.key target.metadata.uid observation.sample
      (calls ++ [call]) :=
  ⟨calls, call, [], target, observation, rfl, h, rfl, rfl, rfl, by simp⟩

theorem Accepts.not_discards {maxSampleAge : ℤ} {call : Call} {target : Deployment}
    {observation : Observation} (h : Accepts maxSampleAge call target observation)
    (key : NamespacedName) : ¬ Discards maxSampleAge call key := by
  rintro ⟨err, target', herr, -⟩
  rw [h] at herr
  cases herr

theorem observe_ok {maxSampleAge window : ℤ} {readings : Readings} {observation : Observation}
    (h : observe maxSampleAge window readings = .ok observation) :
    observationSpacing ≤ window ∧ window ≤ maxHistoryWindow ∧
      observation.sample.timestamp = Time.truncate readings.now millisecond ∧
      Time.unixEpoch ≤ observation.sample.timestamp := by
  obtain ⟨hlow, hhigh, roster, rates, sources, result, -, -, -, hresult, -, rfl⟩ := observe_inv h
  exact ⟨hlow, hhigh, rfl, unixEpoch_le_of_utilization hresult⟩

/-- A call accepts when it has a target with a UID, gets the gate and observes. -/
theorem accepts_iff {maxSampleAge : ℤ} {call : Call} {target : Deployment}
    {observation : Observation} :
    Accepts maxSampleAge call target observation ↔
      call.target = some target ∧ target.metadata.uid ≠ "" ∧ call.readings.contextErr = none ∧
        call.readings.gateErr = none ∧
        observe maxSampleAge call.window call.readings = .ok observation := by
  constructor
  · intro h
    unfold Accepts attempt at h
    cases htarget : call.target with
    | none => rw [htarget] at h; cases h
    | some target' =>
      rw [htarget] at h
      dsimp only at h
      split_ifs at h with huid
      cases hctx : call.readings.contextErr with
      | some err => rw [hctx] at h; cases h
      | none =>
        cases hgate : call.readings.gateErr with
        | some err => rw [hctx, hgate] at h; cases h
        | none =>
          rw [hctx, hgate] at h
          cases hobserve : observe maxSampleAge call.window call.readings with
          | error err => rw [hobserve] at h; cases h
          | ok observation' =>
            rw [hobserve] at h
            cases h
            exact ⟨rfl, huid, rfl, rfl, rfl⟩
  · rintro ⟨htarget, huid, hctx, hgate, hobserve⟩
    unfold Accepts attempt
    rw [htarget]
    dsimp only
    rw [if_neg huid, hctx, hgate, hobserve]

theorem Accepts.target_eq {maxSampleAge : ℤ} {call : Call} {target : Deployment}
    {observation : Observation} (h : Accepts maxSampleAge call target observation) :
    call.target = some target ∧
      observe maxSampleAge call.window call.readings = .ok observation :=
  ⟨(accepts_iff.mp h).1, (accepts_iff.mp h).2.2.2.2⟩

theorem averageCPU_of_error {p : PrometheusProvider} {call : Call} {err : Err} {gateHeld : Bool}
    (h : attempt p.maxSampleAge call = .error (err, gateHeld)) :
    averageCPUUtilizationPercentage p call = ⟨.zero, some err,
      { p with history := deferredDiscard p.history call.target gateHeld (some err) }⟩ := by
  rw [averageCPUUtilizationPercentage, h]

theorem averageCPU_of_accepts {p : PrometheusProvider} {call : Call} {target : Deployment}
    {observation : Observation} (h : Accepts p.maxSampleAge call target observation) :
    averageCPUUtilizationPercentage p call =
      ⟨(record p.history call.order target call.window observation.sample
          observation.sourceAt).1, none,
        { p with history := (record p.history call.order target call.window observation.sample
          observation.sourceAt).2 }⟩ := by
  rw [averageCPUUtilizationPercentage, h]

section Accepted

variable {p : PrometheusProvider} {call : Call} {target : Deployment} {observation : Observation}

theorem history_of_accepts (h : Accepts p.maxSampleAge call target observation) :
    (averageCPUUtilizationPercentage p call).history =
      ⟨SpacedWindow.view Predictor.Sample.timestamp call.window observationSpacing
          (priorSamples p.history target.metadata.key target.metadata.uid) observation.sample,
        observation.sample.timestamp, observation.sourceAt⟩ := by
  rw [averageCPU_of_accepts h, record_eq]

theorem priorSamples_of_accepts (h : Accepts p.maxSampleAge call target observation) :
    priorSamples (averageCPUUtilizationPercentage p call).provider.history target.metadata.key
        target.metadata.uid =
      SpacedWindow.store Predictor.Sample.timestamp call.window observationSpacing
        (priorSamples p.history target.metadata.key target.metadata.uid) observation.sample := by
  have hlookup : (averageCPUUtilizationPercentage p call).provider.history.lookup
      target.metadata.key = some ⟨target.metadata.uid, SpacedWindow.store
        Predictor.Sample.timestamp call.window observationSpacing (priorSamples p.history
          target.metadata.key target.metadata.uid) observation.sample,
        observation.sample.timestamp⟩ := by
    rw [averageCPU_of_accepts h]
    exact lookup_record_self _ _ _ _ _ _
  rw [priorSamples, hlookup]
  simp

end Accepted

theorem accepts_of_err_none {p : PrometheusProvider} {call : Call}
    (h : (averageCPUUtilizationPercentage p call).err = none) :
    ∃ target observation, Accepts p.maxSampleAge call target observation := by
  cases hattempt : attempt p.maxSampleAge call with
  | error failure =>
    rw [averageCPU_of_error hattempt] at h
    cases h
  | ok accepted => exact ⟨accepted.1, accepted.2, hattempt⟩

/-- An entry stored after a call was stored before and the call does not discard it, or it is the
record of the call's own observation. -/
theorem stored_cases {p : PrometheusProvider} {call : Call} {key : NamespacedName}
    {stored : TargetHistory}
    (h : (averageCPUUtilizationPercentage p call).provider.history.lookup key = some stored) :
    (p.history.lookup key = some stored ∧ ¬ Discards p.maxSampleAge call key) ∨
      ∃ target observation, Accepts p.maxSampleAge call target observation ∧
        key = target.metadata.key ∧
        stored = ⟨target.metadata.uid, SpacedWindow.store Predictor.Sample.timestamp call.window
          observationSpacing (priorSamples p.history target.metadata.key target.metadata.uid)
          observation.sample, observation.sample.timestamp⟩ := by
  cases hattempt : attempt p.maxSampleAge call with
  | error failure =>
    rw [averageCPU_of_error hattempt] at h
    obtain ⟨hbefore, hkept⟩ := lookup_deferredDiscard h
    refine .inl ⟨hbefore, ?_⟩
    rintro ⟨err, target, herr, htarget, hkey, hinvalid⟩
    rw [hattempt] at herr
    cases herr
    have hcond := hkept target htarget hkey
    rw [hinvalid] at hcond
    cases hcond
  | ok accepted =>
    obtain ⟨target, observation⟩ := accepted
    have haccepts : Accepts p.maxSampleAge call target observation := hattempt
    rw [averageCPU_of_accepts haccepts] at h
    rcases lookup_record_cases _ _ _ _ _ _ h with hbefore | ⟨hkey, hstored⟩
    · exact .inl ⟨hbefore, haccepts.not_discards key⟩
    · exact .inr ⟨target, observation, haccepts, hkey, hstored⟩

theorem averageCPU_maxSampleAge (p : PrometheusProvider) (call : Call) :
    (averageCPUUtilizationPercentage p call).provider.maxSampleAge = p.maxSampleAge := by
  unfold averageCPUUtilizationPercentage
  split <;> rfl

theorem runCalls_maxSampleAge (p : PrometheusProvider) (calls : List Call) :
    (runCalls p calls).maxSampleAge = p.maxSampleAge := by
  induction calls using List.reverseRecOn with
  | nil => rfl
  | append_singleton calls call ih => rw [runCalls_concat, averageCPU_maxSampleAge, ih]

def Call.HasWindow (call : Call) (window : NamespacedName → ℤ) : Prop :=
  ∀ target, call.target = some target → call.window = window target.metadata.key

structure Faithful (maxSampleAge : ℤ) (window : NamespacedName → ℤ) (calls : List Call)
    (key : NamespacedName) (stored : TargetHistory) : Prop where
  windowValid : observationSpacing ≤ window key
  spaced : SpacedWindow.Spaced Predictor.Sample.timestamp observationSpacing
    (stored.lastUsed - window key) stored.lastUsed stored.samples
  accepted : ∀ sample ∈ stored.samples, AcceptedSince maxSampleAge key stored.uid sample calls

def AllFaithful (p : PrometheusProvider) (window : NamespacedName → ℤ) (calls : List Call) : Prop :=
  ∀ key stored, p.history.lookup key = some stored →
    Faithful p.maxSampleAge window calls key stored

theorem Faithful.concat {maxSampleAge : ℤ} {window : NamespacedName → ℤ} {calls : List Call}
    {key : NamespacedName} {stored : TargetHistory}
    (h : Faithful maxSampleAge window calls key stored) {call : Call}
    (hcall : ¬ Discards maxSampleAge call key) :
    Faithful maxSampleAge window (calls ++ [call]) key stored where
  windowValid := h.windowValid
  spaced := h.spaced
  accepted sample hsample := (h.accepted sample hsample).concat hcall

section Step

variable {p : PrometheusProvider} {window : NamespacedName → ℤ} {calls : List Call} {call : Call}
  {target : Deployment} {observation : Observation}

/-- The samples carried over were accepted for the same incarnation. -/
theorem prior_faithful (hp : AllFaithful p window calls) (target : Deployment) :
    (∃ low high, SpacedWindow.Spaced Predictor.Sample.timestamp observationSpacing low high
      (priorSamples p.history target.metadata.key target.metadata.uid)) ∧
    ∀ sample ∈ priorSamples p.history target.metadata.key target.metadata.uid,
      AcceptedSince p.maxSampleAge target.metadata.key target.metadata.uid sample calls := by
  unfold priorSamples
  cases hlookup : p.history.lookup target.metadata.key with
  | none => exact ⟨⟨0, 0, SpacedWindow.Spaced.nil _ _ _ _⟩, by simp⟩
  | some stored =>
    have hstored := hp _ _ hlookup
    dsimp only
    split_ifs with huid
    · exact ⟨⟨_, _, hstored.spaced⟩, fun sample hsample => huid ▸ hstored.accepted sample hsample⟩
    · exact ⟨⟨0, 0, SpacedWindow.Spaced.nil _ _ _ _⟩, by simp⟩

theorem observationSpacing_pos : 0 < observationSpacing := by decide

/-- An accepted observation is stored with faithful anchors. -/
theorem stored_faithful (hp : AllFaithful p window calls) (hwindow : call.HasWindow window)
    (haccept : Accepts p.maxSampleAge call target observation) :
    Faithful p.maxSampleAge window (calls ++ [call]) target.metadata.key
      ⟨target.metadata.uid, SpacedWindow.store Predictor.Sample.timestamp call.window
        observationSpacing (priorSamples p.history target.metadata.key target.metadata.uid)
        observation.sample, observation.sample.timestamp⟩ := by
  have ⟨htarget, hobserve⟩ := haccept.target_eq
  have hvalid := (observe_ok hobserve).1
  have hw := hwindow target htarget
  have ⟨⟨low, high, hspaced⟩, haccepted⟩ := prior_faithful hp target
  have hpos := observationSpacing_pos
  constructor
  · rw [← hw]
    exact hvalid
  · rw [← hw]
    exact hspaced.store _ hpos.le (by omega) observation.sample
  · intro sample hsample
    rcases SpacedWindow.mem_store _ hsample with rfl | hmem
    · exact AcceptedSince.of_accepts haccept calls
    · exact (haccepted sample hmem).concat (haccept.not_discards _)

theorem step_faithful (hp : AllFaithful p window calls) (hwindow : call.HasWindow window) :
    AllFaithful (averageCPUUtilizationPercentage p call).provider window (calls ++ [call]) := by
  intro key stored hlookup
  rw [averageCPU_maxSampleAge]
  rcases stored_cases hlookup with ⟨hbefore, hkept⟩ | ⟨target, observation, haccept, rfl, rfl⟩
  · exact (hp key stored hbefore).concat hkept
  · exact stored_faithful hp hwindow haccept

end Step

theorem runCalls_faithful (maxSampleAge : ℤ) (window : NamespacedName → ℤ) (calls : List Call)
    (hwindow : ∀ call ∈ calls, call.HasWindow window) :
    AllFaithful (runCalls (newPrometheus maxSampleAge) calls) window calls := by
  induction calls using List.reverseRecOn with
  | nil =>
    intro key stored hlookup
    cases hlookup
  | append_singleton calls call ih =>
    rw [runCalls_concat]
    exact step_faithful (ih fun c hc => hwindow c (List.mem_append_left _ hc))
      (hwindow call (by simp))

structure ReturnedFaithful (maxSampleAge : ℤ) (before : List Call) (call : Call)
    (target : Deployment) (observation : Observation) (history : CPUHistory ℚ) : Prop where
  spacing : history.samples.Pairwise fun a b => a.timestamp + observationSpacing ≤ b.timestamp
  within : ∀ sample ∈ history.samples,
    observation.sample.timestamp - call.window ≤ sample.timestamp
  live : history.samples.getLast? = some observation.sample
  evaluated : observation.sample.timestamp = Time.truncate call.readings.now millisecond
  observedAt : history.observedAt = observation.sample.timestamp
  accepted : ∀ sample ∈ history.samples, AcceptedSince maxSampleAge target.metadata.key
    target.metadata.uid sample (before ++ [call])
  length : (history.samples.length : ℤ) ≤ call.window / observationSpacing + 1

theorem returned_faithful {p : PrometheusProvider} {window : NamespacedName → ℤ}
    {before : List Call} {call : Call} {target : Deployment} {observation : Observation}
    (hp : AllFaithful p window before) (haccept : Accepts p.maxSampleAge call target observation) :
    ReturnedFaithful p.maxSampleAge before call target observation
      (averageCPUUtilizationPercentage p call).history := by
  have hobserve := observe_ok haccept.target_eq.2
  have ⟨⟨low, high, hspaced⟩, haccepted⟩ := prior_faithful hp target
  have hpos := observationSpacing_pos
  have hview := hspaced.view _ hpos.le (by omega : 0 ≤ call.window) observation.sample
  rw [history_of_accepts haccept]
  refine ⟨hview.spacing, fun sample hsample => (hview.within sample hsample).1,
    SpacedWindow.view_getLast _ _ _ _ _, hobserve.2.2.1, rfl, ?_, ?_⟩
  · intro sample hsample
    rcases SpacedWindow.mem_view _ hsample with rfl | hmem
    · exact AcceptedSince.of_accepts haccept before
    · exact (haccepted sample hmem).concat (haccept.not_discards _)
  · have hlength := hview.length_le _ hpos (by omega)
    rwa [sub_sub_cancel] at hlength

/-- The error classes that keep the history. -/
theorem invalidates_eq_false {err : Err}
    (h : err.is .incompleteData = true ∨ err.is .noData = true ∨ err.is .targetChanged = true) :
    invalidatesObservationHistory (some err) = false := by
  rcases h with h | h | h <;> simp [invalidatesObservationHistory, h]

/-- Stored and returned histories consist of spaced, recent observations accepted for the same
incarnation since the last discarding failure; failing calls return none and keep what the three
harmless classes must keep. -/
theorem provider_history_faithful (maxSampleAge : ℤ) (window : NamespacedName → ℤ)
    (calls : List Call) (hwindow : ∀ call ∈ calls, call.HasWindow window) :
    (∀ key stored, (runCalls (newPrometheus maxSampleAge) calls).history.lookup key = some stored →
      stored.samples.Pairwise (fun a b => a.timestamp + observationSpacing ≤ b.timestamp) ∧
      (∀ sample ∈ stored.samples, stored.lastUsed - window key ≤ sample.timestamp ∧
        AcceptedSince maxSampleAge key stored.uid sample calls) ∧
      (stored.samples.length : ℤ) ≤ window key / observationSpacing + 1) ∧
    ∀ before call after, calls = before ++ call :: after →
      let p := runCalls (newPrometheus maxSampleAge) before
      let result := averageCPUUtilizationPercentage p call
      (∀ err, result.err = some err → result.history.samples = [] ∧
        (err.is .incompleteData = true ∨ err.is .noData = true ∨ err.is .targetChanged = true →
          result.provider.history = p.history)) ∧
      (result.err = none → ∃ target observation,
        Accepts maxSampleAge call target observation ∧
        ReturnedFaithful maxSampleAge before call target observation result.history) := by
  constructor
  · intro key stored hlookup
    have hstored := runCalls_faithful maxSampleAge window calls hwindow key stored hlookup
    rw [runCalls_maxSampleAge] at hstored
    have hvalid := hstored.windowValid
    have hpos := observationSpacing_pos
    have hlength := hstored.spaced.length_le _ hpos (by omega)
    rw [sub_sub_cancel] at hlength
    exact ⟨hstored.spaced.spacing, fun sample hsample =>
      ⟨(hstored.spaced.within sample hsample).1, hstored.accepted sample hsample⟩, hlength⟩
  · intro before call after hsplit
    dsimp only
    have hbefore : ∀ c ∈ before, c.HasWindow window :=
      fun c hc => hwindow c (by rw [hsplit]; exact List.mem_append_left _ hc)
    have hp := runCalls_faithful maxSampleAge window before hbefore
    have hage : (runCalls (newPrometheus maxSampleAge) before).maxSampleAge = maxSampleAge :=
      runCalls_maxSampleAge _ _
    cases hattempt : attempt (runCalls (newPrometheus maxSampleAge) before).maxSampleAge call with
    | error failure =>
      obtain ⟨err, gateHeld⟩ := failure
      rw [averageCPU_of_error hattempt]
      constructor
      · rintro err' herr
        cases herr
        exact ⟨rfl, fun hclass => deferredDiscard_of_kept (invalidates_eq_false hclass) _ _ _⟩
      · intro herr
        cases herr
    | ok result =>
      obtain ⟨target, observation⟩ := result
      have hreturned := returned_faithful hp hattempt
      rw [averageCPU_of_accepts hattempt] at hreturned ⊢
      rw [hage] at hattempt hreturned
      constructor
      · intro err herr
        cases herr
      · exact fun _ => ⟨target, observation, hattempt, hreturned⟩

/-! Two observations of one container at 50% of its request. -/

/-- Map iteration in the order of some enumeration of the keys. -/
noncomputable def someMapOrder : MapOrder where
  keys history := history.keys.toList
  nodup history := Finset.nodup_toList _
  mem_keys_iff history key := by rw [Finset.mem_toList, Finmap.mem_keys]

def warmupRoster : TargetRoster where
  generation := 1
  containers := [(⟨"test", "web-a", "app"⟩, ⟨"uid-a", "rs-one", "cid-a", 1 / 2⟩)]
  nodupKeys := by decide
  oneNamespace := by decide

def warmupMetric : Metric :=
  [⟨"namespace", "test"⟩, ⟨"pod", "web-a"⟩, ⟨"container", "app"⟩,
    ⟨"id", "/kubepods/poduid-a/cid-a"⟩].toFinmap

noncomputable def warmupCall (seconds : ℤ) : Call where
  target := some safetyDeployment
  window := 300 * second
  readings :=
    { contextErr := none
      gateErr := none
      roster := .ok warmupRoster
      now := Time.unixEpoch + seconds * second
      rates := .answered [] (.vector [⟨warmupMetric, .finite (1 / 4), seconds * 1000⟩])
      sources := .answered [] (.vector [⟨warmupMetric, .finite seconds, seconds * 1000⟩])
      rosterAfter := .ok warmupRoster
      nowAfter := Time.unixEpoch + seconds * second }
  order := someMapOrder

def warmupObservation (seconds : ℤ) : Observation where
  sample := ⟨Time.unixEpoch + seconds * second, .finite 50⟩
  sourceAt := Time.unixEpoch + seconds * second
  containers := [⟨"web-a", "uid-a", "app", "cid-a", Time.unixEpoch + seconds * second⟩]

theorem warmupCall_accepts : ∀ seconds ∈ [1000, 1015],
    attempt 0 (warmupCall seconds) = .ok (safetyDeployment, warmupObservation seconds) := by
  decide +kernel

theorem provider_history_faithful_warmup :
    (averageCPUUtilizationPercentage (runCalls (newPrometheus 0) [warmupCall 1000])
        (warmupCall 1015)).history.samples.getLast? =
      some ⟨Time.unixEpoch + 1015 * second, .finite 50⟩ ∧
    ((averageCPUUtilizationPercentage (runCalls (newPrometheus 0) [warmupCall 1000])
        (warmupCall 1015)).history.samples.length : ℤ) ≤ 21 := by
  have haccept := warmupCall_accepts 1015 (by simp)
  have hwindow : ∀ call ∈ [warmupCall 1000, warmupCall 1015],
      call.HasWindow fun _ => 300 * second := by
    simp [Call.HasWindow, warmupCall]
  have hrun := (provider_history_faithful 0 (fun _ => 300 * second)
    [warmupCall 1000, warmupCall 1015] hwindow).2 [warmupCall 1000] (warmupCall 1015) [] rfl
  have hage : (runCalls (newPrometheus 0) [warmupCall 1000]).maxSampleAge = 0 :=
    runCalls_maxSampleAge _ _
  have herr : (averageCPUUtilizationPercentage (runCalls (newPrometheus 0) [warmupCall 1000])
      (warmupCall 1015)).err = none := by
    rw [averageCPU_of_accepts (by rw [hage]; exact haccept)]
  obtain ⟨target, observation, htarget, hreturned⟩ := hrun.2 herr
  rw [Accepts, haccept] at htarget
  cases htarget
  exact ⟨hreturned.live, hreturned.length⟩

end Autoscaler.MetricsProvider
