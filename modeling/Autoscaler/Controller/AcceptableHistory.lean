import Autoscaler.Controller.MetricsSafety
import Autoscaler.MetricsProvider.Observed

/-! The controller's validation accepts every history that the provider returns in time. -/
namespace Autoscaler.Controller

open MetricsProvider

section Consumer

variable {K : Type} [Field K] [LinearOrder K]

def Usable (sample : Predictor.Sample K) : Prop :=
  (∃ value, sample.value = .finite value ∧ 0 ≤ value) ∧ Time.unixEpoch ≤ sample.timestamp

theorem unusableSample_eq_false {history : CPUHistory K} {window : ℤ}
    {sample : Predictor.Sample K} (husable : Usable sample)
    (hlow : history.observedAt - window ≤ sample.timestamp)
    (hhigh : sample.timestamp ≤ history.observedAt) :
    unusableSample history window sample = false := by
  obtain ⟨⟨value, hvalue, hnonneg⟩, hepoch⟩ := husable
  have hzero : Time.isZero sample.timestamp = false := by
    have hpos : 0 < Time.unixEpoch := by decide
    exact beq_eq_false_iff_ne.mpr (by omega)
  unfold unusableSample
  rw [hvalue]
  simp [not_lt.mpr hnonneg, hzero, not_lt.mpr hlow, not_lt.mpr hhigh]

/-- Spaced usable samples pass, after a sample that is far enough before them. -/
theorem validateSamples_ok {history : CPUHistory K} {window : ℤ}
    (samples : List (Predictor.Sample K)) (previous : Option (Predictor.Sample K))
    (hprevious : ∀ p ∈ previous, ∀ s ∈ samples, p.timestamp + observationSpacing ≤ s.timestamp)
    (hspacing : samples.Pairwise fun a b => a.timestamp + observationSpacing ≤ b.timestamp)
    (husable : ∀ s ∈ samples, unusableSample history window s = false) :
    validateSamples history window previous samples = .ok () := by
  induction samples generalizing previous with
  | nil => rfl
  | cons sample rest ih =>
    obtain ⟨hsample, hrest⟩ := List.pairwise_cons.mp hspacing
    obtain ⟨hfirst, husable⟩ := List.forall_mem_cons.mp husable
    have hapart : previous.any (fun p => sample.timestamp - p.timestamp < 15 * second) = false := by
      cases previous with
      | none => rfl
      | some p =>
        have := hprevious p rfl sample List.mem_cons_self
        simp only [observationSpacing] at this
        simp only [Option.any_some, decide_eq_false_iff_not, not_lt]
        omega
    rw [validateSamples, hfirst, hapart]
    exact ih (some sample) (by rintro p ⟨⟩; exact hsample) hrest husable

/-- A spaced window of usable samples that ends with the latest observation. -/
structure Acceptable (history : CPUHistory K) (window : ℤ) : Prop where
  spaced : SpacedWindow.Spaced Predictor.Sample.timestamp observationSpacing
    (history.observedAt - window) history.observedAt history.samples
  last : ∃ sample, history.samples.getLast? = some sample ∧
    sample.timestamp = history.observedAt
  usable : ∀ sample ∈ history.samples, Usable sample
  source_ge : Time.unixEpoch ≤ history.sourceTimestamp
  source_le : history.sourceTimestamp ≤ history.observedAt

theorem validateCPUHistory_of_acceptable {history : CPUHistory K} {now window : ℤ}
    (h : Acceptable history window) (hobserved : history.observedAt ≤ now)
    (hfresh : now ≤ history.sourceTimestamp + defaultMaxSampleAge) :
    validateCPUHistory history now window =
      if history.samples.length < 2 then .error (.ofSentinel .insufficientData) else .ok () := by
  obtain ⟨sample, hlast, hstamp⟩ := h.last
  have hsource := h.source_le
  have hepoch := h.source_ge
  have hpos : 0 < Time.unixEpoch := by decide
  have hzero : ∀ t : ℤ, Time.unixEpoch ≤ t → ¬ Time.isZero t = true := by
    intro t ht hzero
    have := beq_iff_eq.mp hzero
    omega
  have hsamples : validateSamples history window none history.samples = .ok () := by
    refine validateSamples_ok history.samples none (fun p hp => absurd hp (by simp))
      h.spaced.spacing fun s hs => ?_
    have hwithin := h.spaced.within s hs
    exact unusableSample_eq_false (h.usable s hs) hwithin.1 hwithin.2
  have hmetadata : ¬ (Time.isZero history.observedAt ∨ Time.isZero history.sourceTimestamp ∨
      now < history.observedAt ∨ history.observedAt < history.sourceTimestamp) := by
    rintro (h | h | h | h)
    · exact hzero _ (by omega) h
    · exact hzero _ hepoch h
    · omega
    · omega
  unfold validateCPUHistory
  rw [hlast]
  dsimp only
  rw [if_neg (not_not.mpr hstamp), if_neg hmetadata, if_neg (by omega), hsamples]
  dsimp only
  rw [if_neg (by omega)]

end Consumer

section Producer

variable {labelSelectorAsSelector : LabelSelector → Except Err Selector}

structure StoredUsable (samples : List (Predictor.Sample ℚ)) : Prop where
  spaced : ∃ low high, SpacedWindow.Spaced Predictor.Sample.timestamp observationSpacing low high
    samples
  usable : ∀ sample ∈ samples, Usable sample

theorem storedUsable_nil : StoredUsable [] where
  spaced := ⟨0, 0, SpacedWindow.Spaced.nil _ _ _ _⟩
  usable _ h := absurd h List.not_mem_nil

def AllUsable (history : MetricsProvider.History) : Prop :=
  ∀ key stored, history.lookup key = some stored → StoredUsable stored.samples

theorem AllUsable.prior {history : MetricsProvider.History} (h : AllUsable history)
    (key : NamespacedName) (uid : UID) : StoredUsable (priorSamples history key uid) := by
  unfold priorSamples
  cases hlookup : history.lookup key with
  | none => exact storedUsable_nil
  | some stored =>
    dsimp only
    split_ifs
    · exact h key stored hlookup
    · exact storedUsable_nil

section Accepted

variable {p : PrometheusProvider} {call : Call} {target : Deployment} {observation : Observation}

theorem Accepts.usable (h : Accepts p.maxSampleAge call target observation)
    (hroster : call.ReadsRoster labelSelectorAsSelector) : Usable observation.sample :=
  ⟨h.sample_nonneg hroster, (observe_ok h.target_eq.2).2.2.2⟩

theorem AllUsable.returned (hp : AllUsable p.history)
    (h : Accepts p.maxSampleAge call target observation)
    (hroster : call.ReadsRoster labelSelectorAsSelector) :
    Acceptable (averageCPUUtilizationPercentage p call).history call.window := by
  obtain ⟨⟨low, high, hspaced⟩, husable⟩ := hp.prior target.metadata.key target.metadata.uid
  have hpos := observationSpacing_pos
  have hwindow := (observe_ok h.target_eq.2).1
  have hsource := h.sourceAt_bounds
  rw [history_of_accepts h]
  refine ⟨hspaced.view _ hpos.le (by omega) observation.sample,
    ⟨observation.sample, SpacedWindow.view_getLast _ _ _ _ _, rfl⟩, fun sample hsample => ?_,
    hsource.1, hsource.2⟩
  rcases SpacedWindow.mem_view _ hsample with rfl | hmem
  · exact Accepts.usable h hroster
  · exact husable sample hmem

/-- What a call stores is usable: old samples, or those of its own observation. -/
theorem AllUsable.step (hp : AllUsable p.history)
    (hroster : call.ReadsRoster labelSelectorAsSelector) :
    AllUsable (averageCPUUtilizationPercentage p call).provider.history := by
  intro key stored hlookup
  rcases stored_cases hlookup with ⟨hbefore, -⟩ | ⟨target, observation, haccepts, rfl, rfl⟩
  · exact hp key stored hbefore
  · obtain ⟨⟨low, high, hspaced⟩, husable⟩ := hp.prior target.metadata.key target.metadata.uid
    have hpos := observationSpacing_pos
    have hwindow := (observe_ok haccepts.target_eq.2).1
    refine ⟨⟨_, _, hspaced.store _ hpos.le (by omega) observation.sample⟩, fun sample hsample => ?_⟩
    rcases SpacedWindow.mem_store _ hsample with rfl | hmem
    · exact Accepts.usable haccepts hroster
    · exact husable sample hmem

end Accepted

theorem runCalls_usable (maxSampleAge : ℤ) (calls : List Call)
    (hrosters : ∀ call ∈ calls, call.ReadsRoster labelSelectorAsSelector) :
    AllUsable (MetricsProvider.runCalls (newPrometheus maxSampleAge) calls).history := by
  induction calls using List.reverseRecOn with
  | nil =>
    intro key stored hlookup
    cases hlookup
  | append_singleton calls call ih =>
    rw [MetricsProvider.runCalls_concat]
    exact (ih fun c hc => hrosters c (List.mem_append_left _ hc)).step (hrosters call (by simp))

/-- Whatever calls came before, a returned history that is not older than the default age is valid
for its window, and only a single sample makes it insufficient. -/
theorem provider_history_acceptable
    (labelSelectorAsSelector : LabelSelector → Except Err Selector) (maxSampleAge : ℤ)
    (calls : List Call) (call : Call)
    (hrosters : ∀ c ∈ call :: calls, c.ReadsRoster labelSelectorAsSelector)
    (herr : (averageCPUUtilizationPercentage
      (MetricsProvider.runCalls (newPrometheus maxSampleAge) calls) call).err = none) (now : ℤ) :
    let history := (averageCPUUtilizationPercentage
      (MetricsProvider.runCalls (newPrometheus maxSampleAge) calls) call).history
    history.observedAt ≤ now → now ≤ history.sourceTimestamp + 45 * second →
      history.samples ≠ [] ∧
      (2 ≤ history.samples.length → validateCPUHistory history now call.window = .ok ()) ∧
      (history.samples.length = 1 →
        validateCPUHistory history now call.window = .error (.ofSentinel .insufficientData)) := by
  intro history hobserved hfresh
  obtain ⟨hcall, hcalls⟩ := List.forall_mem_cons.mp hrosters
  obtain ⟨target, observation, haccepts⟩ := accepts_of_err_none herr
  have hacceptable := (runCalls_usable maxSampleAge calls hcalls).returned haccepts hcall
  have hvalidate := validateCPUHistory_of_acceptable hacceptable hobserved hfresh
  refine ⟨fun hnil => ?_, fun hlength => ?_, fun hlength => ?_⟩
  · obtain ⟨sample, hlast, -⟩ := hacceptable.last
    rw [show (averageCPUUtilizationPercentage
      (MetricsProvider.runCalls (newPrometheus maxSampleAge) calls) call).history.samples = [] from
        hnil] at hlast
    cases hlast
  · exact hvalidate.trans (if_neg (not_lt.mpr hlength))
  · exact hvalidate.trans (if_pos (lt_of_eq_of_lt hlength one_lt_two))

end Producer

/-- The second warmup observation, five seconds after it was made. -/
theorem provider_history_acceptable_warmup :
    validateCPUHistory (averageCPUUtilizationPercentage
        (MetricsProvider.runCalls (newPrometheus 0) [warmupCall 1000]) (warmupCall 1015)).history
      (Time.unixEpoch + 1020 * second) (300 * second) = .ok () := by
  have hfirst : Accepts 0 (warmupCall 1000) safetyDeployment (warmupObservation 1000) :=
    warmupCall_accepts 1000 (by simp)
  have hsecond : Accepts 0 (warmupCall 1015) safetyDeployment (warmupObservation 1015) :=
    warmupCall_accepts 1015 (by simp)
  have hage : (MetricsProvider.runCalls (newPrometheus 0) [warmupCall 1000]).maxSampleAge = 0 :=
    MetricsProvider.runCalls_maxSampleAge _ _
  have haccepts : Accepts
      (MetricsProvider.runCalls (newPrometheus 0) [warmupCall 1000]).maxSampleAge
      (warmupCall 1015) safetyDeployment (warmupObservation 1015) := by
    rw [hage]
    exact hsecond
  have hprior : priorSamples (MetricsProvider.runCalls (newPrometheus 0) [warmupCall 1000]).history
      safetyDeployment.metadata.key safetyDeployment.metadata.uid =
        [(warmupObservation 1000).sample] := by
    refine (priorSamples_of_accepts hfirst).trans ?_
    decide +kernel
  have hhistory : (averageCPUUtilizationPercentage
      (MetricsProvider.runCalls (newPrometheus 0) [warmupCall 1000]) (warmupCall 1015)).history =
        ⟨[(warmupObservation 1000).sample, (warmupObservation 1015).sample],
          (warmupObservation 1015).sample.timestamp, (warmupObservation 1015).sourceAt⟩ := by
    rw [history_of_accepts haccepts, hprior]
    decide +kernel
  have h := provider_history_acceptable matchLabelsSelector 0 [warmupCall 1000] (warmupCall 1015)
    (by simp [warmupCall_readsRoster]) (by rw [averageCPU_of_accepts haccepts])
    (Time.unixEpoch + 1020 * second)
  dsimp only at h
  rw [hhistory] at h ⊢
  exact (h (by decide) (by decide)).2.1 le_rfl

end Autoscaler.Controller
