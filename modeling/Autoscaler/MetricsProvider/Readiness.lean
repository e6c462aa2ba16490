import Autoscaler.MetricsProvider.FaithfulHistory

/-! Frequent calls do not postpone the second sample of a target. -/
namespace Autoscaler.MetricsProvider

def observationTime (maxSampleAge : ℤ) (key : NamespacedName) (call : Call) : Option ℤ :=
  match attempt maxSampleAge call with
  | .error _ => none
  | .ok (target, observation) =>
    if target.metadata.key = key then some observation.sample.timestamp else none

def observationTimes (maxSampleAge : ℤ) (key : NamespacedName) (calls : List Call) : List ℤ :=
  calls.filterMap (observationTime maxSampleAge key)

theorem observationTimes_append (maxSampleAge : ℤ) (key : NamespacedName)
    (calls after : List Call) :
    observationTimes maxSampleAge key (calls ++ after) =
      observationTimes maxSampleAge key calls ++ observationTimes maxSampleAge key after :=
  List.filterMap_append

theorem observationTime_of_accepts {maxSampleAge : ℤ} {call : Call} {target : Deployment}
    {observation : Observation} (h : Accepts maxSampleAge call target observation) :
    observationTime maxSampleAge target.metadata.key call = some observation.sample.timestamp := by
  have hattempt : attempt maxSampleAge call = .ok (target, observation) := h
  simp [observationTime, hattempt]

theorem accepts_of_observationTime {maxSampleAge : ℤ} {key : NamespacedName} {call : Call} {t : ℤ}
    (h : observationTime maxSampleAge key call = some t) :
    ∃ target observation, Accepts maxSampleAge call target observation ∧
      target.metadata.key = key ∧ observation.sample.timestamp = t := by
  unfold observationTime at h
  cases hattempt : attempt maxSampleAge call with
  | error failure =>
    rw [hattempt] at h
    cases h
  | ok accepted =>
    obtain ⟨target, observation⟩ := accepted
    rw [hattempt] at h
    dsimp only at h
    split_ifs at h with hkey
    exact ⟨target, observation, hattempt, hkey, Option.some.inj h⟩

/-- The call records another target, for which the entry of this key gives way. -/
def Evicts (p : PrometheusProvider) (call : Call) (key : NamespacedName) : Prop :=
  ∃ target observation, Accepts p.maxSampleAge call target observation ∧
    target.metadata.key ≠ key ∧
    (openHistory p.history call.order target).1.lookup key ≠ p.history.lookup key

/-- Observations of one target come at least every `gap`, in calls with a long enough window, and
no call takes its history away. -/
structure FrequentRun (p : PrometheusProvider) (key : NamespacedName) (uid : UID) (gap : ℤ)
    (calls : List Call) : Prop where
  incarnation : ∀ call ∈ calls, ∀ target observation,
    Accepts p.maxSampleAge call target observation → target.metadata.key = key →
      target.metadata.uid = uid ∧ 30 * second + gap ≤ call.window
  gaps : (observationTimes p.maxSampleAge key calls).IsChain fun s t => s < t ∧ t ≤ s + gap
  kept : ∀ call ∈ calls, ¬ Discards p.maxSampleAge call key
  resident : ∀ before call after, calls = before ++ call :: after →
    ¬ Evicts (runCalls p before) call key

section Run

variable {p : PrometheusProvider} {key : NamespacedName} {uid : UID} {gap : ℤ} {calls : List Call}
  {call : Call} {target : Deployment} {observation : Observation}

theorem FrequentRun.init {after : List Call}
    (h : FrequentRun p key uid gap (calls ++ after)) : FrequentRun p key uid gap calls where
  incarnation call hcall := h.incarnation call (List.mem_append_left after hcall)
  gaps := by
    have hgaps := h.gaps
    rw [observationTimes_append] at hgaps
    exact hgaps.left_of_append
  kept call hcall := h.kept call (List.mem_append_left after hcall)
  resident before call rest hsplit := h.resident before call (rest ++ after) (by simp [hsplit])

/-- A call that accepts nothing for the key, and neither discards nor evicts it, leaves it. -/
theorem lookup_averageCPU_of_none (hnone : observationTime p.maxSampleAge key call = none)
    (hkept : ¬ Discards p.maxSampleAge call key) (hresident : ¬ Evicts p call key) :
    (averageCPUUtilizationPercentage p call).provider.history.lookup key =
      p.history.lookup key := by
  cases hattempt : attempt p.maxSampleAge call with
  | error failure =>
    obtain ⟨err, gateHeld⟩ := failure
    rw [averageCPU_of_error hattempt]
    cases htarget : call.target with
    | none => rfl
    | some target =>
      unfold deferredDiscard
      dsimp only
      split_ifs with hcond
      · obtain ⟨hinvalid, rfl⟩ := Bool.and_eq_true_iff.mp hcond
        have hne : key ≠ target.metadata.key := fun hkey =>
          hkept ⟨err, target, hattempt, htarget, hkey.symm, hinvalid⟩
        exact Finmap.lookup_erase_ne hne
      · rfl
  | ok accepted =>
    obtain ⟨target, observation⟩ := accepted
    have haccept : Accepts p.maxSampleAge call target observation := hattempt
    have hne : target.metadata.key ≠ key := by
      rintro rfl
      rw [observationTime_of_accepts haccept] at hnone
      cases hnone
    have hopen : (openHistory p.history call.order target).1.lookup key =
        p.history.lookup key := by
      by_contra hlookup
      exact hresident ⟨target, observation, haccept, hne, hlookup⟩
    rw [averageCPU_of_accepts haccept, record_eq]
    dsimp only
    rw [Finmap.lookup_insert_of_ne _ hne.symm, hopen]

theorem observationTimes_concat (maxSampleAge : ℤ) (key : NamespacedName) (calls : List Call)
    (call : Call) :
    observationTimes maxSampleAge key (calls ++ [call]) =
      observationTimes maxSampleAge key calls ++
        (observationTime maxSampleAge key call).toList := by
  rw [observationTimes_append]
  cases htime : observationTime maxSampleAge key call <;> simp [observationTimes, htime]

theorem FrequentRun.window (hrun : FrequentRun p key uid gap calls) (hcall : call ∈ calls)
    (haccept : Accepts p.maxSampleAge call target observation)
    (hkey : target.metadata.key = key) :
    observationSpacing + observationSpacing + gap ≤ call.window := by
  have hwindow := (hrun.incarnation call hcall target observation haccept hkey).2
  have hspacing : 30 * second = observationSpacing + observationSpacing := by decide
  rwa [hspacing] at hwindow

/-- Anchored between the first and the last observation of the run, when it has one. -/
def AnchoredRun (p : PrometheusProvider) (key : NamespacedName) (uid : UID) (gap : ℤ)
    (calls : List Call) : Prop :=
  ∀ first last, (observationTimes p.maxSampleAge key calls).head? = some first →
    (observationTimes p.maxSampleAge key calls).getLast? = some last →
      SpacedWindow.Anchored Predictor.Sample.timestamp observationSpacing gap first last
        (priorSamples (runCalls p calls).history key uid)

/-- The observation is the first one of the run, or it comes soon after the last anchored one. -/
theorem FrequentRun.first_or_soon (hrun : FrequentRun p key uid gap (calls ++ [call]))
    (hanchored : AnchoredRun p key uid gap calls) {first t : ℤ}
    (hfirst : (observationTimes p.maxSampleAge key (calls ++ [call])).head? = some first)
    (htime : observationTime p.maxSampleAge key call = some t) :
    t = first ∨ ∃ last, last < t ∧ t ≤ last + gap ∧
      SpacedWindow.Anchored Predictor.Sample.timestamp observationSpacing gap first last
        (priorSamples (runCalls p calls).history key uid) := by
  have hgaps := hrun.gaps
  rw [observationTimes_concat, htime, Option.toList_some] at hfirst hgaps
  cases hlast : (observationTimes p.maxSampleAge key calls).getLast? with
  | none =>
    rw [List.getLast?_eq_none_iff.mp hlast] at hfirst
    exact .inl (Option.some.inj hfirst)
  | some last =>
    have hne : observationTimes p.maxSampleAge key calls ≠ [] := by
      intro hnil
      rw [hnil] at hlast
      cases hlast
    rw [List.head?_append_of_ne_nil _ hne] at hfirst
    have hgap : last < t ∧ t ≤ last + gap :=
      (List.isChain_append.mp hgaps).2.2 last hlast t rfl
    exact .inr ⟨last, hgap.1, hgap.2, hanchored first last hfirst hlast⟩

/-- One more call keeps the target anchored. -/
theorem AnchoredRun.concat (hanchored : AnchoredRun p key uid gap calls)
    (hrun : FrequentRun p key uid gap (calls ++ [call])) :
    AnchoredRun p key uid gap (calls ++ [call]) := by
  intro first last hfirst hlast
  have hage : (runCalls p calls).maxSampleAge = p.maxSampleAge := runCalls_maxSampleAge p calls
  rw [runCalls_concat]
  cases htime : observationTime p.maxSampleAge key call with
  | none =>
    have hkept : ¬ Discards p.maxSampleAge call key := hrun.kept call (by simp)
    have hresident : ¬ Evicts (runCalls p calls) call key := hrun.resident calls call [] rfl
    have hlookup : (averageCPUUtilizationPercentage (runCalls p calls) call).provider.history.lookup
        key = (runCalls p calls).history.lookup key :=
      lookup_averageCPU_of_none (by rwa [hage]) (by rwa [hage]) hresident
    rw [observationTimes_concat, htime, Option.toList_none, List.append_nil] at hfirst hlast
    have hbefore := hanchored first last hfirst hlast
    unfold priorSamples at hbefore ⊢
    rwa [hlookup]
  | some t =>
    obtain ⟨target, observation, haccept, rfl, rfl⟩ := accepts_of_observationTime htime
    obtain ⟨rfl, -⟩ := hrun.incarnation call (by simp) target observation haccept rfl
    have hwindow := hrun.window (by simp) haccept rfl
    have hend : last = observation.sample.timestamp := by
      rw [observationTimes_concat, htime, Option.toList_some, List.getLast?_concat] at hlast
      exact (Option.some.inj hlast).symm
    rw [priorSamples_of_accepts (by rwa [hage]), hend]
    rcases hrun.first_or_soon hanchored hfirst htime with hstart | ⟨prev, hlater, hsoon, hprev⟩
    · exact SpacedWindow.anchored_first _ observationSpacing_pos hstart
    · exact hprev.store _ hlater hsoon hwindow

theorem FrequentRun.anchored (hrun : FrequentRun p key uid gap calls) :
    AnchoredRun p key uid gap calls := by
  induction calls using List.reverseRecOn with
  | nil =>
    intro first last hfirst
    cases hfirst
  | append_singleton calls call ih => exact (ih hrun.init).concat hrun

end Run

/-- In a run of frequent observations every one that comes a spacing after the first returns at
least two samples. -/
theorem frequent_observations_ready (p : PrometheusProvider) (key : NamespacedName) (uid : UID)
    (gap : ℤ) (calls : List Call) (hrun : FrequentRun p key uid gap calls) (start : ℤ)
    (hstart : (observationTimes p.maxSampleAge key calls).head? = some start) :
    ∀ before call after, calls = before ++ call :: after →
      ∀ t, observationTime p.maxSampleAge key call = some t → start + 15 * second ≤ t →
        2 ≤ (averageCPUUtilizationPercentage (runCalls p before) call).history.samples.length := by
  intro before call after hsplit t htime hready
  have hupTo : calls = (before ++ [call]) ++ after := by simp [hsplit]
  rw [hupTo] at hrun hstart
  have hage : (runCalls p before).maxSampleAge = p.maxSampleAge := runCalls_maxSampleAge p before
  have hrun' : FrequentRun p key uid gap (before ++ [call]) := hrun.init
  have hfirst : (observationTimes p.maxSampleAge key (before ++ [call])).head? = some start := by
    have hne : observationTimes p.maxSampleAge key (before ++ [call]) ≠ [] := by
      rw [observationTimes_concat, htime]
      simp
    rw [observationTimes_append] at hstart
    rwa [List.head?_append_of_ne_nil _ hne] at hstart
  obtain ⟨target, observation, haccept, rfl, rfl⟩ := accepts_of_observationTime htime
  obtain ⟨rfl, -⟩ := hrun'.incarnation call (by simp) target observation haccept rfl
  have hwindow := hrun'.window (by simp) haccept rfl
  have hpos : 0 < 15 * second := by decide
  rw [history_of_accepts (by rwa [hage])]
  rcases hrun'.first_or_soon hrun'.init.anchored hfirst htime with
    heq | ⟨last, hlater, hsoon, hlast⟩
  · omega
  · exact hlast.two_le_length_view _ hlater hsoon hwindow hready

/-! Four observations of one container, two of them too early for an anchor of their own. -/

def frequentSeconds : List ℤ := [1000, 1010, 1018, 1026]

theorem frequentCall_accepts : ∀ seconds ∈ frequentSeconds,
    Accepts 0 (warmupCall seconds) safetyDeployment (warmupObservation seconds) := by
  unfold Accepts
  decide +kernel

theorem frequentCalls_run : FrequentRun (newPrometheus 0) safetyDeployment.metadata.key
    safetyDeployment.metadata.uid (10 * second) (frequentSeconds.map warmupCall) where
  incarnation call hcall target observation haccept _ := by
    obtain ⟨seconds, hseconds, rfl⟩ := List.mem_map.mp hcall
    have hfixture : attempt 0 (warmupCall seconds) =
      .ok (safetyDeployment, warmupObservation seconds) := frequentCall_accepts seconds hseconds
    have haccept' : attempt 0 (warmupCall seconds) = .ok (target, observation) := haccept
    rw [hfixture] at haccept'
    cases haccept'
    have hwindow : 30 * second + 10 * second ≤ 300 * second := by decide
    exact ⟨rfl, hwindow⟩
  gaps := by
    have htimes : observationTimes 0 safetyDeployment.metadata.key
        (frequentSeconds.map warmupCall) =
          frequentSeconds.map fun seconds => Time.unixEpoch + seconds * second := by
      rw [observationTimes, List.filterMap_map, ← List.filterMap_eq_map]
      refine List.filterMap_congr fun seconds hseconds => ?_
      exact observationTime_of_accepts (frequentCall_accepts seconds hseconds)
    change List.IsChain _ (observationTimes 0 _ _)
    rw [htimes]
    decide
  kept call hcall := by
    obtain ⟨seconds, hseconds, rfl⟩ := List.mem_map.mp hcall
    exact Accepts.not_discards (frequentCall_accepts seconds hseconds) _
  resident before call after hsplit := by
    rintro ⟨target, observation, haccept, hne, -⟩
    have hcall : call ∈ frequentSeconds.map warmupCall := by simp [hsplit]
    obtain ⟨seconds, hseconds, rfl⟩ := List.mem_map.mp hcall
    have htarget : safetyDeployment = target := Option.some.inj haccept.target_eq.1
    exact hne (by rw [htarget])

theorem frequent_observations_ready_anchored :
    2 ≤ (averageCPUUtilizationPercentage (runCalls (newPrometheus 0)
      ([1000, 1010, 1018].map warmupCall)) (warmupCall 1026)).history.samples.length := by
  have htime := observationTime_of_accepts (frequentCall_accepts 1026 (by decide))
  refine frequent_observations_ready (newPrometheus 0) safetyDeployment.metadata.key
    safetyDeployment.metadata.uid (10 * second) (frequentSeconds.map warmupCall) frequentCalls_run
    (Time.unixEpoch + 1000 * second) ?_ _ (warmupCall 1026) [] rfl _ htime ?_
  · have hfirst := observationTime_of_accepts (frequentCall_accepts 1000 (by decide))
    change (List.filterMap (observationTime 0 _) (warmupCall 1000 :: _)).head? = _
    rw [List.filterMap_cons_some hfirst]
    rfl
  · decide

end Autoscaler.MetricsProvider
