import Autoscaler.MetricsProvider.FaithfulHistory
import Autoscaler.MetricsProvider.RosterOwnership
import Mathlib.Algebra.Order.BigOperators.Group.List

/-! What an accepted observation says about its value, its source times and its containers. -/
namespace Autoscaler.MetricsProvider

structure ReadFrom (evaluatedAt : ℤ) (entry : ContainerKey × ExpectedContainer)
    (reading : Reading) : Prop where
  cpu_nonneg : 0 ≤ reading.cpu
  request : reading.request = entry.2.request
  pod : reading.source.pod = entry.1.pod
  podUID : reading.source.podUID = entry.2.podUID
  container : reading.source.container = entry.1.container
  runtimeID : reading.source.runtimeID = entry.2.containerID
  epoch_le : Time.unixEpoch ≤ reading.source.sourceTimestamp
  le_evaluated : reading.source.sourceTimestamp ≤ evaluatedAt

/-- An admissible source time, truncated to nanoseconds, is not later than the evaluation. -/
theorem sourceTime_le_of_validValues {rate source : Float64 ℚ} {evaluatedAt : ℤ}
    (h : validValues rate source evaluatedAt = true) : sourceTime source ≤ evaluatedAt := by
  obtain ⟨cpu, sourceSeconds, -, rfl, -, hnonneg, hle⟩ := validValues_finite h
  have hsecond : (0 : ℚ) < second := by decide +kernel
  have hnanos : sourceSeconds * (second : ℚ) ≤ ((evaluatedAt - Time.unixEpoch : ℤ) : ℚ) :=
    (le_div_iff₀ hsecond).mp hle
  unfold sourceTime truncateToInt
  rw [Float64.exact_finite, if_neg (not_lt.mpr (mul_nonneg hnonneg hsecond.le))]
  have hfloor : ⌊sourceSeconds * (second : ℚ)⌋ ≤ evaluatedAt - Time.unixEpoch :=
    Int.cast_le.mp ((Int.floor_le _).trans hnanos)
  omega

theorem readFrom_of_readContainer {maxAge : ℤ} {rates sources : Vector} {evaluatedAt : ℤ}
    {entry : ContainerKey × ExpectedContainer} {reading : Reading}
    (h : readContainer maxAge rates sources evaluatedAt entry = .ok reading) :
    ReadFrom evaluatedAt entry reading := by
  rcases readContainer_cases maxAge rates sources evaluatedAt entry with
    ⟨s, e, -, hread, -⟩ | ⟨rate, source, -, hvalid, hread⟩
  · rw [h] at hread
    cases hread
  · rw [h] at hread
    cases hread
    have hvalues := validValues_of_validSamples hvalid
    obtain ⟨cpu, sourceSeconds, hrate, -, hcpu, -⟩ := validValues_finite hvalues
    refine ⟨?_, rfl, rfl, rfl, rfl, rfl, sourceTime_ge_of_validValues hvalues,
      sourceTime_le_of_validValues hvalues⟩
    rw [hrate]
    exact hcpu

structure Observed (roster : TargetRoster) (evaluatedAt : ℤ) (result : Utilization) : Prop where
  nonneg : (∀ entry ∈ roster.containers, 0 < entry.2.request) → 0 ≤ result.value
  oldest : IsLeast {t | ∃ c ∈ result.containers, c.sourceTimestamp = t} result.oldest
  times : ∀ c ∈ result.containers,
    Time.unixEpoch ≤ c.sourceTimestamp ∧ c.sourceTimestamp ≤ evaluatedAt
  identities : ∀ c ∈ result.containers, ∃ entry ∈ roster.containers, c.pod = entry.1.pod ∧
    c.podUID = entry.2.podUID ∧ c.container = entry.1.container ∧
    c.runtimeID = entry.2.containerID
  distinct : (result.containers.map fun c => (c.pod, c.container)).Nodup

theorem names_nodup (roster : TargetRoster) :
    (roster.containers.map fun entry => (entry.1.pod, entry.1.container)).Nodup := by
  refine List.Nodup.map_on ?_ (List.Nodup.of_map _ roster.nodupKeys)
  intro a ha b hb heq
  obtain ⟨hpod, hcontainer⟩ := Prod.mk.inj heq
  exact roster.eq_of_names ha hb hpod hcontainer

section Readings

variable {evaluatedAt : ℤ} {entries : Containers} {readings : List Reading}

theorem exists_entry (hread : List.Forall₂ (ReadFrom evaluatedAt) entries readings) :
    ∀ r ∈ readings, ∃ entry ∈ entries, ReadFrom evaluatedAt entry r := by
  intro r hr
  obtain ⟨n, hn, rfl⟩ := List.mem_iff_getElem.mp hr
  have hn' : n < entries.length := hread.length_eq ▸ hn
  exact ⟨_, List.getElem_mem hn', hread.get hn' hn⟩

theorem names_of_readings (hread : List.Forall₂ (ReadFrom evaluatedAt) entries readings) :
    (readings.map fun r => (r.source.pod, r.source.container)) =
      entries.map fun entry => (entry.1.pod, entry.1.container) := by
  induction hread with
  | nil => rfl
  | cons hr _ ih => rw [List.map_cons, List.map_cons, hr.pod, hr.container, ih]

/-- Nonnegative rates over positive requests. -/
theorem value_nonneg (hread : List.Forall₂ (ReadFrom evaluatedAt) entries readings)
    (hpos : ∀ entry ∈ entries, 0 < entry.2.request) :
    0 ≤ 100 * (readings.foldl Aggregate.add .empty).totalCPU /
      (readings.foldl Aggregate.add .empty).totalRequest := by
  have hcpu : 0 ≤ (readings.foldl Aggregate.add .empty).totalCPU := by
    rw [Aggregate.foldl_totalCPU]
    refine add_nonneg le_rfl (List.sum_nonneg ?_)
    intro cpu hcpu
    obtain ⟨r, hr, rfl⟩ := List.mem_map.mp hcpu
    obtain ⟨entry, -, hfrom⟩ := exists_entry hread r hr
    exact hfrom.cpu_nonneg
  have hrequest : 0 ≤ (readings.foldl Aggregate.add .empty).totalRequest := by
    rw [Aggregate.foldl_totalRequest]
    refine add_nonneg le_rfl (List.sum_nonneg ?_)
    intro request hrequest
    obtain ⟨r, hr, rfl⟩ := List.mem_map.mp hrequest
    obtain ⟨entry, hentry, hfrom⟩ := exists_entry hread r hr
    rw [hfrom.request]
    exact (hpos entry hentry).le
  exact div_nonneg (mul_nonneg (by norm_num) hcpu) hrequest

theorem mem_containers (readings : List Reading) (c : ContainerSource) :
    c ∈ (readings.foldl Aggregate.add .empty).containers.insertionSort containerOrder ↔
      ∃ r ∈ readings, r.source = c := by
  rw [(List.perm_insertionSort _ _).mem_iff, Aggregate.foldl_containers]
  simp [Aggregate.empty]

theorem oldest_isLeast (hread : List.Forall₂ (ReadFrom evaluatedAt) entries readings)
    (hne : readings ≠ []) :
    IsLeast {t | ∃ c ∈ (readings.foldl Aggregate.add .empty).containers.insertionSort
      containerOrder, c.sourceTimestamp = t} (readings.foldl Aggregate.add .empty).oldest := by
  have hepoch : 0 < Time.unixEpoch := by decide
  have hleast := Aggregate.foldl_oldest readings hne fun r hr => by
    obtain ⟨entry, -, hfrom⟩ := exists_entry hread r hr
    have := hfrom.epoch_le
    omega
  have hset : {t | ∃ c ∈ (readings.foldl Aggregate.add .empty).containers.insertionSort
      containerOrder, c.sourceTimestamp = t} =
        {t | ∃ r ∈ readings, r.source.sourceTimestamp = t} := by
    ext t
    constructor
    · rintro ⟨c, hc, rfl⟩
      obtain ⟨r, hr, rfl⟩ := (mem_containers readings c).mp hc
      exact ⟨r, hr, rfl⟩
    · rintro ⟨r, hr, rfl⟩
      exact ⟨r.source, (mem_containers readings _).mpr ⟨r, hr, rfl⟩, rfl⟩
  rw [hset]
  exact hleast

end Readings

theorem observed_of_readings {roster : TargetRoster} {evaluatedAt : ℤ} {readings : List Reading}
    (hread : List.Forall₂ (ReadFrom evaluatedAt) roster.containers readings)
    {result : Utilization} (h : summarize readings = .ok result) :
    Observed roster evaluatedAt result := by
  unfold summarize at h
  dsimp only at h
  split_ifs at h with hzero
  cases h
  have hne : readings ≠ [] := by
    rintro rfl
    exact hzero rfl
  refine ⟨value_nonneg hread, oldest_isLeast hread hne, fun c hc => ?_, fun c hc => ?_, ?_⟩
  · obtain ⟨r, hr, rfl⟩ := (mem_containers readings c).mp hc
    obtain ⟨entry, -, hfrom⟩ := exists_entry hread r hr
    exact ⟨hfrom.epoch_le, hfrom.le_evaluated⟩
  · obtain ⟨r, hr, rfl⟩ := (mem_containers readings c).mp hc
    obtain ⟨entry, hentry, hfrom⟩ := exists_entry hread r hr
    exact ⟨entry, hentry, hfrom.pod, hfrom.podUID, hfrom.container, hfrom.runtimeID⟩
  · have hperm := (List.perm_insertionSort containerOrder
      (readings.foldl Aggregate.add .empty).containers).map fun c => (c.pod, c.container)
    refine hperm.nodup_iff.mpr ?_
    rw [Aggregate.foldl_containers]
    change ((readings.map Reading.source).map fun c => (c.pod, c.container)).Nodup
    rw [List.map_map]
    exact names_of_readings hread ▸ names_nodup roster

/-- A successful aggregation is an observation of its roster. -/
theorem observed_of_utilization {maxSampleAge : ℤ} {roster : TargetRoster}
    {rates sources : Vector} {evaluatedAt : ℤ} {result : Utilization}
    (h : utilization maxSampleAge roster rates sources evaluatedAt = .ok result) :
    Observed roster evaluatedAt result := by
  have hrates : rates ≠ [] := by
    rintro rfl
    cases h
  have hsources : sources ≠ [] := by
    rintro rfl
    simp [utilization] at h
  rw [utilization_eq _ _ _ _ _ hrates hsources] at h
  cases hcollect : FirstFailure.collect (readContainer (effectiveMaxSampleAge maxSampleAge) rates
      sources evaluatedAt) roster.containers with
  | error e => rw [hcollect] at h; cases h
  | ok readings =>
    rw [hcollect] at h
    have hall := (FirstFailure.collect_ok_iff _ _ _).mp hcollect
    exact observed_of_readings (hall.imp fun _ _ hread => readFrom_of_readContainer hread) h

def Call.ReadsRoster (labelSelectorAsSelector : LabelSelector → Except Err Selector)
    (call : Call) : Prop :=
  ∀ target, call.target = some target → ∃ snapshot,
    call.readings.roster = readRoster labelSelectorAsSelector snapshot target

section Accepted

variable {maxSampleAge : ℤ} {call : Call} {target : Deployment} {observation : Observation}

theorem Accepts.observed (h : Accepts maxSampleAge call target observation) :
    ∃ roster value, call.readings.roster = .ok roster ∧
      observation.sample = ⟨Time.truncate call.readings.now millisecond, .finite value⟩ ∧
      Observed roster (Time.truncate call.readings.now millisecond)
        ⟨value, observation.sourceAt, observation.containers⟩ := by
  obtain ⟨-, -, roster, rates, sources, result, hroster, -, -, hresult, -, rfl⟩ :=
    observe_inv h.target_eq.2
  exact ⟨roster, result.value, hroster, rfl, observed_of_utilization hresult⟩

theorem Accepts.sample_nonneg {labelSelectorAsSelector : LabelSelector → Except Err Selector}
    (h : Accepts maxSampleAge call target observation)
    (hroster : call.ReadsRoster labelSelectorAsSelector) :
    ∃ value, observation.sample.value = .finite value ∧ 0 ≤ value := by
  obtain ⟨roster, value, hread, hsample, hobserved⟩ := h.observed
  obtain ⟨snapshot, hsnapshot⟩ := hroster target h.target_eq.1
  rw [hread] at hsnapshot
  refine ⟨value, by rw [hsample], hobserved.nonneg fun entry hentry => ?_⟩
  exact (readRoster_entries hsnapshot.symm entry hentry).1

theorem Accepts.sourceAt_bounds (h : Accepts maxSampleAge call target observation) :
    Time.unixEpoch ≤ observation.sourceAt ∧
      observation.sourceAt ≤ observation.sample.timestamp := by
  obtain ⟨roster, value, -, hsample, hobserved⟩ := h.observed
  obtain ⟨c, hc, holdest⟩ := hobserved.oldest.1
  have htimes := hobserved.times c hc
  rw [holdest] at htimes
  rw [hsample]
  exact htimes

end Accepted

/-! The roster of the warmup observations, in a snapshot with one Pod of the target. -/

/-- `metav1.LabelSelectorAsSelector` of a selector without expressions. -/
def matchLabelsSelector (labelSelector : LabelSelector) : Except Err Selector :=
  .ok ⟨decide (labelSelector.matchLabels = ∅), fun labels =>
    decide (∀ key ∈ labelSelector.matchLabels.keys,
      labels.lookup key = labelSelector.matchLabels.lookup key)⟩

def warmupLabels : Labels := [⟨"app", "web"⟩].toFinmap

def warmupPod : Pod where
  metadata := ⟨"test", "web-a", "uid-a", 1, 1, none⟩
  labels := warmupLabels
  ownerReferences := [⟨"ReplicaSet", "web-one", "rs-one", some true⟩]
  hasPodResources := false
  initContainers := []
  containers := [⟨"app", .finite (1 / 2), by decide⟩]
  phase := .running
  conditions := [⟨"Ready", .true⟩]
  containerStatuses := [⟨"app", true, true, "containerd://cid-a"⟩]
  named := by decide
  nodupContainers := by decide

def warmupSnapshot : Snapshot where
  deployments _ := .ok ⟨safetyDeployment.metadata, some ⟨warmupLabels, []⟩⟩
  pods := [warmupPod]
  listErr := none
  replicaSets _ := .ok ⟨"rs-one", [⟨"Deployment", "web", "deployment-one", some true⟩]⟩
  nodupPods := by decide

theorem warmupSnapshot_roster :
    readRoster matchLabelsSelector warmupSnapshot safetyDeployment = .ok warmupRoster := by
  have hlist : listPods matchLabelsSelector warmupSnapshot safetyDeployment =
      .ok (warmupSnapshot.list ⟨safetyDeployment.metadata, some ⟨warmupLabels, []⟩⟩
        ⟨false, fun labels => decide (∀ key ∈ warmupLabels.keys,
          labels.lookup key = warmupLabels.lookup key)⟩) := rfl
  rw [readRoster, hlist]
  exact rosterOf_eq _ (by decide +kernel) rfl (by decide)

theorem warmupCall_readsRoster (seconds : ℤ) :
    (warmupCall seconds).ReadsRoster matchLabelsSelector := by
  rintro target ⟨⟩
  exact ⟨warmupSnapshot, warmupSnapshot_roster.symm⟩

end Autoscaler.MetricsProvider
