import Autoscaler.MetricsProvider.Samples

/-! What the iteration order of a roster's container map can change about an observation. -/
namespace Autoscaler.MetricsProvider

def SameOutcome : Except Err Utilization → Except Err Utilization → Prop
  | .ok u, .ok u' => u = u'
  | .error e, .error e' => e.wraps = e'.wraps
  | _, _ => False

namespace Aggregate

theorem foldl_totalCPU (readings : List Reading) (aggregate : Aggregate) :
    (readings.foldl add aggregate).totalCPU =
      aggregate.totalCPU + (readings.map Reading.cpu).sum := by
  induction readings generalizing aggregate with
  | nil => simp
  | cons r rest ih => simp [ih, add, add_assoc]

theorem foldl_totalRequest (readings : List Reading) (aggregate : Aggregate) :
    (readings.foldl add aggregate).totalRequest =
      aggregate.totalRequest + (readings.map Reading.request).sum := by
  induction readings generalizing aggregate with
  | nil => simp
  | cons r rest ih => simp [ih, add, add_assoc]

theorem foldl_containers (readings : List Reading) (aggregate : Aggregate) :
    (readings.foldl add aggregate).containers =
      aggregate.containers ++ readings.map Reading.source := by
  induction readings generalizing aggregate with
  | nil => simp
  | cons r rest ih => simp [ih, add]

/-- Once set, the oldest time is the least of itself and the later source times. -/
theorem foldl_oldest_of_ne_zero (readings : List Reading) (aggregate : Aggregate)
    (hset : aggregate.oldest ≠ 0) (hsources : ∀ r ∈ readings, r.source.sourceTimestamp ≠ 0) :
    IsLeast {t | t = aggregate.oldest ∨ ∃ r ∈ readings, r.source.sourceTimestamp = t}
      (readings.foldl add aggregate).oldest := by
  induction readings generalizing aggregate with
  | nil => exact ⟨.inl rfl, by rintro t (rfl | ⟨r, hr, -⟩); exacts [le_rfl, absurd hr (by simp)]⟩
  | cons r rest ih =>
    have hr := hsources r List.mem_cons_self
    have hzero : Time.isZero aggregate.oldest = false := by simpa [Time.isZero] using hset
    have hadd : (aggregate.add r).oldest = min r.source.sourceTimestamp aggregate.oldest := by
      unfold add
      by_cases hlt : r.source.sourceTimestamp < aggregate.oldest
      · simp [hlt, min_eq_left hlt.le]
      · simp [hzero, hlt, min_eq_right (not_lt.mp hlt)]
    have hadd0 : (aggregate.add r).oldest ≠ 0 := by
      rw [hadd]
      rcases min_choice r.source.sourceTimestamp aggregate.oldest with h | h <;> rw [h] <;>
        assumption
    have hleast := ih (aggregate.add r) hadd0
      (fun r' hr' => hsources r' (List.mem_cons_of_mem _ hr'))
    rw [List.foldl_cons]
    constructor
    · rcases hleast.1 with h | ⟨r', hr', h⟩
      · rcases min_choice r.source.sourceTimestamp aggregate.oldest with hm | hm
        · exact .inr ⟨r, List.mem_cons_self, by rw [h, hadd, hm]⟩
        · exact .inl (by rw [h, hadd, hm])
      · exact .inr ⟨r', List.mem_cons_of_mem _ hr', h⟩
    · have hmin := hleast.2 (.inl rfl)
      rw [hadd] at hmin
      rintro t (rfl | ⟨r', hr', rfl⟩)
      · exact hmin.trans (min_le_right _ _)
      · rcases List.mem_cons.mp hr' with rfl | hr'
        · exact hmin.trans (min_le_left _ _)
        · exact hleast.2 (.inr ⟨r', hr', rfl⟩)

/-- The oldest time of a nonempty aggregate is the least of the source times. -/
theorem foldl_oldest (readings : List Reading) (hne : readings ≠ [])
    (hsources : ∀ r ∈ readings, r.source.sourceTimestamp ≠ 0) :
    IsLeast {t | ∃ r ∈ readings, r.source.sourceTimestamp = t}
      (readings.foldl add empty).oldest := by
  cases readings with
  | nil => exact absurd rfl hne
  | cons r rest =>
    have hadd : (empty.add r).oldest = r.source.sourceTimestamp := by
      simp [add, empty, Time.isZero]
    have hleast := foldl_oldest_of_ne_zero rest (empty.add r)
      (by rw [hadd]; exact hsources r List.mem_cons_self)
      (fun r' hr' => hsources r' (List.mem_cons_of_mem _ hr'))
    have hset : {t | ∃ r' ∈ r :: rest, r'.source.sourceTimestamp = t} =
        {t | t = (empty.add r).oldest ∨ ∃ r' ∈ rest, r'.source.sourceTimestamp = t} := by
      ext t
      simp [hadd, eq_comm]
    rw [hset]
    exact hleast

end Aggregate

/-- What `utilization` makes of the readings of all containers. -/
def summarize (readings : List Reading) : Except Err Utilization :=
  let aggregate := readings.foldl Aggregate.add .empty
  if aggregate.totalRequest = 0 then
    .error (.wrap .invalidData "CPU aggregate is not finite")
  else
    .ok ⟨100 * aggregate.totalCPU / aggregate.totalRequest, aggregate.oldest,
      aggregate.containers.insertionSort containerOrder⟩

theorem loop_eq (maxAge : ℤ) (rates sources : Vector) (evaluatedAt : ℤ)
    (entries : List (ContainerKey × ExpectedContainer)) (aggregate : Aggregate) :
    utilization.loop maxAge rates sources evaluatedAt entries aggregate =
      match FirstFailure.collect (readContainer maxAge rates sources evaluatedAt) entries with
      | .error e => .error e
      | .ok readings => .ok (readings.foldl Aggregate.add aggregate) := by
  induction entries generalizing aggregate with
  | nil => rfl
  | cons entry rest ih =>
    unfold utilization.loop FirstFailure.collect
    cases readContainer maxAge rates sources evaluatedAt entry with
    | error e => rfl
    | ok reading =>
      have hrest := ih (aggregate.add reading)
      simp only [bind, Except.bind]
      rw [hrest]
      cases FirstFailure.collect (readContainer maxAge rates sources evaluatedAt) rest <;> rfl

theorem utilization_eq (maxSampleAge : ℤ) (roster : TargetRoster) (rates sources : Vector)
    (evaluatedAt : ℤ) (hrates : rates ≠ []) (hsources : sources ≠ []) :
    utilization maxSampleAge roster rates sources evaluatedAt =
      match FirstFailure.collect (readContainer (effectiveMaxSampleAge maxSampleAge) rates sources
        evaluatedAt) roster.containers with
      | .error e => .error e
      | .ok readings => summarize readings := by
  have hne : (rates.isEmpty || sources.isEmpty) = false := by simp [hrates, hsources]
  unfold utilization
  rw [hne, loop_eq]
  cases FirstFailure.collect (readContainer (effectiveMaxSampleAge maxSampleAge) rates sources
    evaluatedAt) roster.containers <;> rfl

/-- A success has readings, each of them made not before the Unix epoch. -/
theorem unixEpoch_le_of_utilization {maxSampleAge : ℤ} {roster : TargetRoster}
    {rates sources : Vector} {evaluatedAt : ℤ} {result : Utilization}
    (h : utilization maxSampleAge roster rates sources evaluatedAt = .ok result) :
    Time.unixEpoch ≤ evaluatedAt := by
  have hrates : rates ≠ [] := by
    rintro rfl
    cases h
  have hsources : sources ≠ [] := by
    rintro rfl
    simp [utilization] at h
  rw [utilization_eq _ _ _ _ _ hrates hsources] at h
  cases hcollect : FirstFailure.collect (readContainer (effectiveMaxSampleAge maxSampleAge) rates
      sources evaluatedAt) roster.containers with
  | error e =>
    rw [hcollect] at h
    cases h
  | ok readings =>
    have hall := (FirstFailure.collect_ok_iff _ _ _).mp hcollect
    rw [hcollect] at h
    generalize roster.containers = entries at hall
    cases hall with
    | nil => simp [summarize, Aggregate.empty] at h
    | cons hentry _ =>
      rcases readContainer_cases (effectiveMaxSampleAge maxSampleAge) rates sources evaluatedAt _
        with ⟨s, e, -, hread, -⟩ | ⟨rate, source, -, hvalid, -⟩
      · rw [hentry] at hread
        cases hread
      · exact unixEpoch_le_of_validValues (validValues_of_validSamples hvalid)

theorem containerOrder_antisymm_name {a b : ContainerSource} (hab : containerOrder a b)
    (hba : containerOrder b a) : a.pod = b.pod ∧ a.container = b.container := by
  have h := le_antisymm hab hba
  have heq : (a.pod, a.container) = (b.pod, b.container) := toLex_inj.mp h
  exact Prod.mk.inj heq

instance : Std.Total containerOrder := ⟨fun _ _ => le_total _ _⟩

instance : IsTrans ContainerSource containerOrder := ⟨fun _ _ _ hab hbc => le_trans hab hbc⟩

theorem insertionSort_eq_of_perm {l l' : List ContainerSource} (hperm : l.Perm l')
    (hname : ∀ a ∈ l, ∀ b ∈ l, a.pod = b.pod → a.container = b.container → a = b) :
    l.insertionSort containerOrder = l'.insertionSort containerOrder := by
  have hsorted : ∀ m : List ContainerSource,
      (m.insertionSort containerOrder).Pairwise containerOrder :=
    List.pairwise_insertionSort containerOrder
  refine List.Perm.eq_of_pairwise ?_ (hsorted l) (hsorted l')
    ((List.perm_insertionSort _ _).trans (hperm.trans (List.perm_insertionSort _ _).symm))
  intro a b ha hb hab hba
  have ha' : a ∈ l := (List.perm_insertionSort _ _).mem_iff.mp ha
  have hb' : b ∈ l := hperm.mem_iff.mpr ((List.perm_insertionSort _ _).mem_iff.mp hb)
  obtain ⟨hpod, hcontainer⟩ := containerOrder_antisymm_name hab hba
  exact hname a ha' b hb' hpod hcontainer

/-- The summary of all readings does not depend on their order. -/
theorem summarize_perm {readings readings' : List Reading} (hperm : readings.Perm readings')
    (hsources : ∀ r ∈ readings, r.source.sourceTimestamp ≠ 0)
    (hname : ∀ a ∈ readings, ∀ b ∈ readings, a.source.pod = b.source.pod →
      a.source.container = b.source.container → a = b) :
    summarize readings = summarize readings' := by
  have hcpu : (readings.foldl Aggregate.add .empty).totalCPU =
      (readings'.foldl Aggregate.add .empty).totalCPU := by
    rw [Aggregate.foldl_totalCPU, Aggregate.foldl_totalCPU, (hperm.map _).sum_eq]
  have hrequest : (readings.foldl Aggregate.add .empty).totalRequest =
      (readings'.foldl Aggregate.add .empty).totalRequest := by
    rw [Aggregate.foldl_totalRequest, Aggregate.foldl_totalRequest, (hperm.map _).sum_eq]
  have holdest : (readings.foldl Aggregate.add .empty).oldest =
      (readings'.foldl Aggregate.add .empty).oldest := by
    by_cases hnil : readings = []
    · subst hnil
      rw [hperm.nil_eq]
    · have hnil' : readings' ≠ [] := fun h => hnil (by rw [h] at hperm; exact hperm.eq_nil)
      have hleast := Aggregate.foldl_oldest readings hnil hsources
      have hleast' := Aggregate.foldl_oldest readings' hnil'
        (fun r hr => hsources r (hperm.mem_iff.mpr hr))
      simp only [← hperm.mem_iff] at hleast'
      exact hleast.unique hleast'
  have hcontainers : (readings.foldl Aggregate.add .empty).containers.insertionSort
        containerOrder =
      (readings'.foldl Aggregate.add .empty).containers.insertionSort containerOrder := by
    rw [Aggregate.foldl_containers, Aggregate.foldl_containers]
    refine insertionSort_eq_of_perm (by simpa [Aggregate.empty] using hperm.map _) ?_
    intro a ha b hb hpod hcontainer
    obtain ⟨r, hr, rfl⟩ := List.mem_map.mp (by simpa [Aggregate.empty] using ha)
    obtain ⟨r', hr', rfl⟩ := List.mem_map.mp (by simpa [Aggregate.empty] using hb)
    rw [hname r hr r' hr' hpod hcontainer]
  unfold summarize
  dsimp only
  rw [hcpu, hrequest, holdest, hcontainers]

def TargetRoster.reorder (roster : TargetRoster)
    (entries : List (ContainerKey × ExpectedContainer)) (h : entries.Perm roster.containers) :
    TargetRoster where
  generation := roster.generation
  containers := entries
  nodupKeys := (h.map Prod.fst).nodup_iff.mpr roster.nodupKeys
  oneNamespace a ha b hb := roster.oneNamespace a (h.mem_iff.mp ha) b (h.mem_iff.mp hb)

theorem TargetRoster.eq_of_names (roster : TargetRoster)
    {a b : ContainerKey × ExpectedContainer} (ha : a ∈ roster.containers)
    (hb : b ∈ roster.containers) (hpod : a.1.pod = b.1.pod)
    (hcontainer : a.1.container = b.1.container) : a = b := by
  have hkey : a.1 = b.1 := by
    have hns := roster.oneNamespace a ha b hb
    cases ha1 : a.1
    cases hb1 : b.1
    simp_all
  exact List.inj_on_of_nodup_map roster.nodupKeys ha hb hkey

/-- No two containers of the roster fail in different classes. -/
def OneFailureClass (maxAge : ℤ) (rates sources : Vector) (evaluatedAt : ℤ)
    (roster : TargetRoster) : Prop :=
  ∀ c ∈ roster.containers, ∀ d ∈ roster.containers, ∀ s t : Sentinel,
    containerFailure maxAge rates sources evaluatedAt c = some s →
    containerFailure maxAge rates sources evaluatedAt d = some t → s = t

theorem uniform_iff_oneFailureClass (maxAge : ℤ) (rates sources : Vector) (evaluatedAt : ℤ)
    (roster : TargetRoster) :
    FirstFailure.Uniform (readContainer maxAge rates sources evaluatedAt) Err.wraps
        roster.containers ↔
      OneFailureClass maxAge rates sources evaluatedAt roster := by
  constructor
  · intro h c hc d hd s t hs ht
    obtain ⟨e, he, hew⟩ := readContainer_of_failure _ _ _ _ hs
    obtain ⟨e', he', hew'⟩ := readContainer_of_failure _ _ _ _ ht
    have hwraps := h c hc d hd e e' he he'
    rw [hew, hew'] at hwraps
    exact (List.cons.inj hwraps).1
  · intro h c hc d hd e e' he he'
    obtain ⟨s, hew, hs⟩ := readContainer_error_wraps _ _ _ _ he
    obtain ⟨t, hew', ht⟩ := readContainer_error_wraps _ _ _ _ he'
    rw [hew, hew', h c hc d hd s t hs ht]

/-- Once every container can be read, the order of the containers is forgotten. -/
theorem summarize_collect_perm (maxAge : ℤ) (rates sources : Vector) (evaluatedAt : ℤ)
    (roster : TargetRoster) {readings readings' : List Reading}
    (hread : FirstFailure.collect (readContainer maxAge rates sources evaluatedAt)
      roster.containers = .ok readings) (hperm : readings.Perm readings') :
    summarize readings = summarize readings' := by
  have hfrom : ∀ r ∈ readings, ∃ c ∈ roster.containers,
      readContainer maxAge rates sources evaluatedAt c = .ok r :=
    fun r => (FirstFailure.mem_of_collect_ok _ hread).mp
  refine summarize_perm hperm ?_ ?_
  · intro r hr
    obtain ⟨c, -, hc⟩ := hfrom r hr
    exact (readContainer_source _ _ _ _ hc).2.2
  · intro a ha b hb hpod hcontainer
    obtain ⟨c, hc, hca⟩ := hfrom a ha
    obtain ⟨d, hd, hdb⟩ := hfrom b hb
    have hcs := readContainer_source _ _ _ _ hca
    have hds := readContainer_source _ _ _ _ hdb
    have hcd : c = d := roster.eq_of_names hc hd
      (by rw [← hcs.1, hpod, hds.1]) (by rw [← hcs.2.1, hcontainer, hds.2.1])
    rw [hcd, hdb] at hca
    exact (Except.ok.inj hca).symm

/-- Every iteration order of the containers has the same outcome exactly when no two containers
fail in different classes, or a response is empty and no container is looked at. -/
theorem utilization_order_independent_iff (maxSampleAge : ℤ) (roster : TargetRoster)
    (rates sources : Vector) (evaluatedAt : ℤ) :
    (∀ r₁ r₂ : TargetRoster, r₁.containers.Perm roster.containers →
      r₂.containers.Perm roster.containers →
      SameOutcome (utilization maxSampleAge r₁ rates sources evaluatedAt)
        (utilization maxSampleAge r₂ rates sources evaluatedAt)) ↔
    rates = [] ∨ sources = [] ∨
      OneFailureClass (effectiveMaxSampleAge maxSampleAge) rates sources evaluatedAt roster := by
  by_cases hrates : rates = []
  · have hempty : ∀ r, utilization maxSampleAge r rates sources evaluatedAt =
        .error (.ofSentinel .noData) := fun r => by simp [utilization, hrates]
    refine iff_of_true (fun r₁ r₂ _ _ => ?_) (.inl hrates)
    rw [hempty, hempty]
    exact rfl
  by_cases hsources : sources = []
  · have hempty : ∀ r, utilization maxSampleAge r rates sources evaluatedAt =
        .error (.ofSentinel .noData) := fun r => by simp [utilization, hsources]
    refine iff_of_true (fun r₁ r₂ _ _ => ?_) (.inr (.inl hsources))
    rw [hempty, hempty]
    exact rfl
  have hcollect := fun r : TargetRoster =>
    utilization_eq maxSampleAge r rates sources evaluatedAt hrates hsources
  have huniform := uniform_iff_oneFailureClass (effectiveMaxSampleAge maxSampleAge) rates sources
    evaluatedAt roster
  have horder := FirstFailure.orderIndependent_iff (readContainer
    (effectiveMaxSampleAge maxSampleAge) rates sources evaluatedAt) Err.wraps roster.containers
  simp only [hrates, hsources, false_or]
  rw [← huniform, ← horder]
  constructor
  · intro hsame l₁ l₂ h₁ h₂ e₁ e₂ he₁ he₂
    have hout := hsame (roster.reorder l₁ h₁) (roster.reorder l₂ h₂) h₁ h₂
    rw [hcollect, hcollect] at hout
    simp only [TargetRoster.reorder, he₁, he₂] at hout
    exact hout
  · intro hkinds r₁ r₂ h₁ h₂
    rw [hcollect, hcollect]
    cases hc₁ : FirstFailure.collect (readContainer (effectiveMaxSampleAge maxSampleAge) rates
        sources evaluatedAt) r₁.containers with
    | error e₁ =>
      cases hc₂ : FirstFailure.collect (readContainer (effectiveMaxSampleAge maxSampleAge) rates
          sources evaluatedAt) r₂.containers with
      | error e₂ => exact hkinds _ _ h₁ h₂ _ _ hc₁ hc₂
      | ok readings =>
        obtain ⟨readings', hr', -⟩ := FirstFailure.collect_perm _ (h₂.trans h₁.symm) hc₂
        rw [hc₁] at hr'
        cases hr'
    | ok readings₁ =>
      obtain ⟨readings₂, hc₂, hperm⟩ := FirstFailure.collect_perm _ (h₁.trans h₂.symm) hc₁
      rw [hc₂]
      dsimp only
      rw [summarize_collect_perm _ _ _ _ r₁ hc₁ hperm]
      cases summarize readings₂ <;> exact rfl

/-! A new Pod without series next to a Pod whose counter has gone stale. -/

def freshEntry : ContainerKey × ExpectedContainer :=
  (⟨"test", "web-a", "app"⟩, ⟨"uid-a", "rs-one", "cid-a", 1 / 2⟩)

def staleEntry : ContainerKey × ExpectedContainer :=
  (⟨"test", "web-b", "app"⟩, ⟨"uid-b", "rs-one", "cid-b", 1 / 2⟩)

def staleMetric : Metric :=
  [⟨"namespace", "test"⟩, ⟨"pod", "web-b"⟩, ⟨"container", "app"⟩,
    ⟨"id", "/kubepods/poduid-b/cid-b"⟩].toFinmap

def staleRates : Vector := [⟨staleMetric, .finite (1 / 4), 1000000⟩]

def staleSources : Vector := [⟨staleMetric, .finite 900, 1000000⟩]

def mixedRoster : TargetRoster where
  generation := 1
  containers := [freshEntry, staleEntry]
  nodupKeys := by decide
  oneNamespace := by decide

def mixedRosterSwapped : TargetRoster :=
  mixedRoster.reorder [staleEntry, freshEntry] (.swap _ _ _)

/-- One order reports incomplete data and keeps the history, the other reports stale data and
discards it. -/
theorem utilization_order_decides :
    ¬ SameOutcome
        (utilization 0 mixedRoster staleRates staleSources (Time.unixEpoch + 1000 * second))
        (utilization 0 mixedRosterSwapped staleRates staleSources
          (Time.unixEpoch + 1000 * second)) ∧
      ∃ e e', utilization 0 mixedRoster staleRates staleSources
          (Time.unixEpoch + 1000 * second) = .error e ∧
        utilization 0 mixedRosterSwapped staleRates staleSources
          (Time.unixEpoch + 1000 * second) = .error e' ∧
        invalidatesObservationHistory (some e) = false ∧
        invalidatesObservationHistory (some e') = true := by
  have hfresh : utilization 0 mixedRoster staleRates staleSources
      (Time.unixEpoch + 1000 * second) =
        .error (.wrap .incompleteData "CPU series unavailable for web-a/app") := by
    decide +kernel
  have hstale : utilization 0 mixedRosterSwapped staleRates staleSources
      (Time.unixEpoch + 1000 * second) = .error (.ofSentinel .staleData) := by
    decide +kernel
  rw [hfresh, hstale]
  refine ⟨?_, _, _, rfl, rfl, rfl, rfl⟩
  intro h
  cases h

end Autoscaler.MetricsProvider
