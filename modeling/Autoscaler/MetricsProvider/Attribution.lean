import Autoscaler.MetricsProvider.OrderIndependence
import Mathlib.Algebra.Order.BigOperators.Group.List

/-! Which series the utilization of a roster is made of. -/
namespace Autoscaler.MetricsProvider

/-! The matching rule, as a statement about the cgroup path. -/

/-- A path element that stands for the Pod: its plain name, or its systemd slice. -/
def PodDirectory (podUID : UID) (part : List Char) : Prop :=
  part = "pod".toList ++ podUID.toList ∨
    ∃ parent, part = parent ++ ("-pod".toList ++ replaceDashes podUID.toList ++ ".slice".toList)

/-- A path element that stands for the container instance: its plain name, or its scope. -/
def ContainerLeaf (containerID : String) (part : List Char) : Prop :=
  part = containerID.toList ∨
    ∃ runtime ∈ ["cri-containerd-", "crio-", "docker-"],
      part = runtime.toList ++ containerID.toList ++ ".scope".toList

/-- The path leads through a directory of the Pod to the container instance. -/
def NamesInstance (expected : ExpectedContainer) (path : List Char) : Prop :=
  ∃ directories leaf, path = ['/'].intercalate (directories ++ [leaf]) ∧
    (∀ part ∈ directories ++ [leaf], '/' ∉ part) ∧
    (∃ part ∈ directories, PodDirectory expected.podUID part) ∧
    ContainerLeaf expected.containerID leaf

/-- The series is labelled with the names of the container and the path of its instance. -/
structure NamesContainer (entry : ContainerKey × ExpectedContainer) (sample : Sample) : Prop where
  ns : sample.metric.label "namespace" = entry.1.ns
  pod : sample.metric.label "pod" = entry.1.pod
  container : sample.metric.label "container" = entry.1.container
  path : NamesInstance entry.2 (sample.metric.label "id").toList

theorem podMatches_iff (podUID : UID) (part : List Char) :
    podMatches podUID part = true ↔ PodDirectory podUID part := by
  unfold podMatches PodDirectory
  rw [Bool.or_eq_true, beq_iff_eq, List.isSuffixOf_iff_suffix]
  exact or_congr_right ⟨fun ⟨parent, h⟩ => ⟨parent, h.symm⟩, fun ⟨parent, h⟩ => ⟨parent, h.symm⟩⟩

theorem leafMatches_iff (containerID : String) (part : List Char) :
    leafMatches containerID part = true ↔ ContainerLeaf containerID part := by
  simp only [leafMatches, ContainerLeaf, Bool.or_eq_true, beq_iff_eq, List.mem_cons,
    List.not_mem_nil, or_false, exists_eq_or_imp, exists_eq_left, or_assoc]

/-- The elements of a split path hold no separator. -/
theorem not_mem_of_mem_splitOn {α : Type*} [DecidableEq α] (x : α) (l : List α) :
    ∀ part ∈ l.splitOn x, x ∉ part := by
  induction l with
  | nil =>
    intro part hpart
    rw [List.splitOn_nil, List.mem_singleton] at hpart
    exact hpart ▸ List.not_mem_nil
  | cons a rest ih =>
    rw [List.splitOn_cons_eq_if_modifyHead]
    split_ifs with ha
    · intro part hpart
      rcases List.mem_cons.mp hpart with rfl | hpart
      · exact List.not_mem_nil
      · exact ih part hpart
    · cases hsplit : rest.splitOn x with
      | nil => exact absurd hsplit (List.splitOn_ne_nil x rest)
      | cons first others =>
        rw [hsplit] at ih
        intro part hpart
        rcases List.mem_cons.mp hpart with rfl | hpart
        · have hne : a ≠ x := by simpa using ha
          exact fun hx => (List.mem_cons.mp hx).elim (fun h => hne h.symm)
            (ih first List.mem_cons_self)
        · exact ih part (List.mem_cons_of_mem _ hpart)

theorem matchesInstance_iff (metric : Metric) (expected : ExpectedContainer) :
    matchesInstance metric expected = true ↔
      NamesInstance expected (metric.label "id").toList := by
  unfold matchesInstance
  generalize (metric.label "id").toList = path
  dsimp only
  constructor
  · intro h
    split_ifs at h with hlen
    rw [Bool.and_eq_true, List.any_eq_true] at h
    obtain ⟨⟨part, hpart, hpod⟩, hleaf⟩ := h
    have hne := List.splitOn_ne_nil '/' path
    have hsplit : (path.splitOn '/').dropLast ++ [(path.splitOn '/').getLastD []] =
        path.splitOn '/' := by
      rw [List.getLastD_eq_getLast?, List.getLast?_eq_some_getLast hne]
      exact List.dropLast_append_getLast hne
    refine ⟨(path.splitOn '/').dropLast, (path.splitOn '/').getLastD [], ?_, ?_, ?_, ?_⟩
    · rw [hsplit, List.intercalate_splitOn]
    · rw [hsplit]
      exact not_mem_of_mem_splitOn '/' path
    · exact ⟨part, hpart, (podMatches_iff _ _).mp hpod⟩
    · exact (leafMatches_iff _ _).mp hleaf
  · rintro ⟨directories, leaf, rfl, hparts, ⟨part, hpart, hpod⟩, hleaf⟩
    rw [List.splitOn_intercalate '/' hparts (by simp), if_neg, Bool.and_eq_true, List.any_eq_true,
      List.dropLast_concat]
    · refine ⟨⟨part, hpart, (podMatches_iff _ _).mpr hpod⟩, ?_⟩
      rw [List.getLastD_eq_getLast?, List.getLast?_concat]
      exact (leafMatches_iff _ _).mpr hleaf
    · have := List.length_pos_of_mem hpart
      rw [List.length_append, List.length_singleton]
      omega

theorem attributed_iff (entry : ContainerKey × ExpectedContainer) (sample : Sample) :
    attributed entry.1 entry.2 sample = true ↔ NamesContainer entry sample := by
  unfold attributed
  simp only [Bool.and_eq_true, beq_iff_eq, matchesInstance_iff]
  exact ⟨fun ⟨⟨⟨hns, hpod⟩, hcontainer⟩, hpath⟩ => ⟨hns, hpod, hcontainer, hpath⟩,
    fun h => ⟨⟨⟨h.ns, h.pod⟩, h.container⟩, h.path⟩⟩

/-! Exactly one matching element of a response vector, counted with multiplicity. -/

def OnlyOne {α : Type*} (p : α → Prop) (l : List α) (a : α) : Prop :=
  ∃ before after, l = before ++ a :: after ∧ p a ∧ ∀ b ∈ before ++ after, ¬ p b

theorem filter_eq_singleton_iff {α : Type*} (p : α → Bool) (l : List α) (a : α) :
    l.filter p = [a] ↔ OnlyOne (fun b => p b = true) l a := by
  rw [List.filter_eq_cons_iff]
  constructor
  · rintro ⟨before, after, hl, hbefore, ha, hafter⟩
    refine ⟨before, after, hl, ha, fun b hb => ?_⟩
    rcases List.mem_append.mp hb with hb | hb
    · exact hbefore b hb
    · exact List.filter_eq_nil_iff.mp hafter b hb
  · rintro ⟨before, after, hl, ha, hnone⟩
    exact ⟨before, after, hl, fun b hb => hnone b (List.mem_append_left _ hb), ha,
      List.filter_eq_nil_iff.mpr fun b hb => hnone b (List.mem_append_right _ hb)⟩

theorem OnlyOne.of_perm_append {α : Type*} {p : α → Prop} {l l' extra : List α} {a : α}
    (h : OnlyOne p l a) (hperm : l'.Perm (l ++ extra)) (hextra : ∀ b ∈ extra, ¬ p b) :
    OnlyOne p l' a := by
  obtain ⟨before, after, rfl, ha, hnone⟩ := h
  have hmem : a ∈ l' := hperm.mem_iff.mpr (by simp)
  obtain ⟨before', after', rfl⟩ := List.append_of_mem hmem
  have hcons : (a :: (before' ++ after')).Perm (a :: (before ++ after ++ extra)) := by
    refine List.perm_middle.symm.trans (hperm.trans ?_)
    rw [List.append_assoc, List.cons_append, List.append_assoc]
    exact List.perm_middle
  refine ⟨before', after', rfl, ha, fun b hb => ?_⟩
  rcases List.mem_append.mp (hcons.cons_inv.mem_iff.mp hb) with hb | hb
  · exact hnone b hb
  · exact hextra b hb

/-- The pair of samples that stands for one container: the only matching rate and the only
matching source, of one series, both taken at the evaluation time and usable there. -/
structure Matched (maxAge : ℤ) (rates sources : Vector) (evaluatedAt : ℤ)
    (entry : ContainerKey × ExpectedContainer) (rate source : Sample) : Prop where
  onlyRate : OnlyOne (NamesContainer entry) rates rate
  onlySource : OnlyOne (NamesContainer entry) sources source
  labels : rate.metric.erase "__name__" = source.metric.erase "__name__"
  rateStamp : rate.timestamp = Time.unixMilli evaluatedAt
  sourceStamp : source.timestamp = Time.unixMilli evaluatedAt
  values : ∃ cpu sourceSeconds : ℚ,
    rate.value = .finite cpu ∧ source.value = .finite sourceSeconds ∧
    0 ≤ cpu ∧ 0 ≤ sourceSeconds ∧
    Time.unixSeconds (evaluatedAt - maxAge) ≤ sourceSeconds ∧
    sourceSeconds ≤ Time.unixSeconds evaluatedAt

def readingOf (entry : ContainerKey × ExpectedContainer) (rate source : Sample) : Reading :=
  ⟨rate.value.exact, entry.2.request, ⟨entry.1.pod, entry.2.podUID, entry.1.container,
    entry.2.containerID, sourceTime source.value⟩⟩

section Matching

variable {maxAge : ℤ} {rates sources : Vector} {evaluatedAt : ℤ}

theorem onlyOne_attributed_iff (entry : ContainerKey × ExpectedContainer) (vector : Vector)
    (sample : Sample) :
    uniqueSample vector entry.1 entry.2 = .ok sample ↔
      OnlyOne (NamesContainer entry) vector sample := by
  rw [uniqueSample_ok_iff, filter_eq_singleton_iff]
  simp only [attributed_iff]

theorem validatePair_ok_iff (rate source : Sample) (hage : 0 < maxAge) :
    validatePair rate source evaluatedAt maxAge = .ok () ↔
      rate.metric.erase "__name__" = source.metric.erase "__name__" ∧
      rate.timestamp = Time.unixMilli evaluatedAt ∧
      source.timestamp = Time.unixMilli evaluatedAt ∧
      ∃ cpu sourceSeconds : ℚ, rate.value = .finite cpu ∧ source.value = .finite sourceSeconds ∧
        0 ≤ cpu ∧ 0 ≤ sourceSeconds ∧
        Time.unixSeconds (evaluatedAt - maxAge) ≤ sourceSeconds ∧
        sourceSeconds ≤ Time.unixSeconds evaluatedAt := by
  unfold validatePair
  constructor
  · intro h
    split_ifs at h with hsame hstamp hvalid hold hout
    obtain ⟨cpu, sourceSeconds, hrate, hsource, hcpu, hseconds, hle⟩ :=
      validValues_finite (by simpa using hvalid)
    rw [not_or, not_ne_iff, not_ne_iff] at hstamp
    refine ⟨by simpa [sameSeries] using hsame, hstamp.1, hstamp.2, cpu, sourceSeconds, hrate,
      hsource, hcpu, hseconds, ?_, hle⟩
    simpa [outdated, hsource] using hout
  · rintro ⟨hlabels, hrate, hsource, cpu, sourceSeconds, hcpu, hseconds, hcpu0, hseconds0, hfresh,
      hle⟩
    rw [if_neg (by simp [sameSeries, hlabels]), if_neg (by simp [hrate, hsource]),
      if_neg (by simp [validValues, hcpu, hseconds, hcpu0, hseconds0, hle]),
      if_neg (not_le.mpr hage), if_neg (by simp [outdated, hseconds, hfresh])]

theorem readContainer_ok_iff (hage : 0 < maxAge) (entry : ContainerKey × ExpectedContainer)
    (reading : Reading) :
    readContainer maxAge rates sources evaluatedAt entry = .ok reading ↔
      ∃ rate source, Matched maxAge rates sources evaluatedAt entry rate source ∧
        reading = readingOf entry rate source := by
  unfold readContainer
  constructor
  · intro h
    cases hr : uniqueSample rates entry.1 entry.2 with
    | error e => simp [hr, bind, Except.bind] at h
    | ok rate =>
      cases hs : uniqueSample sources entry.1 entry.2 with
      | error e => simp [hr, hs, bind, Except.bind] at h
      | ok source =>
        cases hpair : validatePair rate source evaluatedAt maxAge with
        | error e => simp [hr, hs, hpair, bind, Except.bind] at h
        | ok checked =>
          simp only [hr, hs, hpair, bind, Except.bind, pure, Except.pure, Except.ok.injEq] at h
          obtain ⟨hlabels, hrate, hsource, hvalues⟩ :=
            (validatePair_ok_iff rate source hage).mp hpair
          exact ⟨rate, source, ⟨(onlyOne_attributed_iff _ _ _).mp hr,
            (onlyOne_attributed_iff _ _ _).mp hs, hlabels, hrate, hsource, hvalues⟩, h.symm⟩
  · rintro ⟨rate, source, hmatched, rfl⟩
    have hpair := (validatePair_ok_iff rate source hage).mpr
      ⟨hmatched.labels, hmatched.rateStamp, hmatched.sourceStamp, hmatched.values⟩
    rw [(onlyOne_attributed_iff _ _ _).mpr hmatched.onlyRate,
      (onlyOne_attributed_iff _ _ _).mpr hmatched.onlySource]
    simp only [bind, Except.bind, hpair]
    rfl

/-- Series of no container, and the order of the responses, do not change which pair matches. -/
theorem Matched.of_foreign {entry : ContainerKey × ExpectedContainer} {rate source : Sample}
    {rates' sources' foreignRates foreignSources : Vector}
    (h : Matched maxAge rates sources evaluatedAt entry rate source)
    (hrates : rates'.Perm (rates ++ foreignRates))
    (hsources : sources'.Perm (sources ++ foreignSources))
    (hforeign : ∀ sample ∈ foreignRates ++ foreignSources, ¬ NamesContainer entry sample) :
    Matched maxAge rates' sources' evaluatedAt entry rate source where
  onlyRate := h.onlyRate.of_perm_append hrates
    fun sample hs => hforeign sample (List.mem_append_left _ hs)
  onlySource := h.onlySource.of_perm_append hsources
    fun sample hs => hforeign sample (List.mem_append_right _ hs)
  labels := h.labels
  rateStamp := h.rateStamp
  sourceStamp := h.sourceStamp
  values := h.values

def Pairing (maxAge : ℤ) (rates sources : Vector) (evaluatedAt : ℤ)
    (entries : List (ContainerKey × ExpectedContainer)) (pairs : List (Sample × Sample)) : Prop :=
  List.Forall₂ (fun entry pair => Matched maxAge rates sources evaluatedAt entry pair.1 pair.2)
    entries pairs

def readingsOf (entries : List (ContainerKey × ExpectedContainer))
    (pairs : List (Sample × Sample)) : List Reading :=
  List.zipWith (fun entry pair => readingOf entry pair.1 pair.2) entries pairs

theorem exists_pairing_iff (entries : List (ContainerKey × ExpectedContainer)) :
    (∃ pairs, Pairing maxAge rates sources evaluatedAt entries pairs) ↔
      ∀ entry ∈ entries, ∃ rate source,
        Matched maxAge rates sources evaluatedAt entry rate source := by
  induction entries with
  | nil => exact ⟨fun _ entry h => absurd h List.not_mem_nil, fun _ => ⟨[], .nil⟩⟩
  | cons entry rest ih =>
    rw [List.forall_mem_cons, ← ih]
    constructor
    · rintro ⟨pairs, hpairs⟩
      cases hpairs with
      | cons hmatched hrest => exact ⟨⟨_, _, hmatched⟩, _, hrest⟩
    · rintro ⟨⟨rate, source, hmatched⟩, pairs, hrest⟩
      exact ⟨(rate, source) :: pairs, .cons hmatched hrest⟩

theorem Pairing.of_foreign {entries : List (ContainerKey × ExpectedContainer)}
    {pairs : List (Sample × Sample)} {rates' sources' foreignRates foreignSources : Vector}
    (h : Pairing maxAge rates sources evaluatedAt entries pairs)
    (hrates : rates'.Perm (rates ++ foreignRates))
    (hsources : sources'.Perm (sources ++ foreignSources))
    (hforeign : ∀ sample ∈ foreignRates ++ foreignSources, ∀ entry ∈ entries,
      ¬ NamesContainer entry sample) :
    Pairing maxAge rates' sources' evaluatedAt entries pairs := by
  induction h with
  | nil => exact .nil
  | cons hmatched _ ih =>
    refine .cons (hmatched.of_foreign hrates hsources fun sample hs =>
      hforeign sample hs _ List.mem_cons_self) (ih fun sample hs entry hentry => ?_)
    exact hforeign sample hs entry (List.mem_cons_of_mem _ hentry)

/-- The readings of a roster are those of its matched pairs. -/
theorem collect_readContainer_iff (hage : 0 < maxAge)
    (entries : List (ContainerKey × ExpectedContainer)) (readings : List Reading) :
    FirstFailure.collect (readContainer maxAge rates sources evaluatedAt) entries = .ok readings ↔
      ∃ pairs, Pairing maxAge rates sources evaluatedAt entries pairs ∧
        readings = readingsOf entries pairs := by
  rw [FirstFailure.collect_ok_iff]
  constructor
  · intro h
    induction h with
    | nil => exact ⟨[], .nil, rfl⟩
    | cons hread _ ih =>
      obtain ⟨rate, source, hmatched, rfl⟩ := (readContainer_ok_iff hage _ _).mp hread
      obtain ⟨pairs, hpairs, rfl⟩ := ih
      exact ⟨(rate, source) :: pairs, .cons hmatched hpairs, rfl⟩
  · rintro ⟨pairs, hpairs, rfl⟩
    induction hpairs with
    | nil => exact .nil
    | cons hmatched _ ih =>
      exact .cons ((readContainer_ok_iff hage _ _).mpr ⟨_, _, hmatched, rfl⟩) ih

/-- The sums over the readings of matched pairs. -/
theorem Pairing.sum_readings {entries : List (ContainerKey × ExpectedContainer)}
    {pairs : List (Sample × Sample)}
    (h : Pairing maxAge rates sources evaluatedAt entries pairs) :
    ((readingsOf entries pairs).map Reading.cpu).sum =
        (pairs.map fun pair => pair.1.value.exact).sum ∧
      ((readingsOf entries pairs).map Reading.request).sum =
        (entries.map fun entry => entry.2.request).sum := by
  induction h with
  | nil => exact ⟨rfl, rfl⟩
  | cons _ _ ih =>
    simp only [readingsOf] at ih ⊢
    simp only [List.zipWith_cons_cons, List.map_cons, List.sum_cons, ih.1, ih.2]
    exact ⟨rfl, rfl⟩

theorem Pairing.mem_readings {entries : List (ContainerKey × ExpectedContainer)}
    {pairs : List (Sample × Sample)}
    (h : Pairing maxAge rates sources evaluatedAt entries pairs) (t : ℤ) :
    (∃ r ∈ readingsOf entries pairs, r.source.sourceTimestamp = t) ↔
      ∃ pair ∈ pairs, sourceTime pair.2.value = t := by
  induction h with
  | nil => simp [readingsOf]
  | cons _ _ ih =>
    unfold readingsOf at ih ⊢
    rw [List.zipWith_cons_cons, List.exists_mem_cons_iff, List.exists_mem_cons_iff, ih]
    exact Iff.rfl

/-- With positive requests the readings of a nonempty roster have a weighted utilization. -/
theorem Pairing.summarize {entries : List (ContainerKey × ExpectedContainer)}
    {pairs : List (Sample × Sample)}
    (h : Pairing maxAge rates sources evaluatedAt entries pairs) (hage : 0 < maxAge)
    (hne : entries ≠ []) (hrequests : ∀ entry ∈ entries, 0 < entry.2.request) :
    ∃ result, MetricsProvider.summarize (readingsOf entries pairs) = .ok result ∧
      result.value = 100 * (pairs.map fun pair => pair.1.value.exact).sum /
        (entries.map fun entry => entry.2.request).sum ∧
      IsLeast {t | ∃ pair ∈ pairs, sourceTime pair.2.value = t} result.oldest := by
  obtain ⟨hcpu, hrequest⟩ := h.sum_readings
  have hpos : 0 < (entries.map fun entry => entry.2.request).sum := by
    refine List.sum_pos _ (fun request hmem => ?_) (by simpa using hne)
    obtain ⟨entry, hentry, rfl⟩ := List.mem_map.mp hmem
    exact hrequests entry hentry
  have hreadings : readingsOf entries pairs ≠ [] := by
    cases h with
    | nil => exact absurd rfl hne
    | cons => exact List.cons_ne_nil _ _
  have hleast := Aggregate.foldl_oldest (readingsOf entries pairs) hreadings fun r hr => by
    have hread := (collect_readContainer_iff hage entries _).mpr ⟨pairs, h, rfl⟩
    obtain ⟨entry, -, hentry⟩ := (FirstFailure.mem_of_collect_ok _ hread).mp hr
    exact (readContainer_source _ _ _ _ hentry).2.2
  simp only [h.mem_readings] at hleast
  unfold MetricsProvider.summarize
  dsimp only
  rw [Aggregate.foldl_totalRequest, Aggregate.foldl_totalCPU, hcpu, hrequest]
  simp only [Aggregate.empty, zero_add]
  rw [if_neg hpos.ne']
  exact ⟨_, rfl, rfl, hleast⟩

end Matching

/-- A success summarizes the readings of matched pairs. -/
theorem utilization_ok_iff (maxSampleAge : ℤ) (roster : TargetRoster) (rates sources : Vector)
    (evaluatedAt : ℤ) (hage : 0 < effectiveMaxSampleAge maxSampleAge) (result : Utilization) :
    utilization maxSampleAge roster rates sources evaluatedAt = .ok result ↔
      rates ≠ [] ∧ sources ≠ [] ∧ ∃ pairs, Pairing (effectiveMaxSampleAge maxSampleAge) rates
          sources evaluatedAt roster.containers pairs ∧
        summarize (readingsOf roster.containers pairs) = .ok result := by
  by_cases hrates : rates = []
  · simp [utilization, hrates]
  by_cases hsources : sources = []
  · simp [utilization, hsources]
  rw [utilization_eq _ _ _ _ _ hrates hsources]
  constructor
  · intro h
    cases hcollect : FirstFailure.collect (readContainer (effectiveMaxSampleAge maxSampleAge) rates
        sources evaluatedAt) roster.containers with
    | error e =>
      rw [hcollect] at h
      cases h
    | ok readings =>
      rw [hcollect] at h
      obtain ⟨pairs, hpairs, rfl⟩ := (collect_readContainer_iff hage _ _).mp hcollect
      exact ⟨hrates, hsources, pairs, hpairs, h⟩
  · rintro ⟨-, -, pairs, hpairs, hsummary⟩
    rw [(collect_readContainer_iff hage _ _).mpr ⟨pairs, hpairs, rfl⟩]
    exact hsummary

/-- The utilization of a roster exists exactly when every container has its pair of samples. It
weighs the matched rates by the requests, reports the oldest matched source, and is blind to
foreign series and to the order of the responses. -/
theorem utilization_attribution (maxSampleAge : ℤ) (roster : TargetRoster)
    (rates sources : Vector) (evaluatedAt : ℤ) (hne : roster.containers ≠ [])
    (hrequests : ∀ entry ∈ roster.containers, 0 < entry.2.request)
    (hage : 0 < effectiveMaxSampleAge maxSampleAge) :
    ((∃ result, utilization maxSampleAge roster rates sources evaluatedAt = .ok result) ↔
      rates ≠ [] ∧ sources ≠ [] ∧ ∀ entry ∈ roster.containers, ∃ rate source,
        Matched (effectiveMaxSampleAge maxSampleAge) rates sources evaluatedAt entry rate source) ∧
    ∀ result, utilization maxSampleAge roster rates sources evaluatedAt = .ok result →
      (∃ pairs, Pairing (effectiveMaxSampleAge maxSampleAge) rates sources evaluatedAt
          roster.containers pairs ∧
        result.value = 100 * (pairs.map fun pair => pair.1.value.exact).sum /
          (roster.containers.map fun entry => entry.2.request).sum ∧
        IsLeast {t | ∃ pair ∈ pairs, sourceTime pair.2.value = t} result.oldest) ∧
      ∀ rates' sources' foreignRates foreignSources : Vector,
        rates'.Perm (rates ++ foreignRates) → sources'.Perm (sources ++ foreignSources) →
        (∀ sample ∈ foreignRates ++ foreignSources, ∀ entry ∈ roster.containers,
          ¬ NamesContainer entry sample) →
        utilization maxSampleAge roster rates' sources' evaluatedAt = .ok result := by
  have hok := utilization_ok_iff maxSampleAge roster rates sources evaluatedAt hage
  refine ⟨⟨?_, ?_⟩, fun result h => ?_⟩
  · rintro ⟨result, h⟩
    obtain ⟨hrates, hsources, pairs, hpairs, -⟩ := (hok result).mp h
    exact ⟨hrates, hsources, (exists_pairing_iff _).mp ⟨pairs, hpairs⟩⟩
  · rintro ⟨hrates, hsources, hall⟩
    obtain ⟨pairs, hpairs⟩ := (exists_pairing_iff _).mpr hall
    obtain ⟨result, hresult, -⟩ := hpairs.summarize hage hne hrequests
    exact ⟨result, (hok result).mpr ⟨hrates, hsources, pairs, hpairs, hresult⟩⟩
  · obtain ⟨hrates, hsources, pairs, hpairs, hsummary⟩ := (hok result).mp h
    constructor
    · obtain ⟨result', hresult, hvalue, hleast⟩ := hpairs.summarize hage hne hrequests
      cases hsummary.symm.trans hresult
      exact ⟨pairs, hpairs, hvalue, hleast⟩
    · intro rates' sources' foreignRates foreignSources hperm hperm' hforeign
      refine (utilization_ok_iff _ _ _ _ _ hage _).mpr
        ⟨?_, ?_, pairs, hpairs.of_foreign hperm hperm' hforeign, hsummary⟩
      · rintro rfl
        exact hrates (List.append_eq_nil_iff.mp hperm.nil_eq.symm).1
      · rintro rfl
        exact hsources (List.append_eq_nil_iff.mp hperm'.nil_eq.symm).1

/-! Two Pods under the two cgroup drivers, with a series of a replaced instance. -/

def plainEntry : ContainerKey × ExpectedContainer :=
  (⟨"test", "web-a", "app"⟩, ⟨"uid-a", "rs-one", "cid-a", 1 / 2⟩)

def slicedEntry : ContainerKey × ExpectedContainer :=
  (⟨"test", "web-b", "app"⟩, ⟨"uid-b", "rs-one", "cid-b", 3 / 2⟩)

def pairRoster : TargetRoster where
  generation := 1
  containers := [plainEntry, slicedEntry]
  nodupKeys := by decide
  oneNamespace := by decide

def seriesOf (pod path : String) : Metric :=
  [⟨"namespace", "test"⟩, ⟨"pod", pod⟩, ⟨"container", "app"⟩, ⟨"id", path⟩].toFinmap

def plainSeries : Metric := seriesOf "web-a" "/kubepods/poduid-a/cid-a"

def slicedSeries : Metric :=
  seriesOf "web-b" "/kubepods.slice/kubepods-poduid_b.slice/cri-containerd-cid-b.scope"

def replacedSeries : Metric := seriesOf "web-a" "/kubepods/poduid-a/cid-old"

def pairRates : Vector :=
  [⟨plainSeries, .finite (1 / 4), 1000000⟩, ⟨slicedSeries, .finite (3 / 4), 1000000⟩]

def pairSources : Vector :=
  [⟨plainSeries, .finite 990, 1000000⟩, ⟨slicedSeries, .finite 980, 1000000⟩]

theorem utilization_attribution_replaced :
    utilization 0 pairRoster (⟨replacedSeries, .finite 9, 1000000⟩ :: pairRates.reverse)
        pairSources.reverse (Time.unixEpoch + 1000 * second) =
      .ok ⟨50, Time.unixEpoch + 980 * second,
        [⟨"web-a", "uid-a", "app", "cid-a", Time.unixEpoch + 990 * second⟩,
          ⟨"web-b", "uid-b", "app", "cid-b", Time.unixEpoch + 980 * second⟩]⟩ := by
  refine ((utilization_attribution 0 pairRoster pairRates pairSources
    (Time.unixEpoch + 1000 * second) (by decide) (by decide +kernel) (by decide)).2 _
      (by decide +kernel)).2 _ _ [⟨replacedSeries, .finite 9, 1000000⟩] [] ?_ ?_ ?_
  · exact (pairRates.reverse_perm.cons _).trans (List.perm_append_singleton _ _).symm
  · exact pairSources.reverse_perm.trans (by simp)
  · intro sample hs entry hentry
    rw [← attributed_iff]
    revert sample entry
    decide +kernel

end Autoscaler.MetricsProvider
