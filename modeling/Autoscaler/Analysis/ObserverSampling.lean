import Autoscaler.Analysis.ReplicaTime

/-! Coverage of the window by the CPU observer: the time before its first observation, after its
last one, and in every gap that is too long. -/
namespace Autoscaler.Analysis

/-- The interval of an observation, as `epoch` reads it. -/
structure ObservationInterval where
  observationStartedAt : ℚ
  observationFinishedAt : ℚ
  deriving DecidableEq, Repr

def timestamp {K : Type*} [Zero K] [LinearOrder K] (value : K) : Except String K :=
  if value ≤ 0 then .error "Timestamp must be positive" else .ok value

theorem timestamp_of_pos {K : Type*} [Zero K] [LinearOrder K] {value : K} (h : 0 < value) :
    timestamp value = .ok value :=
  if_neg h.not_ge

structure ObserverSampling where
  coverageComplete : Bool
  unknownIntervalsSeconds : List (ℚ × ℚ)
  unknownSeconds : ℚ
  maximumGapSeconds : ℚ
  method : String
  deriving DecidableEq, Repr

def observerSampling.between (maximumGap : ℚ) (pair : ObservationInterval × ObservationInterval) :
    Except String (List (ℚ × ℚ)) := do
  let finish ← timestamp pair.1.observationFinishedAt
  let start ← timestamp pair.2.observationStartedAt
  return if maximumGap < start - finish then [(finish, start)] else []

/-- `observer_sampling`, with `stop` for its argument `end`. -/
def observerSampling (rows : List ObservationInterval) (onset stop interval : ℚ) :
    Except String ObserverSampling :=
  match rows.head?, rows.getLast? with
  | some first, some last => do
    let maximumGap := 2 * interval
    let firstStart ← timestamp first.observationStartedAt
    let leading := if onset < firstStart then [(onset, firstStart)] else []
    let gaps ← FirstFailure.collect (observerSampling.between maximumGap) (rows.zip rows.tail)
    let lastFinish ← timestamp last.observationFinishedAt
    let trailing := if lastFinish < stop then [(lastFinish, stop)] else []
    let intervals := leading ++ gaps.flatten ++ trailing
    let unknown := intervals.filterMap fun (start, finish) =>
      if max start onset < min finish stop then
        some (max start onset - onset, min finish stop - onset)
      else none
    return {
      coverageComplete := unknown.isEmpty
      unknownIntervalsSeconds := unknown
      unknownSeconds := (unknown.map fun (start, finish) => finish - start).sum
      maximumGapSeconds := maximumGap
      method := "Entire gaps from previous observation finish to next observation start " ++
        "exceeding the maximum allowed gap; in-flight request duration is not missing capture" }
  | _, _ => .error "list index out of range"

structure OrderedObservations (rows : List ObservationInterval) : Prop where
  valid : ∀ row ∈ rows, row.observationStartedAt ≤ row.observationFinishedAt
  ordered : rows.Pairwise fun row later => row.observationFinishedAt ≤ later.observationStartedAt
  positive : ∀ row ∈ rows, 0 < row.observationStartedAt

/-- Between two consecutive observations too far apart, or outside of them all. -/
inductive Unobserved (rows : List ObservationInterval) (interval : ℚ) (t : ℝ) : Prop where
  | before (first) : first ∈ rows.head? → t < (first.observationStartedAt : ℝ) →
      Unobserved rows interval t
  | between (pre left right post) : rows = pre ++ left :: right :: post →
      (left.observationFinishedAt : ℝ) ≤ t → t < (right.observationStartedAt : ℝ) →
      2 * interval < right.observationStartedAt - left.observationFinishedAt →
      Unobserved rows interval t
  | after (last) : last ∈ rows.getLast? → (last.observationFinishedAt : ℝ) ≤ t →
      Unobserved rows interval t

def unobservedPart (rows : List ObservationInterval) (onset stop interval : ℚ) : Set ℝ :=
  {t | ((onset : ℝ) ≤ t ∧ t < stop) ∧ Unobserved rows interval t}

/-- The report describes the unobserved part. Its intervals are relative to the onset. -/
structure DescribesSampling (rows : List ObservationInterval) (onset stop interval : ℚ)
    (report : ObserverSampling) : Prop where
  ordered : IntervalCover.Ordered 0 (stop - onset) report.unknownIntervalsSeconds
  exact : ∀ t : ℝ, IntervalCover.Covers realTime report.unknownIntervalsSeconds (t - onset) ↔
    t ∈ unobservedPart rows onset stop interval
  total : report.unknownSeconds = IntervalCover.total report.unknownIntervalsSeconds
  complete : report.coverageComplete = true ↔
    MeasureTheory.volume (unobservedPart rows onset stop interval) = 0

section Sampling

variable {rows : List ObservationInterval} {onset stop interval : ℚ}

def longGap (maximumGap : ℚ) (pair : ObservationInterval × ObservationInterval) : List (ℚ × ℚ) :=
  if maximumGap < pair.2.observationStartedAt - pair.1.observationFinishedAt then
    [(pair.1.observationFinishedAt, pair.2.observationStartedAt)]
  else []

theorem mem_longGap_iff {maximumGap : ℚ} {pair : ObservationInterval × ObservationInterval}
    {i : ℚ × ℚ} : i ∈ longGap maximumGap pair ↔
      i = (pair.1.observationFinishedAt, pair.2.observationStartedAt) ∧
        maximumGap < pair.2.observationStartedAt - pair.1.observationFinishedAt := by
  unfold longGap
  split_ifs with hgap
  · simp [hgap]
  · simp [hgap]

def unclipped (first last : ObservationInterval) (rows : List ObservationInterval)
    (onset stop interval : ℚ) : List (ℚ × ℚ) :=
  (if onset < first.observationStartedAt then [(onset, first.observationStartedAt)] else []) ++
    (rows.zip rows.tail).flatMap (longGap (2 * interval)) ++
    (if last.observationFinishedAt < stop then [(last.observationFinishedAt, stop)] else [])

theorem OrderedObservations.finish_pos (h : OrderedObservations rows) :
    ∀ row ∈ rows, 0 < row.observationFinishedAt :=
  fun row hrow => (h.positive row hrow).trans_le (h.valid row hrow)

theorem collect_between (h : OrderedObservations rows) (maximumGap : ℚ) :
    FirstFailure.collect (observerSampling.between maximumGap) (rows.zip rows.tail) =
      .ok ((rows.zip rows.tail).map (longGap maximumGap)) := by
  rw [FirstFailure.collect_ok_iff, List.forall₂_map_right_iff, List.forall₂_same]
  rintro ⟨left, right⟩ hpair
  obtain ⟨hleft, hright⟩ := List.of_mem_zip hpair
  unfold observerSampling.between
  rw [timestamp_of_pos (h.finish_pos left hleft),
    timestamp_of_pos (h.positive right (List.mem_of_mem_tail hright))]
  rfl

theorem unknown_eq_clip (intervals : List (ℚ × ℚ)) :
    (intervals.filterMap fun (start, finish) =>
      if max start onset < min finish stop then
        some (max start onset - onset, min finish stop - onset)
      else none) = IntervalCover.shift onset (IntervalCover.clip onset stop intervals) := by
  unfold IntervalCover.shift IntervalCover.clip
  rw [List.map_filterMap]
  refine List.filterMap_congr fun i _ => ?_
  obtain ⟨start, finish⟩ := i
  dsimp only
  rw [max_comm onset start, min_comm stop finish]
  split_ifs <;> rfl

variable (onset stop interval) in
/-- The report on ordered observations. -/
theorem observerSampling_eq (h : OrderedObservations rows) {first last : ObservationInterval}
    (hfirst : rows.head? = some first) (hlast : rows.getLast? = some last) :
    ∃ report, observerSampling rows onset stop interval = .ok report ∧
      report.unknownIntervalsSeconds = IntervalCover.shift onset
        (IntervalCover.clip onset stop (unclipped first last rows onset stop interval)) ∧
      report.coverageComplete = report.unknownIntervalsSeconds.isEmpty ∧
      report.unknownSeconds = IntervalCover.total report.unknownIntervalsSeconds := by
  have hstart := timestamp_of_pos (h.positive first (List.mem_of_head? hfirst))
  have hfinish := timestamp_of_pos (h.finish_pos last (List.mem_of_getLast? hlast))
  unfold observerSampling
  rw [hfirst, hlast]
  simp only [hstart, hfinish, collect_between h, bind, Except.bind, pure, Except.pure]
  refine ⟨_, rfl, ?_, rfl, rfl⟩
  rw [unknown_eq_clip, unclipped, List.flatMap_def]

theorem OrderedObservations.start_le_finish (h : OrderedObservations rows)
    {row later : ObservationInterval} (hrow : row ∈ rows) (hlater : later ∈ rows)
    (hnext : row = later ∨ row.observationFinishedAt ≤ later.observationStartedAt) :
    row.observationStartedAt ≤ later.observationFinishedAt := by
  rcases hnext with rfl | hle
  · exact h.valid row hrow
  · exact (h.valid row hrow).trans (hle.trans (h.valid later hlater))

theorem OrderedObservations.first_start_le (h : OrderedObservations rows)
    {first : ObservationInterval} (hfirst : rows.head? = some first) :
    ∀ row ∈ rows, first.observationStartedAt ≤ row.observationFinishedAt := by
  intro row hrow
  refine h.start_le_finish (List.mem_of_head? hfirst) hrow ?_
  obtain ⟨rest, rfl⟩ := List.head?_eq_some_iff.mp hfirst
  rcases List.mem_cons.mp hrow with rfl | hmem
  · exact .inl rfl
  · exact .inr ((List.pairwise_cons.mp h.ordered).1 row hmem)

theorem OrderedObservations.le_last_finish (h : OrderedObservations rows)
    {last : ObservationInterval} (hlast : rows.getLast? = some last) :
    ∀ row ∈ rows, row.observationStartedAt ≤ last.observationFinishedAt := by
  intro row hrow
  refine h.start_le_finish hrow (List.mem_of_getLast? hlast) ?_
  obtain ⟨init, rfl⟩ := List.getLast?_eq_some_iff.mp hlast
  rcases List.mem_append.mp hrow with hmem | hmem
  · exact .inr ((List.pairwise_append.mp h.ordered).2.2 row hmem last List.mem_cons_self)
  · exact .inl (List.mem_singleton.mp hmem)

theorem mem_longGaps_iff {maximumGap : ℚ} {i : ℚ × ℚ} :
    i ∈ (rows.zip rows.tail).flatMap (longGap maximumGap) ↔
      ∃ pre left right post, rows = pre ++ left :: right :: post ∧
        i = (left.observationFinishedAt, right.observationStartedAt) ∧
        maximumGap < right.observationStartedAt - left.observationFinishedAt := by
  rw [List.mem_flatMap]
  constructor
  · rintro ⟨⟨left, right⟩, hpair, hgap⟩
    obtain ⟨pre, post, hsplit⟩ := Adjacent.mem_zip_tail_iff.mp hpair
    exact ⟨pre, left, right, post, hsplit, mem_longGap_iff.mp hgap⟩
  · rintro ⟨pre, left, right, post, hsplit, hgap⟩
    exact ⟨(left, right), Adjacent.mem_zip_tail_iff.mpr ⟨pre, post, hsplit⟩,
      mem_longGap_iff.mpr hgap⟩

theorem longGaps_pairwise (h : OrderedObservations rows) (maximumGap : ℚ) :
    ((rows.zip rows.tail).flatMap (longGap maximumGap)).Pairwise fun i j => i.2 ≤ j.1 := by
  rw [List.pairwise_flatMap]
  constructor
  · intro pair _
    unfold longGap
    split_ifs <;> simp
  · have hnext := Adjacent.zip_tail_pairwise h.ordered
    refine hnext.imp_of_mem fun {pair later} hpair hlater hle i hi j hj => ?_
    rw [(mem_longGap_iff.mp hi).1, (mem_longGap_iff.mp hj).1]
    exact h.start_le_finish (List.mem_of_mem_tail (List.of_mem_zip hpair).2)
      (List.of_mem_zip hlater).1 hle

variable (onset stop interval) in
/-- The gaps lie one after another, before they are clipped. -/
theorem unclipped_pairwise (h : OrderedObservations rows) {first last : ObservationInterval}
    (hfirst : rows.head? = some first) (hlast : rows.getLast? = some last) :
    (unclipped first last rows onset stop interval).Pairwise fun i j => i.2 ≤ j.1 := by
  have hends := h.first_start_le hfirst last (List.mem_of_getLast? hlast)
  have hleading : ∀ i ∈ (if onset < first.observationStartedAt then
      [(onset, first.observationStartedAt)] else []), i.2 = first.observationStartedAt := by
    split_ifs <;> simp
  have htrailing : ∀ i ∈ (if last.observationFinishedAt < stop then
      [(last.observationFinishedAt, stop)] else []), i.1 = last.observationFinishedAt := by
    split_ifs <;> simp
  refine List.pairwise_append.mpr ⟨List.pairwise_append.mpr
    ⟨?_, longGaps_pairwise h _, fun i hi j hj => ?_⟩, ?_, fun i hi j hj => ?_⟩
  · split_ifs <;> simp
  · obtain ⟨pre, left, right, post, hsplit, rfl, -⟩ := mem_longGaps_iff.mp hj
    rw [hleading i hi]
    exact h.first_start_le hfirst left (by simp [hsplit])
  · split_ifs <;> simp
  · rw [htrailing j hj]
    rcases List.mem_append.mp hi with hi | hi
    · exact (hleading i hi).trans_le hends
    · obtain ⟨pre, left, right, post, hsplit, rfl, -⟩ := mem_longGaps_iff.mp hi
      exact h.le_last_finish hlast right (by simp [hsplit])

/-- Within the window the gaps cover the unobserved points. -/
theorem covers_unclipped_iff {first last : ObservationInterval}
    (hfirst : rows.head? = some first) (hlast : rows.getLast? = some last) {t : ℝ}
    (hlow : (onset : ℝ) ≤ t) (hhigh : t < stop) :
    IntervalCover.Covers realTime (unclipped first last rows onset stop interval) t ↔
      Unobserved rows interval t := by
  unfold unclipped
  rw [IntervalCover.covers_append, IntervalCover.covers_append]
  constructor
  · rintro ((⟨i, hi, hstart, hfinish⟩ | ⟨i, hi, hstart, hfinish⟩) | ⟨i, hi, hstart, hfinish⟩)
    · split_ifs at hi
      · rw [List.mem_singleton.mp hi] at hfinish
        exact .before first hfirst hfinish
      · cases hi
    · obtain ⟨pre, left, right, post, hsplit, rfl, hgap⟩ := mem_longGaps_iff.mp hi
      exact .between pre left right post hsplit hstart hfinish hgap
    · split_ifs at hi
      · rw [List.mem_singleton.mp hi] at hstart
        exact .after last hlast hstart
      · cases hi
  · rintro (⟨first', hfirst', hbefore⟩ | ⟨pre, left, right, post, hsplit, hstart, hfinish, hgap⟩ |
      ⟨last', hlast', hafter⟩)
    · obtain rfl := Option.some.inj (hfirst.symm.trans hfirst')
      have hlt : onset < first.observationStartedAt := by exact_mod_cast hlow.trans_lt hbefore
      refine .inl (.inl ⟨(onset, first.observationStartedAt), ?_, hlow, hbefore⟩)
      simp [hlt]
    · exact .inl (.inr ⟨_, mem_longGaps_iff.mpr ⟨pre, left, right, post, hsplit, rfl, hgap⟩,
        hstart, hfinish⟩)
    · obtain rfl := Option.some.inj (hlast.symm.trans hlast')
      have hlt : last.observationFinishedAt < stop := by exact_mod_cast hafter.trans_lt hhigh
      refine .inr ⟨(last.observationFinishedAt, stop), ?_, hafter, hhigh⟩
      simp [hlt]

/-- A part of the window that intervals describe has measure zero exactly without an interval. -/
theorem volume_eq_zero_iff {part : Set ℝ} {intervals : List (ℚ × ℚ)} {origin : ℚ}
    (hnonempty : ∀ i ∈ intervals, i.1 < i.2)
    (hexact : ∀ t : ℝ, IntervalCover.Covers realTime intervals (t - origin) ↔ t ∈ part) :
    intervals = [] ↔ MeasureTheory.volume part = 0 := by
  constructor
  · rintro rfl
    have hempty : part = ∅ := by
      ext t
      rw [← hexact]
      simp [IntervalCover.Covers]
    rw [hempty, MeasureTheory.measure_empty]
  · intro hzero
    by_contra hne
    obtain ⟨i, rest, rfl⟩ := List.exists_cons_of_ne_nil hne
    have hsub : Set.Ico ((origin : ℝ) + i.1) (origin + i.2) ⊆ part := by
      rintro t ⟨hlow, hhigh⟩
      refine (hexact t).mp ⟨i, List.mem_cons_self, ?_, ?_⟩
      · exact le_sub_iff_add_le'.mpr hlow
      · exact sub_lt_iff_lt_add'.mpr hhigh
    have hinterval := MeasureTheory.measure_mono_null hsub hzero
    rw [Real.volume_Ico, add_sub_add_left_eq_sub, ENNReal.ofReal_eq_zero, sub_nonpos] at hinterval
    exact hinterval.not_gt (by exact_mod_cast hnonempty i List.mem_cons_self)

end Sampling

/-- The sampling report of ordered observations is exact about the unobserved part of the
window. -/
theorem observer_sampling_exact (rows : List ObservationInterval) (h : OrderedObservations rows)
    (hne : rows ≠ []) (onset stop interval : ℚ) :
    ∃ report, observerSampling rows onset stop interval = .ok report ∧
      DescribesSampling rows onset stop interval report := by
  have hfirst := List.head?_eq_some_head hne
  have hlast := List.getLast?_eq_some_getLast hne
  obtain ⟨report, hreport, hunknown, hcomplete, htotal⟩ :=
    observerSampling_eq onset stop interval h hfirst hlast
  have hclipped := IntervalCover.clip_ordered onset stop
    (unclipped_pairwise onset stop interval h hfirst hlast)
  have hordered := hclipped.shift onset
  rw [← hunknown, sub_self] at hordered
  have hexact : ∀ t : ℝ, IntervalCover.Covers realTime report.unknownIntervalsSeconds (t - onset) ↔
      t ∈ unobservedPart rows onset stop interval := by
    intro t
    have hsub : ∀ a b, realTime (a - b) = realTime a - realTime b := Rat.cast_sub
    rw [hunknown]
    refine (IntervalCover.covers_shift_iff hsub onset t).trans ?_
    rw [IntervalCover.covers_clip_iff]
    exact and_congr_right fun ht => covers_unclipped_iff hfirst hlast ht.1 ht.2
  refine ⟨report, hreport, hordered, hexact, htotal, ?_⟩
  rw [hcomplete, List.isEmpty_iff]
  exact volume_eq_zero_iff hordered.nonempty hexact

/-- Three observations every two seconds, of which the first starts late and the last is missing
the end of the window. -/
theorem observer_sampling_exact_partial :
    ∃ report, observerSampling [⟨12, 13⟩, ⟨14, 15⟩, ⟨20, 20⟩] 10 30 1 = .ok report ∧
      report.unknownIntervalsSeconds = [(0, 2), (5, 10), (10, 20)] ∧
      DescribesSampling [⟨12, 13⟩, ⟨14, 15⟩, ⟨20, 20⟩] 10 30 1 report := by
  have hordered : OrderedObservations [⟨12, 13⟩, ⟨14, 15⟩, ⟨20, 20⟩] :=
    ⟨by decide +kernel, by decide +kernel, by decide +kernel⟩
  obtain ⟨report, hreport, hdescribes⟩ := observer_sampling_exact
    [⟨12, 13⟩, ⟨14, 15⟩, ⟨20, 20⟩] hordered (by simp) 10 30 1
  refine ⟨report, hreport, ?_, hdescribes⟩
  have hintervals : (observerSampling [⟨12, 13⟩, ⟨14, 15⟩, ⟨20, 20⟩] 10 30 1).map
      ObserverSampling.unknownIntervalsSeconds = .ok [(0, 2), (5, 10), (10, 20)] := by
    decide +kernel
  rw [hreport] at hintervals
  exact Except.ok.inj hintervals

end Autoscaler.Analysis
