import Autoscaler.Analysis.StateReads
import Autoscaler.Library.IntervalCover
import Autoscaler.Library.StepIntegral

/-! Replica time from sampled counts: each known sample is held until the next known one, unless
that comes too late, and the rest of the window is unknown. -/
namespace Autoscaler.Analysis

structure ReplicaTime where
  podSeconds : Option ℚ
  coveredPodSeconds : ℚ
  postLoadPodSeconds : Option ℚ
  coveredSeconds : ℚ
  unknownSeconds : ℚ
  unknownIntervalsSeconds : List (ℚ × ℚ)
  coverageComplete : Bool
  deriving DecidableEq, Repr

structure integrate.Totals where
  total : ℚ
  post : ℚ
  covered : ℚ
  intervals : List (ℚ × ℚ)
  deriving DecidableEq, Repr

def integrate.accumulate (onset stop offeredEnd maxGap : ℚ) (totals : Totals)
    (pair : StateSample ℚ × StateSample ℚ) : Totals :=
  let (left, right) := pair
  let start := max onset left.finish
  let finish := min stop right.finish
  if finish ≤ start then totals
  else
    match left.value, right.value with
    | some value, some _ =>
      if maxGap < right.finish - left.finish then totals
      else
        { total := totals.total + value * (finish - start)
          post := totals.post + value * max 0 (finish - max start offeredEnd)
          covered := totals.covered + (finish - start)
          intervals := totals.intervals ++ [(start, finish)] }
    | _, _ => totals

def integrate.unknown (onset stop : ℚ) : List (ℚ × ℚ) → ℚ → List (ℚ × ℚ)
  | [], cursor => if cursor < stop then [(cursor - onset, stop - onset)] else []
  | (start, finish) :: rest, cursor =>
    if cursor < start then (cursor - onset, start - onset) :: unknown onset stop rest finish
    else unknown onset stop rest finish

/-- `integrate`, with `stop` for its argument `end`. -/
def integrate (values : List (StateSample ℚ)) (onset stop offeredEnd maxGap : ℚ) : ReplicaTime :=
  let totals := (values.zip values.tail).foldl
    (integrate.accumulate onset stop offeredEnd maxGap) ⟨0, 0, 0, []⟩
  let complete := decide (|totals.covered - (stop - onset)| < 1 / 1000000)
  { podSeconds := if complete then some totals.total else none
    coveredPodSeconds := totals.total
    postLoadPodSeconds := if complete then some totals.post else none
    coveredSeconds := totals.covered
    unknownSeconds := stop - onset - totals.covered
    unknownIntervalsSeconds := integrate.unknown onset stop totals.intervals onset
    coverageComplete := complete }

structure ReadinessSample where
  observationIntervalSeconds : ℚ × ℚ
  status : String
  deriving DecidableEq, Repr

structure ReadinessEvidence where
  sampledFalseSeconds : ℚ
  sampledFalseIntervalsSeconds : List (ℚ × ℚ)
  unknownSeconds : ℚ
  unknownIntervalsSeconds : List (ℚ × ℚ)
  coverageComplete : Bool
  method : String
  samples : List ReadinessSample
  deriving DecidableEq, Repr

def readinessEvidence.accumulate (onset stop maxGap : ℚ) (falseIntervals : List (ℚ × ℚ))
    (pair : StateSample ℚ × StateSample ℚ) : List (ℚ × ℚ) :=
  let (left, right) := pair
  let start := max onset left.finish
  let finish := min stop right.finish
  if finish ≤ start ∨ left.value ≠ some 1 ∨ right.value = none ∨
      maxGap < right.finish - left.finish then falseIntervals
  else
    match falseIntervals.getLast? with
    | none => [(start - onset, finish - onset)]
    | some last =>
      if last.2 = start - onset then falseIntervals.dropLast ++ [(last.1, finish - onset)]
      else falseIntervals ++ [(start - onset, finish - onset)]

def readinessEvidence.status : Option ℚ → Except String String
  | none => .ok "Unknown"
  | some value =>
    if value = 0 then .ok "True" else if value = 1 then .ok "False" else .error "KeyError: value"

def readinessEvidence (values : List (StateSample ℚ)) (onset stop maxGap : ℚ) :
    Except String ReadinessEvidence :=
  let coverage := integrate values onset stop stop maxGap
  let falseIntervals := (values.zip values.tail).foldl
    (readinessEvidence.accumulate onset stop maxGap) []
  let inWindow := values.filter fun row =>
    decide (onset - maxGap ≤ row.finish) && decide (row.finish ≤ stop + maxGap)
  (FirstFailure.collect (fun row => (readinessEvidence.status row.value).map fun status =>
      ReadinessSample.mk (row.start - onset, row.finish - onset) status) inWindow).map
    fun samples =>
      { sampledFalseSeconds := coverage.coveredPodSeconds
        sampledFalseIntervalsSeconds := falseIntervals
        unknownSeconds := coverage.unknownSeconds
        unknownIntervalsSeconds := coverage.unknownIntervalsSeconds
        coverageComplete := coverage.coverageComplete
        method := "Hold observed current-generation MetricsReady status until the next bounded " ++
          "successful read; missing/stale conditions are unknown"
        samples := samples }

/-! The segments over which a known value is held, clipped to the window. -/

structure HeldSegment where
  start : ℚ
  finish : ℚ
  value : ℚ
  deriving DecidableEq, Repr

def HeldSegment.interval (s : HeldSegment) : ℚ × ℚ := (s.start, s.finish)

def heldSegment (onset stop maxGap : ℚ) (pair : StateSample ℚ × StateSample ℚ) :
    Option HeldSegment :=
  let start := max onset pair.1.finish
  let finish := min stop pair.2.finish
  match pair.1.value, pair.2.value with
  | some value, some _ =>
    if start < finish ∧ pair.2.finish - pair.1.finish ≤ maxGap then some ⟨start, finish, value⟩
    else none
  | _, _ => none

def heldSegments (values : List (StateSample ℚ)) (onset stop maxGap : ℚ) : List HeldSegment :=
  (values.zip values.tail).filterMap (heldSegment onset stop maxGap)

section Segments

variable {onset stop offeredEnd maxGap : ℚ}

theorem heldSegment_eq_some {pair : StateSample ℚ × StateSample ℚ} {s : HeldSegment} :
    heldSegment onset stop maxGap pair = some s ↔
      pair.1.value = some s.value ∧ pair.2.value ≠ none ∧
        pair.2.finish - pair.1.finish ≤ maxGap ∧ s.start = max onset pair.1.finish ∧
        s.finish = min stop pair.2.finish ∧ s.start < s.finish := by
  obtain ⟨start, finish, value⟩ := s
  unfold heldSegment
  cases hleft : pair.1.value with
  | none => simp
  | some left =>
    cases hright : pair.2.value with
    | none => simp
    | some right =>
      dsimp only
      split_ifs with hheld
      · rw [Option.some.injEq, HeldSegment.mk.injEq, Option.some.injEq]
        constructor
        · rintro ⟨rfl, rfl, rfl⟩
          exact ⟨rfl, by simp, hheld.2, rfl, rfl, hheld.1⟩
        · rintro ⟨rfl, -, -, rfl, rfl, -⟩
          exact ⟨rfl, rfl, rfl⟩
      · constructor
        · intro h
          cases h
        · rintro ⟨-, -, hgap, rfl, rfl, hlt⟩
          exact absurd ⟨hlt, hgap⟩ hheld

/-- A pair adds its segment to the totals, if it has one. -/
theorem accumulate_eq (totals : integrate.Totals) (pair : StateSample ℚ × StateSample ℚ) :
    integrate.accumulate onset stop offeredEnd maxGap totals pair =
      match heldSegment onset stop maxGap pair with
      | none => totals
      | some s =>
        ⟨totals.total + s.value * (s.finish - s.start),
          totals.post + s.value * max 0 (s.finish - max s.start offeredEnd),
          totals.covered + (s.finish - s.start), totals.intervals ++ [s.interval]⟩ := by
  obtain ⟨left, right⟩ := pair
  unfold integrate.accumulate heldSegment
  dsimp only
  cases left.value with
  | none => simp
  | some value =>
    cases right.value with
    | none => simp
    | some next =>
      dsimp only
      by_cases hlt : max onset left.finish < min stop right.finish
      · by_cases hgap : right.finish - left.finish ≤ maxGap
        · rw [if_neg hlt.not_ge, if_neg hgap.not_gt, if_pos ⟨hlt, hgap⟩]
          rfl
        · rw [if_neg hlt.not_ge, if_pos (not_le.mp hgap), if_neg fun h => hgap h.2]
      · rw [if_pos (not_lt.mp hlt), if_neg fun h => hlt h.1]

/-- The totals are sums over the segments. -/
theorem foldl_accumulate (pairs : List (StateSample ℚ × StateSample ℚ))
    (totals : integrate.Totals) :
    pairs.foldl (integrate.accumulate onset stop offeredEnd maxGap) totals =
      let segments := pairs.filterMap (heldSegment onset stop maxGap)
      ⟨totals.total + (segments.map fun s => s.value * (s.finish - s.start)).sum,
        totals.post + (segments.map fun s =>
          s.value * max 0 (s.finish - max s.start offeredEnd)).sum,
        totals.covered + IntervalCover.total (segments.map HeldSegment.interval),
        totals.intervals ++ segments.map HeldSegment.interval⟩ := by
  induction pairs generalizing totals with
  | nil => simp [IntervalCover.total]
  | cons pair rest ih =>
    rw [List.foldl_cons, ih, accumulate_eq]
    cases hsegment : heldSegment onset stop maxGap pair with
    | none => simp [hsegment]
    | some s =>
      have htotal : IntervalCover.total (s.interval ::
          (rest.filterMap (heldSegment onset stop maxGap)).map HeldSegment.interval) =
            s.finish - s.start + IntervalCover.total
              ((rest.filterMap (heldSegment onset stop maxGap)).map HeldSegment.interval) :=
        IntervalCover.total_cons _ _
      simp [hsegment, htotal, add_assoc]

theorem unknown_eq (intervals : List (ℚ × ℚ)) (cursor : ℚ) :
    integrate.unknown onset stop intervals cursor =
      IntervalCover.shift onset (IntervalCover.gaps stop intervals cursor) := by
  induction intervals generalizing cursor with
  | nil =>
    unfold integrate.unknown IntervalCover.gaps
    split_ifs <;> rfl
  | cons i rest ih =>
    rw [IntervalCover.gaps_cons, integrate.unknown, ih]
    split_ifs <;> rfl

end Segments

section Order

variable {values : List (StateSample ℚ)}

/-- The segments of ordered samples lie one after another in the window. -/
theorem heldSegments_ordered (onset stop maxGap : ℚ) (h : OrderedSamples values) :
    IntervalCover.Ordered onset stop
      ((heldSegments values onset stop maxGap).map HeldSegment.interval) where
  nonempty := by
    rw [List.forall_mem_map]
    intro s hs
    obtain ⟨pair, -, hpair⟩ := List.mem_filterMap.mp hs
    exact (heldSegment_eq_some.mp hpair).2.2.2.2.2
  within := by
    rw [List.forall_mem_map]
    intro s hs
    obtain ⟨pair, -, hpair⟩ := List.mem_filterMap.mp hs
    obtain ⟨-, -, -, hstart, hfinish, -⟩ := heldSegment_eq_some.mp hpair
    have hlow : onset ≤ s.start := by
      rw [hstart]
      exact le_max_left _ _
    have hhigh : s.finish ≤ stop := by
      rw [hfinish]
      exact min_le_left _ _
    exact ⟨hlow, hhigh⟩
  disjoint := by
    refine List.pairwise_map.mpr (List.pairwise_filterMap.mpr ?_)
    refine (Adjacent.zip_tail_pairwise h.increasing).imp fun {pair later} hnext s hs s' hs' => ?_
    have hle : pair.2.finish ≤ later.1.finish := by
      rcases hnext with heq | hlt
      · rw [heq]
      · exact hlt.le
    obtain ⟨-, -, -, -, hfinish, -⟩ := heldSegment_eq_some.mp hs
    obtain ⟨-, -, -, hstart, -, -⟩ := heldSegment_eq_some.mp hs'
    change s.finish ≤ s'.start
    rw [hfinish, hstart]
    exact (min_le_right _ _).trans (hle.trans (le_max_right _ _))

end Order

/-! What the figures mean on the real time line. -/

noncomputable abbrev realTime : ℚ ↪o ℝ := Rat.castOrderEmbedding

/-- Between two consecutive known samples that are not too far apart. -/
def Known (values : List (StateSample ℚ)) (maxGap : ℚ) (t : ℝ) : Prop :=
  ∃ pre left right post, values = pre ++ left :: right :: post ∧ (left.finish : ℝ) ≤ t ∧
    t < right.finish ∧ left.value ≠ none ∧ right.value ≠ none ∧
    right.finish - left.finish ≤ maxGap

def coveredPart (values : List (StateSample ℚ)) (onset stop maxGap : ℚ) : Set ℝ :=
  {t | (onset : ℝ) ≤ t ∧ t < stop ∧ Known values maxGap t}

/-- The value of the last sample finished by `t`. -/
noncomputable def leftHeld (values : List (StateSample ℚ)) (t : ℝ) : ℝ :=
  (((values.filter fun sample => decide ((sample.finish : ℝ) ≤ t)).getLast?.bind
    StateSample.value).getD 0 : ℚ)

section Meaning

variable {onset stop offeredEnd maxGap : ℚ} {values : List (StateSample ℚ)}

/-- Between two consecutive samples the value of the left one is held. -/
theorem leftHeld_eq (h : OrderedSamples values) {pre post : List (StateSample ℚ)}
    {left right : StateSample ℚ} (hsplit : values = pre ++ left :: right :: post) {t : ℝ}
    (hleft : (left.finish : ℝ) ≤ t) (hright : t < right.finish) :
    leftHeld values t = (left.value.getD 0 : ℚ) := by
  have hincreasing := h.increasing
  rw [hsplit] at hincreasing
  obtain ⟨-, htail, hbefore⟩ := List.pairwise_append.mp hincreasing
  have hpast : ∀ sample ∈ pre, decide ((sample.finish : ℝ) ≤ t) = true := by
    intro sample hsample
    have hlt : (sample.finish : ℝ) < left.finish := by
      exact_mod_cast hbefore sample hsample left List.mem_cons_self
    exact decide_eq_true (hlt.le.trans hleft)
  have hfuture : ∀ sample ∈ right :: post, ¬ decide ((sample.finish : ℝ) ≤ t) = true := by
    intro sample hsample
    have hle : (right.finish : ℝ) ≤ sample.finish := by
      rcases List.mem_cons.mp hsample with rfl | hmem
      · exact le_rfl
      · have hpost := (List.pairwise_cons.mp (List.pairwise_cons.mp htail).2).1 sample hmem
        exact_mod_cast hpost.le
    rw [decide_eq_true_eq]
    exact (hright.trans_le hle).not_ge
  have hself : decide ((left.finish : ℝ) ≤ t) = true := decide_eq_true hleft
  have hfilter : values.filter (fun sample => decide ((sample.finish : ℝ) ≤ t)) =
      pre ++ [left] := by
    rw [hsplit, List.filter_append, List.filter_eq_self.mpr hpast, List.filter_cons,
      if_pos hself, List.filter_eq_nil_iff.mpr hfuture]
  unfold leftHeld
  rw [hfilter, List.getLast?_concat]
  rfl

theorem exists_pair_of_mem_segment {s : HeldSegment}
    (hs : s ∈ heldSegments values onset stop maxGap) {t : ℝ} (hlow : (s.start : ℝ) ≤ t)
    (hhigh : t < s.finish) :
    ∃ pre left right post, values = pre ++ left :: right :: post ∧
      ((onset : ℝ) ≤ t ∧ t < stop) ∧ ((left.finish : ℝ) ≤ t ∧ t < right.finish) ∧
        left.value = some s.value ∧ right.value ≠ none ∧ right.finish - left.finish ≤ maxGap := by
  obtain ⟨⟨left, right⟩, hmem, hsegment⟩ := List.mem_filterMap.mp hs
  obtain ⟨hvalue, hnext, hgap, hstart, hfinish, -⟩ := heldSegment_eq_some.mp hsegment
  obtain ⟨pre, post, hsplit⟩ := Adjacent.mem_zip_tail_iff.mp hmem
  rw [hstart, Rat.cast_max, max_le_iff] at hlow
  rw [hfinish, Rat.cast_min, lt_min_iff] at hhigh
  exact ⟨pre, left, right, post, hsplit, ⟨hlow.1, hhigh.1⟩, ⟨hlow.2, hhigh.2⟩, hvalue, hnext, hgap⟩

/-- A point is covered when it lies on a segment. -/
theorem mem_coveredPart_iff {t : ℝ} :
    t ∈ coveredPart values onset stop maxGap ↔
      ∃ s ∈ heldSegments values onset stop maxGap, (s.start : ℝ) ≤ t ∧ t < s.finish := by
  constructor
  · rintro ⟨hlow, hhigh, pre, left, right, post, hsplit, hleft, hright, hvalue, hnext, hgap⟩
    have hstart : ((max onset left.finish : ℚ) : ℝ) ≤ t := by
      rw [Rat.cast_max]
      exact max_le hlow hleft
    have hfinish : t < ((min stop right.finish : ℚ) : ℝ) := by
      rw [Rat.cast_min]
      exact lt_min hhigh hright
    obtain ⟨value, hvalue⟩ := Option.ne_none_iff_exists'.mp hvalue
    have hlt : max onset left.finish < min stop right.finish := by
      exact_mod_cast hstart.trans_lt hfinish
    refine ⟨⟨max onset left.finish, min stop right.finish, value⟩, ?_, hstart, hfinish⟩
    have hpair := Adjacent.mem_zip_tail_iff.mpr ⟨pre, post, hsplit⟩
    refine List.mem_filterMap.mpr ⟨(left, right), hpair, ?_⟩
    exact heldSegment_eq_some.mpr ⟨hvalue, hnext, hgap, rfl, rfl, hlt⟩
  · rintro ⟨s, hs, hlow, hhigh⟩
    obtain ⟨pre, left, right, post, hsplit, hwindow, hpair, hvalue, hnext, hgap⟩ :=
      exists_pair_of_mem_segment hs hlow hhigh
    have hknown : left.value ≠ none := by
      rw [hvalue]
      exact Option.some_ne_none _
    exact ⟨hwindow.1, hwindow.2, pre, left, right, post, hsplit, hpair.1, hpair.2, hknown, hnext,
      hgap⟩

theorem leftHeld_on_segment (h : OrderedSamples values) {s : HeldSegment}
    (hs : s ∈ heldSegments values onset stop maxGap) {t : ℝ} (hlow : (s.start : ℝ) ≤ t)
    (hhigh : t < s.finish) : leftHeld values t = s.value := by
  obtain ⟨pre, left, right, post, hsplit, -, hpair, hvalue, -, -⟩ :=
    exists_pair_of_mem_segment hs hlow hhigh
  rw [leftHeld_eq h hsplit hpair.1 hpair.2, hvalue]
  rfl

theorem coveredPart_eq_cover : coveredPart values onset stop maxGap =
    StepIntegral.cover (fun s : HeldSegment => (s.start : ℝ)) (fun s => (s.finish : ℝ))
      (heldSegments values onset stop maxGap) := by
  ext t
  exact mem_coveredPart_iff

theorem covers_segments_iff {t : ℝ} :
    IntervalCover.Covers realTime
      ((heldSegments values onset stop maxGap).map HeldSegment.interval) t ↔
        t ∈ coveredPart values onset stop maxGap := by
  rw [mem_coveredPart_iff]
  simp [IntervalCover.Covers, HeldSegment.interval]

end Meaning

section Integral

variable {onset stop offeredEnd maxGap : ℚ} {values : List (StateSample ℚ)}

theorem segments_nonempty (h : OrderedSamples values) :
    ∀ s ∈ heldSegments values onset stop maxGap, s.start < s.finish := by
  have hordered := heldSegments_ordered onset stop maxGap h
  exact List.forall_mem_map.mp hordered.nonempty

/-- The integral over the covered part from `cut` on, of a function constant on each segment. -/
theorem integral_clipped (h : OrderedSamples values) (f : ℝ → ℝ) (value : HeldSegment → ℚ)
    (hf : ∀ s ∈ heldSegments values onset stop maxGap, ∀ t : ℝ, (s.start : ℝ) ≤ t →
      t < s.finish → f t = value s) (cut : ℚ) :
    ∫ t in coveredPart values onset stop maxGap ∩ Set.Ici (cut : ℝ), f t =
      (((heldSegments values onset stop maxGap).map fun s =>
        value s * max 0 (s.finish - max s.start cut)).sum : ℚ) := by
  have hordered := heldSegments_ordered onset stop maxGap h
  have hnonempty : ∀ s ∈ heldSegments values onset stop maxGap, (s.start : ℝ) ≤ s.finish := by
    intro s hs
    exact_mod_cast (segments_nonempty h s hs).le
  have hdisjoint : (heldSegments values onset stop maxGap).Pairwise fun s later =>
      (s.finish : ℝ) ≤ later.start :=
    (List.pairwise_map.mp hordered.disjoint).imp fun hle => by exact_mod_cast hle
  rw [coveredPart_eq_cover, StepIntegral.integral_cover_Ici _ _ (fun s => ((value s : ℚ) : ℝ)) f
    hnonempty hdisjoint _ (fun s hs t hlow hhigh _ => hf s hs t hlow hhigh), Rat.cast_list_sum,
    List.map_map]
  congr 1
  refine List.map_congr_left fun s _ => ?_
  simp

/-- The whole covered part lies after the onset. -/
theorem coveredPart_inter_onset : coveredPart values onset stop maxGap ∩ Set.Ici (onset : ℝ) =
    coveredPart values onset stop maxGap :=
  Set.inter_eq_left.mpr fun _ ht => ht.1

/-- The integral over the covered part of a function constant on each segment. -/
theorem integral_coveredPart (h : OrderedSamples values) (f : ℝ → ℝ) (value : HeldSegment → ℚ)
    (hf : ∀ s ∈ heldSegments values onset stop maxGap, ∀ t : ℝ, (s.start : ℝ) ≤ t →
      t < s.finish → f t = value s) :
    ∫ t in coveredPart values onset stop maxGap, f t =
      (((heldSegments values onset stop maxGap).map fun s =>
        value s * (s.finish - s.start)).sum : ℚ) := by
  have hordered := heldSegments_ordered onset stop maxGap h
  have hlength : ∀ s ∈ heldSegments values onset stop maxGap,
      value s * max 0 (s.finish - max s.start onset) = value s * (s.finish - s.start) := by
    intro s hs
    have hlow : onset ≤ s.start := (List.forall_mem_map.mp hordered.within s hs).1
    have hlt := segments_nonempty h s hs
    rw [max_eq_left hlow, max_eq_right (sub_nonneg.mpr hlt.le)]
  rw [← coveredPart_inter_onset, integral_clipped h f value hf, List.map_congr_left hlength]

theorem volume_coveredPart (h : OrderedSamples values) :
    MeasureTheory.volume.real (coveredPart values onset stop maxGap) =
      (IntervalCover.total
        ((heldSegments values onset stop maxGap).map HeldSegment.interval) : ℚ) := by
  have hone : ∫ t in coveredPart values onset stop maxGap, (1 : ℝ) =
      (((heldSegments values onset stop maxGap).map fun s => 1 * (s.finish - s.start)).sum : ℚ) :=
    integral_coveredPart h (fun _ => 1) (fun _ => 1) fun _ _ _ _ _ => by norm_num
  rw [MeasureTheory.setIntegral_const, smul_eq_mul, mul_one] at hone
  rw [hone]
  simp [IntervalCover.total, HeldSegment.interval, Function.comp_def]

end Integral

def unknownPart (values : List (StateSample ℚ)) (onset stop maxGap : ℚ) : Set ℝ :=
  Set.Ico (onset : ℝ) stop \ coveredPart values onset stop maxGap

/-- The figures account for every point of the window once. Reported intervals are relative to the
onset. -/
structure Accounts (values : List (StateSample ℚ)) (onset stop offeredEnd maxGap : ℚ)
    (figures : ReplicaTime) : Prop where
  separated : IntervalCover.Separated figures.unknownIntervalsSeconds
  within : ∀ i ∈ figures.unknownIntervalsSeconds, 0 ≤ i.1 ∧ i.2 ≤ stop - onset
  partition : ∀ t : ℝ, IntervalCover.Covers realTime figures.unknownIntervalsSeconds (t - onset) ↔
    t ∈ unknownPart values onset stop maxGap
  unknownTotal : IntervalCover.total figures.unknownIntervalsSeconds = figures.unknownSeconds
  coveredLength : (figures.coveredSeconds : ℝ) =
    MeasureTheory.volume.real (coveredPart values onset stop maxGap)
  window : figures.coveredSeconds + figures.unknownSeconds = stop - onset
  coveredPods : (figures.coveredPodSeconds : ℝ) =
    ∫ t in coveredPart values onset stop maxGap, leftHeld values t
  complete : figures.coverageComplete = true ↔ figures.unknownSeconds < 1 / 1000000
  known : figures.unknownIntervalsSeconds = [] → ∃ pods post : ℚ,
    figures.podSeconds = some pods ∧ figures.postLoadPodSeconds = some post ∧
      (pods : ℝ) = ∫ t in (onset : ℝ)..stop, leftHeld values t ∧
      (post : ℝ) = ∫ t in (offeredEnd : ℝ)..stop, leftHeld values t

section Accounts

variable {onset stop offeredEnd maxGap : ℚ} {values : List (StateSample ℚ)}

/-- The totals of the loop over all pairs of samples. -/
theorem integrate_totals : (values.zip values.tail).foldl
      (integrate.accumulate onset stop offeredEnd maxGap) ⟨0, 0, 0, []⟩ =
    ⟨((heldSegments values onset stop maxGap).map fun s => s.value * (s.finish - s.start)).sum,
      ((heldSegments values onset stop maxGap).map fun s =>
        s.value * max 0 (s.finish - max s.start offeredEnd)).sum,
      IntervalCover.total ((heldSegments values onset stop maxGap).map HeldSegment.interval),
      (heldSegments values onset stop maxGap).map HeldSegment.interval⟩ := by
  rw [foldl_accumulate]
  simp [heldSegments]

theorem unknownIntervals_eq :
    (integrate values onset stop offeredEnd maxGap).unknownIntervalsSeconds =
      IntervalCover.shift onset (IntervalCover.gaps stop
        ((heldSegments values onset stop maxGap).map HeldSegment.interval) onset) := by
  unfold integrate
  rw [integrate_totals]
  exact unknown_eq _ _

/-- The reported unknown intervals cover the unknown part. -/
theorem covers_unknown_iff (h : OrderedSamples values) (t : ℝ) :
    IntervalCover.Covers realTime
        (integrate values onset stop offeredEnd maxGap).unknownIntervalsSeconds (t - onset) ↔
      t ∈ unknownPart values onset stop maxGap := by
  have hordered := heldSegments_ordered onset stop maxGap h
  have hsub : ∀ a b, realTime (a - b) = realTime a - realTime b := Rat.cast_sub
  have hshift := IntervalCover.covers_shift_iff (l := IntervalCover.gaps stop
    ((heldSegments values onset stop maxGap).map HeldSegment.interval) onset) hsub onset t
  rw [unknownIntervals_eq]
  refine hshift.trans ?_
  rw [IntervalCover.covers_gaps_iff hordered, covers_segments_iff]
  rfl

theorem unknown_total (h : OrderedSamples values) (hwindow : onset ≤ stop) :
    IntervalCover.total
        (integrate values onset stop offeredEnd maxGap).unknownIntervalsSeconds =
      (integrate values onset stop offeredEnd maxGap).unknownSeconds := by
  have hordered := heldSegments_ordered onset stop maxGap h
  have hfill := IntervalCover.total_gaps hordered hwindow
  rw [unknownIntervals_eq, IntervalCover.total_shift]
  unfold integrate
  rw [integrate_totals]
  dsimp only
  linarith

theorem coveredPart_of_known (h : OrderedSamples values)
    (hknown : (integrate values onset stop offeredEnd maxGap).unknownIntervalsSeconds = []) :
    coveredPart values onset stop maxGap = Set.Ico (onset : ℝ) stop := by
  ext t
  constructor
  · rintro ⟨hlow, hhigh, -⟩
    exact ⟨hlow, hhigh⟩
  · intro ht
    by_contra hnot
    have hunknown : IntervalCover.Covers realTime
        (integrate values onset stop offeredEnd maxGap).unknownIntervalsSeconds (t - onset) :=
      (covers_unknown_iff h t).mpr ⟨ht, hnot⟩
    rw [hknown] at hunknown
    obtain ⟨i, hi, -⟩ := hunknown
    cases hi

theorem unknownIntervals_separated (h : OrderedSamples values) :
    IntervalCover.Separated
      (integrate values onset stop offeredEnd maxGap).unknownIntervalsSeconds := by
  have hordered := heldSegments_ordered onset stop maxGap h
  rw [unknownIntervals_eq]
  exact (IntervalCover.gaps_separated hordered).shift onset

/-- The coverage is complete up to the tolerance. -/
theorem complete_iff (h : OrderedSamples values) (hwindow : onset ≤ stop) :
    (integrate values onset stop offeredEnd maxGap).coverageComplete = true ↔
      (integrate values onset stop offeredEnd maxGap).unknownSeconds < 1 / 1000000 := by
  have hnonneg : 0 ≤ (integrate values onset stop offeredEnd maxGap).unknownSeconds := by
    rw [← unknown_total h hwindow]
    exact IntervalCover.total_nonneg (unknownIntervals_separated h).nonempty
  have hdifference : (integrate values onset stop offeredEnd maxGap).coveredSeconds -
      (stop - onset) = -(integrate values onset stop offeredEnd maxGap).unknownSeconds := by
    unfold integrate
    ring
  have hcomplete : (integrate values onset stop offeredEnd maxGap).coverageComplete =
      decide (|(integrate values onset stop offeredEnd maxGap).coveredSeconds -
        (stop - onset)| < 1 / 1000000) := rfl
  rw [hcomplete, hdifference, abs_neg, abs_of_nonneg hnonneg, decide_eq_true_eq]

theorem integral_known (h : OrderedSamples values) {cut : ℚ} (honset : onset ≤ cut)
    (hcut : cut ≤ stop) (hwhole : coveredPart values onset stop maxGap = Set.Ico (onset : ℝ) stop) :
    ∫ t in (cut : ℝ)..stop, leftHeld values t =
      (((heldSegments values onset stop maxGap).map fun s =>
        s.value * max 0 (s.finish - max s.start cut)).sum : ℚ) := by
  have hclip : Set.Ico (onset : ℝ) stop ∩ Set.Ici (cut : ℝ) = Set.Ico (cut : ℝ) stop := by
    have hle : (onset : ℝ) ≤ cut := by exact_mod_cast honset
    rw [Set.Ico_inter_Ici, max_eq_right hle]
  have hcutStop : (cut : ℝ) ≤ stop := by exact_mod_cast hcut
  rw [intervalIntegral.integral_of_le hcutStop, ← MeasureTheory.integral_Ico_eq_integral_Ioc,
    ← hclip, ← hwhole]
  exact integral_clipped h _ HeldSegment.value
    (fun s hs t hlow hhigh => leftHeld_on_segment h hs hlow hhigh) cut

theorem coveredPodSeconds_eq_sum :
    (integrate values onset stop offeredEnd maxGap).coveredPodSeconds =
      ((heldSegments values onset stop maxGap).map fun s =>
        s.value * (s.finish - s.start)).sum := by
  unfold integrate
  rw [integrate_totals]

theorem coveredPodSeconds_eq (h : OrderedSamples values) :
    ((integrate values onset stop offeredEnd maxGap).coveredPodSeconds : ℝ) =
      ∫ t in coveredPart values onset stop maxGap, leftHeld values t := by
  rw [coveredPodSeconds_eq_sum]
  exact (integral_coveredPart h _ HeldSegment.value
    fun s hs t hlow hhigh => leftHeld_on_segment h hs hlow hhigh).symm

/-- With the whole window known both totals are integrals over it. -/
theorem totals_known (h : OrderedSamples values) (hload : onset ≤ offeredEnd)
    (hend : offeredEnd ≤ stop)
    (hknown : (integrate values onset stop offeredEnd maxGap).unknownIntervalsSeconds = []) :
    ∃ pods post : ℚ,
      (integrate values onset stop offeredEnd maxGap).podSeconds = some pods ∧
      (integrate values onset stop offeredEnd maxGap).postLoadPodSeconds = some post ∧
      (pods : ℝ) = ∫ t in (onset : ℝ)..stop, leftHeld values t ∧
      (post : ℝ) = ∫ t in (offeredEnd : ℝ)..stop, leftHeld values t := by
  have hwindow := hload.trans hend
  have hwhole := coveredPart_of_known h hknown
  have hunknown : (integrate values onset stop offeredEnd maxGap).unknownSeconds = 0 := by
    rw [← unknown_total h hwindow, hknown]
    rfl
  have hcomplete : (integrate values onset stop offeredEnd maxGap).coverageComplete = true := by
    rw [complete_iff h hwindow, hunknown]
    norm_num
  have hpods : (integrate values onset stop offeredEnd maxGap).podSeconds =
      some (integrate values onset stop offeredEnd maxGap).coveredPodSeconds :=
    if_pos hcomplete
  have hpost : (integrate values onset stop offeredEnd maxGap).postLoadPodSeconds =
      some ((heldSegments values onset stop maxGap).map fun s =>
        s.value * max 0 (s.finish - max s.start offeredEnd)).sum := by
    refine (if_pos hcomplete).trans ?_
    rw [integrate_totals]
  refine ⟨_, _, hpods, hpost, ?_, (integral_known h hload hend hwhole).symm⟩
  have hle : (onset : ℝ) ≤ stop := by exact_mod_cast hwindow
  rw [coveredPodSeconds_eq h, hwhole, intervalIntegral.integral_of_le hle,
    MeasureTheory.integral_Ico_eq_integral_Ioc]

/-- The figures of `integrate` account for the window. -/
theorem integrate_accounts (h : OrderedSamples values) (hload : onset ≤ offeredEnd)
    (hend : offeredEnd ≤ stop) :
    Accounts values onset stop offeredEnd maxGap
      (integrate values onset stop offeredEnd maxGap) where
  separated := unknownIntervals_separated h
  within := by
    have hordered := heldSegments_ordered onset stop maxGap h
    rw [unknownIntervals_eq, IntervalCover.forall_mem_shift]
    intro i hi
    have ⟨hlow, hhigh⟩ := IntervalCover.gaps_within hordered i hi
    exact ⟨sub_nonneg.mpr hlow, sub_le_sub_right hhigh onset⟩
  partition := covers_unknown_iff h
  unknownTotal := unknown_total h (hload.trans hend)
  coveredLength := by
    rw [volume_coveredPart h]
    unfold integrate
    rw [integrate_totals]
  window := by
    unfold integrate
    ring
  coveredPods := coveredPodSeconds_eq h
  complete := complete_iff h (hload.trans hend)
  known := totals_known h hload hend

end Accounts

def falsePart (values : List (StateSample ℚ)) (onset stop maxGap : ℚ) : Set ℝ :=
  {t ∈ coveredPart values onset stop maxGap | leftHeld values t = 1}

/-- The reported intervals are the maximal ones of the false part. -/
structure FalseIntervals (values : List (StateSample ℚ)) (onset stop maxGap : ℚ)
    (evidence : ReadinessEvidence) : Prop where
  separated : IntervalCover.Separated evidence.sampledFalseIntervalsSeconds
  exact : ∀ t : ℝ,
    IntervalCover.Covers realTime evidence.sampledFalseIntervalsSeconds (t - onset) ↔
      t ∈ falsePart values onset stop maxGap
  maximal : ∀ i ∈ evidence.sampledFalseIntervalsSeconds, ∀ a b : ℝ, a ≤ i.1 → i.2 ≤ b →
    (∀ t, a ≤ t → t < b → onset + t ∈ falsePart values onset stop maxGap) → a = i.1 ∧ b = i.2
  total : IntervalCover.total evidence.sampledFalseIntervalsSeconds = evidence.sampledFalseSeconds

section Readiness

variable {onset stop maxGap : ℚ} {values : List (StateSample ℚ)}

def HeldSegment.isFalse (s : HeldSegment) : Bool := decide (s.value = 1)

def falseSegments (values : List (StateSample ℚ)) (onset stop maxGap : ℚ) : List HeldSegment :=
  (heldSegments values onset stop maxGap).filter HeldSegment.isFalse

/-- A pair joins its segment, if it has one and that is false. -/
theorem readiness_accumulate_eq (intervals : List (ℚ × ℚ))
    (pair : StateSample ℚ × StateSample ℚ) :
    readinessEvidence.accumulate onset stop maxGap intervals pair =
      match heldSegment onset stop maxGap pair with
      | none => intervals
      | some s =>
        if s.value = 1 then IntervalCover.join intervals (s.start - onset, s.finish - onset)
        else intervals := by
  obtain ⟨left, right⟩ := pair
  unfold readinessEvidence.accumulate heldSegment
  dsimp only
  cases left.value with
  | none => simp
  | some value =>
    cases right.value with
    | none => simp
    | some next =>
      dsimp only
      by_cases hheld : max onset left.finish < min stop right.finish ∧
          right.finish - left.finish ≤ maxGap
      · rw [if_pos hheld]
        dsimp only
        by_cases hfalse : value = 1
        · have hcount : ¬ (min stop right.finish ≤ max onset left.finish ∨
              some value ≠ some 1 ∨ some next = none ∨
                maxGap < right.finish - left.finish) := by
            simp only [hfalse, ne_eq, not_true_eq_false, reduceCtorEq, false_or, not_or, not_le,
              not_lt]
            exact hheld
          rw [if_neg hcount, if_pos hfalse]
          unfold IntervalCover.join
          cases intervals.getLast? <;> rfl
        · have hskip : some value ≠ some 1 := fun h => hfalse (Option.some.inj h)
          rw [if_pos (.inr (.inl hskip)), if_neg hfalse]
      · rw [if_neg hheld]
        dsimp only
        refine if_pos ?_
        rcases not_and_or.mp hheld with hempty | hgap
        · exact .inl (not_lt.mp hempty)
        · exact .inr (.inr (.inr (not_le.mp hgap)))

theorem foldl_readiness_accumulate (pairs : List (StateSample ℚ × StateSample ℚ))
    (intervals : List (ℚ × ℚ)) :
    pairs.foldl (readinessEvidence.accumulate onset stop maxGap) intervals =
      (IntervalCover.shift onset (((pairs.filterMap (heldSegment onset stop maxGap)).filter
        HeldSegment.isFalse).map HeldSegment.interval)).foldl IntervalCover.join intervals := by
  induction pairs generalizing intervals with
  | nil => rfl
  | cons pair rest ih =>
    rw [List.foldl_cons, ih, readiness_accumulate_eq]
    cases hsegment : heldSegment onset stop maxGap pair with
    | none => rw [List.filterMap_cons_none hsegment]
    | some s =>
      rw [List.filterMap_cons_some hsegment]
      by_cases hfalse : s.value = 1
      · have hkeep : s.isFalse = true := decide_eq_true hfalse
        rw [List.filter_cons_of_pos hkeep]
        dsimp only
        rw [if_pos hfalse]
        rfl
      · rw [List.filter_cons_of_neg (by simpa [HeldSegment.isFalse] using hfalse)]
        dsimp only
        rw [if_neg hfalse]

theorem falseIntervals_eq : (values.zip values.tail).foldl
      (readinessEvidence.accumulate onset stop maxGap) [] =
    IntervalCover.joined (IntervalCover.shift onset
      ((falseSegments values onset stop maxGap).map HeldSegment.interval)) :=
  foldl_readiness_accumulate _ _

theorem falseSegments_ordered (onset stop maxGap : ℚ) (h : OrderedSamples values) :
    IntervalCover.Ordered onset stop
      ((falseSegments values onset stop maxGap).map HeldSegment.interval) := by
  have hordered := heldSegments_ordered onset stop maxGap h
  exact hordered.sublist (List.filter_sublist.map _)

/-- A point is on a false segment when it is covered and the held value is one. -/
theorem covers_falseSegments_iff (h : OrderedSamples values) (t : ℝ) :
    IntervalCover.Covers realTime
      ((falseSegments values onset stop maxGap).map HeldSegment.interval) t ↔
        t ∈ falsePart values onset stop maxGap := by
  constructor
  · rintro ⟨i, hi, hlow, hhigh⟩
    obtain ⟨s, hs, rfl⟩ := List.mem_map.mp hi
    obtain ⟨hmem, hfalse⟩ := List.mem_filter.mp hs
    refine ⟨mem_coveredPart_iff.mpr ⟨s, hmem, hlow, hhigh⟩, ?_⟩
    rw [leftHeld_on_segment h hmem hlow hhigh, of_decide_eq_true hfalse]
    exact Rat.cast_one
  · rintro ⟨hcovered, hheld⟩
    obtain ⟨s, hmem, hlow, hhigh⟩ := mem_coveredPart_iff.mp hcovered
    rw [leftHeld_on_segment h hmem hlow hhigh] at hheld
    have hfalse : s.value = 1 := by exact_mod_cast hheld
    have hs : s ∈ falseSegments values onset stop maxGap :=
      List.mem_filter.mpr ⟨hmem, decide_eq_true hfalse⟩
    exact ⟨s.interval, List.mem_map_of_mem hs, hlow, hhigh⟩

/-- With values zero and one the integral is the length of the false segments. -/
theorem total_falseSegments (hbinary : ∀ s ∈ heldSegments values onset stop maxGap,
    s.value = 0 ∨ s.value = 1) :
    IntervalCover.total ((falseSegments values onset stop maxGap).map HeldSegment.interval) =
      ((heldSegments values onset stop maxGap).map fun s =>
        s.value * (s.finish - s.start)).sum := by
  unfold falseSegments
  generalize heldSegments values onset stop maxGap = segments at hbinary
  induction segments with
  | nil => rfl
  | cons s rest ih =>
    obtain ⟨hs, hrest⟩ := List.forall_mem_cons.mp hbinary
    rw [List.map_cons, List.sum_cons, ← ih hrest]
    rcases hs with hzero | hone
    · rw [List.filter_cons_of_neg (by simp [HeldSegment.isFalse, hzero]), hzero, zero_mul, zero_add]
    · have hkeep : s.isFalse = true := decide_eq_true hone
      rw [List.filter_cons_of_pos hkeep, hone, one_mul, List.map_cons, IntervalCover.total_cons]
      rfl

/-- With known statuses only, the evidence is produced. -/
theorem readinessEvidence_ok (onset stop maxGap : ℚ)
    (hbinary : ∀ sample ∈ values, ∀ value ∈ sample.value, value = 0 ∨ value = 1) :
    ∃ evidence, readinessEvidence values onset stop maxGap = .ok evidence ∧
      evidence.sampledFalseSeconds =
        (integrate values onset stop stop maxGap).coveredPodSeconds ∧
      evidence.sampledFalseIntervalsSeconds = (values.zip values.tail).foldl
        (readinessEvidence.accumulate onset stop maxGap) [] := by
  have hstatus : ∀ sample ∈ values.filter fun row =>
      decide (onset - maxGap ≤ row.finish) && decide (row.finish ≤ stop + maxGap),
      ∃ entry, ((readinessEvidence.status sample.value).map fun status =>
        ReadinessSample.mk (sample.start - onset, sample.finish - onset) status) = .ok entry := by
    intro sample hsample
    have hvalue := hbinary sample (List.mem_of_mem_filter hsample)
    cases hcase : sample.value with
    | none => exact ⟨_, rfl⟩
    | some value =>
      rcases hvalue value hcase with rfl | rfl
      · exact ⟨_, rfl⟩
      · exact ⟨_, rfl⟩
  obtain ⟨samples, hsamples⟩ := (FirstFailure.exists_collect_ok_iff _ _).mpr hstatus
  unfold readinessEvidence
  dsimp only
  rw [hsamples]
  exact ⟨_, rfl, rfl, rfl⟩

/-- The false intervals are those of the false part, each as long as possible. -/
theorem readiness_false (h : OrderedSamples values)
    (hbinary : ∀ sample ∈ values, ∀ value ∈ sample.value, value = 0 ∨ value = 1) :
    ∃ evidence, readinessEvidence values onset stop maxGap = .ok evidence ∧
      FalseIntervals values onset stop maxGap evidence := by
  obtain ⟨evidence, hok, hseconds, hintervals⟩ :=
    readinessEvidence_ok onset stop maxGap hbinary
  have hordered := (falseSegments_ordered onset stop maxGap h).shift onset
  have hseparated := IntervalCover.joined_separated hordered
  rw [falseIntervals_eq] at hintervals
  rw [← hintervals] at hseparated
  have hsub : ∀ a b, realTime (a - b) = realTime a - realTime b := Rat.cast_sub
  have hexact : ∀ t : ℝ,
      IntervalCover.Covers realTime evidence.sampledFalseIntervalsSeconds (t - onset) ↔
        t ∈ falsePart values onset stop maxGap := by
    intro t
    rw [hintervals, IntervalCover.covers_joined_iff hordered, ← covers_falseSegments_iff h t]
    exact IntervalCover.covers_shift_iff hsub onset t
  refine ⟨evidence, hok, hseparated, hexact, ?_, ?_⟩
  · intro i hi a b ha hb hpart
    refine hseparated.maximal (e := realTime) hi ha hb fun t hlow hhigh => ?_
    have hcovers := (hexact (onset + t)).mpr (hpart t hlow hhigh)
    rwa [add_sub_cancel_left] at hcovers
  · have hvalues : ∀ s ∈ heldSegments values onset stop maxGap, s.value = 0 ∨ s.value = 1 := by
      intro s hs
      obtain ⟨⟨left, right⟩, hmem, hsegment⟩ := List.mem_filterMap.mp hs
      exact hbinary left (List.of_mem_zip hmem).1 s.value (heldSegment_eq_some.mp hsegment).1
    rw [hintervals, IntervalCover.total_joined, IntervalCover.total_shift,
      total_falseSegments hvalues, hseconds, coveredPodSeconds_eq_sum]

end Readiness

/-- The figures account for every point of the window, the totals are integrals of the left-held
value, and the false intervals are the maximal ones. -/
theorem replica_time_partitions (values : List (StateSample ℚ)) (hvalues : OrderedSamples values)
    (onset offeredEnd stop maxGap : ℚ) (hload : onset ≤ offeredEnd) (hend : offeredEnd ≤ stop) :
    Accounts values onset stop offeredEnd maxGap
      (integrate values onset stop offeredEnd maxGap) ∧
    ((∀ sample ∈ values, ∀ value ∈ sample.value, value = 0 ∨ value = 1) →
      ∃ evidence, readinessEvidence values onset stop maxGap = .ok evidence ∧
        FalseIntervals values onset stop maxGap evidence) :=
  ⟨integrate_accounts hvalues hload hend, readiness_false hvalues⟩

/-- A failed read at 6 and a missing one after 10, in a window from 0 to 12. -/
def gapSamples : List (StateSample ℚ) :=
  [⟨-2, -1, some 0⟩, ⟨1, 2, some 1⟩, ⟨5 / 2, 3, some 1⟩, ⟨7 / 2, 4, some 1⟩, ⟨5, 6, none⟩,
    ⟨7, 8, some 1⟩, ⟨9, 10, some 0⟩, ⟨19, 20, some 0⟩]

theorem replica_time_partitions_gaps :
    Accounts gapSamples 0 12 8 3 (integrate gapSamples 0 12 8 3) ∧
      (integrate gapSamples 0 12 8 3).unknownIntervalsSeconds = [(4, 8), (10, 12)] ∧
      ∃ evidence, readinessEvidence gapSamples 0 12 3 = .ok evidence ∧
        FalseIntervals gapSamples 0 12 3 evidence := by
  have hordered : OrderedSamples gapSamples := ⟨by decide +kernel, by decide +kernel⟩
  have hparts := replica_time_partitions gapSamples hordered 0 8 12 3 (by norm_num) (by norm_num)
  exact ⟨hparts.1, by decide +kernel, hparts.2 (by decide +kernel)⟩

end Autoscaler.Analysis
