import Autoscaler.Analysis.ScalingMetrics
import Autoscaler.Library.Binary64
import Autoscaler.Library.Breakpoints
import Autoscaler.Library.ComparisonSort
import Autoscaler.Library.StepIntegral
import Mathlib.Algebra.Order.Floor.Ring

/-! The controlled measurement of one fixed window from load onset to the end of the tail. -/
namespace Autoscaler.Analysis

/-- `<` of floats. No number is less than NaN, and NaN is less than none. -/
def floatLt : Float64 ℚ → Float64 ℚ → Bool
  | .finite a, .finite b => decide (a < b)
  | .finite _, .inf negative => !negative
  | .inf negative, .finite _ => negative
  | .inf a, .inf b => a && !b
  | .nan, _ => false
  | _, .nan => false

def SampleLt (a b : ReplicaSample) : Prop := a.1 < b.1 ∨ a.1 = b.1 ∧ floatLt a.2 b.2 = true

instance (a b : ReplicaSample) : Decidable (SampleLt a b) :=
  inferInstanceAs (Decidable (a.1 < b.1 ∨ a.1 = b.1 ∧ floatLt a.2 b.2 = true))

/-- `sorted`, which uses `<` alone. -/
def sorted (samples : List ReplicaSample) : List ReplicaSample :=
  samples.insertionSort fun a b => ¬ SampleLt b a

/-- `round`, with ties to even. -/
def roundDecimals (digits : ℕ) (value : ℚ) : ℚ :=
  let scaled := value * 10 ^ digits
  let down := ⌊scaled⌋
  let rounded :=
    if scaled - down < 1 / 2 then down
    else if 1 / 2 < scaled - down then down + 1
    else down + down % 2
  rounded / 10 ^ digits

/-- What the runner wrote to `k6-start-time-unix` and `k6-end-time-unix`. -/
structure RunnerTimes where
  start : Except String ℤ
  finish : Except String ℤ

/-- The metadata read here. A value that is missing or not a number is the text of its exception. -/
structure Metadata where
  pattern : Except String String
  postLoadTailSeconds : Except String ℤ
  observationEndTimeUnix : Except String ℤ
  endTimeUnix : Except String ℤ
  loadStartTimeUnix : Option (Except String ℤ)
  offeredLoadEndTimeUnix : Option (Except String ℤ)

def patternLoadDurationSeconds (pattern : String) : Except String ℤ :=
  if pattern = "step" then .ok 211
  else if pattern = "ramp" then .ok 270
  else if pattern = "spike" then .ok 241
  else .error ("'" ++ pattern ++ "'")

structure WindowTimes where
  runnerStart : ℤ
  runnerEnd : ℤ
  loadOnset : ℤ
  offeredLoadEnd : ℤ
  tailEnd : ℤ
  windowDurationSeconds : ℤ
  postLoadDurationSeconds : ℤ
  deriving DecidableEq, Repr

structure ControlledEvent where
  timeUnix : ℤ
  afterLoadOnsetSeconds : ℤ
  fromReplicas : ℤ
  toReplicas : ℤ
  deriving DecidableEq, Repr

structure ControlledFigures where
  initialReplicasAtLoadOnset : ℤ
  replicasAtOfferedLoadEnd : ℤ
  finalReplicas : ℤ
  peakReplicas : ℤ
  firstScaleupAfterLoadOnsetSeconds : Option ℤ
  firstScaledownAfterOfferedLoadEndSeconds : Option ℤ
  fullScaledownAfterOfferedLoadEndSeconds : Option ℤ
  scaledownCompleted : Bool
  podSecondsLoadOnsetToTailEnd : ℚ
  avgReplicasLoadOnsetToTailEnd : ℚ
  podSecondsPostLoad : ℚ
  excessPodSecondsPostLoad : ℚ
  postLoadAboveMinSeconds : ℚ
  deriving DecidableEq, Repr

structure ControlledMeasurement where
  windowValid : Bool
  samplingPrecisionSeconds : ℤ
  dataSource : String
  events : List ControlledEvent
  times : Option WindowTimes
  figures : Option ControlledFigures
  deriving DecidableEq, Repr

/-- A time that the metadata may declare has to agree with the runner. -/
def checkDeclared (key : String) (declared : Option (Except String ℤ)) (expected : ℤ) :
    Except String Unit :=
  match declared with
  | none => .ok ()
  | some (.error exc) => .error exc
  | some (.ok value) =>
    if value ≠ expected then .error (key ++ " disagrees with the runner timestamp and schedule")
    else .ok ()

/-- The times of the window, with what the metadata says about them checked. -/
def controlledWindow (runner : RunnerTimes) (metadata : Metadata) : Except String WindowTimes := do
  let runnerStart ← runner.start
  let runnerEnd ← runner.finish
  let pattern ← metadata.pattern
  let schedule ← patternLoadDurationSeconds pattern
  let tailSeconds ← metadata.postLoadTailSeconds
  let onset := runnerStart + 30
  let offeredEnd := runnerStart + schedule
  let tailEnd ← metadata.observationEndTimeUnix
  if runnerStart ≤ 0 ∨ runnerEnd < offeredEnd - 2 then
    .error "runner timestamps do not cover the declared load schedule"
  else if tailSeconds ≠ 360 ∨ tailEnd ≠ offeredEnd + tailSeconds then
    .error "observation boundary does not match offered load end + 360s"
  else
    let endTime ← metadata.endTimeUnix
    if endTime < tailEnd then
      .error "collection ended before the declared observation boundary"
    else
      checkDeclared "load_start_time_unix" metadata.loadStartTimeUnix onset
      checkDeclared "offered_load_end_time_unix" metadata.offeredLoadEndTimeUnix offeredEnd
      return {
        runnerStart := runnerStart
        runnerEnd := runnerEnd
        loadOnset := onset
        offeredLoadEnd := offeredEnd
        tailEnd := tailEnd
        windowDurationSeconds := tailEnd - onset
        postLoadDurationSeconds := tailSeconds }

def invalidCount : Float64 ℚ → Bool
  | .finite value => decide (value < minReplicas ∨ value ≠ truncate value)
  | _ => true

def wholeCount (sample : ReplicaSample) : ℤ × ℤ := (sample.1, truncate sample.2.exact)

def selectTimeline (times : WindowTimes) (promReplicas : List ReplicaSample) :
    Except String (ReplicaSample × List ReplicaSample) :=
  let samples := sorted promReplicas
  match (samples.filter fun s => decide (s.1 ≤ times.loadOnset)).getLast? with
  | none => .error ("controlled measurement unavailable: " ++
      "no replica sample within 15s before load onset")
  | some baseline =>
    let within := samples.filter fun s => decide (times.loadOnset < s.1 ∧ s.1 ≤ times.tailEnd)
    let timeline := baseline :: within
    if times.loadOnset - baseline.1 > 15 then
      .error ("controlled measurement unavailable: " ++
        "no replica sample within 15s before load onset")
    else if times.tailEnd - (timeline.getLast (List.cons_ne_nil baseline within)).1 > 15 ∨
        (timeline.zip timeline.tail).any fun pair => decide (pair.2.1 - pair.1.1 > 15) then
      .error "controlled measurement unavailable: replica observation gap exceeds 15s"
    else if timeline.any fun s => invalidCount s.2 then
      .error "controlled measurement unavailable: invalid replica sample"
    else if (timeline.zip timeline.tail).any fun pair => decide (pair.1.1 ≥ pair.2.1) then
      .error "controlled measurement unavailable: duplicate replica sample timestamp"
    else .ok (baseline, within)

def controlledEvents (onset : ℤ) : ℤ → List (ℤ × ℤ) → List ControlledEvent
  | _, [] => []
  | previous, (ts, replicas) :: rest =>
    if replicas ≠ previous then
      ⟨ts, ts - onset, previous, replicas⟩ :: controlledEvents onset replicas rest
    else controlledEvents onset replicas rest

structure ControlledTotals where
  podSeconds : ℤ
  postLoadPodSeconds : ℤ
  excessPodSeconds : ℤ
  aboveMinSeconds : ℤ
  replicasAtOfferedEnd : ℤ

def controlledTotals (times : WindowTimes) : ControlledTotals → List (ℤ × ℤ) → ControlledTotals
  | totals, [] => totals
  | totals, (ts, replicas) :: rest =>
    let nextTs := ((rest.map Prod.fst).head?).getD times.tailEnd
    let segmentStart := max ts times.loadOnset
    let segmentEnd := min nextTs times.tailEnd
    let postSeconds := max 0 (segmentEnd - max segmentStart times.offeredLoadEnd)
    controlledTotals times {
      podSeconds := totals.podSeconds + replicas * max 0 (segmentEnd - segmentStart)
      postLoadPodSeconds := totals.postLoadPodSeconds + replicas * postSeconds
      excessPodSeconds := totals.excessPodSeconds + max 0 (replicas - minReplicas) * postSeconds
      aboveMinSeconds :=
        if replicas > minReplicas then totals.aboveMinSeconds + postSeconds
        else totals.aboveMinSeconds
      replicasAtOfferedEnd :=
        if ts ≤ times.offeredLoadEnd then replicas else totals.replicasAtOfferedEnd } rest

def controlledFigures (times : WindowTimes) (first : ℤ × ℤ) (rest : List (ℤ × ℤ)) :
    List ControlledEvent × ControlledFigures :=
  let events := controlledEvents times.loadOnset first.2 rest
  let totals := controlledTotals times ⟨0, 0, 0, 0, first.2⟩ (first :: rest)
  let last := ((first :: rest).getLast (List.cons_ne_nil first rest)).2
  let scaleups := events.filter fun e => decide (e.fromReplicas < e.toReplicas)
  let postDowns := events.filter fun e =>
    decide (times.offeredLoadEnd ≤ e.timeUnix ∧ e.toReplicas < e.fromReplicas)
  let completed := decide (last = minReplicas)
  let returnsToMin := postDowns.filter fun e => decide (e.toReplicas = minReplicas)
  let fullDown :=
    if completed then
      some ((returnsToMin.getLast?.map fun e => e.timeUnix - times.offeredLoadEnd).getD 0)
    else none
  (events, {
    initialReplicasAtLoadOnset := first.2
    replicasAtOfferedLoadEnd := totals.replicasAtOfferedEnd
    finalReplicas := last
    peakReplicas := rest.foldl (fun peak c => max peak c.2) first.2
    firstScaleupAfterLoadOnsetSeconds := scaleups.head?.map (·.afterLoadOnsetSeconds)
    firstScaledownAfterOfferedLoadEndSeconds :=
      postDowns.head?.map fun e => e.timeUnix - times.offeredLoadEnd
    fullScaledownAfterOfferedLoadEndSeconds := fullDown
    scaledownCompleted := completed
    podSecondsLoadOnsetToTailEnd := roundDecimals 1 totals.podSeconds
    avgReplicasLoadOnsetToTailEnd :=
      roundDecimals 2 (Binary64.round (totals.podSeconds / (times.tailEnd - times.loadOnset)))
    podSecondsPostLoad := roundDecimals 1 totals.postLoadPodSeconds
    excessPodSecondsPostLoad := roundDecimals 1 totals.excessPodSeconds
    postLoadAboveMinSeconds := roundDecimals 1 totals.aboveMinSeconds })

def computeControlledMeasurement (runner : RunnerTimes) (metadata : Metadata)
    (promReplicas : List ReplicaSample) : ControlledMeasurement × List String :=
  let result : ControlledMeasurement := {
    windowValid := false
    samplingPrecisionSeconds := 15
    dataSource := "prom.json replicas"
    events := []
    times := none
    figures := none }
  match controlledWindow runner metadata with
  | .error exc => (result, ["controlled measurement unavailable: " ++ exc])
  | .ok times =>
    match selectTimeline times promReplicas with
    | .error warning => ({ result with times := some times }, [warning])
    | .ok (baseline, within) =>
      let (events, figures) :=
        controlledFigures times (wholeCount baseline) (within.map wholeCount)
      ({ result with windowValid := true, events := events, times := some times,
                     figures := some figures },
        if figures.scaledownCompleted then []
        else ["controlled measurement scale-down censored: " ++
          "replicas remain above minReplicas at fixed tail end"])

/-! What the figures mean on the real time line. -/

noncomputable abbrev realSeconds : ℤ ↪o ℝ :=
  OrderEmbedding.ofMapLEIff (fun n => (n : ℝ)) fun _ _ => Int.cast_le

/-- A sample after which no other one by `t` comes. -/
def LastAt (samples : List ReplicaSample) (t : ℝ) (s : ReplicaSample) : Prop :=
  s ∈ samples ∧ (s.1 : ℝ) ≤ t ∧ ∀ s' ∈ samples, (s'.1 : ℝ) ≤ t → ¬ SampleLt s s'

/-- In the window `r` is the value of the last sample. -/
def Follows (samples : List ReplicaSample) (times : WindowTimes) (r : ℝ → ℝ) : Prop :=
  ∀ t ∈ Set.Icc (times.loadOnset : ℝ) times.tailEnd,
    ∃ s value, LastAt samples t s ∧ s.2 = .finite value ∧ r t = value

/-- The times after the offered load from which on `r` stays at the minimum. -/
def settledTimes (times : WindowTimes) (r : ℝ → ℝ) : Set ℝ :=
  {d | 0 ≤ d ∧ ∀ t ∈ Set.Icc (times.offeredLoadEnd + d) (times.tailEnd : ℝ), r t = minReplicas}

/-- The figures of the step function `r`. -/
structure Describes (times : WindowTimes) (figures : ControlledFigures) (r : ℝ → ℝ) : Prop where
  podSeconds : ∫ t in Set.Icc (times.loadOnset : ℝ) times.tailEnd, r t =
    figures.podSecondsLoadOnsetToTailEnd
  postLoad : ∫ t in Set.Icc (times.offeredLoadEnd : ℝ) times.tailEnd, r t =
    figures.podSecondsPostLoad
  excess : ∫ t in Set.Icc (times.offeredLoadEnd : ℝ) times.tailEnd, (r t - minReplicas) =
    figures.excessPodSecondsPostLoad
  aboveMin : MeasureTheory.volume.real
    {t ∈ Set.Icc (times.offeredLoadEnd : ℝ) times.tailEnd | minReplicas < r t} =
      figures.postLoadAboveMinSeconds
  peak : IsGreatest (r '' Set.Icc (times.loadOnset : ℝ) times.tailEnd) figures.peakReplicas
  completed : figures.scaledownCompleted = true ↔ r times.tailEnd = minReplicas
  fullScaledown : figures.scaledownCompleted = true →
    ∃ d : ℤ, figures.fullScaledownAfterOfferedLoadEndSeconds = some d ∧
      IsLeast (settledTimes times r) d

/-- The same last samples by the onset, and the same ones in the window in some order. -/
structure SameWindow (times : WindowTimes) (samples samples' : List ReplicaSample) : Prop where
  baseline : ∀ s, LastAt samples times.loadOnset s ↔ LastAt samples' times.loadOnset s
  within : (samples.filter fun s => decide (times.loadOnset < s.1 ∧ s.1 ≤ times.tailEnd)).Perm
    (samples'.filter fun s => decide (times.loadOnset < s.1 ∧ s.1 ≤ times.tailEnd))

/-- The measurement is that of the step function of the samples, and of nothing else. -/
structure MeasuresStep (runner : RunnerTimes) (metadata : Metadata) (samples : List ReplicaSample)
    (times : WindowTimes) (figures : ControlledFigures) : Prop where
  step : ∃ r, Follows samples times r
  figures : ∀ r, Follows samples times r → Describes times figures r
  independent : ∀ samples', SameWindow times samples samples' →
    computeControlledMeasurement runner metadata samples' =
      computeControlledMeasurement runner metadata samples

section Order

variable {samples : List ReplicaSample} {a b c : ReplicaSample}

theorem floatLt_asymm {a b : Float64 ℚ} (h : floatLt a b = true) : floatLt b a = false := by
  cases a <;> cases b <;> grind [floatLt]

theorem floatLt_trans {a b c : Float64 ℚ} (hb : b ≠ .nan) (hab : floatLt b a = false)
    (hbc : floatLt c b = false) : floatLt c a = false := by
  cases a <;> cases b <;> cases c <;> grind [floatLt]

theorem eq_of_floatLt_false {a b : Float64 ℚ} (ha : a ≠ .nan) (hb : b ≠ .nan)
    (hab : floatLt a b = false) (hba : floatLt b a = false) : a = b := by
  cases a <;> cases b <;> grind [floatLt]

theorem fst_le_of_not_lt (h : ¬ SampleLt b a) : a.1 ≤ b.1 :=
  not_lt.mp fun hlt => h (.inl hlt)

theorem fst_le_of_lt (h : SampleLt a b) : a.1 ≤ b.1 := by
  rcases h with hlt | ⟨heq, -⟩
  · exact hlt.le
  · exact heq.le

theorem sorted_perm (samples : List ReplicaSample) : (sorted samples).Perm samples :=
  List.perm_insertionSort _ _

theorem mem_sorted : a ∈ sorted samples ↔ a ∈ samples := (sorted_perm samples).mem_iff

theorem sorted_fst (samples : List ReplicaSample) :
    (sorted samples).Pairwise fun a b => a.1 ≤ b.1 :=
  ComparisonSort.pairwise_insertionSort (fun _ _ _ _ h => fst_le_of_not_lt h)
    (fun _ _ _ _ h => fst_le_of_lt (not_not.mp h)) fun _ _ _ _ _ _ => le_trans

/-- Samples of one time are in order when none of them is NaN. -/
theorem sorted_at {time : ℤ} (h : ∀ s ∈ samples, s.1 = time → s.2 ≠ .nan) :
    (sorted samples).Pairwise fun a b =>
      a.1 < b.1 ∨ a.1 = b.1 ∧ (a.1 = time → floatLt b.2 a.2 = false) := by
  refine ComparisonSort.pairwise_insertionSort (fun a _ b _ hle => ?_) (fun a _ b _ hlt => ?_)
    fun a _ b hb c _ hab hbc => ?_
  · rcases (fst_le_of_not_lt hle).lt_or_eq with hlt | heq
    · exact .inl hlt
    · refine .inr ⟨heq, fun _ => Bool.eq_false_iff.mpr fun hvalue => ?_⟩
      exact hle (.inr ⟨heq.symm, hvalue⟩)
  · rcases not_not.mp hlt with htime | ⟨heq, hvalue⟩
    · exact .inl htime
    · exact .inr ⟨heq, fun _ => floatLt_asymm hvalue⟩
  · rcases hab with hlt | ⟨heq, hvalue⟩
    · rcases hbc with hlt' | ⟨heq', -⟩
      · exact .inl (hlt.trans hlt')
      · exact .inl (hlt.trans_eq heq')
    · rcases hbc with hlt' | ⟨heq', hvalue'⟩
      · exact .inl (heq.trans_lt hlt')
      · refine .inr ⟨heq.trans heq', fun htime => ?_⟩
        have hb' := heq.symm.trans htime
        exact floatLt_trans (h b hb hb') (hvalue htime) (hvalue' hb')

end Order

section Baseline

variable {samples samples' : List ReplicaSample} {onset : ℤ} {b s s' : ReplicaSample} {t : ℝ}

theorem lastAt_congr (h : ∀ s, s ∈ samples ↔ s ∈ samples') :
    LastAt samples t s ↔ LastAt samples' t s := by
  unfold LastAt
  simp only [h]

theorem LastAt.fst_le (hs : LastAt samples t s) (hmem : s' ∈ samples) (ht : (s'.1 : ℝ) ≤ t) :
    s'.1 ≤ s.1 :=
  fst_le_of_not_lt (hs.2.2 s' hmem ht)

theorem LastAt.fst_eq (hs : LastAt samples t s) (hs' : LastAt samples t s') : s.1 = s'.1 :=
  le_antisymm (hs'.fst_le hs.1 hs.2.1) (hs.fst_le hs'.1 hs'.2.1)

theorem LastAt.unique (hs : LastAt samples t s) (hs' : LastAt samples t s') (hnan : s.2 ≠ .nan)
    (hnan' : s'.2 ≠ .nan) : s = s' := by
  have htime := hs.fst_eq hs'
  have hlt : floatLt s.2 s'.2 = false := Bool.eq_false_iff.mpr fun hvalue =>
    hs.2.2 s' hs'.1 hs'.2.1 (.inr ⟨htime, hvalue⟩)
  have hgt : floatLt s'.2 s.2 = false := Bool.eq_false_iff.mpr fun hvalue =>
    hs'.2.2 s hs.1 hs.2.1 (.inr ⟨htime.symm, hvalue⟩)
  exact Prod.ext htime (eq_of_floatLt_false hnan hnan' hlt hgt)

theorem floatLt_nan (x : Float64 ℚ) : floatLt .nan x = false := by
  cases x <;> rfl

theorem lastAt_nan (hmem : s ∈ samples) (hle : (s.1 : ℝ) ≤ t) (hnan : s.2 = .nan)
    (hlatest : ∀ s' ∈ samples, (s'.1 : ℝ) ≤ t → s'.1 ≤ s.1) : LastAt samples t s := by
  refine ⟨hmem, hle, fun other hother hle => ?_⟩
  rintro (hlt | ⟨-, hvalue⟩)
  · exact (hlatest other hother hle).not_gt hlt
  · rw [hnan, floatLt_nan] at hvalue
    cases hvalue

theorem baseline_spec
    (hb : ((sorted samples).filter fun s => decide (s.1 ≤ onset)).getLast? = some b) :
    b ∈ samples ∧ b.1 ≤ onset ∧ ∀ s ∈ samples, s.1 ≤ onset → s.1 ≤ b.1 := by
  obtain ⟨init, hsplit⟩ := List.getLast?_eq_some_iff.mp hb
  have hmem : b ∈ (sorted samples).filter fun s => decide (s.1 ≤ onset) := by
    rw [hsplit]
    exact List.mem_append_right init List.mem_cons_self
  obtain ⟨hsorted, honset⟩ := List.mem_filter.mp hmem
  refine ⟨mem_sorted.mp hsorted, of_decide_eq_true honset, fun s hs hle => ?_⟩
  have hs' : s ∈ init ++ [b] :=
    hsplit ▸ List.mem_filter.mpr ⟨mem_sorted.mpr hs, decide_eq_true hle⟩
  have hordered := (sorted_fst samples).filter fun s => decide (s.1 ≤ onset)
  rw [hsplit] at hordered
  rcases List.mem_append.mp hs' with hinit | hlast
  · exact (List.pairwise_append.mp hordered).2.2 s hinit b List.mem_cons_self
  · rw [List.mem_singleton.mp hlast]

/-- Without NaN at its time the baseline is the last sample by the onset. -/
theorem baseline_lastAt
    (hb : ((sorted samples).filter fun s => decide (s.1 ≤ onset)).getLast? = some b)
    (hnan : ∀ s ∈ samples, s.1 = b.1 → s.2 ≠ .nan) : LastAt samples onset b := by
  obtain ⟨hmem, honset, hlatest⟩ := baseline_spec hb
  refine ⟨hmem, Int.cast_le.mpr honset, fun s hs hle => ?_⟩
  obtain ⟨init, hsplit⟩ := List.getLast?_eq_some_iff.mp hb
  have hs' : s ∈ init ++ [b] :=
    hsplit ▸ List.mem_filter.mpr ⟨mem_sorted.mpr hs, decide_eq_true (Int.cast_le.mp hle)⟩
  have hordered := (sorted_at hnan).filter fun s => decide (s.1 ≤ onset)
  rw [hsplit] at hordered
  rintro (hlt | ⟨htime, hvalue⟩)
  · exact (hlatest s hs (Int.cast_le.mp hle)).not_gt hlt
  · rcases List.mem_append.mp hs' with hinit | hlast
    · rcases (List.pairwise_append.mp hordered).2.2 s hinit b List.mem_cons_self with hlt | hval
      · exact hlt.ne htime.symm
      · rw [hval.2 htime.symm] at hvalue
        cases hvalue
    · rw [List.mem_singleton.mp hlast, floatLt_asymm (List.mem_singleton.mp hlast ▸ hvalue)]
        at hvalue
      cases hvalue

theorem baseline_last
    (hb : ((sorted samples).filter fun s => decide (s.1 ≤ onset)).getLast? = some b)
    (hnan : ∀ s ∈ samples, LastAt samples onset s → s.2 ≠ .nan) : LastAt samples onset b := by
  obtain ⟨-, honset, hlatest⟩ := baseline_spec hb
  refine baseline_lastAt hb fun s hs htime hvalue => hnan s hs ?_ hvalue
  refine lastAt_nan hs (Int.cast_le.mpr (htime.trans_le honset)) hvalue fun s' hs' hle => ?_
  exact (hlatest s' hs' (Int.cast_le.mp hle)).trans_eq htime.symm

/-- A NaN sample that comes last in the input is the baseline when its time is the latest one. -/
theorem baseline_concat_nan (samples : List ReplicaSample) {last : ReplicaSample}
    (hnan : last.2 = .nan) (honset : last.1 ≤ onset)
    (hlatest : ∀ s ∈ samples, s.1 ≤ onset → s.1 ≤ last.1) :
    ((sorted (samples ++ [last])).filter fun s => decide (s.1 ≤ onset)).getLast? = some last := by
  obtain ⟨pre, post, hsplit, hpost⟩ := ComparisonSort.insertionSort_concat
    (fun a b => ¬ SampleLt b a) samples last
  have hnone : post.filter (fun s => decide (s.1 ≤ onset)) = [] := by
    refine List.filter_eq_nil_iff.mpr fun s hs hle => ?_
    have hle := of_decide_eq_true hle
    rcases not_not.mp (hpost s hs) with hlt | ⟨-, hvalue⟩
    · have hmem : s ∈ samples ++ [last] := by
        refine (sorted_perm (samples ++ [last])).mem_iff.mp ?_
        rw [sorted, hsplit]
        exact List.mem_append_right pre (.tail _ hs)
      rcases List.mem_append.mp hmem with hmem | hmem
      · exact (hlatest s hmem hle).not_gt hlt
      · rw [List.mem_singleton.mp hmem] at hlt
        exact lt_irrefl _ hlt
    · rw [hnan, floatLt_nan] at hvalue
      cases hvalue
  rw [sorted, hsplit, List.filter_append, List.filter_cons, if_pos (decide_eq_true honset), hnone,
    List.getLast?_concat]

end Baseline

structure ValidTimeline (times : WindowTimes) (first : ℤ × ℤ) (rest : List (ℤ × ℤ)) : Prop where
  start : first.1 ≤ times.loadOnset
  after : ∀ c ∈ rest, times.loadOnset < c.1 ∧ c.1 ≤ times.tailEnd
  increasing : Breakpoints.Increasing (first :: rest)
  counts : ∀ c ∈ first :: rest, minReplicas ≤ c.2

section Timeline

variable {times : WindowTimes} {samples samples' : List ReplicaSample} {baseline s : ReplicaSample}
  {within : List ReplicaSample}

theorem eq_wholeCount (h : ¬ invalidCount s.2 = true) :
    s = ((wholeCount s).1, .finite ((wholeCount s).2 : ℚ)) ∧ minReplicas ≤ (wholeCount s).2 := by
  obtain ⟨ts, value⟩ := s
  cases value with
  | finite value =>
    rw [invalidCount, decide_eq_true_eq, not_or, not_lt, ne_eq, not_not] at h
    obtain ⟨hmin, hwhole⟩ := h
    rw [hwhole, Int.cast_le] at hmin
    exact ⟨by rw [wholeCount, Float64.exact_finite, ← hwhole], hmin⟩
  | nan => exact absurd rfl h
  | inf negative => exact absurd rfl h

theorem selectTimeline_ok (h : selectTimeline times samples = .ok (baseline, within)) :
    ((sorted samples).filter fun s => decide (s.1 ≤ times.loadOnset)).getLast? = some baseline ∧
      within = (sorted samples).filter (fun s =>
        decide (times.loadOnset < s.1 ∧ s.1 ≤ times.tailEnd)) ∧
      (∀ s ∈ baseline :: within, ¬ invalidCount s.2 = true) ∧
      (baseline :: within).IsChain fun a b => a.1 < b.1 := by
  unfold selectTimeline at h
  dsimp only at h
  cases hlast : ((sorted samples).filter fun s => decide (s.1 ≤ times.loadOnset)).getLast? with
  | none =>
    rw [hlast] at h
    cases h
  | some last =>
    rw [hlast] at h
    dsimp only at h
    split_ifs at h with hstale hgap hinvalid hduplicate
    cases h
    refine ⟨rfl, rfl, fun s hs hcount => ?_, ?_⟩
    · exact hinvalid (List.any_eq_true.mpr ⟨s, hs, hcount⟩)
    · rw [← Adjacent.forall_zip_tail_iff]
      intro pair hpair
      by_contra hnot
      exact hduplicate (List.any_eq_true.mpr ⟨pair, hpair, decide_eq_true (not_lt.mp hnot)⟩)

theorem selectTimeline_congr
    (hbaseline : ((sorted samples').filter fun s => decide (s.1 ≤ times.loadOnset)).getLast? =
      ((sorted samples).filter fun s => decide (s.1 ≤ times.loadOnset)).getLast?)
    (hwithin : (sorted samples').filter
        (fun s => decide (times.loadOnset < s.1 ∧ s.1 ≤ times.tailEnd)) =
      (sorted samples).filter fun s => decide (times.loadOnset < s.1 ∧ s.1 ≤ times.tailEnd)) :
    selectTimeline times samples' = selectTimeline times samples := by
  unfold selectTimeline
  dsimp only
  rw [hbaseline, hwithin]

theorem validTimeline (h : selectTimeline times samples = .ok (baseline, within)) :
    ValidTimeline times (wholeCount baseline) (within.map wholeCount) := by
  obtain ⟨hlast, hwithin, hvalid, hchain⟩ := selectTimeline_ok h
  have htrans : IsTrans ReplicaSample fun a b => a.1 < b.1 := ⟨fun _ _ _ => lt_trans⟩
  constructor
  · exact (baseline_spec hlast).2.1
  · rw [List.forall_mem_map]
    intro s hs
    rw [hwithin] at hs
    exact of_decide_eq_true (List.mem_filter.mp hs).2
  · rw [← List.map_cons]
    exact List.pairwise_map.mpr hchain.pairwise
  · rw [← List.map_cons, List.forall_mem_map]
    exact fun s hs => (eq_wholeCount (hvalid s hs)).2

theorem mem_samples (h : selectTimeline times samples = .ok (baseline, within)) :
    ∀ s ∈ baseline :: within, s ∈ samples := by
  obtain ⟨hlast, hwithin, -, -⟩ := selectTimeline_ok h
  refine List.forall_mem_cons.mpr ⟨(baseline_spec hlast).1, fun s hs => ?_⟩
  rw [hwithin] at hs
  exact mem_sorted.mp (List.mem_filter.mp hs).1

theorem exists_sample (h : selectTimeline times samples = .ok (baseline, within)) {c : ℤ × ℤ}
    (hc : c ∈ wholeCount baseline :: within.map wholeCount) :
    ∃ s ∈ baseline :: within, s = (c.1, .finite (c.2 : ℚ)) := by
  rw [← List.map_cons] at hc
  obtain ⟨s, hs, rfl⟩ := List.mem_map.mp hc
  exact ⟨s, hs, (eq_wholeCount ((selectTimeline_ok h).2.2.1 s hs)).1⟩

/-- A sample of the window is the entry of the timeline of its time. -/
theorem eq_of_within (h : selectTimeline times samples = .ok (baseline, within)) {c : ℤ × ℤ}
    (hc : c ∈ wholeCount baseline :: within.map wholeCount) (hs : s ∈ samples)
    (honset : times.loadOnset < s.1) (htail : s.1 ≤ times.tailEnd) :
    wholeCount s ∈ wholeCount baseline :: within.map wholeCount ∧
      (s.1 = c.1 → s = (c.1, .finite (c.2 : ℚ))) := by
  obtain ⟨-, hwithin, hvalid, -⟩ := selectTimeline_ok h
  have hmem : s ∈ within := by
    rw [hwithin]
    exact List.mem_filter.mpr ⟨mem_sorted.mpr hs, decide_eq_true ⟨honset, htail⟩⟩
  have hcount : wholeCount s ∈ wholeCount baseline :: within.map wholeCount :=
    .tail _ (List.mem_map_of_mem hmem)
  refine ⟨hcount, fun htime => ?_⟩
  have heq : wholeCount s = c := (validTimeline h).increasing.eq_of_fst_eq hcount hc htime
  rw [(eq_wholeCount (hvalid s (.tail _ hmem))).1, heq]

variable (h : selectTimeline times samples = .ok (baseline, within))
  (hnan : ∀ s ∈ samples, LastAt samples times.loadOnset s → s.2 ≠ .nan) {t : ℝ}

include h hnan

/-- The entry of the timeline in force is the last sample. -/
theorem lastAt_of_inForce {c : ℤ × ℤ} (htail : t ≤ times.tailEnd)
    (hc : Breakpoints.InForce realSeconds
      (wholeCount baseline :: within.map wholeCount) t c) :
    LastAt samples t (c.1, .finite (c.2 : ℚ)) := by
  obtain ⟨hmem, hle, hlatest⟩ := hc
  obtain ⟨s, hs, heq⟩ := exists_sample h hmem
  refine ⟨heq ▸ mem_samples h s hs, hle, fun s' hs' hle' hlt => ?_⟩
  by_cases honset : times.loadOnset < s'.1
  · have htail' : s'.1 ≤ times.tailEnd := Int.cast_le.mp (hle'.trans htail)
    obtain ⟨hcount, hsame⟩ := eq_of_within h hmem hs' honset htail'
    have htime := le_antisymm (hlatest _ hcount hle') (fst_le_of_lt hlt)
    rw [hsame htime] at hlt
    rcases hlt with hlt | ⟨-, hvalue⟩
    · exact lt_irrefl _ hlt
    · exact absurd hvalue (Bool.eq_false_iff.mp (floatLt_asymm hvalue))
  · have hbefore := (fst_le_of_lt hlt).trans (not_lt.mp honset)
    rcases List.mem_cons.mp hs with rfl | hwithin
    · have hlast := baseline_last (selectTimeline_ok h).1 hnan
      exact hlast.2.2 s' hs' (Int.cast_le.mpr (not_lt.mp honset)) (heq ▸ hlt)
    · have hlater := ((validTimeline h).after _ (List.mem_map_of_mem hwithin)).1
      have htime : (wholeCount s).1 = c.1 := by
        rw [heq]
        rfl
      exact absurd hbefore (htime ▸ hlater).not_ge

/-- By any time of the window the last sample is the entry of the timeline in force. -/
theorem lastAt_iff (honset : (times.loadOnset : ℝ) ≤ t) (htail : t ≤ times.tailEnd) :
    LastAt samples t s ↔ ∃ c, Breakpoints.InForce realSeconds
      (wholeCount baseline :: within.map wholeCount) t c ∧ s = (c.1, .finite (c.2 : ℚ)) := by
  constructor
  · intro hs
    have hvalid := validTimeline h
    have hstart : ((wholeCount baseline).1 : ℝ) ≤ t :=
      (Int.cast_le.mpr hvalid.start).trans honset
    obtain ⟨c, hc⟩ := Breakpoints.exists_inForce (e := realSeconds)
      hvalid.increasing hstart
    have hlast := lastAt_of_inForce h hnan htail hc
    have hnumber : s.2 ≠ .nan := by
      by_cases hlater : times.loadOnset < s.1
      · have htail' : s.1 ≤ times.tailEnd := Int.cast_le.mp (hs.2.1.trans htail)
        rw [(eq_of_within h hc.1 hs.1 hlater htail').2 (hs.fst_eq hlast)]
        nofun
      · have honset' : (s.1 : ℝ) ≤ times.loadOnset := Int.cast_le.mpr (not_lt.mp hlater)
        exact hnan s hs.1 ⟨hs.1, honset', fun s' hs' hle => hs.2.2 s' hs' (hle.trans honset)⟩
    exact ⟨c, hc, hs.unique hlast hnumber nofun⟩
  · rintro ⟨c, hc, rfl⟩
    exact lastAt_of_inForce h hnan htail hc

end Timeline

section Walks

variable {times : WindowTimes} {first : ℤ × ℤ} {rest : List (ℤ × ℤ)}

def controlledEvent (onset : ℤ) (pair : (ℤ × ℤ) × (ℤ × ℤ)) : ControlledEvent :=
  ⟨pair.2.1, pair.2.1 - onset, pair.1.2, pair.2.2⟩

theorem controlledEvents_eq (onset : ℤ) (first : ℤ × ℤ) (rest : List (ℤ × ℤ)) :
    controlledEvents onset first.2 rest =
      (Adjacent.changes Prod.snd (first :: rest)).map (controlledEvent onset) := by
  induction rest generalizing first with
  | nil => rfl
  | cons second rest ih =>
    obtain ⟨ts, replicas⟩ := second
    rw [controlledEvents, Adjacent.changes_cons_cons]
    by_cases hchange : first.2 = replicas
    · rw [if_neg (not_not.mpr hchange.symm), if_neg (not_not.mpr hchange), ← ih (ts, replicas)]
    · rw [if_pos (Ne.symm hchange), if_pos hchange, List.map_cons, ← ih (ts, replicas)]
      rfl

/-- What a held count adds up to from `cut` on. -/
def weighted (value : ℤ → ℤ) (cut : ℤ) (s : (ℤ × ℤ) × ℤ) : ℤ :=
  value s.1.2 * max 0 (s.2 - max s.1.1 cut)

/-- One over the minimum, and zero at it. -/
def aboveMin (replicas : ℤ) : ℤ := if replicas > minReplicas then 1 else 0

/-- The walk adds up the held counts. -/
theorem controlledTotals_eq (totals : ControlledTotals) {l : List (ℤ × ℤ)}
    (hwithin : ∀ c ∈ l, c.1 ≤ times.tailEnd) (hload : times.loadOnset ≤ times.offeredLoadEnd) :
    let held := Breakpoints.held times.tailEnd l
    let result := controlledTotals times totals l
    result.podSeconds = totals.podSeconds + (held.map (weighted id times.loadOnset)).sum ∧
    result.postLoadPodSeconds =
      totals.postLoadPodSeconds + (held.map (weighted id times.offeredLoadEnd)).sum ∧
    result.excessPodSeconds = totals.excessPodSeconds +
      (held.map (weighted (fun n => max 0 (n - minReplicas)) times.offeredLoadEnd)).sum ∧
    result.aboveMinSeconds =
      totals.aboveMinSeconds + (held.map (weighted aboveMin times.offeredLoadEnd)).sum := by
  induction l generalizing totals with
  | nil => simp [controlledTotals, Breakpoints.held]
  | cons c rest ih =>
    obtain ⟨ts, replicas⟩ := c
    obtain ⟨-, hrest⟩ := List.forall_mem_cons.mp hwithin
    have hnext : ((rest.map Prod.fst).head?).getD times.tailEnd ≤ times.tailEnd := by
      cases rest with
      | nil => exact le_rfl
      | cons next rest => exact hrest next List.mem_cons_self
    have hcut :
        max (max ts times.loadOnset) times.offeredLoadEnd = max ts times.offeredLoadEnd := by
      rw [max_assoc, max_eq_right hload]
    have habove : ∀ sum seconds : ℤ, (if replicas > minReplicas then sum + seconds else sum) =
        sum + aboveMin replicas * seconds := by
      intro sum seconds
      unfold aboveMin
      split_ifs <;> ring
    rw [Breakpoints.held_cons, controlledTotals]
    obtain ⟨hpod, hpost, hexcess, hmin⟩ := ih _ hrest
    simp only [List.map_cons, List.sum_cons, ← add_assoc]
    refine ⟨hpod.trans ?_, hpost.trans ?_, hexcess.trans ?_, hmin.trans ?_⟩
    · rw [min_eq_left hnext]
      rfl
    · rw [min_eq_left hnext, hcut]
      rfl
    · rw [min_eq_left hnext, hcut]
      rfl
    · rw [min_eq_left hnext, hcut, habove]
      rfl

theorem foldl_max_isGreatest (first : ℤ × ℤ) (rest : List (ℤ × ℤ)) :
    IsGreatest {n | ∃ c ∈ first :: rest, c.2 = n}
      (rest.foldl (fun peak c => max peak c.2) first.2) := by
  have hmax : ((first :: rest).map Prod.snd).max? =
      some (rest.foldl (fun peak c => max peak c.2) first.2) := by
    rw [List.map_cons, List.max?_cons', List.foldl_map]
  obtain ⟨hmem, hle⟩ := List.max?_eq_some_iff.mp hmax
  refine ⟨List.mem_map.mp hmem, ?_⟩
  rintro _ ⟨c, hc, rfl⟩
  exact hle _ (List.mem_map_of_mem hc)

theorem roundDecimals_intCast (digits : ℕ) (n : ℤ) : roundDecimals digits (n : ℚ) = n := by
  have hscaled : (n : ℚ) * 10 ^ digits = ((n * 10 ^ digits : ℤ) : ℚ) := by push_cast; rfl
  have hpow : (10 : ℚ) ^ digits ≠ 0 := pow_ne_zero _ (by norm_num)
  unfold roundDecimals
  dsimp only
  rw [hscaled, Int.floor_intCast, sub_self, if_pos one_half_pos, ← hscaled]
  exact mul_div_cancel_right₀ _ hpow

theorem patternLoadDurationSeconds_lt {pattern : String} {schedule : ℤ}
    (h : patternLoadDurationSeconds pattern = .ok schedule) : 30 < schedule := by
  unfold patternLoadDurationSeconds at h
  split_ifs at h <;> cases h <;> norm_num

/-- The window has its onset before the end of the load, and that before the end of the tail. -/
theorem controlledWindow_ok {runner : RunnerTimes} {metadata : Metadata}
    (h : controlledWindow runner metadata = .ok times) :
    times.loadOnset < times.offeredLoadEnd ∧ times.offeredLoadEnd < times.tailEnd := by
  unfold controlledWindow at h
  obtain ⟨runnerStart, -, h⟩ := FirstFailure.bind_eq_ok_iff.mp h
  obtain ⟨runnerEnd, -, h⟩ := FirstFailure.bind_eq_ok_iff.mp h
  obtain ⟨pattern, -, h⟩ := FirstFailure.bind_eq_ok_iff.mp h
  obtain ⟨schedule, hschedule, h⟩ := FirstFailure.bind_eq_ok_iff.mp h
  obtain ⟨tailSeconds, -, h⟩ := FirstFailure.bind_eq_ok_iff.mp h
  obtain ⟨tailEnd, -, h⟩ := FirstFailure.bind_eq_ok_iff.mp h
  have hlong := patternLoadDurationSeconds_lt hschedule
  split_ifs at h with hrunner htail
  obtain ⟨endTime, -, h⟩ := FirstFailure.bind_eq_ok_iff.mp h
  split_ifs at h with hend
  obtain ⟨-, -, h⟩ := FirstFailure.bind_eq_ok_iff.mp h
  obtain ⟨-, -, h⟩ := FirstFailure.bind_eq_ok_iff.mp h
  cases h
  dsimp only
  omega

end Walks

/-- In the window `r` is the count in force. -/
def TakesCounts (times : WindowTimes) (l : List (ℤ × ℤ)) (r : ℝ → ℝ) : Prop :=
  ∀ t ∈ Set.Icc (times.loadOnset : ℝ) times.tailEnd, ∀ c,
    Breakpoints.InForce realSeconds l t c → r t = c.2

section Figures

variable {times : WindowTimes} {first : ℤ × ℤ} {rest : List (ℤ × ℤ)} {r : ℝ → ℝ}
  (hvalid : ValidTimeline times first rest)

include hvalid

theorem ValidTimeline.within (hwindow : times.loadOnset ≤ times.tailEnd) :
    ∀ c ∈ first :: rest, c.1 ≤ times.tailEnd :=
  List.forall_mem_cons.mpr ⟨hvalid.start.trans hwindow, fun c hc => (hvalid.after c hc).2⟩

/-- The integral up to the tail end of a function of the count in force. -/
theorem integral_counts (hwindow : times.loadOnset ≤ times.tailEnd) {cut : ℤ}
    (hcut : times.loadOnset ≤ cut) (f : ℝ → ℝ) (value : ℤ → ℤ)
    (hf : ∀ t ∈ Set.Icc (times.loadOnset : ℝ) times.tailEnd, ∀ c,
      Breakpoints.InForce realSeconds (first :: rest) t c → f t = value c.2) :
    ∫ t in Set.Icc (cut : ℝ) times.tailEnd, f t =
      (((Breakpoints.held times.tailEnd (first :: rest)).map (weighted value cut)).sum : ℤ) := by
  have hwithin := hvalid.within hwindow
  have hcover : Set.Ico (cut : ℝ) times.tailEnd =
      StepIntegral.cover (fun s : (ℤ × ℤ) × ℤ => (s.1.1 : ℝ)) (fun s => (s.2 : ℝ))
        (Breakpoints.held times.tailEnd (first :: rest)) ∩ Set.Ici (cut : ℝ) := by
    ext t
    have hheld := Breakpoints.exists_mem_held_iff (e := realSeconds) (t := t) hwithin rfl
      hvalid.increasing
    constructor
    · rintro ⟨hlow, hhigh⟩
      have hstart : (first.1 : ℝ) ≤ t := (Int.cast_le.mpr (hvalid.start.trans hcut)).trans hlow
      exact ⟨hheld.mpr ⟨hstart, hhigh⟩, hlow⟩
    · rintro ⟨hmem, hlow⟩
      exact ⟨hlow, (hheld.mp hmem).2⟩
  have hordered : ∀ s ∈ Breakpoints.held times.tailEnd (first :: rest), (s.1.1 : ℝ) ≤ s.2 :=
    fun s hs => Int.cast_le.mpr (Breakpoints.held_within hwithin hvalid.increasing s hs).1
  have hdisjoint : (Breakpoints.held times.tailEnd (first :: rest)).Pairwise fun s later =>
      (s.2 : ℝ) ≤ later.1.1 :=
    (Breakpoints.held_pairwise hwithin hvalid.increasing).imp fun hle => Int.cast_le.mpr hle
  rw [MeasureTheory.integral_Icc_eq_integral_Ico, hcover,
    StepIntegral.integral_cover_Ici _ _ (fun s => ((value s.1.2 : ℤ) : ℝ)) f hordered hdisjoint _,
    Int.cast_list_sum, List.map_map]
  · congr 1
    refine List.map_congr_left fun s _ => ?_
    simp [weighted]
  · intro s hs t hlow hhigh hcutt
    have honset : (times.loadOnset : ℝ) ≤ t := (Int.cast_le.mpr hcut).trans hcutt
    have hend := (Breakpoints.held_within hwithin hvalid.increasing s hs).2
    have htail : t ≤ times.tailEnd := hhigh.le.trans (Int.cast_le.mpr hend)
    exact hf t ⟨honset, htail⟩ s.1
      (Breakpoints.inForce_of_mem_held hvalid.increasing hs hlow hhigh)

/-- Up to the tail end, the count in force is above the minimum where such a count is held. -/
theorem aboveMin_cover (hwindow : times.loadOnset ≤ times.tailEnd) {cut : ℤ}
    (hcut : times.loadOnset ≤ cut) (hr : TakesCounts times (first :: rest) r) :
    {t ∈ Set.Icc (cut : ℝ) times.tailEnd | (minReplicas : ℝ) < r t} \ {(times.tailEnd : ℝ)} =
      StepIntegral.cover (fun s : (ℤ × ℤ) × ℤ => (s.1.1 : ℝ)) (fun s => (s.2 : ℝ))
        ((Breakpoints.held times.tailEnd (first :: rest)).filter fun s =>
          decide (minReplicas < s.1.2)) ∩ Set.Ici (cut : ℝ) := by
  have hwithin := hvalid.within hwindow
  ext t
  constructor
  · rintro ⟨⟨⟨hlow, hhigh⟩, habove⟩, hne⟩
    have honset : (times.loadOnset : ℝ) ≤ t := (Int.cast_le.mpr hcut).trans hlow
    have hstart : (first.1 : ℝ) ≤ t := (Int.cast_le.mpr hvalid.start).trans honset
    obtain ⟨s, hs, hlo, hhi⟩ := (Breakpoints.exists_mem_held_iff (e := realSeconds) hwithin rfl
      hvalid.increasing).mpr ⟨hstart, lt_of_le_of_ne hhigh hne⟩
    have hforce := Breakpoints.inForce_of_mem_held (e := realSeconds) hvalid.increasing hs hlo hhi
    rw [hr t ⟨honset, hhigh⟩ s.1 hforce, Int.cast_lt] at habove
    exact ⟨⟨s, List.mem_filter.mpr ⟨hs, decide_eq_true habove⟩, hlo, hhi⟩, hlow⟩
  · rintro ⟨⟨s, hs, hlo, hhi⟩, hlow⟩
    obtain ⟨hs, habove⟩ := List.mem_filter.mp hs
    have hend := (Breakpoints.held_within hwithin hvalid.increasing s hs).2
    have htail : t < times.tailEnd := hhi.trans_le (Int.cast_le.mpr hend)
    have honset : (times.loadOnset : ℝ) ≤ t := (Int.cast_le.mpr hcut).trans hlow
    have hforce := Breakpoints.inForce_of_mem_held (e := realSeconds) hvalid.increasing hs hlo hhi
    refine ⟨⟨⟨hlow, htail.le⟩, ?_⟩, htail.ne⟩
    rw [hr t ⟨honset, htail.le⟩ s.1 hforce, Int.cast_lt]
    exact of_decide_eq_true habove

/-- The time up to the tail end at which the count in force is above the minimum. -/
theorem volume_aboveMin (hwindow : times.loadOnset ≤ times.tailEnd) {cut : ℤ}
    (hcut : times.loadOnset ≤ cut) (hr : TakesCounts times (first :: rest) r) :
    MeasureTheory.volume.real {t ∈ Set.Icc (cut : ℝ) times.tailEnd | minReplicas < r t} =
      (((Breakpoints.held times.tailEnd (first :: rest)).map (weighted aboveMin cut)).sum : ℤ) := by
  have hwithin := hvalid.within hwindow
  set held := Breakpoints.held times.tailEnd (first :: rest) with hheld
  set high := held.filter fun s => decide (minReplicas < s.1.2) with hhigh
  have hone := StepIntegral.integral_cover_Ici (fun s : (ℤ × ℤ) × ℤ => (s.1.1 : ℝ))
    (fun s => (s.2 : ℝ)) (fun _ => 1) (fun _ => 1) (l := high) ?_ ?_ cut fun _ _ _ _ _ _ => rfl
  · have hsum :
        (high.map (weighted aboveMin cut)).sum = (held.map (weighted aboveMin cut)).sum := by
      have hparts := List.sum_map_filter_add_sum_map_filter_not
        (fun s : (ℤ × ℤ) × ℤ => minReplicas < s.1.2) (weighted aboveMin cut) held
      rw [← hparts, left_eq_add]
      refine List.sum_eq_zero fun n hn => ?_
      obtain ⟨s, hs, rfl⟩ := List.mem_map.mp hn
      rw [weighted, aboveMin, if_neg (of_decide_eq_true (List.mem_filter.mp hs).2), zero_mul]
    rw [← MeasureTheory.measureReal_congr (MeasureTheory.sdiff_null_ae_eq_self
      (Real.volume_singleton (a := (times.tailEnd : ℝ)))), aboveMin_cover hvalid hwindow hcut hr,
      ← hsum]
    rw [MeasureTheory.setIntegral_const, smul_eq_mul, mul_one] at hone
    rw [hone, Int.cast_list_sum, List.map_map]
    congr 1
    refine List.map_congr_left fun s hs => ?_
    have habove : minReplicas < s.1.2 := of_decide_eq_true (List.mem_filter.mp hs).2
    simp [weighted, aboveMin, habove]
  · intro s hs
    have hmem := (List.mem_filter.mp hs).1
    exact Int.cast_le.mpr (Breakpoints.held_within hwithin hvalid.increasing s hmem).1
  · exact ((Breakpoints.held_pairwise hwithin hvalid.increasing).filter _).imp
      fun hle => Int.cast_le.mpr hle

theorem peak_isGreatest (hwindow : times.loadOnset ≤ times.tailEnd)
    (hr : TakesCounts times (first :: rest) r) :
    IsGreatest (r '' Set.Icc (times.loadOnset : ℝ) times.tailEnd)
      (rest.foldl (fun peak c => max peak c.2) first.2 : ℤ) := by
  obtain ⟨⟨top, htop, hpeak⟩, hle⟩ := foldl_max_isGreatest first rest
  constructor
  · rw [← hpeak]
    rcases List.mem_cons.mp htop with rfl | hmem
    · have hfirst : Breakpoints.InForce realSeconds (top :: rest) (times.loadOnset : ℝ) top :=
        (Breakpoints.inForce_iff_split hvalid.increasing).mpr ⟨[], rest, rfl,
          Int.cast_le.mpr hvalid.start, fun c hc => Int.cast_lt.mpr (hvalid.after c hc).1⟩
      have honset : (times.loadOnset : ℝ) ∈ Set.Icc (times.loadOnset : ℝ) times.tailEnd :=
        ⟨le_rfl, Int.cast_le.mpr hwindow⟩
      exact ⟨_, honset, hr _ honset top hfirst⟩
    · obtain ⟨hlow, hhigh⟩ := hvalid.after top hmem
      have htime : (top.1 : ℝ) ∈ Set.Icc (times.loadOnset : ℝ) times.tailEnd :=
        ⟨Int.cast_le.mpr hlow.le, Int.cast_le.mpr hhigh⟩
      exact ⟨_, htime, hr _ htime top (Breakpoints.inForce_self realSeconds htop)⟩
  · rintro _ ⟨t, ht, rfl⟩
    have hstart : (first.1 : ℝ) ≤ t := (Int.cast_le.mpr hvalid.start).trans ht.1
    obtain ⟨c, hc⟩ := Breakpoints.exists_inForce (e := realSeconds) hvalid.increasing hstart
    rw [hr t ht c hc, Int.cast_le]
    exact hle ⟨c, hc.1, rfl⟩

theorem last_inForce (hwindow : times.loadOnset ≤ times.tailEnd) :
    Breakpoints.InForce realSeconds (first :: rest) (times.tailEnd : ℝ)
      ((first :: rest).getLast (List.cons_ne_nil first rest)) := by
  have hsplit := List.dropLast_append_getLast (List.cons_ne_nil first rest)
  refine (Breakpoints.inForce_iff_split hvalid.increasing).mpr ⟨_, [], hsplit.symm, ?_, by simp⟩
  exact Int.cast_le.mpr (hvalid.within hwindow _ (List.getLast_mem _))

section FullDown

variable (hload : times.loadOnset ≤ times.offeredLoadEnd) {t : ℝ}
  (hr : TakesCounts times (first :: rest) r) {returns : List ((ℤ × ℤ) × (ℤ × ℤ))}
  (hreturns : returns = (Adjacent.changes Prod.snd (first :: rest)).filter fun pair =>
    decide (times.offeredLoadEnd ≤ pair.2.1 ∧ pair.2.2 = minReplicas))

include hload hr hreturns

/-- After all returns to the minimum a completed scale-down stays there. -/
theorem eq_min_after_returns
    (hcompleted : ((first :: rest).getLast (List.cons_ne_nil first rest)).2 = minReplicas)
    (hlow : (times.offeredLoadEnd : ℝ) ≤ t) (hhigh : t ≤ times.tailEnd)
    (hpast : ∀ pair ∈ returns, (pair.2.1 : ℝ) ≤ t) : r t = minReplicas := by
  have honset : (times.loadOnset : ℝ) ≤ t := (Int.cast_le.mpr hload).trans hlow
  have hstart : (first.1 : ℝ) ≤ t := (Int.cast_le.mpr hvalid.start).trans honset
  obtain ⟨c, hc⟩ := Breakpoints.exists_inForce (e := realSeconds) hvalid.increasing hstart
  rw [hr t ⟨honset, hhigh⟩ c hc, Int.cast_inj]
  refine Breakpoints.settled_after_changes hvalid.increasing ?_ (fun pair hpair hmin => ?_) hc
  · intro last hlast
    rw [List.getLast?_eq_some_getLast (List.cons_ne_nil first rest)] at hlast
    rw [← Option.some.inj hlast, hcompleted]
  · by_cases hpost : times.offeredLoadEnd ≤ pair.2.1
    · refine hpast pair ?_
      rw [hreturns]
      exact List.mem_filter.mpr ⟨hpair, decide_eq_true ⟨hpost, hmin⟩⟩
    · exact (Int.cast_le.mpr (not_le.mp hpost).le).trans hlow

/-- Just before a return to the minimum the count is another one. -/
theorem le_of_settled {pair : (ℤ × ℤ) × (ℤ × ℤ)} (hpair : pair ∈ returns) {d : ℝ}
    (hd : d ∈ settledTimes times r) : (pair.2.1 : ℝ) ≤ times.offeredLoadEnd + d := by
  obtain ⟨hnonneg, hsettled⟩ := hd
  rw [hreturns] at hpair
  obtain ⟨hchange, hreturn⟩ := List.mem_filter.mp hpair
  obtain ⟨-, hmin⟩ := of_decide_eq_true hreturn
  obtain ⟨hzip, hne⟩ := (Adjacent.mem_changes_iff _).mp hchange
  have htail : pair.2.1 ≤ times.tailEnd :=
    (hvalid.after pair.2 (List.of_mem_zip hzip).2).2
  by_contra hlate
  have hbefore : (pair.1.1 : ℝ) < pair.2.1 :=
    Int.cast_lt.mpr (hvalid.increasing.lt_of_mem_zip hzip)
  have hlt : max ((times.offeredLoadEnd : ℝ) + d) pair.1.1 < pair.2.1 :=
    max_lt (not_le.mp hlate) hbefore
  have hin : max ((times.offeredLoadEnd : ℝ) + d) pair.1.1 ≤ times.tailEnd :=
    hlt.le.trans (Int.cast_le.mpr htail)
  have honset : (times.loadOnset : ℝ) ≤ max ((times.offeredLoadEnd : ℝ) + d) pair.1.1 :=
    ((Int.cast_le.mpr hload).trans (le_add_of_nonneg_right hnonneg)).trans (le_max_left _ _)
  have hforce : Breakpoints.InForce realSeconds (first :: rest) _ pair.1 :=
    Breakpoints.inForce_before_change hvalid.increasing hzip (le_max_right _ _) hlt
  have hvalue := hr _ ⟨honset, hin⟩ pair.1 hforce
  rw [hsettled _ ⟨le_max_left _ _, hin⟩, Int.cast_inj] at hvalue
  exact hne (hvalue.symm.trans hmin.symm)

/-- From the last return to the minimum on, and no earlier, the counts stay there. -/
theorem fullDown_isLeast
    (hcompleted : ((first :: rest).getLast (List.cons_ne_nil first rest)).2 = minReplicas) :
    IsLeast (settledTimes times r)
      ((returns.getLast?.map fun pair => pair.2.1 - times.offeredLoadEnd).getD 0 : ℤ) := by
  cases hlast : returns.getLast? with
  | none =>
    have hnone := List.getLast?_eq_none_iff.mp hlast
    refine ⟨⟨by simp, fun t ht => ?_⟩, fun d hd => ?_⟩
    · have hlow : (times.offeredLoadEnd : ℝ) ≤ t := by simpa using ht.1
      refine eq_min_after_returns hvalid hload hr hreturns hcompleted hlow ht.2 ?_
      rw [hnone]
      simp
    · simpa using hd.1
  | some pair =>
    have hmem := List.mem_of_getLast? hlast
    have hafter : times.offeredLoadEnd ≤ pair.2.1 := by
      rw [hreturns] at hmem
      exact (of_decide_eq_true (List.mem_filter.mp hmem).2).1
    have hd : (((some pair).map fun pair => pair.2.1 - times.offeredLoadEnd).getD 0 : ℤ) =
        pair.2.1 - times.offeredLoadEnd := rfl
    rw [hd, Int.cast_sub]
    refine ⟨⟨sub_nonneg.mpr (Int.cast_le.mpr hafter), fun t ht => ?_⟩, fun d hd => ?_⟩
    · rw [add_sub_cancel] at ht
      have hlow := (Int.cast_le.mpr hafter).trans ht.1
      refine eq_min_after_returns hvalid hload hr hreturns hcompleted hlow ht.2
        fun other hother => ?_
      refine le_trans (Int.cast_le.mpr ?_) ht.1
      have hordered : returns.Pairwise fun pair later => pair.2.1 ≤ later.2.1 := by
        rw [hreturns]
        exact (hvalid.increasing.zip_pairwise.filter _).filter _
      obtain ⟨init, hsplit⟩ := List.getLast?_eq_some_iff.mp hlast
      rw [hsplit] at hordered hother
      rcases List.mem_append.mp hother with hinit | hpair
      · exact (List.pairwise_append.mp hordered).2.2 other hinit pair List.mem_cons_self
      · rw [List.mem_singleton.mp hpair]
    · have hle := le_of_settled hvalid hload hr hreturns hmem hd
      linarith

end FullDown

/-- The returns to the minimum are changes to it: from a count above it, after the offered load. -/
theorem returnsToMin_eq : (((Adjacent.changes Prod.snd (first :: rest)).map
      (controlledEvent times.loadOnset)).filter fun e =>
        decide (times.offeredLoadEnd ≤ e.timeUnix ∧ e.toReplicas < e.fromReplicas)).filter
      (fun e => decide (e.toReplicas = minReplicas)) =
    ((Adjacent.changes Prod.snd (first :: rest)).filter fun pair =>
      decide (times.offeredLoadEnd ≤ pair.2.1 ∧ pair.2.2 = minReplicas)).map
        (controlledEvent times.loadOnset) := by
  rw [List.filter_filter, List.filter_map]
  refine congrArg _ (List.filter_congr fun pair hpair => ?_)
  obtain ⟨hzip, hne⟩ := (Adjacent.mem_changes_iff _).mp hpair
  have hfrom : minReplicas ≤ pair.1.2 := hvalid.counts _ (List.of_mem_zip hzip).1
  rw [Function.comp_apply, ← Bool.decide_and, decide_eq_decide]
  constructor
  · rintro ⟨hmin, hafter, -⟩
    exact ⟨hafter, hmin⟩
  · rintro ⟨hafter, hmin⟩
    refine ⟨hmin, hafter, ?_⟩
    change pair.2.2 < pair.1.2
    rw [hmin]
    exact lt_of_le_of_ne hfrom fun heq => hne (heq.symm.trans hmin.symm)

theorem controlledFigures_describes (hload : times.loadOnset ≤ times.offeredLoadEnd)
    (htail : times.offeredLoadEnd ≤ times.tailEnd) (hr : TakesCounts times (first :: rest) r) :
    Describes times (controlledFigures times first rest).2 r := by
  have hwindow := hload.trans htail
  obtain ⟨hpod, hpost, hexcess, habove⟩ := controlledTotals_eq ⟨0, 0, 0, 0, first.2⟩
    (hvalid.within hwindow) hload
  have htailEnd : (times.tailEnd : ℝ) ∈ Set.Icc (times.loadOnset : ℝ) times.tailEnd :=
    ⟨Int.cast_le.mpr hwindow, le_rfl⟩
  constructor
  case podSeconds =>
    change _ = ((roundDecimals 1 (controlledTotals _ _ _).podSeconds : ℚ) : ℝ)
    rw [roundDecimals_intCast, Rat.cast_intCast, hpod, zero_add]
    exact integral_counts hvalid hwindow le_rfl r id fun t ht c hc => hr t ht c hc
  case postLoad =>
    change _ = ((roundDecimals 1 (controlledTotals _ _ _).postLoadPodSeconds : ℚ) : ℝ)
    rw [roundDecimals_intCast, Rat.cast_intCast, hpost, zero_add]
    exact integral_counts hvalid hwindow hload r id fun t ht c hc => hr t ht c hc
  case excess =>
    change _ = ((roundDecimals 1 (controlledTotals _ _ _).excessPodSeconds : ℚ) : ℝ)
    rw [roundDecimals_intCast, Rat.cast_intCast, hexcess, zero_add]
    refine integral_counts hvalid hwindow hload _ _ fun t ht c hc => ?_
    have hmin := hvalid.counts c hc.1
    rw [hr t ht c hc, max_eq_right (sub_nonneg.mpr hmin), Int.cast_sub]
  case aboveMin =>
    change _ = ((roundDecimals 1 (controlledTotals _ _ _).aboveMinSeconds : ℚ) : ℝ)
    rw [roundDecimals_intCast, Rat.cast_intCast, habove, zero_add]
    exact volume_aboveMin hvalid hwindow hload hr
  case peak => exact peak_isGreatest hvalid hwindow hr
  case completed =>
    rw [hr _ htailEnd _ (last_inForce hvalid hwindow), Int.cast_inj]
    exact decide_eq_true_iff
  case fullScaledown =>
    intro hcompleted
    have hlast := of_decide_eq_true hcompleted
    refine ⟨_, ?_, fullDown_isLeast hvalid hload hr rfl hlast⟩
    change (if decide (_ = minReplicas) = true then _ else none) = _
    rw [if_pos (decide_eq_true hlast), controlledEvents_eq, returnsToMin_eq hvalid,
      List.getLast?_map, Option.map_map]
    rfl

end Figures

section Measurement

variable {runner : RunnerTimes} {metadata : Metadata} {times : WindowTimes}
  {samples samples' : List ReplicaSample} {baseline : ReplicaSample} {within : List ReplicaSample}

theorem computeControlledMeasurement_valid
    (h : (computeControlledMeasurement runner metadata samples).1.windowValid = true) :
    ∃ times baseline within, controlledWindow runner metadata = .ok times ∧
      selectTimeline times samples = .ok (baseline, within) ∧
      (computeControlledMeasurement runner metadata samples).1.times = some times ∧
      (computeControlledMeasurement runner metadata samples).1.figures =
        some (controlledFigures times (wholeCount baseline) (within.map wholeCount)).2 := by
  unfold computeControlledMeasurement at h ⊢
  cases hwindow : controlledWindow runner metadata with
  | error exc =>
    rw [hwindow] at h
    cases h
  | ok times =>
    rw [hwindow] at h
    dsimp only at h
    cases hselect : selectTimeline times samples with
    | error warning =>
      rw [hselect] at h
      cases h
    | ok selected =>
      dsimp only
      rw [hselect]
      exact ⟨times, selected.1, selected.2, rfl, hselect, rfl, rfl⟩

variable (h : selectTimeline times samples = .ok (baseline, within))
  (hnan : ∀ s ∈ samples, LastAt samples times.loadOnset s → s.2 ≠ .nan)

include h hnan

theorem exists_follows : ∃ r, Follows samples times r := by
  have hvalid := validTimeline h
  have hvalue : ∀ t : ℝ, ∃ x : ℝ, t ∈ Set.Icc (times.loadOnset : ℝ) times.tailEnd →
      ∃ s value, LastAt samples t s ∧ s.2 = .finite value ∧ x = value := by
    intro t
    by_cases ht : t ∈ Set.Icc (times.loadOnset : ℝ) times.tailEnd
    · have hstart : ((wholeCount baseline).1 : ℝ) ≤ t :=
        (Int.cast_le.mpr hvalid.start).trans ht.1
      obtain ⟨c, hc⟩ := Breakpoints.exists_inForce (e := realSeconds) hvalid.increasing hstart
      exact ⟨_, fun _ => ⟨_, c.2, lastAt_of_inForce h hnan ht.2 hc, rfl, rfl⟩⟩
    · exact ⟨0, fun hmem => absurd hmem ht⟩
  choose r hr using hvalue
  exact ⟨r, hr⟩

theorem takesCounts_of_follows {r : ℝ → ℝ} (hr : Follows samples times r) :
    TakesCounts times (wholeCount baseline :: within.map wholeCount) r := by
  intro t ht c hc
  obtain ⟨s, value, hlast, hvalue, heq⟩ := hr t ht
  obtain ⟨c', hc', rfl⟩ := (lastAt_iff h hnan ht.1 ht.2).mp hlast
  cases hc'.unique (validTimeline h).increasing hc
  rw [heq, ← Float64.finite.inj hvalue, Rat.cast_intCast]

/-- The same window is measured alike. -/
theorem selectTimeline_sameWindow (hsame : SameWindow times samples samples') :
    selectTimeline times samples' = selectTimeline times samples := by
  obtain ⟨hb, hwithin, -, hchain⟩ := selectTimeline_ok h
  have hlast := baseline_last hb hnan
  have hnan' : ∀ s ∈ samples', LastAt samples' times.loadOnset s → s.2 ≠ .nan := by
    intro s _ hs
    have hs' := (hsame.baseline s).mpr hs
    exact hnan s hs'.1 hs'
  have hlast' := (hsame.baseline baseline).mp hlast
  have htrans : IsTrans ReplicaSample fun a b => a.1 < b.1 := ⟨fun _ _ _ => lt_trans⟩
  have hincreasing : Breakpoints.Increasing (baseline :: within) := hchain.pairwise
  refine selectTimeline_congr ?_ ?_
  · have hmem : baseline ∈ (sorted samples').filter fun s => decide (s.1 ≤ times.loadOnset) :=
      List.mem_filter.mpr ⟨mem_sorted.mpr hlast'.1, decide_eq_true (Int.cast_le.mp hlast'.2.1)⟩
    obtain ⟨b', hb'⟩ := Option.isSome_iff_exists.mp
      (List.getLast?_isSome.mpr (List.ne_nil_of_mem hmem))
    have hb's := (hsame.baseline b').mpr (baseline_last hb' hnan')
    rw [hb, hb', hb's.unique hlast (hnan b' hb's.1 hb's) (hnan baseline hlast.1 hlast)]
  · have hperm := (((sorted_perm samples').filter _).trans hsame.within.symm).trans
      ((sorted_perm samples).filter _).symm
    refine List.Perm.eq_of_pairwise (fun a b ha hb hab hba => ?_) ((sorted_fst samples').filter _)
      ((sorted_fst samples).filter _) hperm
    rw [← hwithin] at hb
    have ha' := hperm.mem_iff.mp ha
    rw [← hwithin] at ha'
    exact hincreasing.eq_of_fst_eq (.tail _ ha') (.tail _ hb) (le_antisymm hab hba)

end Measurement

/-- A valid measurement is that of the step function of the samples exactly when no NaN is a last
sample by the onset. -/
theorem controlled_measurement_exact_iff (runner : RunnerTimes) (metadata : Metadata)
    (samples : List ReplicaSample)
    (hvalid : (computeControlledMeasurement runner metadata samples).1.windowValid = true) :
    ∃ times figures,
      (computeControlledMeasurement runner metadata samples).1.times = some times ∧
      (computeControlledMeasurement runner metadata samples).1.figures = some figures ∧
      (MeasuresStep runner metadata samples times figures ↔
        ∀ s ∈ samples, LastAt samples times.loadOnset s → s.2 ≠ .nan) := by
  obtain ⟨times, baseline, within, hwindow, hselect, htimes, hfigures⟩ :=
    computeControlledMeasurement_valid hvalid
  refine ⟨times, _, htimes, hfigures, ?_⟩
  constructor
  · intro hmeasures s hs hlast hnan
    obtain ⟨pre, post, rfl⟩ := List.append_of_mem hs
    have hperm : (pre ++ s :: post).Perm (pre ++ post ++ [s]) :=
      List.perm_middle.trans (List.perm_append_singleton s _).symm
    -- the same samples with the NaN at the end, which the sort leaves there
    have hsame : SameWindow times (pre ++ s :: post) (pre ++ post ++ [s]) :=
      ⟨fun _ => lastAt_congr fun _ => hperm.mem_iff, hperm.filter _⟩
    have hvalid' := hvalid
    rw [← hmeasures.independent _ hsame] at hvalid'
    obtain ⟨times', baseline', within', hwindow', hselect', -, -⟩ :=
      computeControlledMeasurement_valid hvalid'
    cases Except.ok.inj (hwindow.symm.trans hwindow')
    obtain ⟨hbaseline, -, hcounts, -⟩ := selectTimeline_ok hselect'
    have hnanLast := baseline_concat_nan (pre ++ post) hnan (Int.cast_le.mp hlast.2.1)
      fun s' hs' hle => hlast.fst_le (hperm.mem_iff.mpr (List.mem_append_left _ hs'))
        (Int.cast_le.mpr hle)
    cases Option.some.inj (hnanLast.symm.trans hbaseline)
    exact hcounts s List.mem_cons_self (by rw [hnan]; rfl)
  · intro hnan
    obtain ⟨hload, htail⟩ := controlledWindow_ok hwindow
    refine ⟨exists_follows hselect hnan, fun r hr => ?_, fun samples' hsame => ?_⟩
    · exact controlledFigures_describes (validTimeline hselect) hload.le htail.le
        (takesCounts_of_follows hselect hnan hr)
    · unfold computeControlledMeasurement
      rw [hwindow]
      dsimp only
      rw [selectTimeline_sameWindow hselect hnan hsame]

/-! A spike run from 1000 on: onset at 1030, end of the load at 1241 and of the tail at 1601. -/

def spikeRunner : RunnerTimes := ⟨.ok 1000, .ok 1260⟩

def spikeMetadata : Metadata where
  pattern := .ok "spike"
  postLoadTailSeconds := .ok 360
  observationEndTimeUnix := .ok 1601
  endTimeUnix := .ok 1610
  loadStartTimeUnix := some (.ok 1030)
  offeredLoadEndTimeUnix := some (.ok 1241)

def spikeSamples (before : List (Float64 ℚ)) : List ReplicaSample :=
  before.map (fun value => (1020, value)) ++
    (List.range 38).map fun i =>
      (1035 + 15 * (i : ℤ), Float64.finite (if 4 ≤ i ∧ i < 25 then 3 else 1))

theorem controlled_measurement_exact_iff_spike :
    (computeControlledMeasurement spikeRunner spikeMetadata
      (spikeSamples [.finite 1])).1.windowValid = true ∧
    ∃ times figures,
      (computeControlledMeasurement spikeRunner spikeMetadata
        (spikeSamples [.finite 1])).1.figures = some figures ∧
      MeasuresStep spikeRunner spikeMetadata (spikeSamples [.finite 1]) times figures := by
  have hvalid : (computeControlledMeasurement spikeRunner spikeMetadata
      (spikeSamples [.finite 1])).1.windowValid = true := by decide +kernel
  obtain ⟨times, figures, -, hfigures, hexact⟩ :=
    controlled_measurement_exact_iff spikeRunner spikeMetadata (spikeSamples [.finite 1]) hvalid
  have hnumbers : ∀ s ∈ spikeSamples [.finite 1], s.2 ≠ .nan := by decide +kernel
  exact ⟨hvalid, times, figures, hfigures, hexact.mpr fun s hs _ => hnumbers s hs⟩

/-- A NaN sample at the time of the baseline is hidden or not by the order of the input. -/
theorem controlled_measurement_order_dependent :
    (computeControlledMeasurement spikeRunner spikeMetadata
      (spikeSamples [.nan, .finite 1])).1.windowValid = true ∧
    ∀ times figures, ¬ MeasuresStep spikeRunner spikeMetadata (spikeSamples [.nan, .finite 1])
      times figures := by
  refine ⟨by decide +kernel, fun times figures h => ?_⟩
  have hperm : (spikeSamples [.nan, .finite 1]).Perm (spikeSamples [.finite 1, .nan]) :=
    List.Perm.append_right _ (List.Perm.swap _ _ _)
  have hsame : SameWindow times (spikeSamples [.nan, .finite 1]) (spikeSamples [.finite 1, .nan]) :=
    ⟨fun _ => lastAt_congr fun _ => hperm.mem_iff, hperm.filter _⟩
  have hvalid : (computeControlledMeasurement spikeRunner spikeMetadata
      (spikeSamples [.nan, .finite 1])).1.windowValid = true := by decide +kernel
  rw [← h.independent _ hsame] at hvalid
  have hinvalid : (computeControlledMeasurement spikeRunner spikeMetadata
      (spikeSamples [.finite 1, .nan])).1.windowValid = false := by decide +kernel
  rw [hinvalid] at hvalid
  cases hvalid

end Autoscaler.Analysis
