import Autoscaler.Float64
import Autoscaler.Library.ComparisonSort
import Autoscaler.Library.FirstSeen
import Mathlib.Algebra.Order.Field.Rat
import Mathlib.Algebra.Order.Group.Defs
import Mathlib.Data.Finset.Sort

/-! When the raw samples of a snapshot became visible, as `metric_pipeline` and `metric_visibility`
bound it. -/
namespace Autoscaler.Analysis

/-- The labels of a series as sorted JSON, and the time of a sample. -/
abbrev SampleKey (T : Type*) := String × T

structure Series (T : Type*) where
  metric : String
  values : List (T × Float64 ℚ)

structure QueryResponse (T : Type*) where
  status : Option String
  result : List (Series T)

/-- A row of the observations. `epoch` has read its times. -/
structure QueryRow (T : Type*) where
  kind : String
  status : String
  response : Option (QueryResponse T)
  requestStartedAt : T
  requestFinishedAt : T
  evaluationTimeUnix : T

/-- The evidence on one sample. Its visibility interval is from `visibleAfter` to `visibleBy`. -/
structure SampleEvidence (T : Type*) where
  labels : String
  sampleSeconds : T
  counterValue : Option ℚ
  conflictingValues : Bool
  visibleAfter : Option T
  visibleBy : T
  counterResetFromPrevious : Bool

structure Snapshot (T : Type*) where
  row : QueryRow T
  keys : Finset (SampleKey T)

def finiteValue : Float64 ℚ → Option ℚ
  | .finite value => some value
  | _ => none

section Code

variable {T : Type*}

def responseSucceeded (row : QueryRow T) : Bool :=
  decide (row.status = "success") &&
    match row.response with
    | none => false
    | some response => decide (response.status ≠ some "error")

def resultRows (row : QueryRow T) : List (Series T) :=
  match row.response with
  | none => []
  | some response => response.result

def rawValues (row : QueryRow T) : List (SampleKey T × Float64 ℚ) :=
  (resultRows row).flatMap fun series =>
    series.values.map fun sample => ((series.metric, sample.1), sample.2)

variable [AddCommGroup T] [LinearOrder T]

def sortedByFinish (rows : List (QueryRow T)) : List (QueryRow T) :=
  rows.insertionSort fun a b => a.requestFinishedAt ≤ b.requestFinishedAt

def Covers (width : T) (row : QueryRow T) (key : SampleKey T) : Prop :=
  row.evaluationTimeUnix - width < key.2 ∧ key.2 ≤ row.evaluationTimeUnix

instance (width : T) (row : QueryRow T) (key : SampleKey T) : Decidable (Covers width row key) :=
  inferInstanceAs (Decidable (_ ∧ _))

/-- The snapshot was over before `row` and covers the sample without returning it. -/
def Misses (width : T) (row : QueryRow T) (key : SampleKey T) (previous : Snapshot T) : Prop :=
  previous.row.requestFinishedAt ≤ row.requestStartedAt ∧
    Covers width previous.row key ∧ key ∉ previous.keys

instance (width : T) (row : QueryRow T) (key : SampleKey T) (previous : Snapshot T) :
    Decidable (Misses width row key previous) :=
  inferInstanceAs (Decidable (_ ∧ Covers width previous.row key ∧ _))

def lowerBounds (onset width : T) (snapshots : List (Snapshot T)) (row : QueryRow T)
    (key : SampleKey T) : List T :=
  (snapshots.filter fun previous => decide (Misses width row key previous)).map fun previous =>
    previous.row.requestStartedAt - onset

def findSample (samples : List (SampleKey T × SampleEvidence T)) (key : SampleKey T) :
    Option (SampleEvidence T) :=
  (samples.find? fun entry => decide (entry.1 = key)).map Prod.snd

def markConflict (samples : List (SampleKey T × SampleEvidence T)) (key : SampleKey T) :
    List (SampleKey T × SampleEvidence T) :=
  samples.map fun entry =>
    if entry.1 = key then (entry.1, { entry.2 with conflictingValues := true }) else entry

/-- A sample that `row` returns after `snapshots`. The first row that returns it bounds when it
became visible, and later ones check its value. -/
def addSample (onset width : T) (snapshots : List (Snapshot T)) (conflicts : Finset (SampleKey T))
    (row : QueryRow T) (state : List (SampleKey T × SampleEvidence T) × Finset String)
    (value : SampleKey T × Option ℚ) : List (SampleKey T × SampleEvidence T) × Finset String :=
  let (samples, flags) := state
  let (key, finite) := value
  let flags := if finite = none then insert "nonfinite_counter" flags else flags
  match findSample samples key with
  | some sample =>
    if sample.counterValue ≠ finite then
      (markConflict samples key, insert "conflicting_sample_values" flags)
    else (samples, flags)
  | none =>
    (samples ++ [(key, {
      labels := key.1
      sampleSeconds := key.2 - onset
      counterValue := finite
      conflictingValues := decide (key ∈ conflicts)
      visibleAfter := (lowerBounds onset width snapshots row key).max?
      visibleBy := row.requestFinishedAt - onset
      counterResetFromPrevious := false })], flags)

structure rawEvidence.State (T : Type*) where
  snapshots : List (Snapshot T)
  samples : List (SampleKey T × SampleEvidence T)
  requestValues : Finset ℚ
  flags : Finset String

/-- One value of a `prom_requests_raw` row. -/
def rawEvidence.addRequest (state : rawEvidence.State T) (value : SampleKey T × Float64 ℚ) :
    rawEvidence.State T :=
  match finiteValue value.2 with
  | some number => { state with requestValues := insert number state.requestValues }
  | none => { state with flags := insert "nonfinite_request" state.flags }

def rawEvidence.step (onset width : T) (state : rawEvidence.State T) (row : QueryRow T) :
    rawEvidence.State T :=
  if row.kind ≠ "prom_cpu_raw" ∧ row.kind ≠ "prom_requests_raw" then state
  else if responseSucceeded row = false then
    { state with flags := insert (row.kind ++ "_error") state.flags }
  else
    let values := rawValues row
    let flags :=
      if values.isEmpty then insert (row.kind ++ "_empty") state.flags else state.flags
    if row.kind = "prom_requests_raw" then
      values.foldl addRequest { state with flags := flags }
    else
      let (samples, flags) :=
        (values.map fun value => (value.1, finiteValue value.2)).foldl
          (addSample onset width state.snapshots ∅ row) (state.samples, flags)
      { state with
        snapshots := state.snapshots ++ [⟨row, (values.map Prod.fst).toFinset⟩]
        samples := samples
        flags := flags }

def seriesSamples (samples : List (SampleKey T × SampleEvidence T)) (label : String) :
    List (SampleKey T × SampleEvidence T) :=
  (samples.filter fun entry => decide (entry.1.1 = label)).insertionSort fun a b => a.1.2 ≤ b.1.2

def isReset (previous current : SampleEvidence T) : Bool :=
  match previous.counterValue, current.counterValue with
  | some before, some after =>
    !previous.conflictingValues && !current.conflictingValues && decide (after < before)
  | _, _ => false

def resetKeys (samples : List (SampleKey T × SampleEvidence T)) : List (SampleKey T) :=
  (samples.map fun entry => entry.1.1).dedup.flatMap fun label =>
    let series := seriesSamples samples label
    ((series.zip series.tail).filter fun pair => isReset pair.1.2 pair.2.2).map fun pair => pair.2.1

structure RawEvidence (T : Type*) where
  samples : List (SampleEvidence T)
  requestValues : List ℚ
  flags : Finset String

def rawEvidence (rows : List (QueryRow T)) (onset width : T) (flags : Finset String) :
    RawEvidence T :=
  let state := (sortedByFinish rows).foldl (rawEvidence.step onset width) ⟨[], [], ∅, flags⟩
  let resets := resetKeys state.samples
  let samples := state.samples.map fun entry =>
    { entry.2 with counterResetFromPrevious := decide (entry.1 ∈ resets) }
  { samples := samples.insertionSort fun a b => a.sampleSeconds ≤ b.sampleSeconds
    requestValues := state.requestValues.sort (· ≤ ·)
    flags := if resets.isEmpty then state.flags else insert "counter_reset" state.flags }

/-- One value of a row. The last one under a key stays. -/
def sampleMap.add (state : List (SampleKey T × Option ℚ) × Finset (SampleKey T))
    (value : SampleKey T × Float64 ℚ) : List (SampleKey T × Option ℚ) × Finset (SampleKey T) :=
  let (values, conflicts) := state
  let number := finiteValue value.2
  match values.find? fun entry => decide (entry.1 = value.1) with
  | some entry =>
    (values.map fun e => if e.1 = value.1 then (e.1, number) else e,
      if entry.2 ≠ number then insert value.1 conflicts else conflicts)
  | none => (values ++ [(value.1, number)], conflicts)

/-- The samples of a row, and with `conflicts` those that have two values. -/
def sampleMap (row : QueryRow T) (conflicts : Finset (SampleKey T)) :
    List (SampleKey T × Option ℚ) × Finset (SampleKey T) :=
  (rawValues row).foldl sampleMap.add ([], conflicts)

structure MappedSnapshot (T : Type*) where
  row : QueryRow T
  values : List (SampleKey T × Option ℚ)

def MappedSnapshot.toSnapshot (s : MappedSnapshot T) : Snapshot T :=
  ⟨s.row, (s.values.map Prod.fst).toFinset⟩

def mapSnapshots (raw : List (QueryRow T)) : List (MappedSnapshot T) × Finset (SampleKey T) :=
  raw.foldl (fun state row =>
    let (values, conflicts) := sampleMap row state.2
    (state.1 ++ [⟨row, values⟩], conflicts)) ([], ∅)

/-- The rows that `analyze` takes as snapshots. -/
def visibilityRows (observations : List (QueryRow T)) (cutoff : T) : List (QueryRow T) :=
  observations.filter fun row => decide ((row.kind = "prom_cpu_raw" ∧ row.status = "success") ∧
    row.requestFinishedAt < cutoff)

/-- `metric_visibility.analyze` up to its samples, with the flags that it has set by then. -/
def analyze (observations : List (QueryRow T)) (onset window cutoff : T) :
    List (SampleEvidence T) × Finset String :=
  let observed := observations.filter fun row =>
    decide (row.kind ∈ ["prom_cpu_raw", "prom_requests_raw", "prom_cpu_evaluated"] ∧
      row.requestFinishedAt < cutoff)
  let errors := observed.filter fun row =>
    decide (row.kind ≠ "prom_cpu_evaluated" ∧ row.status ≠ "success")
  let empty := observed.filter fun row =>
    decide (row.kind ≠ "prom_cpu_evaluated" ∧ row.status = "success") && (resultRows row).isEmpty
  let flags := (errors.map fun row => row.kind ++ "_error").toFinset ∪
    (empty.map fun row => row.kind ++ "_empty").toFinset
  let (snapshots, conflicts) := mapSnapshots (sortedByFinish (visibilityRows observations cutoff))
  let flags := if conflicts = ∅ then flags else insert "conflicting_sample_values" flags
  let (samples, flags) := snapshots.foldl (fun state snapshot =>
    snapshot.values.foldl (addSample onset window (snapshots.map MappedSnapshot.toSnapshot)
      conflicts snapshot.row) state) ([], flags)
  ((samples.map Prod.snd).insertionSort fun a b => a.sampleSeconds ≤ b.sampleSeconds, flags)

end Code

/-! What the visibility intervals are for. -/

section Meaning

variable {T : Type*}

def keysOf (row : QueryRow T) : List (SampleKey T) := (rawValues row).map Prod.fst

def isSnapshot (row : QueryRow T) : Bool :=
  decide (row.kind = "prom_cpu_raw") && responseSucceeded row

/-- A database in which every sample becomes visible at some time and stays visible. -/
structure RawTimeline (T : Type*) where
  samples : Set (SampleKey T)
  visibleAt : SampleKey T → T

variable [AddCommGroup T] [LinearOrder T]

/-- The row returns the samples of its window that are visible at some instant of the request. -/
def Answers (timeline : RawTimeline T) (width : T) (row : QueryRow T) : Prop :=
  row.requestStartedAt < row.requestFinishedAt ∧
    ∃ instant, (row.requestStartedAt ≤ instant ∧ instant ≤ row.requestFinishedAt) ∧
      ∀ key, key ∈ keysOf row ↔
        key ∈ timeline.samples ∧ Covers width row key ∧ timeline.visibleAt key ≤ instant

def snapshotRows (rows : List (QueryRow T)) : List (QueryRow T) :=
  sortedByFinish (rows.filter isSnapshot)

def SampleEvidence.key (onset : T) (sample : SampleEvidence T) : SampleKey T :=
  (sample.labels, sample.sampleSeconds + onset)

/-- The interval of the sample is around the time at which it became visible, and open below only
without a snapshot that missed it before the first one that returned it started. -/
structure BoundsVisibility (timeline : RawTimeline T) (rows : List (QueryRow T)) (onset width : T)
    (sample : SampleEvidence T) : Prop where
  after : ∀ lower ∈ sample.visibleAfter, lower ≤ timeline.visibleAt (sample.key onset) - onset
  visibleBy : timeline.visibleAt (sample.key onset) - onset ≤ sample.visibleBy
  open_iff : ∃ first, (snapshotRows rows).find?
      (fun row => decide (sample.key onset ∈ keysOf row)) = some first ∧
    (sample.visibleAfter = none ↔ ¬ ∃ previous ∈ rows, isSnapshot previous = true ∧
      previous.requestFinishedAt ≤ first.requestStartedAt ∧
      Covers width previous (sample.key onset) ∧ sample.key onset ∉ keysOf previous)

def SampleEvidence.interval (sample : SampleEvidence T) : String × T × Option T × T :=
  (sample.labels, sample.sampleSeconds, sample.visibleAfter, sample.visibleBy)

end Meaning

section Table

variable {T : Type*} [AddCommGroup T] [LinearOrder T] (onset width : T)

def intervals (samples : List (SampleKey T × SampleEvidence T)) :
    List (SampleKey T × (String × T × Option T × T)) :=
  samples.map fun entry => (entry.1, entry.2.interval)

def snapshotOf (row : QueryRow T) : Snapshot T := ⟨row, (keysOf row).toFinset⟩

def intervalOf (snapshots : List (Snapshot T)) (row : QueryRow T) (key : SampleKey T) :
    String × T × Option T × T :=
  (key.1, key.2 - onset, (lowerBounds onset width snapshots row key).max?,
    row.requestFinishedAt - onset)

def rowIntervals (snapshots : List (Snapshot T)) (row : QueryRow T) :
    List (SampleKey T × (String × T × Option T × T)) :=
  (keysOf row).map fun key => (key, intervalOf onset width snapshots row key)

omit [AddCommGroup T] in
theorem intervals_markConflict (samples : List (SampleKey T × SampleEvidence T))
    (key : SampleKey T) : intervals (markConflict samples key) = intervals samples := by
  unfold intervals markConflict
  rw [List.map_map]
  refine List.map_congr_left fun entry _ => ?_
  rw [Function.comp_apply]
  split_ifs <;> rfl

omit [AddCommGroup T] in
theorem findSample_eq_none_iff {samples : List (SampleKey T × SampleEvidence T)}
    {key : SampleKey T} :
    findSample samples key = none ↔ key ∉ (intervals samples).map Prod.fst := by
  unfold findSample intervals
  rw [Option.map_eq_none_iff, List.find?_eq_none, List.map_map, List.mem_map]
  simp only [decide_eq_true_eq]
  constructor
  · rintro h ⟨entry, hentry, hkey⟩
    exact h entry hentry hkey
  · exact fun h entry hentry hkey => h ⟨entry, hentry, hkey⟩

variable {onset width} {snapshots : List (Snapshot T)} {conflicts : Finset (SampleKey T)}
  {row : QueryRow T}

theorem intervals_addSample (state : List (SampleKey T × SampleEvidence T) × Finset String)
    (value : SampleKey T × Option ℚ) :
    intervals (addSample onset width snapshots conflicts row state value).1 =
      FirstSeen.record (intervals state.1)
        (value.1, intervalOf onset width snapshots row value.1) := by
  unfold addSample FirstSeen.record
  dsimp only
  cases hfind : findSample state.1 value.1 with
  | none =>
    rw [if_neg (findSample_eq_none_iff.mp hfind), intervals, List.map_append]
    rfl
  | some sample =>
    have hmem : value.1 ∈ (intervals state.1).map Prod.fst := by
      by_contra hnot
      rw [findSample_eq_none_iff.mpr hnot] at hfind
      cases hfind
    rw [if_pos hmem]
    dsimp only
    by_cases hvalue : sample.counterValue ≠ value.2
    · rw [if_pos hvalue]
      exact intervals_markConflict _ _
    · rw [if_neg hvalue]

theorem intervals_foldl_addSample (values : List (SampleKey T × Option ℚ))
    (state : List (SampleKey T × SampleEvidence T) × Finset String) :
    intervals (values.foldl (addSample onset width snapshots conflicts row) state).1 =
      ((values.map Prod.fst).map fun key =>
        (key, intervalOf onset width snapshots row key)).foldl FirstSeen.record
          (intervals state.1) := by
  induction values generalizing state with
  | nil => rfl
  | cons value rest ih =>
    rw [List.foldl_cons, ih, intervals_addSample]
    rfl

end Table

section Pipeline

variable {T : Type*}

theorem foldl_addRequest_samples (state : rawEvidence.State T)
    (values : List (SampleKey T × Float64 ℚ)) :
    (values.foldl rawEvidence.addRequest state).snapshots = state.snapshots ∧
      (values.foldl rawEvidence.addRequest state).samples = state.samples := by
  induction values generalizing state with
  | nil => exact ⟨rfl, rfl⟩
  | cons value rest ih =>
    obtain ⟨hsnapshots, hsamples⟩ := ih (rawEvidence.addRequest state value)
    rw [List.foldl_cons, hsnapshots, hsamples]
    unfold rawEvidence.addRequest
    cases finiteValue value.2 <;> exact ⟨rfl, rfl⟩

variable [AddCommGroup T] [LinearOrder T] (onset width : T) {row : QueryRow T}

/-- A row that is no snapshot leaves the samples alone. -/
theorem step_of_not_snapshot (h : ¬ isSnapshot row = true) (state : rawEvidence.State T) :
    (rawEvidence.step onset width state row).snapshots = state.snapshots ∧
      (rawEvidence.step onset width state row).samples = state.samples := by
  rw [isSnapshot, Bool.and_eq_true, decide_eq_true_eq, not_and] at h
  unfold rawEvidence.step
  by_cases hcpu : row.kind = "prom_cpu_raw"
  · have hfailed : responseSucceeded row = false := Bool.eq_false_iff.mpr (h hcpu)
    rw [if_neg fun hother => hother.1 hcpu, if_pos hfailed]
    exact ⟨rfl, rfl⟩
  · by_cases hrequests : row.kind = "prom_requests_raw"
    · rw [if_neg fun hother => hother.2 hrequests]
      by_cases hfailed : responseSucceeded row = false
      · rw [if_pos hfailed]
        exact ⟨rfl, rfl⟩
      · rw [if_neg hfailed]
        dsimp only
        rw [if_pos hrequests]
        exact foldl_addRequest_samples _ _
    · rw [if_pos ⟨hcpu, hrequests⟩]
      exact ⟨rfl, rfl⟩

/-- A snapshot adds the samples that no earlier one returned. -/
theorem step_of_snapshot (h : isSnapshot row = true) (state : rawEvidence.State T) :
    (rawEvidence.step onset width state row).snapshots = state.snapshots ++ [snapshotOf row] ∧
      intervals (rawEvidence.step onset width state row).samples =
        (rowIntervals onset width state.snapshots row).foldl FirstSeen.record
          (intervals state.samples) := by
  rw [isSnapshot, Bool.and_eq_true, decide_eq_true_eq] at h
  obtain ⟨hcpu, hsucceeded⟩ := h
  have hrequests : ¬ row.kind = "prom_requests_raw" := by
    rw [hcpu]
    decide
  unfold rawEvidence.step
  rw [if_neg fun hother => hother.1 hcpu, if_neg (by rw [hsucceeded]; decide)]
  dsimp only
  rw [if_neg hrequests]
  have hkeys : ((rawValues row).map fun value => (value.1, finiteValue value.2)).map Prod.fst =
      keysOf row := List.map_map
  refine ⟨rfl, ?_⟩
  dsimp only
  rw [intervals_foldl_addSample, hkeys]
  rfl

/-- Snapshots that finished after a row started do not bound its samples. -/
theorem lowerBounds_append {later : List (QueryRow T)}
    (hlater : ∀ r ∈ later, row.requestStartedAt < r.requestFinishedAt)
    (snapshots : List (Snapshot T)) (key : SampleKey T) :
    lowerBounds onset width (snapshots ++ later.map snapshotOf) row key =
      lowerBounds onset width snapshots row key := by
  have hnone : (later.map snapshotOf).filter (fun previous =>
      decide (Misses width row key previous)) = [] := by
    refine List.filter_eq_nil_iff.mpr fun previous hprevious hmisses => ?_
    obtain ⟨r, hr, rfl⟩ := List.mem_map.mp hprevious
    exact (hlater r hr).not_ge (of_decide_eq_true hmisses).1
  unfold lowerBounds
  rw [List.filter_append, hnone, List.append_nil]

/-- The run over rows in the order in which they finished records the intervals that all snapshots
give. -/
theorem foldl_step {rows : List (QueryRow T)}
    (hordered : rows.Pairwise fun a b => a.requestFinishedAt ≤ b.requestFinishedAt)
    (hpositive : ∀ r ∈ rows, isSnapshot r = true → r.requestStartedAt < r.requestFinishedAt)
    (state : rawEvidence.State T) :
    intervals (rows.foldl (rawEvidence.step onset width) state).samples =
      ((rows.filter isSnapshot).flatMap (rowIntervals onset width
        (state.snapshots ++ (rows.filter isSnapshot).map snapshotOf))).foldl FirstSeen.record
          (intervals state.samples) := by
  induction rows generalizing state with
  | nil => rfl
  | cons row rest ih =>
    obtain ⟨hrow, hrest⟩ := List.pairwise_cons.mp hordered
    rw [List.foldl_cons, ih hrest fun r hr => hpositive r (.tail _ hr)]
    by_cases hsnapshot : isSnapshot row = true
    · obtain ⟨hsnapshots, hintervals⟩ := step_of_snapshot onset width
        hsnapshot state
      have hlater : ∀ r ∈ row :: rest.filter isSnapshot,
          row.requestStartedAt < r.requestFinishedAt := by
        have hlength := hpositive row List.mem_cons_self hsnapshot
        refine List.forall_mem_cons.mpr ⟨hlength, fun r hr => ?_⟩
        exact hlength.trans_le (hrow r (List.mem_filter.mp hr).1)
      have hfirst : rowIntervals onset width state.snapshots row = rowIntervals onset width
          (state.snapshots ++ (row :: rest.filter isSnapshot).map snapshotOf) row := by
        refine List.map_congr_left fun key _ => ?_
        rw [intervalOf, intervalOf, lowerBounds_append onset width hlater]
      rw [hsnapshots, hintervals, List.filter_cons, if_pos hsnapshot, List.flatMap_cons,
        List.foldl_append, hfirst, List.map_cons, List.append_assoc]
      rfl
    · obtain ⟨hsnapshots, hsamples⟩ := step_of_not_snapshot onset width
        hsnapshot state
      rw [hsnapshots, hsamples, List.filter_cons, if_neg hsnapshot]

end Pipeline

section Order

variable {T : Type*} [LinearOrder T]

theorem filter_sortedByFinish (p : QueryRow T → Bool) (rows : List (QueryRow T)) :
    (sortedByFinish rows).filter p = sortedByFinish (rows.filter p) :=
  ComparisonSort.filter_insertionSort
    (r := fun a b : QueryRow T => a.requestFinishedAt ≤ b.requestFinishedAt)
    (fun _ _ _ => le_trans) p (fun _ _ h => (not_le.mp h).le) rows

theorem sortedByFinish_pairwise (rows : List (QueryRow T)) :
    (sortedByFinish rows).Pairwise fun a b => a.requestFinishedAt ≤ b.requestFinishedAt :=
  ComparisonSort.pairwise_insertionSort (fun _ _ _ _ h => h)
    (fun _ _ _ _ h => (not_le.mp h).le) fun _ _ _ _ _ _ => le_trans

theorem mem_sortedByFinish {row : QueryRow T} {rows : List (QueryRow T)} :
    row ∈ sortedByFinish rows ↔ row ∈ rows :=
  List.mem_insertionSort _

theorem sampleMap_add_keys (state : List (SampleKey T × Option ℚ) × Finset (SampleKey T))
    (value : SampleKey T × Float64 ℚ) : (sampleMap.add state value).1.map Prod.fst =
      FirstSeen.recordKey (state.1.map Prod.fst) value.1 := by
  unfold sampleMap.add FirstSeen.recordKey
  dsimp only
  cases hfind : state.1.find? fun entry => decide (entry.1 = value.1) with
  | none =>
    have hmem : value.1 ∉ state.1.map Prod.fst := by
      rintro hmem
      obtain ⟨entry, hentry, hkey⟩ := List.mem_map.mp hmem
      exact List.find?_eq_none.mp hfind entry hentry (decide_eq_true hkey)
    rw [if_neg hmem, List.map_append]
    rfl
  | some entry =>
    have hkey := List.find?_some hfind
    have hmem : value.1 ∈ state.1.map Prod.fst :=
      List.mem_map.mpr ⟨entry, List.mem_of_find?_eq_some hfind, of_decide_eq_true hkey⟩
    rw [if_pos hmem, List.map_map]
    refine List.map_congr_left fun e _ => ?_
    rw [Function.comp_apply]
    split_ifs <;> rfl

theorem sampleMap_keys (row : QueryRow T) (conflicts : Finset (SampleKey T)) :
    (sampleMap row conflicts).1.map Prod.fst = (keysOf row).foldl FirstSeen.recordKey [] := by
  have hfold : ∀ (values : List (SampleKey T × Float64 ℚ))
      (state : List (SampleKey T × Option ℚ) × Finset (SampleKey T)),
      (values.foldl sampleMap.add state).1.map Prod.fst =
        (values.map Prod.fst).foldl FirstSeen.recordKey (state.1.map Prod.fst) := by
    intro values
    induction values with
    | nil => exact fun _ => rfl
    | cons value rest ih =>
      intro state
      rw [List.foldl_cons, ih, sampleMap_add_keys]
      rfl
  exact hfold (rawValues row) ([], conflicts)

def MappedSnapshot.keyed (s : MappedSnapshot T) : QueryRow T × List (SampleKey T) :=
  (s.row, s.values.map Prod.fst)

theorem mapSnapshots_keyed (raw : List (QueryRow T)) :
    (mapSnapshots raw).1.map MappedSnapshot.keyed =
      raw.map fun row => (row, (keysOf row).foldl FirstSeen.recordKey []) := by
  have hfold : ∀ (rows : List (QueryRow T))
      (state : List (MappedSnapshot T) × Finset (SampleKey T)),
      (rows.foldl (fun state row =>
        ((state.1 ++ [⟨row, (sampleMap row state.2).1⟩] : List (MappedSnapshot T)),
          (sampleMap row state.2).2)) state).1.map MappedSnapshot.keyed =
        state.1.map MappedSnapshot.keyed ++
          rows.map fun row => (row, (keysOf row).foldl FirstSeen.recordKey []) := by
    intro rows
    induction rows with
    | nil => simp
    | cons row rest ih =>
      intro state
      have hkeyed : MappedSnapshot.keyed ⟨row, (sampleMap row state.2).1⟩ =
          (row, (keysOf row).foldl FirstSeen.recordKey []) :=
        Prod.ext rfl (sampleMap_keys row state.2)
      rw [List.foldl_cons, ih, List.map_append, List.map_singleton, hkeyed, List.append_assoc]
      rfl
  exact hfold raw ([], ∅)

theorem mapSnapshots_snapshots (raw : List (QueryRow T)) :
    (mapSnapshots raw).1.map MappedSnapshot.toSnapshot = raw.map snapshotOf := by
  have hkeyed := congrArg (List.map fun pair : QueryRow T × List (SampleKey T) =>
    (⟨pair.1, pair.2.toFinset⟩ : Snapshot T)) (mapSnapshots_keyed raw)
  rw [List.map_map, List.map_map] at hkeyed
  refine hkeyed.trans (List.map_congr_left fun row _ => ?_)
  change (⟨row, _⟩ : Snapshot T) = ⟨row, _⟩
  congr 1
  ext key
  rw [List.mem_toFinset, List.mem_toFinset, FirstSeen.mem_foldl_recordKey]
  simp

end Order

section Tables

variable {T : Type*} [AddCommGroup T] [LinearOrder T] {onset width : T}

def intervalTable (onset width : T) (snapshots : List (QueryRow T)) :
    List (SampleKey T × (String × T × Option T × T)) :=
  (snapshots.flatMap (rowIntervals onset width (snapshots.map snapshotOf))).foldl
    FirstSeen.record []

variable (onset width) in
theorem rawEvidence_intervals {rows : List (QueryRow T)} (flags : Finset String)
    (hpositive : ∀ r ∈ rows, isSnapshot r = true → r.requestStartedAt < r.requestFinishedAt) :
    ((rawEvidence rows onset width flags).samples.map SampleEvidence.interval).Perm
      ((intervalTable onset width (snapshotRows rows)).map Prod.snd) := by
  have hrun := foldl_step onset width (sortedByFinish_pairwise rows)
    (fun r hr => hpositive r (mem_sortedByFinish.mp hr)) ⟨[], [], ∅, flags⟩
  rw [filter_sortedByFinish] at hrun
  change intervals _ = intervalTable onset width (snapshotRows rows) at hrun
  rw [← hrun]
  refine ((List.perm_insertionSort _ _).map _).trans (List.Perm.of_eq ?_)
  rw [intervals, List.map_map, List.map_map]
  rfl

theorem foldl_mapped (snapshots : List (Snapshot T)) (conflicts : Finset (SampleKey T))
    (mapped : List (MappedSnapshot T))
    (state : List (SampleKey T × SampleEvidence T) × Finset String) :
    intervals (mapped.foldl (fun state snapshot => snapshot.values.foldl
      (addSample onset width snapshots conflicts snapshot.row) state) state).1 =
      ((mapped.map MappedSnapshot.keyed).flatMap fun pair => pair.2.map fun key =>
        (key, intervalOf onset width snapshots pair.1 key)).foldl FirstSeen.record
          (intervals state.1) := by
  induction mapped generalizing state with
  | nil => rfl
  | cons snapshot rest ih =>
    rw [List.foldl_cons, ih, intervals_foldl_addSample, List.map_cons, List.flatMap_cons,
      List.foldl_append]
    rfl

theorem foldl_keyed (snapshots : List (Snapshot T)) (raw : List (QueryRow T))
    (table : List (SampleKey T × (String × T × Option T × T))) :
    ((raw.map fun row => (row, (keysOf row).foldl FirstSeen.recordKey [])).flatMap fun pair =>
      pair.2.map fun key => (key, intervalOf onset width snapshots pair.1 key)).foldl
        FirstSeen.record table =
      (raw.flatMap (rowIntervals onset width snapshots)).foldl FirstSeen.record table := by
  induction raw generalizing table with
  | nil => rfl
  | cons row rest ih =>
    rw [List.map_cons, List.flatMap_cons, List.flatMap_cons, List.foldl_append, List.foldl_append,
      ih, FirstSeen.foldl_record_recordKey]
    rfl

theorem foldl_mapSnapshots (conflicts : Finset (SampleKey T)) (raw : List (QueryRow T))
    (state : List (SampleKey T × SampleEvidence T) × Finset String) :
    intervals ((mapSnapshots raw).1.foldl (fun state snapshot => snapshot.values.foldl
      (addSample onset width ((mapSnapshots raw).1.map MappedSnapshot.toSnapshot) conflicts
        snapshot.row) state) state).1 =
      (raw.flatMap (rowIntervals onset width (raw.map snapshotOf))).foldl FirstSeen.record
        (intervals state.1) := by
  rw [foldl_mapped, mapSnapshots_keyed, mapSnapshots_snapshots, foldl_keyed]

theorem analyze_intervals (observations : List (QueryRow T)) (cutoff : T) :
    ((analyze observations onset width cutoff).1.map SampleEvidence.interval).Perm
      ((intervalTable onset width (sortedByFinish (visibilityRows observations cutoff))).map
        Prod.snd) := by
  have hinterval : ∀ samples : List (SampleKey T × SampleEvidence T),
      (samples.map Prod.snd).map SampleEvidence.interval = (intervals samples).map Prod.snd := by
    intro samples
    rw [intervals, List.map_map, List.map_map]
    rfl
  refine ((List.perm_insertionSort _ _).map _).trans (List.Perm.of_eq ?_)
  rw [hinterval]
  exact congrArg (List.map Prod.snd)
    (foldl_mapSnapshots _ (sortedByFinish (visibilityRows observations cutoff)) ([], _))

end Tables

section Bounds

variable {T : Type*} [AddCommGroup T] [LinearOrder T] {onset width : T}

theorem find?_rowIntervals (snapshots : List (Snapshot T)) (row : QueryRow T)
    (key : SampleKey T) :
    (rowIntervals onset width snapshots row).find? (fun entry => decide (entry.1 = key)) =
      if key ∈ keysOf row then some (key, intervalOf onset width snapshots row key) else none := by
  unfold rowIntervals
  induction keysOf row with
  | nil => rfl
  | cons first rest ih =>
    rw [List.map_cons, List.find?_cons, ih]
    by_cases hfirst : first = key
    · rw [hfirst, decide_eq_true rfl, if_pos List.mem_cons_self]
    · have hmem : key ∈ first :: rest ↔ key ∈ rest := by simp [Ne.symm hfirst]
      rw [decide_eq_false hfirst]
      simp only [hmem]

theorem find?_flatMap_rowIntervals (snapshots : List (Snapshot T)) (rows : List (QueryRow T))
    (key : SampleKey T) :
    (rows.flatMap (rowIntervals onset width snapshots)).find?
      (fun entry => decide (entry.1 = key)) =
      (rows.find? fun row => decide (key ∈ keysOf row)).map fun first =>
        (key, intervalOf onset width snapshots first key) := by
  induction rows with
  | nil => rfl
  | cons row rest ih =>
    rw [List.flatMap_cons, List.find?_append, find?_rowIntervals, ih, List.find?_cons]
    by_cases hkey : key ∈ keysOf row
    · rw [if_pos hkey, decide_eq_true hkey]
      rfl
    · rw [if_neg hkey, decide_eq_false hkey]
      rfl

variable (onset width) in
/-- The table has the samples that some snapshot returns, with the interval of the first one. -/
theorem mem_intervalTable_iff {snapshots : List (QueryRow T)} {key : SampleKey T}
    {interval : String × T × Option T × T} :
    (key, interval) ∈ intervalTable onset width snapshots ↔
      ∃ first, snapshots.find? (fun row => decide (key ∈ keysOf row)) = some first ∧
        interval = intervalOf onset width (snapshots.map snapshotOf) first key := by
  rw [intervalTable, FirstSeen.mem_foldl_record_iff, find?_flatMap_rowIntervals,
    Option.map_eq_some_iff]
  constructor
  · rintro (hmem | ⟨-, first, hfirst, heq⟩)
    · cases hmem
    · exact ⟨first, hfirst, (congrArg Prod.snd heq).symm⟩
  · rintro ⟨first, hfirst, rfl⟩
    exact .inr ⟨by simp, first, hfirst, rfl⟩

omit [AddCommGroup T] in
theorem mem_snapshotRows {rows : List (QueryRow T)} {row : QueryRow T} :
    row ∈ snapshotRows rows ↔ row ∈ rows ∧ isSnapshot row = true := by
  rw [snapshotRows, mem_sortedByFinish, List.mem_filter]

variable (onset) in
theorem mem_lowerBounds_iff {rows : List (QueryRow T)} {first : QueryRow T} {key : SampleKey T}
    {lower : T} :
    lower ∈ lowerBounds onset width ((snapshotRows rows).map snapshotOf) first key ↔
      ∃ previous ∈ rows, (isSnapshot previous = true ∧
        previous.requestFinishedAt ≤ first.requestStartedAt ∧ Covers width previous key ∧
          key ∉ keysOf previous) ∧ previous.requestStartedAt - onset = lower := by
  have hmisses : ∀ r : QueryRow T, Misses width first key (snapshotOf r) ↔
      r.requestFinishedAt ≤ first.requestStartedAt ∧ Covers width r key ∧ key ∉ keysOf r := by
    intro r
    unfold Misses snapshotOf
    rw [List.mem_toFinset]
  unfold lowerBounds
  rw [List.mem_map]
  constructor
  · rintro ⟨previous, hprevious, heq⟩
    obtain ⟨hmem, hmiss⟩ := List.mem_filter.mp hprevious
    obtain ⟨r, hr, rfl⟩ := List.mem_map.mp hmem
    obtain ⟨hrow, hsnapshot⟩ := mem_snapshotRows.mp hr
    exact ⟨r, hrow, ⟨hsnapshot, (hmisses r).mp (of_decide_eq_true hmiss)⟩, heq⟩
  · rintro ⟨r, hrow, ⟨hsnapshot, hmiss⟩, heq⟩
    have hmem := List.mem_map_of_mem (f := snapshotOf) (mem_snapshotRows.mpr ⟨hrow, hsnapshot⟩)
    exact ⟨snapshotOf r, List.mem_filter.mpr ⟨hmem, decide_eq_true ((hmisses r).mpr hmiss)⟩, heq⟩

variable {timeline : RawTimeline T} {rows : List (QueryRow T)}
  (h : ∀ row ∈ rows, isSnapshot row = true → Answers timeline width row)

include h

theorem lt_visibleAt_of_missed {previous : QueryRow T} {key : SampleKey T}
    (hprevious : previous ∈ rows) (hsnapshot : isSnapshot previous = true)
    (hcovers : Covers width previous key) (hmissed : key ∉ keysOf previous)
    (hkey : key ∈ timeline.samples) : previous.requestStartedAt < timeline.visibleAt key := by
  obtain ⟨-, instant, ⟨hstart, -⟩, hanswer⟩ := h previous hprevious hsnapshot
  refine hstart.trans_lt (lt_of_not_ge fun hvisible => ?_)
  exact hmissed ((hanswer key).mpr ⟨hkey, hcovers, hvisible⟩)

theorem boundsVisibility_of_interval [IsOrderedAddMonoid T] {sample : SampleEvidence T}
    {key : SampleKey T} {first : QueryRow T}
    (hfirst : (snapshotRows rows).find? (fun row => decide (key ∈ keysOf row)) = some first)
    (hinterval : sample.interval =
      intervalOf onset width ((snapshotRows rows).map snapshotOf) first key) :
    BoundsVisibility timeline rows onset width sample := by
  obtain ⟨hlabels, hseconds, hafter, hby⟩ :
      sample.labels = key.1 ∧ sample.sampleSeconds = key.2 - onset ∧
        sample.visibleAfter =
          (lowerBounds onset width ((snapshotRows rows).map snapshotOf) first key).max? ∧
        sample.visibleBy = first.requestFinishedAt - onset := by
    simpa [SampleEvidence.interval, intervalOf] using hinterval
  have hsample : sample.key onset = key := by
    rw [SampleEvidence.key, hlabels, hseconds, sub_add_cancel]
  obtain ⟨hrow, hsnapshot⟩ := mem_snapshotRows.mp (List.mem_of_find?_eq_some hfirst)
  have hreturned := List.find?_some hfirst
  obtain ⟨-, instant, ⟨-, hfinish⟩, hanswer⟩ := h first hrow hsnapshot
  obtain ⟨hkey, -, hvisible⟩ := (hanswer key).mp (of_decide_eq_true hreturned)
  constructor
  · intro lower hlower
    rw [hafter] at hlower
    obtain ⟨previous, hprevious, ⟨hsnap, -, hcovers, hmissed⟩, rfl⟩ :=
      (mem_lowerBounds_iff _).mp (List.max?_mem hlower)
    have hlt := lt_visibleAt_of_missed h hprevious hsnap hcovers hmissed hkey
    rw [hsample]
    exact sub_le_sub_right hlt.le onset
  · rw [hsample, hby]
    exact sub_le_sub_right (hvisible.trans hfinish) onset
  · rw [hsample, hafter, List.max?_eq_none_iff]
    refine ⟨first, hfirst, ?_⟩
    constructor
    · rintro hnone ⟨previous, hprevious, hmisses⟩
      have hmem := (mem_lowerBounds_iff onset).mpr ⟨previous, hprevious, hmisses, rfl⟩
      rw [hnone] at hmem
      cases hmem
    · intro hnone
      refine List.eq_nil_iff_forall_not_mem.mpr fun lower hlower => hnone ?_
      obtain ⟨previous, hprevious, hmisses, -⟩ := (mem_lowerBounds_iff _).mp hlower
      exact ⟨previous, hprevious, hmisses⟩

end Bounds

/-- Both analyses bound when every sample became visible, with the same intervals. -/
theorem visibility_intervals_bracket {T : Type*} [AddCommGroup T] [LinearOrder T]
    [IsOrderedAddMonoid T] (timeline : RawTimeline T) (rows : List (QueryRow T)) (onset width : T)
    (flags : Finset String)
    (h : ∀ row ∈ rows, isSnapshot row = true → Answers timeline width row) :
    (∀ sample ∈ (rawEvidence rows onset width flags).samples,
      BoundsVisibility timeline rows onset width sample) ∧
    (∀ row ∈ rows, isSnapshot row = true → ∀ key ∈ keysOf row,
      ∃ sample ∈ (rawEvidence rows onset width flags).samples, sample.key onset = key) ∧
    ∀ observations cutoff, visibilityRows observations cutoff = rows.filter isSnapshot →
      ((analyze observations onset width cutoff).1.map SampleEvidence.interval).Perm
        ((rawEvidence rows onset width flags).samples.map SampleEvidence.interval) := by
  have hperm := rawEvidence_intervals onset width flags
    fun r hr hsnapshot => (h r hr hsnapshot).1
  refine ⟨fun sample hsample => ?_, fun row hrow hsnapshot key hkey => ?_,
    fun observations cutoff hsame => ?_⟩
  · obtain ⟨⟨key, interval⟩, hentry, hinterval⟩ :=
      List.mem_map.mp (hperm.mem_iff.mp (List.mem_map_of_mem hsample))
    obtain ⟨first, hfirst, rfl⟩ := (mem_intervalTable_iff _ _).mp hentry
    exact boundsVisibility_of_interval h hfirst hinterval.symm
  · have hmem := mem_snapshotRows.mpr ⟨hrow, hsnapshot⟩
    have hfound : ((snapshotRows rows).find? fun row => decide (key ∈ keysOf row)).isSome = true :=
      List.find?_isSome.mpr ⟨row, hmem, decide_eq_true hkey⟩
    obtain ⟨first, hfirst⟩ := Option.isSome_iff_exists.mp hfound
    have hentry := (mem_intervalTable_iff onset width).mpr
      ⟨first, hfirst, rfl⟩
    obtain ⟨sample, hsample, hinterval⟩ :=
      List.mem_map.mp (hperm.mem_iff.mpr (List.mem_map_of_mem (f := Prod.snd) hentry))
    have hlabels : sample.labels = key.1 := congrArg Prod.fst hinterval
    have hseconds : sample.sampleSeconds = key.2 - onset :=
      congrArg (fun interval => interval.2.1) hinterval
    refine ⟨sample, hsample, ?_⟩
    rw [SampleEvidence.key, hlabels, hseconds, sub_add_cancel]
  · refine (analyze_intervals observations cutoff).trans ?_
    rw [hsame]
    exact hperm.symm

/-! Two snapshots. The second one returns a sample that the first one missed. -/

def cpuRow (start : ℤ) (stamps : List ℤ) : QueryRow ℤ where
  kind := "prom_cpu_raw"
  status := "success"
  response := some ⟨some "success", [⟨"cpu", stamps.map fun stamp => (stamp, .finite stamp)⟩]⟩
  requestStartedAt := start
  requestFinishedAt := start + 10
  evaluationTimeUnix := start

/-- The sample of 10 is visible from 12 on, and that of 15 from 35 on. -/
def cpuTimeline : RawTimeline ℤ where
  samples := {key | key = ("cpu", 10) ∨ key = ("cpu", 15)}
  visibleAt := fun key => if key.2 = 10 then 12 else 35

theorem visibility_intervals_bracket_missed :
    (rawEvidence [cpuRow 20 [10], cpuRow 40 [10, 15]] 0 60 ∅).samples.map SampleEvidence.interval =
      [("cpu", 10, none, 30), ("cpu", 15, some 20, 50)] ∧
    ∀ sample ∈ (rawEvidence [cpuRow 20 [10], cpuRow 40 [10, 15]] 0 60 ∅).samples,
      BoundsVisibility cpuTimeline [cpuRow 20 [10], cpuRow 40 [10, 15]] 0 60 sample := by
  refine ⟨by decide +kernel, (visibility_intervals_bracket cpuTimeline _ 0 60 ∅ ?_).1⟩
  intro row hrow _
  rcases List.mem_pair.mp hrow with rfl | rfl
  · refine ⟨by decide, 25, by decide, fun key => ?_⟩
    change key ∈ [(("cpu", 10) : SampleKey ℤ)] ↔ _
    rw [List.mem_singleton]
    constructor
    · rintro rfl
      exact ⟨.inl rfl, by decide, by decide⟩
    · rintro ⟨rfl | rfl, -, hvisible⟩
      · rfl
      · exact absurd hvisible (by decide)
  · refine ⟨by decide, 45, by decide, fun key => ?_⟩
    change key ∈ [(("cpu", 10) : SampleKey ℤ), ("cpu", 15)] ↔ _
    rw [List.mem_pair]
    constructor
    · rintro (rfl | rfl)
      · exact ⟨.inl rfl, by decide, by decide⟩
      · exact ⟨.inr rfl, by decide, by decide⟩
    · exact And.left

end Autoscaler.Analysis
