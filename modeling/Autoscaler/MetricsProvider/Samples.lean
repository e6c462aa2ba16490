import Autoscaler.Api
import Autoscaler.Errors
import Autoscaler.Float64
import Autoscaler.Library.FirstFailure
import Mathlib.Algebra.BigOperators.Group.List.Basic
import Mathlib.Algebra.Order.Floor.Ring
import Mathlib.Data.Finmap
import Mathlib.Data.Rat.Floor
import Mathlib.Data.List.Sort
import Mathlib.Data.Prod.Lex
import Mathlib.Data.String.Basic
import Mathlib.Order.Bounds.Basic

/-! Validation and aggregation of the CPU samples of one observation. -/
namespace Autoscaler.MetricsProvider

abbrev Metric := Finmap fun _ : String => String

/-- An absent label reads as the empty string. -/
def Metric.label (m : Metric) (name : String) : String := (m.lookup name).getD ""

/-- A vector element; its timestamp counts milliseconds of Unix time. -/
structure Sample where
  metric : Metric
  value : Float64 ℚ
  timestamp : ℤ
  deriving DecidableEq

abbrev Vector := List Sample

structure ContainerKey where
  ns : String
  pod : String
  container : String
  deriving DecidableEq, Repr

structure ExpectedContainer where
  podUID : UID
  replicaSetUID : UID
  containerID : String
  request : ℚ
  deriving DecidableEq, Repr

/-- A roster with its container map in one iteration order. All containers come from a Pod
list of a single namespace. -/
structure TargetRoster where
  generation : ℤ
  containers : List (ContainerKey × ExpectedContainer)
  nodupKeys : (containers.map Prod.fst).Nodup
  oneNamespace : ∀ a ∈ containers, ∀ b ∈ containers, a.1.ns = b.1.ns

structure ContainerSource where
  pod : String
  podUID : UID
  container : String
  runtimeID : String
  sourceTimestamp : ℤ
  deriving DecidableEq, Repr

def replaceDashes (s : List Char) : List Char := s.map fun c => if c = '-' then '_' else c

def podMatches (podUID : UID) (part : List Char) : Bool :=
  part == "pod".toList ++ podUID.toList ||
    ("-pod".toList ++ replaceDashes podUID.toList ++ ".slice".toList).isSuffixOf part

def leafMatches (containerID : String) (leaf : List Char) : Bool :=
  leaf == containerID.toList ||
    leaf == "cri-containerd-".toList ++ containerID.toList ++ ".scope".toList ||
    leaf == "crio-".toList ++ containerID.toList ++ ".scope".toList ||
    leaf == "docker-".toList ++ containerID.toList ++ ".scope".toList

def matchesInstance (metric : Metric) (expected : ExpectedContainer) : Bool :=
  let parts := (metric.label "id").toList.splitOn '/'
  if parts.length < 2 then false
  else parts.dropLast.any (podMatches expected.podUID) &&
    leafMatches expected.containerID (parts.getLastD [])

/-- The series that `uniqueSample` does not skip. -/
def attributed (key : ContainerKey) (expected : ExpectedContainer) (sample : Sample) : Bool :=
  sample.metric.label "namespace" == key.ns && sample.metric.label "pod" == key.pod &&
    sample.metric.label "container" == key.container && matchesInstance sample.metric expected

def uniqueSample.scan (key : ContainerKey) (expected : ExpectedContainer) :
    Vector → Option Sample → Except Err Sample
  | [], none => .error (.wrap .incompleteData
      ("CPU series unavailable for " ++ key.pod ++ "/" ++ key.container))
  | [], some sample => .ok sample
  | sample :: rest, found =>
    if attributed key expected sample then
      match found with
      | some _ => .error (.wrap .incompleteData
          ("ambiguous CPU series for " ++ key.pod ++ "/" ++ key.container))
      | none => scan key expected rest (some sample)
    else scan key expected rest found

def uniqueSample (vector : Vector) (key : ContainerKey) (expected : ExpectedContainer) :
    Except Err Sample :=
  uniqueSample.scan key expected vector none

def validValues (rate source : Float64 ℚ) (evaluatedAt : ℤ) : Bool :=
  match rate, source with
  | .finite cpu, .finite sourceSeconds =>
    !(cpu < 0 || sourceSeconds < 0 || Time.unixSeconds evaluatedAt < sourceSeconds)
  | _, _ => false

def outdated (source : Float64 ℚ) (evaluatedAt maxAge : ℤ) : Bool :=
  match source with
  | .finite sourceSeconds => sourceSeconds < Time.unixSeconds (evaluatedAt - maxAge)
  | _ => false

def sameSeries (rate source : Sample) : Bool :=
  rate.metric.erase "__name__" == source.metric.erase "__name__"

def validatePair (rate source : Sample) (evaluatedAt maxAge : ℤ) : Except Err Unit :=
  if !sameSeries rate source then
    .error (.wrap .incompleteData "CPU and source timestamp series differ")
  else if rate.timestamp ≠ Time.unixMilli evaluatedAt ∨
      source.timestamp ≠ Time.unixMilli evaluatedAt then
    .error (.wrap .invalidData "unexpected query evaluation timestamp")
  else if !validValues rate.value source.value evaluatedAt then
    .error (.wrap .invalidData "CPU or source timestamp is invalid")
  else if maxAge ≤ 0 then
    .error (.wrap .invalidData "maximum sample age must be positive")
  else if outdated source.value evaluatedAt maxAge then .error (.ofSentinel .staleData)
  else .ok ()

def defaultMaxSampleAge : ℤ := 45 * second

/-- The method of the provider whose `MaxSampleAge` field is the argument. -/
def effectiveMaxSampleAge (maxSampleAge : ℤ) : ℤ :=
  if maxSampleAge = 0 then defaultMaxSampleAge else maxSampleAge

/-- Conversion to an integer truncates toward zero. -/
def truncateToInt (value : ℚ) : ℤ := if value < 0 then ⌈value⌉ else ⌊value⌋

def sourceTime (source : Float64 ℚ) : ℤ :=
  Time.unixEpoch + truncateToInt (source.exact * (second : ℚ))

/-- What one container contributes to the aggregate. -/
structure Reading where
  cpu : ℚ
  request : ℚ
  source : ContainerSource

def readContainer (maxAge : ℤ) (rates sources : Vector) (evaluatedAt : ℤ)
    (entry : ContainerKey × ExpectedContainer) : Except Err Reading := do
  let rate ← uniqueSample rates entry.1 entry.2
  let source ← uniqueSample sources entry.1 entry.2
  validatePair rate source evaluatedAt maxAge
  return ⟨rate.value.exact, entry.2.request,
    ⟨entry.1.pod, entry.2.podUID, entry.1.container, entry.2.containerID,
      sourceTime source.value⟩⟩

structure Aggregate where
  totalCPU : ℚ
  totalRequest : ℚ
  oldest : ℤ
  containers : List ContainerSource

def Aggregate.empty : Aggregate := ⟨0, 0, 0, []⟩

def Aggregate.add (aggregate : Aggregate) (reading : Reading) : Aggregate where
  totalCPU := aggregate.totalCPU + reading.cpu
  totalRequest := aggregate.totalRequest + reading.request
  oldest :=
    if Time.isZero aggregate.oldest || reading.source.sourceTimestamp < aggregate.oldest then
      reading.source.sourceTimestamp
    else aggregate.oldest
  containers := aggregate.containers ++ [reading.source]

def utilization.loop (maxAge : ℤ) (rates sources : Vector) (evaluatedAt : ℤ) :
    List (ContainerKey × ExpectedContainer) → Aggregate → Except Err Aggregate
  | [], aggregate => .ok aggregate
  | entry :: rest, aggregate => do
    let reading ← readContainer maxAge rates sources evaluatedAt entry
    loop maxAge rates sources evaluatedAt rest (aggregate.add reading)

def containerOrder (a b : ContainerSource) : Prop :=
  toLex (a.pod, a.container) ≤ toLex (b.pod, b.container)

instance : DecidableRel containerOrder :=
  fun a b => inferInstanceAs (Decidable (toLex (a.pod, a.container) ≤ toLex (b.pod, b.container)))

structure Utilization where
  value : ℚ
  oldest : ℤ
  containers : List ContainerSource
  deriving DecidableEq

def utilization (maxSampleAge : ℤ) (roster : TargetRoster) (rates sources : Vector)
    (evaluatedAt : ℤ) : Except Err Utilization :=
  if rates.isEmpty || sources.isEmpty then .error (.ofSentinel .noData)
  else
    match utilization.loop (effectiveMaxSampleAge maxSampleAge) rates sources evaluatedAt
      roster.containers .empty with
    | .error e => .error e
    | .ok aggregate =>
      -- the quotient is finite exactly when the denominator is not zero
      if aggregate.totalRequest = 0 then
        .error (.wrap .invalidData "CPU aggregate is not finite")
      else
        .ok ⟨100 * aggregate.totalCPU / aggregate.totalRequest, aggregate.oldest,
          aggregate.containers.insertionSort containerOrder⟩

/-! How the data of one container fails, read off the input. -/

/-- Both samples carry the evaluation time and usable values. -/
def validSamples (rate source : Sample) (evaluatedAt maxAge : ℤ) : Bool :=
  rate.timestamp == Time.unixMilli evaluatedAt && source.timestamp == Time.unixMilli evaluatedAt &&
    validValues rate.value source.value evaluatedAt && decide (0 < maxAge)

/-- Missing, ambiguous or mismatched series are incomplete; then come invalid and stale data. -/
def containerFailure (maxAge : ℤ) (rates sources : Vector) (evaluatedAt : ℤ)
    (entry : ContainerKey × ExpectedContainer) : Option Sentinel :=
  match rates.filter (attributed entry.1 entry.2), sources.filter (attributed entry.1 entry.2) with
  | [rate], [source] =>
    if !sameSeries rate source then some .incompleteData
    else if !validSamples rate source evaluatedAt maxAge then some .invalidData
    else if outdated source.value evaluatedAt maxAge then some .staleData
    else none
  | _, _ => some .incompleteData

theorem scan_eq (key : ContainerKey) (expected : ExpectedContainer) (vector : Vector) :
    uniqueSample.scan key expected vector none =
      match vector.filter (attributed key expected) with
      | [] => .error (.wrap .incompleteData
          ("CPU series unavailable for " ++ key.pod ++ "/" ++ key.container))
      | [sample] => .ok sample
      | _ => .error (.wrap .incompleteData
          ("ambiguous CPU series for " ++ key.pod ++ "/" ++ key.container)) := by
  have hfound : ∀ (vector : Vector) (sample : Sample),
      uniqueSample.scan key expected vector (some sample) =
        match vector.filter (attributed key expected) with
        | [] => .ok sample
        | _ => .error (.wrap .incompleteData
            ("ambiguous CPU series for " ++ key.pod ++ "/" ++ key.container)) := by
    intro vector sample
    induction vector with
    | nil => rfl
    | cons next rest ih =>
      cases h : attributed key expected next with
      | false => simpa [uniqueSample.scan, h] using ih
      | true => simp [uniqueSample.scan, h]
  induction vector with
  | nil => rfl
  | cons next rest ih =>
    cases h : attributed key expected next with
    | false => simpa [uniqueSample.scan, h] using ih
    | true =>
      rw [uniqueSample.scan, if_pos h, hfound, List.filter_cons_of_pos h]
      cases rest.filter (attributed key expected) <;> rfl

theorem uniqueSample_ok_iff (vector : Vector) (key : ContainerKey)
    (expected : ExpectedContainer) (sample : Sample) :
    uniqueSample vector key expected = .ok sample ↔
      vector.filter (attributed key expected) = [sample] := by
  unfold uniqueSample
  rw [scan_eq]
  cases vector.filter (attributed key expected) with
  | nil => simp
  | cons first rest => cases rest <;> simp

theorem uniqueSample_error {vector : Vector} {key : ContainerKey}
    {expected : ExpectedContainer} {e : Err} (h : uniqueSample vector key expected = .error e) :
    e.wraps = [.incompleteData] ∧
      ∀ sample, vector.filter (attributed key expected) ≠ [sample] := by
  have hnot : ∀ sample, vector.filter (attributed key expected) ≠ [sample] := by
    intro sample hs
    rw [(uniqueSample_ok_iff vector key expected sample).mpr hs] at h
    cases h
  refine ⟨?_, hnot⟩
  unfold uniqueSample at h
  rw [scan_eq] at h
  cases hf : vector.filter (attributed key expected) with
  | nil =>
    rw [hf] at h
    cases h
    rfl
  | cons first rest =>
    cases rest with
    | nil => exact absurd hf (hnot first)
    | cons second rest =>
      rw [hf] at h
      cases h
      rfl

theorem validatePair_cases (rate source : Sample) (evaluatedAt maxAge : ℤ) :
    (sameSeries rate source = false ∧
      ∃ e, validatePair rate source evaluatedAt maxAge = .error e ∧ e.wraps = [.incompleteData]) ∨
    (sameSeries rate source = true ∧ validSamples rate source evaluatedAt maxAge = false ∧
      ∃ e, validatePair rate source evaluatedAt maxAge = .error e ∧ e.wraps = [.invalidData]) ∨
    (sameSeries rate source = true ∧ validSamples rate source evaluatedAt maxAge = true ∧
      outdated source.value evaluatedAt maxAge = true ∧
      validatePair rate source evaluatedAt maxAge = .error (.ofSentinel .staleData)) ∨
    (sameSeries rate source = true ∧ validSamples rate source evaluatedAt maxAge = true ∧
      outdated source.value evaluatedAt maxAge = false ∧
      validatePair rate source evaluatedAt maxAge = .ok ()) := by
  unfold validatePair validSamples
  split_ifs with hsame hstamp hvalid hage hout
  · exact .inl ⟨by simpa using hsame, _, rfl, rfl⟩
  · refine .inr (.inl ⟨by simpa using hsame, ?_, _, rfl, rfl⟩)
    rcases hstamp with h | h <;> simp [h]
  · exact .inr (.inl ⟨by simpa using hsame, by simp at hvalid; simp [hvalid], _, rfl, rfl⟩)
  · exact .inr (.inl ⟨by simpa using hsame, by simp [hage], _, rfl, rfl⟩)
  · simp at hsame hstamp hvalid hage
    exact .inr (.inr (.inl ⟨hsame, by simp [hstamp, hvalid, hage], hout, rfl⟩))
  · simp at hsame hstamp hvalid hage hout
    exact .inr (.inr (.inr ⟨hsame, by simp [hstamp, hvalid, hage], hout, rfl⟩))

theorem validValues_of_validSamples {rate source : Sample} {evaluatedAt maxAge : ℤ}
    (h : validSamples rate source evaluatedAt maxAge = true) :
    validValues rate.value source.value evaluatedAt = true := by
  simp [validSamples] at h
  exact h.1.2

theorem validValues_finite {rate source : Float64 ℚ} {evaluatedAt : ℤ}
    (h : validValues rate source evaluatedAt = true) :
    ∃ cpu sourceSeconds : ℚ, rate = .finite cpu ∧ source = .finite sourceSeconds ∧ 0 ≤ cpu ∧
      0 ≤ sourceSeconds ∧ sourceSeconds ≤ Time.unixSeconds evaluatedAt := by
  cases source with
  | nan => cases rate <;> cases h
  | inf negative => cases rate <;> cases h
  | finite sourceSeconds =>
    cases rate with
    | nan => cases h
    | inf negative => cases h
    | finite cpu =>
      simp [validValues] at h
      exact ⟨cpu, sourceSeconds, rfl, rfl, h.1.1, h.1.2, h.2⟩

theorem unixEpoch_le_of_validValues {rate source : Float64 ℚ} {evaluatedAt : ℤ}
    (h : validValues rate source evaluatedAt = true) : Time.unixEpoch ≤ evaluatedAt := by
  obtain ⟨cpu, sourceSeconds, -, -, -, hnonneg, hle⟩ := validValues_finite h
  exact Time.unixEpoch_le_of_unixSeconds (hnonneg.trans hle)

theorem sourceTime_ge_of_validValues {rate source : Float64 ℚ} {evaluatedAt : ℤ}
    (h : validValues rate source evaluatedAt = true) : Time.unixEpoch ≤ sourceTime source := by
  obtain ⟨cpu, sourceSeconds, -, rfl, -, hnonneg, -⟩ := validValues_finite h
  have hvalue : 0 ≤ sourceSeconds * (second : ℚ) := by
    have hsecond : (0 : ℚ) ≤ second := by norm_num [second]
    exact mul_nonneg hnonneg hsecond
  unfold sourceTime truncateToInt
  rw [Float64.exact_finite, if_neg (not_lt.mpr hvalue)]
  have := Int.floor_nonneg.mpr hvalue
  omega

section Order

variable (maxAge : ℤ) (rates sources : Vector) (evaluatedAt : ℤ)

theorem containerFailure_of_unmatched {entry : ContainerKey × ExpectedContainer}
    (h : ∀ rate source, rates.filter (attributed entry.1 entry.2) = [rate] →
      sources.filter (attributed entry.1 entry.2) ≠ [source]) :
    containerFailure maxAge rates sources evaluatedAt entry = some .incompleteData := by
  unfold containerFailure
  split
  · next rate source hrate hsource => exact absurd hsource (h rate source hrate)
  · rfl

theorem containerFailure_of_matched {entry : ContainerKey × ExpectedContainer}
    {rate source : Sample} (hrate : rates.filter (attributed entry.1 entry.2) = [rate])
    (hsource : sources.filter (attributed entry.1 entry.2) = [source]) :
    containerFailure maxAge rates sources evaluatedAt entry =
      if !sameSeries rate source then some .incompleteData
      else if !validSamples rate source evaluatedAt maxAge then some .invalidData
      else if outdated source.value evaluatedAt maxAge then some .staleData
      else none := by
  simp only [containerFailure, hrate, hsource]

/-- Reading a container fails in its failure class, or succeeds without one. -/
theorem readContainer_cases (entry : ContainerKey × ExpectedContainer) :
    (∃ s e, containerFailure maxAge rates sources evaluatedAt entry = some s ∧
      readContainer maxAge rates sources evaluatedAt entry = .error e ∧ e.wraps = [s]) ∨
    (∃ rate source : Sample, containerFailure maxAge rates sources evaluatedAt entry = none ∧
      validSamples rate source evaluatedAt maxAge = true ∧
      readContainer maxAge rates sources evaluatedAt entry =
        .ok ⟨rate.value.exact, entry.2.request, ⟨entry.1.pod, entry.2.podUID,
          entry.1.container, entry.2.containerID, sourceTime source.value⟩⟩) := by
  unfold readContainer
  cases hr : uniqueSample rates entry.1 entry.2 with
  | error e =>
    have ⟨hwraps, hnone⟩ := uniqueSample_error hr
    exact .inl ⟨_, e, containerFailure_of_unmatched maxAge rates sources evaluatedAt
      (fun rate _ hrate => absurd hrate (hnone rate)), rfl, hwraps⟩
  | ok rate =>
    have hrate := (uniqueSample_ok_iff _ _ _ _).mp hr
    cases hs : uniqueSample sources entry.1 entry.2 with
    | error e =>
      have ⟨hwraps, hnone⟩ := uniqueSample_error hs
      exact .inl ⟨_, e, containerFailure_of_unmatched maxAge rates sources evaluatedAt
        (fun _ source _ => hnone source), rfl, hwraps⟩
    | ok source =>
      have hsource := (uniqueSample_ok_iff _ _ _ _).mp hs
      have hfail := containerFailure_of_matched maxAge rates sources evaluatedAt hrate hsource
      rcases validatePair_cases rate source evaluatedAt maxAge with
        ⟨hsame, e, he, hw⟩ | ⟨hsame, hvalid, e, he, hw⟩ | ⟨hsame, hvalid, hout, he⟩ |
          ⟨hsame, hvalid, hout, he⟩
      · exact .inl ⟨_, e, by simp [hfail, hsame], by simp [he, bind, Except.bind], hw⟩
      · exact .inl ⟨_, e, by simp [hfail, hsame, hvalid], by simp [he, bind, Except.bind], hw⟩
      · exact .inl ⟨_, .ofSentinel .staleData, by simp [hfail, hsame, hvalid, hout],
          by simp [he, bind, Except.bind], rfl⟩
      · exact .inr ⟨rate, source, by simp [hfail, hsame, hvalid, hout], hvalid,
          by simp [he, bind, Except.bind, pure, Except.pure]⟩

/-- A container's error is of the class read off the input. -/
theorem readContainer_error_wraps {entry : ContainerKey × ExpectedContainer} {e : Err}
    (h : readContainer maxAge rates sources evaluatedAt entry = .error e) :
    ∃ s, e.wraps = [s] ∧ containerFailure maxAge rates sources evaluatedAt entry = some s := by
  rcases readContainer_cases maxAge rates sources evaluatedAt entry with
    ⟨s, e', hfail, hread, hwraps⟩ | ⟨rate, source, hfail, -, hread⟩
  · rw [h] at hread
    cases hread
    exact ⟨s, hwraps, hfail⟩
  · rw [h] at hread
    cases hread

theorem readContainer_of_failure {entry : ContainerKey × ExpectedContainer} {s : Sentinel}
    (h : containerFailure maxAge rates sources evaluatedAt entry = some s) :
    ∃ e, readContainer maxAge rates sources evaluatedAt entry = .error e ∧ e.wraps = [s] := by
  rcases readContainer_cases maxAge rates sources evaluatedAt entry with
    ⟨s', e, hfail, hread, hwraps⟩ | ⟨rate, source, hfail, -, hread⟩
  · rw [h] at hfail
    cases hfail
    exact ⟨e, hread, hwraps⟩
  · rw [h] at hfail
    cases hfail

theorem readContainer_source {entry : ContainerKey × ExpectedContainer} {reading : Reading}
    (h : readContainer maxAge rates sources evaluatedAt entry = .ok reading) :
    reading.source.pod = entry.1.pod ∧ reading.source.container = entry.1.container ∧
      reading.source.sourceTimestamp ≠ 0 := by
  rcases readContainer_cases maxAge rates sources evaluatedAt entry with
    ⟨s, e', hfail, hread, hwraps⟩ | ⟨rate, source, -, hvalid, hread⟩
  · rw [h] at hread
    cases hread
  · rw [h] at hread
    cases hread
    have hepoch := sourceTime_ge_of_validValues (validValues_of_validSamples hvalid)
    have hpos : 0 < Time.unixEpoch := by decide
    exact ⟨rfl, rfl, by dsimp only; omega⟩

end Order

end Autoscaler.MetricsProvider
