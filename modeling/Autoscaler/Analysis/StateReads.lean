import Autoscaler.Float64
import Autoscaler.Library.Adjacent
import Autoscaler.Library.FirstFailure
import Mathlib.Algebra.Order.Ring.Rat

/-! State records of the live observer, and the readings taken from them. Instants are as `epoch`
reads them. -/
namespace Autoscaler.Analysis

structure RequestTiming (T : Type*) where
  requestStartedAt : T
  requestFinishedAt : T
  deriving DecidableEq, Repr

/-- A decoded JSON value, where a number may stand. -/
inductive JsonValue where
  | null
  | boolean (value : Bool)
  | number (value : Float64 ℚ)
  | other
  deriving DecidableEq, Repr

structure ResourceCondition where
  type : String
  status : String
  observedGeneration : Option ℤ
  deriving DecidableEq, Repr

structure Resource where
  generation : Option ℤ
  replicas : JsonValue
  readyReplicas : Option JsonValue
  conditions : List ResourceCondition
  deriving DecidableEq, Repr

structure StateRow (T : Type*) where
  kind : String
  status : String
  timing : RequestTiming T
  requests : List (String × RequestTiming T)
  response : List (String × Resource)
  deriving DecidableEq, Repr

inductive Field where
  | requested
  | ready
  | metrics
  deriving DecidableEq, Repr

structure StateSample (T : Type*) where
  start : T
  finish : T
  value : Option ℚ
  deriving DecidableEq, Repr

def metricsValue (obj : Resource) : JsonValue :=
  match obj.conditions.filter fun c => c.type == "MetricsReady" with
  | [] => .null
  | [condition] =>
    if condition.observedGeneration = obj.generation then
      if condition.status = "True" then .number (.finite 0)
      else if condition.status = "False" then .number (.finite 1)
      else .null
    else .null
  | _ :: _ :: _ => .null

def fieldValue (obj : Resource) : Field → JsonValue
  | .requested => obj.replicas
  | .ready => obj.readyReplicas.getD (.number (.finite 0))
  | .metrics => metricsValue obj

def replicaCount : JsonValue → Except String (Option ℚ)
  | .null => .ok none
  | .number (.finite value) =>
    if value < 0 ∨ value.den ≠ 1 then .error "Replica counts must be finite nonnegative integers"
    else .ok (some value)
  | _ => .error "Replica counts must be finite nonnegative integers"

section Samples

variable {T : Type*} [LinearOrder T]

/-- The timing of the resource's own request, or else of the row. -/
def StateRow.timingOf (row : StateRow T) (resource : String) : RequestTiming T :=
  (row.requests.lookup resource).getD row.timing

def readInterval (row : StateRow T) (resource : String) : Except String (T × T) :=
  let timing := row.timingOf resource
  if timing.requestFinishedAt < timing.requestStartedAt then
    .error "Observer request finishes before it starts"
  else .ok (timing.requestStartedAt, timing.requestFinishedAt)

theorem readInterval_ok {row : StateRow T} {resource : String}
    (h : (row.timingOf resource).requestStartedAt ≤ (row.timingOf resource).requestFinishedAt) :
    readInterval row resource = .ok ((row.timingOf resource).requestStartedAt,
      (row.timingOf resource).requestFinishedAt) :=
  if_neg h.not_gt

def samples.read (resource : String) (field : Field) (row : StateRow T) :
    Except String (StateSample T) :=
  match readInterval row resource with
  | .error err => .error err
  | .ok (start, finish) =>
    if row.status = "success" then
      match row.response.lookup resource with
      | none => .error ("KeyError: " ++ resource)
      | some obj => (replicaCount (fieldValue obj field)).map fun value => ⟨start, finish, value⟩
    else .ok ⟨start, finish, none⟩

def samples (rows : List (StateRow T)) (resource : String) (field : Field) :
    Except String (List (StateSample T)) :=
  match FirstFailure.collect (samples.read resource field)
      (rows.filter fun row => row.kind == "state") with
  | .error err => .error err
  | .ok result =>
    if (result.zip result.tail).any fun (left, right) =>
        decide (right.start < left.finish) || decide (right.finish ≤ left.finish) then
      .error "Observer resource reads must be ordered without duplicate or overlapping intervals"
    else .ok result

/-- What `samples` returns: reads one after another, with nonnegative values. -/
structure OrderedSamples (values : List (StateSample T)) : Prop where
  increasing : values.Pairwise fun left right => left.finish < right.finish
  nonneg : ∀ sample ∈ values, ∀ value ∈ sample.value, 0 ≤ value

theorem metricsValue_cases (obj : Resource) :
    metricsValue obj = .null ∨ metricsValue obj = .number (.finite 0) ∨
      metricsValue obj = .number (.finite 1) := by
  unfold metricsValue
  split
  · exact .inl rfl
  · split_ifs <;> simp
  · exact .inl rfl

theorem replicaCount_ok {raw : JsonValue} {value : ℚ} (h : replicaCount raw = .ok (some value)) :
    raw = .number (.finite value) ∧ 0 ≤ value := by
  unfold replicaCount at h
  split at h
  · cases h
  · split_ifs at h with hbad
    cases h
    exact ⟨rfl, not_lt.mp (not_or.mp hbad).1⟩
  · cases h

/-- A sample's value is a checked value of the resource, or it is unknown. -/
theorem samples.read_value {resource : String} {field : Field} {row : StateRow T}
    {sample : StateSample T} (h : samples.read resource field row = .ok sample) {value : ℚ}
    (hvalue : sample.value = some value) :
    ∃ obj, replicaCount (fieldValue obj field) = .ok (some value) := by
  unfold samples.read at h
  cases hinterval : readInterval row resource with
  | error err =>
    rw [hinterval] at h
    cases h
  | ok interval =>
    rw [hinterval] at h
    dsimp only at h
    split_ifs at h with hstatus
    · cases hlookup : row.response.lookup resource with
      | none =>
        rw [hlookup] at h
        cases h
      | some obj =>
        rw [hlookup] at h
        dsimp only at h
        cases hcount : replicaCount (fieldValue obj field) with
        | error err =>
          rw [hcount] at h
          cases h
        | ok count =>
          rw [hcount] at h
          cases h
          exact ⟨obj, by rw [hcount, ← hvalue]⟩
    · cases h
      cases hvalue

theorem samples_collect {rows : List (StateRow T)} {resource : String} {field : Field}
    {values : List (StateSample T)} (h : samples rows resource field = .ok values) :
    FirstFailure.collect (samples.read resource field)
        (rows.filter fun row => row.kind == "state") = .ok values ∧
      values.IsChain fun left right => left.finish ≤ right.start ∧ left.finish < right.finish := by
  unfold samples at h
  cases hcollect : FirstFailure.collect (samples.read resource field)
      (rows.filter fun row => row.kind == "state") with
  | error err =>
    rw [hcollect] at h
    cases h
  | ok result =>
    rw [hcollect] at h
    dsimp only at h
    split_ifs at h with hoverlap
    cases h
    refine ⟨rfl, (Adjacent.forall_zip_tail_iff _ values).mp fun pair hpair => ?_⟩
    have hpass := fun hbad => hoverlap (List.any_eq_true.mpr ⟨pair, hpair, hbad⟩)
    simpa using hpass

theorem exists_of_mem_samples {rows : List (StateRow T)} {resource : String} {field : Field}
    {values : List (StateSample T)} (h : samples rows resource field = .ok values)
    {sample : StateSample T} (hsample : sample ∈ values) {value : ℚ}
    (hvalue : value ∈ sample.value) :
    ∃ obj, replicaCount (fieldValue obj field) = .ok (some value) := by
  obtain ⟨row, -, hread⟩ := (FirstFailure.mem_of_collect_ok _ (samples_collect h).1).mp hsample
  exact samples.read_value hread hvalue

theorem samples_ordered {rows : List (StateRow T)} {resource : String} {field : Field}
    {values : List (StateSample T)} (h : samples rows resource field = .ok values) :
    OrderedSamples values := by
  have hchain := (samples_collect h).2
  constructor
  · have hincreasing : values.IsChain fun left right => left.finish < right.finish :=
      hchain.imp fun _ _ h => h.2
    exact List.isChain_iff_pairwise.mp hincreasing
  · intro sample hsample value hvalue
    obtain ⟨obj, hcount⟩ := exists_of_mem_samples h hsample hvalue
    exact (replicaCount_ok hcount).2

theorem samples_metrics {rows : List (StateRow T)} {resource : String}
    {values : List (StateSample T)} (h : samples rows resource .metrics = .ok values) :
    ∀ sample ∈ values, ∀ value ∈ sample.value, value = 0 ∨ value = 1 := by
  intro sample hsample value hvalue
  obtain ⟨obj, hcount⟩ := exists_of_mem_samples h hsample hvalue
  rcases metricsValue_cases obj with hnull | hready | hfalse
  · rw [fieldValue, hnull] at hcount
    cases hcount
  · rw [fieldValue, hready] at hcount
    have heq := (replicaCount_ok hcount).1
    cases heq
    exact .inl rfl
  · rw [fieldValue, hfalse] at hcount
    have heq := (replicaCount_ok hcount).1
    cases heq
    exact .inr rfl

end Samples

end Autoscaler.Analysis
