import Autoscaler.Analysis.DecisionReplay
import Autoscaler.MetricsProvider.Observation
import Autoscaler.MetricsProvider.Observed

/-! The experiment's gate over the observation records. -/
namespace Autoscaler.Analysis

open MetricsProvider

/-- `epoch`: Unix time in whole microseconds, to which Python truncates the printed nanoseconds. -/
def epoch (t : ℤ) : ℤ := (t - Time.unixEpoch) / 1000

structure Row where
  protocolVersion : String
  targetUID : UID
  status : String
  error : String
  observationStartedAt : ℤ
  observationFinishedAt : ℤ
  evaluatedAt : Option ℤ
  sourceTimestamp : Option ℤ
  utilizationPercent : Option (Float64 ℚ)
  containers : List ContainerSource
  deriving DecidableEq

abbrev Identity := String × UID × String × String

abbrev Sources := List (Identity × ℤ)

def identity (container : ContainerSource) : Identity :=
  (container.pod, container.podUID, container.container, container.runtimeID)

def complete (key : Identity) : Bool :=
  key.1 != "" && key.2.1 != "" && key.2.2.1 != "" && key.2.2.2 != ""

def maxSourceAge : ℤ := 45 * 1000000

def validUtilization : Option (Float64 ℚ) → Bool
  | some (.finite value) => decide (0 ≤ value)
  | _ => false

def staleSource : String := "Stale or future container source sample"

def sourceSet.loop (evaluated finished : ℤ) : List ContainerSource → Sources → Except String Sources
  | [], sources => .ok sources
  | container :: rest, sources =>
    let key := identity container
    let source := epoch container.sourceTimestamp
    if !complete key || (sources.map Prod.fst).contains key then
      .error "Incomplete or duplicate container identity"
    else if evaluated < source ∨ ¬ (0 ≤ finished - source ∧ finished - source ≤ maxSourceAge) then
      .error staleSource
    else loop evaluated finished rest (sources ++ [(key, source)])

def sourceSet (row : Row) (targetUID : UID) : Except String Sources :=
  if row.protocolVersion ≠ "cadence-cpu-v1" ∨ row.targetUID ≠ targetUID then
    .error "CPU observation target or protocol changed"
  else if row.status ≠ "success" ∨ row.error ≠ "" then
    .error "Accepted CPU observation must not contain an error"
  else
    match row.evaluatedAt with
    | none => .error "Timestamp must be an explicit string"
    | some evaluatedAt =>
      let started := epoch row.observationStartedAt
      let finished := epoch row.observationFinishedAt
      let evaluated := epoch evaluatedAt
      if ¬ (started - 1000 ≤ evaluated ∧ evaluated ≤ finished) ∨ finished < started then
        .error "Invalid CPU observation interval"
      else if !validUtilization row.utilizationPercent then .error "Invalid CPU utilization"
      else
        match sourceSet.loop evaluated finished row.containers [] with
        | .error err => .error err
        | .ok [] => .error "Oldest source timestamp disagrees with complete container set"
        | .ok sources =>
          match row.sourceTimestamp with
          | none => .error "Timestamp must be an explicit string"
          | some oldest =>
            if (sources.map Prod.snd).min? ≠ some (epoch oldest) then
              .error "Oldest source timestamp disagrees with complete container set"
            else .ok sources

def validateObservation (row : Row) (uid : UID) : Except String Unit :=
  let start := epoch row.observationStartedAt
  let finish := epoch row.observationFinishedAt
  if finish < start ∨ (row.status ≠ "success" ∧ row.status ≠ "rejected") ∨ row.targetUID ≠ uid then
    .error "Invalid CPU observation interval or status"
  else if row.status = "success" then (sourceSet row uid).map fun _ => ()
  else if row.error = "" then .error "Rejected CPU observation lacks a reason"
  else .ok ()

/-- `number`, which accepts finite values from `minimum` on. -/
def number (value : Float64 ℚ) (label : String) (minimum : ℚ) : Except String ℚ :=
  match value with
  | .finite value => if value < minimum then .error s!"Invalid {label}" else .ok value
  | .nan | .inf _ => .error s!"Invalid {label}"

def sourceEntry (container : ContainerSource) : Identity × ℤ :=
  (identity container, epoch container.sourceTimestamp)

def FreshAtFinish (row : Row) : Prop :=
  ∀ container ∈ row.containers,
    epoch row.observationFinishedAt - epoch container.sourceTimestamp ≤ maxSourceAge

instance (row : Row) : Decidable (FreshAtFinish row) :=
  inferInstanceAs (Decidable (∀ container ∈ row.containers, _ ≤ _))

/-- A container whose identity has not occurred is new, and leaves the others new. -/
theorem fresh_key {sources : Sources} {container : ContainerSource}
    {rest : List ContainerSource}
    (h : (sources.map Prod.fst ++ (container :: rest).map identity).Nodup) :
    (sources.map Prod.fst).contains (identity container) = false ∧
      ((sources ++ [sourceEntry container]).map Prod.fst ++ rest.map identity).Nodup := by
  constructor
  · have hdisjoint := List.disjoint_of_nodup_append h
    have hmem : identity container ∈ (container :: rest).map identity := by simp
    simpa using fun hfound => hdisjoint hfound hmem
  · rw [List.map_append, List.append_assoc]
    exact h

/-- Complete distinct containers that are not from the future fail by their age alone. -/
theorem sourceSet.loop_eq (evaluated finished : ℤ) (hfinished : evaluated ≤ finished)
    (containers : List ContainerSource) (sources : Sources)
    (hcomplete : ∀ c ∈ containers, complete (identity c) = true)
    (hdistinct : (sources.map Prod.fst ++ containers.map identity).Nodup)
    (hpast : ∀ c ∈ containers, epoch c.sourceTimestamp ≤ evaluated) :
    sourceSet.loop evaluated finished containers sources =
      if ∀ c ∈ containers, finished - epoch c.sourceTimestamp ≤ maxSourceAge then
        .ok (sources ++ containers.map sourceEntry)
      else .error staleSource := by
  induction containers generalizing sources with
  | nil => simp [sourceSet.loop]
  | cons container rest ih =>
    obtain ⟨hkey, hcomplete⟩ := List.forall_mem_cons.mp hcomplete
    obtain ⟨hsource, hpast⟩ := List.forall_mem_cons.mp hpast
    obtain ⟨hnew, hrest⟩ := fresh_key hdistinct
    rw [sourceSet.loop, hkey, hnew]
    by_cases hage : finished - epoch container.sourceTimestamp ≤ maxSourceAge
    · rw [if_neg (by simp), if_neg (by omega)]
      have hall : (∀ c ∈ rest, finished - epoch c.sourceTimestamp ≤ maxSourceAge) ↔
          ∀ c ∈ container :: rest, finished - epoch c.sourceTimestamp ≤ maxSourceAge := by
        rw [List.forall_mem_cons]
        exact (and_iff_right hage).symm
      refine (ih (sources ++ [sourceEntry container]) hcomplete hrest hpast).trans
        (if_congr hall ?_ rfl)
      rw [List.append_assoc]
      rfl
    · rw [if_neg (by simp), if_pos (by omega), if_neg]
      exact fun hall => hage (hall container List.mem_cons_self)

section Accepted

variable {p : PrometheusProvider} {call : Call} {target : Deployment} {observation : Observation}
  {labelSelectorAsSelector : LabelSelector → Except Err Selector}

end Accepted

def pairRoster : TargetRoster where
  generation := 1
  containers := [(⟨"test", "web-a", "app"⟩, ⟨"uid-a", "rs-one", "cid-a", 1 / 2⟩),
    (⟨"test", "web-a", "proxy"⟩, ⟨"uid-a", "rs-one", "cid-b", 1 / 4⟩)]
  nodupKeys := by decide
  oneNamespace := by decide

end Autoscaler.Analysis
