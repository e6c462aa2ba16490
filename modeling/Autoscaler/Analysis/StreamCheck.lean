import Autoscaler.Analysis.ObserverStream

/-! The analysis of a complete stream of observe-cpu. -/
namespace Autoscaler.Analysis

open MetricsProvider ObserveCPU

def checkObservations (targetUID : UID) : ℤ → ℤ → List StreamRow → Except String Unit
  | _, _, [] => .ok ()
  | sequence, previousFinish, row :: rest =>
    if row.sequence ≠ some sequence ∨ row.observation.protocolVersion ≠ "cadence-cpu-v1" then
      .error "CPU stream sequence or protocol is inconsistent"
    else
      match validateObservation row.observation targetUID,
        timestamp (epoch row.observation.observationStartedAt) with
      | .error err, _ => .error err
      | _, .error err => .error err
      | .ok (), .ok started =>
        if started < previousFinish then
          .error "CPU observations overlap or arrive out of order"
        else
          match timestamp (epoch row.observation.observationFinishedAt) with
          | .error err => .error err
          | .ok finished => checkObservations targetUID (sequence + 1) finished rest

section Check

variable {labelSelectorAsSelector : LabelSelector → Except Err Selector} {target : Deployment}
  {p : PrometheusProvider} {targetUID : UID} {n : ℤ} {passes observed : List Pass} {pass : Pass}
  {rows : List StreamRow}

/-- The checks of the loop, when the times are past 1970. -/
theorem Continues.checkObservations {last : Option ℤ} (h : Continues targetUID n last rows)
    {previousFinish : ℤ}
    (hprevious : ∀ row ∈ rows.head?, previousFinish ≤ epoch row.observation.observationStartedAt)
    (hprotocol : ∀ row ∈ rows, row.observation.protocolVersion = "cadence-cpu-v1")
    (hpast : ∀ row ∈ rows, 0 < epoch row.observation.observationStartedAt) :
    checkObservations targetUID (n + 1) previousFinish rows = .ok () ↔
      ∀ row ∈ rows, validateObservation row.observation targetUID = .ok () := by
  induction h generalizing previousFinish with
  | nil n last => simp [Analysis.checkObservations]
  | @cons n last row rest _ _ sequence ordered valid rest_continues ih =>
    obtain ⟨hrow, hrest⟩ := List.forall_mem_cons.mp hprotocol
    obtain ⟨hstarted, hlater⟩ := List.forall_mem_cons.mp hpast
    have hordered : ¬ epoch row.observation.observationStartedAt < previousFinish :=
      not_lt.mpr (hprevious row rfl)
    have hnext : ∀ later ∈ rest.head?, epoch row.observation.observationFinishedAt ≤
        epoch later.observation.observationStartedAt := by
      cases rest_continues with
      | nil => simp
      | cons _ _ _ ordered _ _ => simpa using ordered
    rw [Analysis.checkObservations, if_neg (by simp [sequence, hrow]), timestamp_of_pos hstarted,
      timestamp_of_pos (hstarted.trans_le valid), List.forall_mem_cons]
    cases hvalidate : validateObservation row.observation targetUID with
    | error err => simp
    | ok =>
      dsimp only
      rw [if_neg hordered, ih hnext hrest hlater]
      simp

variable {ending : Option SummaryRecord} {lines : List Line}

end Check

end Autoscaler.Analysis
