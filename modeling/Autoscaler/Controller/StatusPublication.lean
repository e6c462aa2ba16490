import Autoscaler.Controller.MetricsUnavailable

/-! A status patch replaces exactly the status it was computed from, so no concurrent update of the
policy is lost. -/
namespace Autoscaler.Controller

open Effects MetricsProvider

def foreignConditions (status : PredictiveHPAStatus) : List Condition :=
  status.conditions.filter fun c =>
    c.type != conditionMetricsReady && c.type != conditionScaleDownStabilized

namespace PredictiveHPAReconciler

variable {K : Type}

section Mutations

variable (r : PredictiveHPAReconciler K)

theorem stabilizationCondition_type (phpa : PredictiveHPA) (update : DecisionStatusUpdate K) :
    (r.stabilizationCondition phpa update).type = conditionScaleDownStabilized := by
  unfold stabilizationCondition
  dsimp only
  split_ifs <;> rfl

theorem foreign_setStatusCondition (status : PredictiveHPAStatus) {new : Condition}
    (hown : new.type = conditionMetricsReady ∨ new.type = conditionScaleDownStabilized) :
    (r.setStatusCondition status new).Ensures (fun op => op = .wallClock) fun status' =>
      foreignConditions status' = foreignConditions status := by
  refine ⟨rfl, fun now => r.filter_setStatusCondition _ _ _ fun c hc => ?_⟩
  rw [Bool.and_eq_true] at hc
  rcases hown with hown | hown <;> rw [hown]
  · exact hc.1
  · exact hc.2

variable [Field K] [LinearOrder K] [FloorRing K]

theorem decisionStatus_foreign (phpa : PredictiveHPA) (update : DecisionStatusUpdate K)
    (status : PredictiveHPAStatus) :
    (r.decisionStatus phpa update status).Ensures (fun op => op = .wallClock) fun status' =>
      foreignConditions status' = foreignConditions status := by
  have hconditions : ∀ s : PredictiveHPAStatus, foreignConditions s = foreignConditions status →
      (do
        let s ← r.setStatusCondition s (r.stabilizationCondition phpa update)
        r.setStatusCondition s
          { type := conditionMetricsReady, status := .true, reason := "ValidMetrics",
            message := "CPU observations are complete, fresh and ready for prediction",
            observedGeneration := phpa.metadata.generation, lastTransitionTime := 0 } :
        Program K PredictiveHPAStatus).Ensures (fun op => op = .wallClock) fun s =>
          foreignConditions s = foreignConditions status := by
    intro s hs
    refine Prog.ensures_bind (r.foreign_setStatusCondition s
      (.inr (r.stabilizationCondition_type phpa update))) fun s₁ hs₁ => ?_
    exact (r.foreign_setStatusCondition s₁ (.inl rfl)).imp_result fun s₂ hs₂ =>
      hs₂.trans (hs₁.trans hs)
  unfold decisionStatus
  cases update.scaled with
  | false => exact hconditions _ rfl
  | true => exact ⟨rfl, fun now => hconditions _ rfl⟩

def Publishes (mutate : PredictiveHPAStatus → Program K PredictiveHPAStatus) : Prop :=
  (∃ phpa err, mutate = r.unavailableStatus phpa err) ∨
    ∃ phpa update, mutate = r.decisionStatus phpa update

theorem Publishes.foreign {mutate : PredictiveHPAStatus → Program K PredictiveHPAStatus}
    (h : r.Publishes mutate) (status : PredictiveHPAStatus) :
    (mutate status).Ensures (fun op => op = .wallClock) fun status' =>
      foreignConditions status' = foreignConditions status := by
  rcases h with ⟨phpa, err, rfl⟩ | ⟨phpa, update, rfl⟩
  · refine (r.unavailableStatus_ensures phpa err status).imp_result fun status' h => ?_
    exact congrArg ScalingState.conditions h.1
  · exact r.decisionStatus_foreign phpa update status

end Mutations

variable [Field K] [LinearOrder K] [FloorRing K] {r : PredictiveHPAReconciler K} {w w' : World}
  {events : List (APIEvent K)} {expected : PredictiveHPA}

/-- The update starts with a read of the policy that its decision was computed for. -/
def ReadsExpected (r : PredictiveHPAReconciler K) (expected : PredictiveHPA)
    (events : List (APIEvent K)) : Prop :=
  ∃ w₁ latest rest, events = ⟨w₁, .getPHPA r.reader expected.metadata.key, .ok latest, w₁⟩ :: rest ∧
    samePolicy expected latest = true

/-- The event replaces the stored policy by the same version with the mutated status; the mutation
has read the clock as in `clock`. -/
def AppliesMutation (expected : PredictiveHPA)
    (mutate : PredictiveHPAStatus → Program K PredictiveHPAStatus) (clock : List (APIEvent K))
    (e : APIEvent K) : Prop :=
  ∃ stored status, e.before.phpas expected.metadata.key = some stored ∧
    stored.metadata.uid = expected.metadata.uid ∧
    stored.metadata.generation = expected.metadata.generation ∧
    Answers (mutate stored.status) clock status ∧
    foreignConditions status = foreignConditions stored.status ∧
    e.after.phpas expected.metadata.key = some (withStatus stored status e.before.revision) ∧
    ∀ key ≠ expected.metadata.key, e.after.phpas key = e.before.phpas key

/-- Whatever others write in between, an accepted patch is the mutation of the status stored right
before it, of the expected policy, with all foreign conditions kept; any other call leaves the
stored objects alone, and without a fresh read of the expected policy there is no patch at all. -/
theorem status_patch_exact (hw : w.WellFormed) {stamped : Bool}
    {mutate : PredictiveHPAStatus → Program K PredictiveHPAStatus} (hmutate : r.Publishes mutate)
    {result : Option (Except Err Unit)}
    (h : Exec (cluster K) w (r.patchStatus expected stamped mutate) events result w') :
    (∀ e ∈ events, (∃ before after, e.op = .patchStatus before after ∧
        e.before.StatusPatched before after e.after ∧ ReadsExpected r expected events ∧
        ∃ clock, clock.Sublist events ∧ AppliesMutation expected mutate clock e) ∨
      e.after = e.before) ∧
    (¬ ReadsExpected r expected events → ∀ e ∈ events, e.after = e.before) := by
  have hforeign := hmutate.foreign
  have hreads : ∀ e ∈ events, e.op = .wallClock → e.after = e.before := fun e he hop =>
    unchanged_of_wallClock (h.performed e he) hop
  suffices hall : ∀ e ∈ events, (∃ before after, e.op = .patchStatus before after ∧
      e.before.StatusPatched before after e.after ∧ ReadsExpected r expected events ∧
      ∃ clock, clock.Sublist events ∧ AppliesMutation expected mutate clock e) ∨
        e.after = e.before by
    refine ⟨hall, fun hnot e he => (hall e he).resolve_left ?_⟩
    rintro ⟨_, _, -, -, hread, -⟩
    exact hnot hread
  rcases patchStatus_calls (fun status => (hforeign status).weaken) h with
    ⟨rfl, rfl⟩ | ⟨w₁, found, rest, rfl, hrest⟩
  · exact fun e he => absurd he (List.not_mem_nil)
  rcases hrest with ⟨rfl, -⟩ | ⟨latest, rfl, hsame, ⟨hclock, -⟩ |
    ⟨clock, status, w₂, answer, w₃, rfl, hclock, hstatus, -⟩⟩
  · exact List.forall_mem_singleton.mpr (.inr rfl)
  · exact List.forall_mem_cons.mpr ⟨.inr rfl, fun e he =>
      .inr (hreads e (List.mem_cons_of_mem _ he) (hclock e he))⟩
  refine List.forall_mem_cons.mpr ⟨.inr rfl, List.forall_mem_append.mpr ⟨fun e he =>
    .inr (hreads e (List.mem_cons_of_mem _ (List.mem_append_left _ he)) (hclock e he)),
    List.forall_mem_singleton.mpr ?_⟩⟩
  rcases patch_replaces hw h rfl with ⟨rfl, -⟩ | ⟨hlive, hkey, rfl⟩
  · exact .inr rfl
  · obtain ⟨huid, hgeneration, -⟩ := samePolicy_iff.mp hsame
    refine .inl ⟨latest, _, rfl, ⟨latest, hkey ▸ hlive, rfl, ?_⟩, ⟨w₁, latest, _, rfl, hsame⟩,
      clock, ((List.sublist_append_left clock _).cons _), latest, status, hlive, huid,
      hgeneration, hstatus, hstatus.ensures (hforeign latest.status), ?_, fun key hne => ?_⟩
    · unfold patchedPHPA
      rw [mergeStatus_self]
    · rw [← hkey]
      exact World.putPHPA_self ..
    · exact World.putPHPA_of_ne _ (by rw [withStatus_key, hkey]; exact hne)

theorem noDataPatch_exec :
    Exec (cluster ℚ) safetyWorld (safetyReconciler.patchStatus safetyPHPA false
        (safetyReconciler.unavailableStatus safetyPHPA (.ofSentinel .noData)))
      (noDataCalls.drop 3) (some (.ok ()))
      (safetyWorld.putPHPA (withStatus safetyPHPA (noDataStatus (5 * second)) 3)) := by
  refine .call .refl ⟨rfl, rfl⟩ ?_
  refine .call .refl rfl ?_
  refine .call .refl rfl ?_
  refine .call .refl (.inl ⟨safetyPHPA, rfl, rfl, rfl⟩) ?_
  exact .done .refl

theorem status_patch_exact_noData :
    ReadsExpected safetyReconciler safetyPHPA (noDataCalls.drop 3) ∧
      ∀ e ∈ noDataCalls.drop 3, (∃ before after, e.op = .patchStatus before after ∧
        e.before.StatusPatched before after e.after ∧
        ReadsExpected safetyReconciler safetyPHPA (noDataCalls.drop 3) ∧
        ∃ clock, clock.Sublist (noDataCalls.drop 3) ∧ AppliesMutation safetyPHPA
          (safetyReconciler.unavailableStatus safetyPHPA (.ofSentinel .noData)) clock e) ∨
        e.after = e.before :=
  ⟨⟨_, _, _, rfl, by decide⟩,
    (status_patch_exact safetyWorld_wellFormed (.inl ⟨_, _, rfl⟩) noDataPatch_exec).1⟩

end PredictiveHPAReconciler

end Autoscaler.Controller
