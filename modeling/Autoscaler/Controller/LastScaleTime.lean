import Autoscaler.Controller.ScaleWrites
import Autoscaler.Controller.MetricsUnavailable

/-! When the status records that the target was scaled. The Scale write and the status publication
are separate requests, with a check of the target between them. -/
namespace Autoscaler.Controller.PredictiveHPAReconciler

open Effects MetricsProvider

variable {K : Type}

/-- The operation is not a patch that sets `lastScaleTime`. -/
def KeepsScaleTime (op : Op K) : Prop :=
  ∀ before after, op = .patchStatus before after →
    after.status.lastScaleTime = before.status.lastScaleTime

def KeepsScaling (op : Op K) : Prop := KeepsScale op ∧ KeepsScaleTime op

def isWrite : Op K → Bool
  | .updateScale _ _ => true
  | .patchStatus _ _ => true
  | _ => false

theorem KeepsScaling.of_read {op : Op K} (h : isWrite op = false) : KeepsScaling op := by
  constructor
  · rintro target body rfl
    cases h
  · rintro before after rfl
    cases h

section Programs

variable (r : PredictiveHPAReconciler K)

theorem patchStatus_keepsScaling (expected : PredictiveHPA) (stamped : Bool)
    {mutate : PredictiveHPAStatus → Program K PredictiveHPAStatus}
    (hmutate : ∀ status, (mutate status).Ensures (fun op => op = .wallClock) fun status' =>
      status'.lastScaleTime = status.lastScaleTime) :
    (r.patchStatus expected stamped mutate).Ensures KeepsScaling fun _ => True := by
  refine r.patchStatus_ensures expected stamped (KeepsScaling.of_read rfl)
    (KeepsScaling.of_read rfl) ?_ hmutate
  intro latest status hstatus
  refine ⟨nofun, fun before after h => ?_⟩
  cases h
  exact hstatus

theorem freshPHPA_keepsScaling (expected : PredictiveHPA) :
    (r.freshPHPA expected).Ensures KeepsScaling fun _ => True := by
  unfold freshPHPA
  refine (Prog.ensures_perform_bind _ _).mpr ⟨.of_read rfl, fun found => ?_⟩
  cases found with
  | error => trivial
  | ok latest =>
    dsimp only
    split_ifs <;> trivial

theorem metricsUnavailable_keepsScaling (phpa : PredictiveHPA) (err : Err) (interval : ℤ) :
    (r.metricsUnavailable phpa err interval).Ensures KeepsScaling fun _ => True := by
  refine Prog.ensures_bind (r.patchStatus_keepsScaling phpa false fun status => ?_)
    fun patched _ => ?_
  · exact (r.unavailableStatus_ensures phpa err status).imp_result fun _ h =>
      congrArg ScalingState.lastScaleTime h.1
  · cases patched with
    | error => trivial
    | ok =>
      dsimp only
      split_ifs <;> trivial

variable [Field K] [LinearOrder K] [FloorRing K]

theorem decisionStatus_unscaled (phpa : PredictiveHPA) {update : DecisionStatusUpdate K}
    (hscaled : update.scaled = false) (status : PredictiveHPAStatus) :
    (r.decisionStatus phpa update status).Ensures (fun op => op = .wallClock) fun status' =>
      status'.lastScaleTime = status.lastScaleTime := by
  unfold decisionStatus
  rw [hscaled]
  exact ⟨rfl, fun _ => ⟨rfl, fun _ => rfl⟩⟩

theorem publish_unscaled (phpa : PredictiveHPA) (deploy : Deployment)
    (decision : ScalingDecision K) (interval : ℤ) :
    (r.publish phpa deploy decision false interval).Ensures KeepsScaling fun _ => True := by
  unfold publish publishDecisionStatus validateStatusTarget
  refine Prog.ensures_bind (R := fun _ => True) (Prog.ensures_bind (R := fun _ => True)
    ⟨.of_read rfl, fun found => ?_⟩ fun verified _ => ?_) fun published _ => ?_
  · cases found with
    | error => trivial
    | ok latest =>
      show Prog.Ensures KeepsScaling _ (if _ then _ else _)
      split_ifs <;> trivial
  · cases verified with
    | error => trivial
    | ok => exact r.patchStatus_keepsScaling phpa _ (r.decisionStatus_unscaled phpa rfl)
  · cases published with
    | ok => trivial
    | error err =>
      dsimp only
      split_ifs
      · exact r.metricsUnavailable_keepsScaling phpa err interval
      · trivial

end Programs

variable [Field K] [LinearOrder K] [FloorRing K] {r : PredictiveHPAReconciler K} {w w' : World}
  {events : List (APIEvent K)}

def LeavesScaleTime (e : APIEvent K) : Prop :=
  ∀ key, (e.after.phpas key).map (fun p => p.status.lastScaleTime) =
    (e.before.phpas key).map fun p => p.status.lastScaleTime

theorem KeepsScaleTime.leaves {e : APIEvent K} (hop : KeepsScaleTime e.op)
    (hw : e.before.WellFormed) (h : e.before.Performs e.op e.result e.after) :
    LeavesScaleTime e := by
  obtain ⟨before, op, answer, after⟩ := e
  intro key
  dsimp only at hop hw h ⊢
  cases op with
  | getPHPA => rw [h.1]
  | getDeployment => rw [h.1]
  | averageCPU => rw [h]
  | now => rw [h]
  | wallClock => rw [h]
  | getScale => rw [h.1]
  | forgetHistory => rw [h]
  | evaluateDecision => rw [h.2]
  | updateScale target body =>
    rcases h with ⟨d, -, -, rfl⟩ | ⟨rfl, -⟩ <;> rfl
  | patchStatus old new =>
    rcases h with ⟨live, hlive, -, rfl⟩ | ⟨rfl, -⟩
    · have hsame := hop old new rfl
      have hkey := (hw.phpa_live _ _ hlive).2
      by_cases hk : key = old.metadata.key
      · subst hk
        have hput := before.putPHPA_self (patchedPHPA live old new before.revision)
        rw [show (patchedPHPA live old new before.revision).metadata.key = old.metadata.key from
          hkey] at hput
        rw [hput, hlive]
        simp [patchedPHPA, withStatus, mergeStatus, mergeField, hsame]
      · rw [World.putPHPA_of_ne _ (show key ≠ _ from hkey ▸ hk)]
    · rfl

/-- The calls up to an attempted Scale write, with the answer to it. -/
def WritesScale (deploy : Deployment) (pre : List (APIEvent K)) (answer : Except Err Unit)
    (during events : List (APIEvent K)) : Prop :=
  ∃ w₁ body w₂, events = pre ++ ⟨w₁, .updateScale deploy.metadata.key body, answer, w₂⟩ :: during ∧
    ∀ e ∈ pre, KeepsScaling e.op

/-- The rechecks either stop before the write, or end with it. -/
theorem applyScale_calls {phpa : PredictiveHPA} {deploy : Deployment} {scale : Scale}
    {cpuHistory : CPUHistory K} {decision : ScalingDecision K} {interval : ℤ}
    {result : Option (Option (Except Err ℤ))}
    (h : Exec (cluster K) w (r.applyScale phpa deploy scale cpuHistory decision interval) events
      result w') :
    ((∀ e ∈ events, KeepsScaling e.op) ∧ result ≠ some none) ∨
    ∃ pre answer, WritesScale deploy pre answer [] events ∧
      (result = some none → answer = .ok ()) ∧ ∀ i, result ≠ some (some (.ok i)) := by
  unfold applyScale at h
  rcases exec_bind h with ⟨fresh, w₁, first, rest, hfresh, h₁, rfl⟩ | ⟨hfresh, rfl⟩
  · have hfirst := (hfresh.ensures (r.freshPHPA_keepsScaling phpa)).1
    cases fresh with
    | error err =>
      obtain ⟨rfl, hresult⟩ := exec_pure h₁
      exact .inl ⟨by simpa using hfirst, fun hnone => by cases hresult _ hnone⟩
    | ok latest =>
      rcases exec_perform h₁ with ⟨rfl, rfl⟩ | ⟨w₂, recheck, w₃, rest, -, -, rfl, h₂⟩
      · exact .inl ⟨by simpa using hfirst, nofun⟩
      have hrecheck : KeepsScaling (.getScale deploy.metadata.key : Op K) := .of_read rfl
      cases recheck with
      | error err =>
        obtain ⟨rfl, hresult⟩ := exec_pure h₂
        exact .inl ⟨List.forall_mem_append.mpr ⟨hfirst, List.forall_mem_singleton.mpr hrecheck⟩,
          fun hnone => by cases hresult _ hnone⟩
      | ok latestScale =>
        dsimp only at h₂
        by_cases hchanged : latestScale.uid ≠ deploy.metadata.uid ∨
            latestScale.resourceVersion ≠ scale.resourceVersion
        · rw [if_pos hchanged] at h₂
          obtain ⟨rfl, hresult⟩ := exec_pure h₂
          exact .inl ⟨List.forall_mem_append.mpr ⟨hfirst, List.forall_mem_singleton.mpr hrecheck⟩,
            fun hnone => by cases hresult _ hnone⟩
        rw [if_neg hchanged] at h₂
        rcases exec_perform h₂ with ⟨rfl, rfl⟩ | ⟨w₄, now, w₅, rest, -, -, rfl, h₃⟩
        · exact .inl ⟨List.forall_mem_append.mpr ⟨hfirst, List.forall_mem_singleton.mpr hrecheck⟩,
            nofun⟩
        have hnow : KeepsScaling (.now : Op K) := .of_read rfl
        rcases hvalid : validateCPUHistory cpuHistory now phpa.spec.prediction.window with err | ⟨⟩
        · rw [hvalid] at h₃
          refine .inl ⟨?_, fun hnone => ?_⟩
          · have hquiet : Prog.Ensures KeepsScaling (fun _ => True) (do
                let result ← r.metricsUnavailable phpa err interval
                return some result : Program K (Option (Except Err ℤ))) :=
              Prog.ensures_bind (r.metricsUnavailable_keepsScaling phpa err interval)
                fun _ _ => trivial
            have htail := (h₃.ensures hquiet).1
            exact List.forall_mem_append.mpr ⟨hfirst, List.forall_mem_cons.mpr ⟨hrecheck,
              List.forall_mem_cons.mpr ⟨hnow, htail⟩⟩⟩
          · subst hnone
            rcases exec_bind h₃ with ⟨_, _, _, _, -, hdone, -⟩ | ⟨-, hnone⟩
            · cases (exec_pure hdone).2 _ rfl
            · cases hnone
        rw [hvalid] at h₃
        rcases exec_perform h₃ with ⟨rfl, rfl⟩ | ⟨w₆, written, w₇, rest, -, -, rfl, h₄⟩
        · exact .inl ⟨List.forall_mem_append.mpr ⟨hfirst, List.forall_mem_cons.mpr ⟨hrecheck,
            List.forall_mem_singleton.mpr hnow⟩⟩, nofun⟩
        refine .inr ⟨first ++ [⟨w₂, .getScale deploy.metadata.key, .ok latestScale, w₃⟩,
          ⟨w₄, .now, now, w₅⟩], written, ⟨w₆, { scale with specReplicas := decision.finalDesired },
            w₇, ?_, List.forall_mem_append.mpr ⟨hfirst, List.forall_mem_cons.mpr ⟨hrecheck,
              List.forall_mem_singleton.mpr hnow⟩⟩⟩, ?_⟩
        · cases written <;> simp [(exec_pure h₄).1]
        · cases written with
          | error err =>
            exact ⟨fun hnone => (by cases (exec_pure h₄).2 _ hnone),
              fun i hi => by cases (exec_pure h₄).2 _ hi⟩
          | ok => exact ⟨fun _ => rfl, fun i hi => by cases (exec_pure h₄).2 _ hi⟩
  · exact .inl ⟨(hfresh.ensures (r.freshPHPA_keepsScaling phpa)).1, nofun⟩

/-- The next call reads the target, and finds the measured incarnation. -/
def VerifiesTarget (deploy : Deployment) : List (APIEvent K) → Prop
  | ⟨_, .getDeployment _ _, .ok latest, _⟩ :: _ =>
    latest.metadata.uid = deploy.metadata.uid ∧ latest.metadata.notDeleting = true
  | _ => False

/-- The last call stores a `lastScaleTime` that was read from the clock before. -/
def StampsScaleTime (key : NamespacedName) (events : List (APIEvent K)) : Prop :=
  ∃ init w₁ now w₂ e stored, events = init ++ [e] ∧ ⟨w₁, .wallClock, now, w₂⟩ ∈ init ∧
    (∃ before after, e.op = .patchStatus before after) ∧ e.after.phpas key = some stored ∧
    stored.status.lastScaleTime = some now

/-- Errors of the API client wrap none of the program's own sentinels. -/
def ForeignError (err : Err) : Prop := ∀ s ∈ err.wraps, s = .notFound ∨ s = .conflict

def ForeignErrors (events : List (APIEvent K)) : Prop :=
  ∀ e ∈ events, match e with
    | ⟨_, .getPHPA _ _, .error err, _⟩ => ForeignError err
    | ⟨_, .patchStatus _ _, .error err, _⟩ => ForeignError err
    | _ => True

omit [Field K] [LinearOrder K] [FloorRing K] in
theorem ForeignErrors.of_subset {events' : List (APIEvent K)} (h : ForeignErrors events)
    (hsub : ∀ e ∈ events', e ∈ events) : ForeignErrors events' := fun e he => h e (hsub e he)

theorem ForeignError.not_transient {err : Err} (h : ForeignError err) :
    (metricsFailureReason err).2 = false := by
  have hnot : ∀ s : Sentinel, s ≠ .notFound → s ≠ .conflict → err.is s = false := by
    intro s hfound hconflict
    rw [Bool.eq_false_iff]
    intro his
    rcases h s (List.contains_iff_mem.mp his) with rfl | rfl
    · exact hfound rfl
    · exact hconflict rfl
  simp [metricsFailureReason, hnot]

section Publish

variable {phpa : PredictiveHPA} {deploy : Deployment}

theorem validateStatusTarget_calls {result : Option (Except Err Unit)}
    (h : Exec (cluster K) w (r.validateStatusTarget deploy) events result w') :
    (events = [] ∧ result = none) ∨ ∃ e, events = [e] ∧ KeepsScaling e.op ∧
      (result = some (.ok ()) → ∀ rest, VerifiesTarget deploy (e :: rest)) ∧
      ∀ err, result = some (.error err) →
        (metricsFailureReason err).2 = true ∧ ∀ rest, ¬ VerifiesTarget deploy (e :: rest) := by
  unfold validateStatusTarget at h
  rcases exec_perform h with hstop | ⟨w₁, found, w₂, rest, -, -, rfl, hrest⟩
  · exact .inl hstop
  · refine .inr ⟨⟨w₁, .getDeployment r.reader deploy.metadata.key, found, w₂⟩, ?_⟩
    have hread : KeepsScaling (.getDeployment r.reader deploy.metadata.key : Op K) := .of_read rfl
    cases found with
    | error err =>
      obtain ⟨rfl, hresult⟩ := exec_pure hrest
      refine ⟨rfl, hread, fun hok => (by cases hresult _ hok), fun err' herr => ?_⟩
      cases hresult _ herr
      exact ⟨rfl, fun _ => id⟩
    | ok latest =>
      dsimp only at hrest
      by_cases hchanged : latest.metadata.uid ≠ deploy.metadata.uid ∨
          (!latest.metadata.notDeleting) = true
      · rw [if_pos hchanged] at hrest
        obtain ⟨rfl, hresult⟩ := exec_pure hrest
        refine ⟨rfl, hread, fun hok => (by cases hresult _ hok), fun err' herr => ?_⟩
        cases hresult _ herr
        refine ⟨rfl, fun _ ⟨huid, hlive⟩ => ?_⟩
        rcases hchanged with hne | hdeleting
        · exact hne huid
        · rw [hlive] at hdeleting
          cases hdeleting
      · rw [if_neg hchanged] at hrest
        obtain ⟨rfl, hresult⟩ := exec_pure hrest
        refine ⟨rfl, hread, fun _ _ => ?_, fun err' herr => by cases hresult _ herr⟩
        push Not at hchanged
        exact ⟨hchanged.1, by simpa using hchanged.2⟩

theorem decisionStatus_scaled {update : DecisionStatusUpdate K} (hscaled : update.scaled = true)
    {status status' : PredictiveHPAStatus} {clock : List (APIEvent K)}
    (h : Answers (r.decisionStatus phpa update status) clock status') :
    ∃ w₁ now w₂, ⟨w₁, .wallClock, now, w₂⟩ ∈ clock ∧ status'.lastScaleTime = some now := by
  obtain ⟨_, _, h⟩ := h
  unfold decisionStatus at h
  rw [hscaled] at h
  rcases exec_perform h with ⟨-, hnone⟩ | ⟨w₁, now, w₂, rest, -, -, rfl, hrest⟩
  · cases hnone
  · refine ⟨w₁, now, w₂, List.mem_cons_self .., ?_⟩
    have hkeeps := hrest.ensures (P := fun op : Op K => op = .wallClock)
      (Q := fun s : PredictiveHPAStatus => s.lastScaleTime = some now)
      ⟨rfl, fun _ => ⟨rfl, fun _ => rfl⟩⟩
    exact hkeeps.2 status' rfl

/-- A decision that scaled is published with its time exactly when the target is still there;
otherwise a success only reports the changed target. -/
theorem publish_scaled (hw : w.WellFormed) (hforeign : ForeignErrors events)
    {decision : ScalingDecision K} {interval i : ℤ}
    (h : Exec (cluster K) w (r.publish phpa deploy decision true interval) events
      (some (.ok i)) w') :
    (VerifiesTarget deploy events ∧ StampsScaleTime phpa.metadata.key events) ∨
      (¬ VerifiesTarget deploy events ∧ ∀ e ∈ events, KeepsScaling e.op) := by
  unfold publish publishDecisionStatus at h
  rcases exec_bind h with ⟨published, w₁, first, rest, hpublish, h₁, rfl⟩ | ⟨-, hnone⟩
  swap
  · cases hnone
  rcases exec_bind hpublish with ⟨verified, w₂, read, patch, hread, h₂, rfl⟩ | ⟨-, hnone⟩
  swap
  · cases hnone
  rcases validateStatusTarget_calls hread with ⟨-, hnone⟩ | ⟨e, rfl, hop, hverified, hfails⟩
  · cases hnone
  cases verified with
  | error err =>
    obtain ⟨htransient, hnot⟩ := hfails err rfl
    obtain ⟨rfl, hresult⟩ := exec_pure h₂
    cases hresult _ rfl
    dsimp only at h₁
    rw [if_pos htransient] at h₁
    refine .inr ⟨hnot _, List.forall_mem_append.mpr ⟨List.forall_mem_singleton.mpr hop, ?_⟩⟩
    exact (h₁.ensures (r.metricsUnavailable_keepsScaling phpa err interval)).1
  | ok =>
    refine .inl ⟨hverified rfl _, ?_⟩
    have hw₂ := (hw.exec hread).2
    rcases patchStatus_calls (r.decisionStatus_readsClock phpa _) h₂ with
      ⟨-, hnone⟩ | ⟨w₃, found, tail, rfl, htail⟩
    · cases hnone
    cases published with
    | error err =>
      -- an error of the API server ends the reconciliation with that error
      have htransient : (metricsFailureReason err).2 = false := by
        refine ForeignError.not_transient ?_
        have hread := hforeign ⟨w₃, .getPHPA r.reader phpa.metadata.key, found, w₃⟩ (by simp)
        rcases htail with ⟨rfl, -, herr⟩ | ⟨latest, rfl, hsame, ⟨-, hnot, -⟩ |
          ⟨clock, status, w₄, answer, w₅, rfl, -, -, -, herr⟩⟩
        · rcases herr err rfl with rfl | rfl
          · exact hread
          · intro s hs
            exact .inr (List.mem_singleton.mp hs)
        · exact absurd rfl (hnot err)
        · obtain ⟨err', rfl, rfl⟩ := herr err rfl
          exact hforeign ⟨w₄, .patchStatus latest { latest with status := status }, .error err', w₅⟩
            (by simp)
      dsimp only at h₁
      rw [htransient] at h₁
      cases (exec_pure h₁).2 _ rfl
    | ok =>
      obtain ⟨rfl, -⟩ := exec_pure h₁
      rcases htail with ⟨rfl, hnot, -⟩ | ⟨latest, rfl, hsame, ⟨-, -, hdone⟩ |
        ⟨clock, status, w₄, answer, w₅, rfl, hclock, hstatus, hok, -⟩⟩
      · exact absurd rfl hnot
      · cases (hdone rfl).1
      · obtain ⟨wc, now, wc', hmem, htime⟩ := decisionStatus_scaled rfl hstatus
        rcases patch_replaces hw₂ h₂ rfl with ⟨-, err, herr⟩ | ⟨hlive, hkey, hput⟩
        · cases (hok rfl).symm.trans herr
        · refine ⟨e :: ⟨w₃, .getPHPA r.reader phpa.metadata.key, .ok latest, w₃⟩ :: clock, wc, now,
            wc', ⟨w₄, .patchStatus latest { latest with status := status }, answer, w₅⟩,
            withStatus latest status w₄.revision, by simp, by simp [hmem], ⟨_, _, rfl⟩, ?_, htime⟩
          dsimp only
          rw [hput, ← hkey]
          exact World.putPHPA_self ..

end Publish

section Reconcile

/-- No call sets `lastScaleTime`, and an attempted Scale write ends the reconciliation early. -/
def Unscaled (events : List (APIEvent K)) (result : Option (Except Err ℤ)) : Prop :=
  (∀ e ∈ events, KeepsScaleTime e.op) ∧
    ((∃ e ∈ events, ¬ KeepsScale e.op) → ∀ i, result ≠ some (.ok i))

/-- The Scale write is acknowledged, and the decision published after it. -/
def Scaled (r : PredictiveHPAReconciler K) (phpa : PredictiveHPA) (deploy : Deployment)
    (events : List (APIEvent K)) (result : Option (Except Err ℤ)) (w' : World) : Prop :=
  ∃ pre during w₁ decision interval, WritesScale deploy pre (.ok ()) during events ∧
    w₁.WellFormed ∧ Exec (cluster K) w₁ (r.publish phpa deploy decision true interval) during
      result w'

variable {phpa : PredictiveHPA} {deploy : Deployment} {result : Option (Except Err ℤ)}
  {e : APIEvent K} {interval : ℤ}

omit [Field K] [LinearOrder K] [FloorRing K] in
theorem Unscaled.of_keeps (h : ∀ e ∈ events, KeepsScaling e.op) : Unscaled events result :=
  ⟨fun e he => (h e he).2, fun ⟨e, he, hnot⟩ => absurd (h e he).1 hnot⟩

omit [Field K] [LinearOrder K] [FloorRing K] in
theorem Unscaled.cons (he : KeepsScaling e.op) (h : Unscaled events result) :
    Unscaled (e :: events) result := by
  refine ⟨List.forall_mem_cons.mpr ⟨he.2, h.1⟩, ?_⟩
  rintro ⟨e', he', hnot⟩
  rcases List.mem_cons.mp he' with rfl | he'
  · exact absurd he.1 hnot
  · exact h.2 ⟨e', he', hnot⟩

omit [Field K] [LinearOrder K] [FloorRing K] in
/-- A Scale write that is not acknowledged ends the reconciliation with an error. -/
theorem Unscaled.of_attempt {pre : List (APIEvent K)} {answer : Except Err Unit}
    (h : WritesScale deploy pre answer [] events) (hfails : ∀ i, result ≠ some (.ok i)) :
    Unscaled events result := by
  obtain ⟨w₁, body, w₂, rfl, hpre⟩ := h
  refine ⟨List.forall_mem_append.mpr ⟨fun e he => (hpre e he).2,
    List.forall_mem_singleton.mpr fun before after h => ?_⟩, fun _ => hfails⟩
  cases h

theorem Scaled.cons (he : KeepsScaling e.op) (h : Scaled r phpa deploy events result w') :
    Scaled r phpa deploy (e :: events) result w' := by
  obtain ⟨pre, during, w₁, decision, interval, ⟨w₂, body, w₃, rfl, hpre⟩, hrest⟩ := h
  exact ⟨e :: pre, during, w₁, decision, interval,
    ⟨w₂, body, w₃, rfl, List.forall_mem_cons.mpr ⟨he, hpre⟩⟩, hrest⟩

theorem reconcileScale_calls (hw : w.WellFormed) {cpuHistory : CPUHistory K} {raw : K}
    (h : Exec (cluster K) w (r.reconcileScale phpa deploy cpuHistory raw interval) events result
      w') : Unscaled events result ∨ Scaled r phpa deploy events result w' := by
  have hwf := (hw.exec h).1
  unfold reconcileScale at h
  rcases exec_perform h with ⟨rfl, -⟩ | ⟨w₁, found, w₂, rest₁, -, -, rfl, h₁⟩
  · exact .inl (.of_keeps (by simp))
  have hscale : KeepsScaling (.getScale deploy.metadata.key : Op K) := .of_read rfl
  cases found with
  | error err =>
    obtain ⟨rfl, -⟩ := exec_pure h₁
    exact .inl (.of_keeps (List.forall_mem_singleton.mpr hscale))
  | ok scale =>
    dsimp only at h₁
    by_cases huid : scale.uid ≠ deploy.metadata.uid
    · rw [if_pos huid] at h₁
      have hrest := (h₁.ensures (r.metricsUnavailable_keepsScaling ..)).1
      exact .inl (.of_keeps (List.forall_mem_cons.mpr ⟨hscale, hrest⟩))
    rw [if_neg huid] at h₁
    rcases exec_perform h₁ with ⟨rfl, -⟩ | ⟨w₃, now, w₄, rest₂, -, -, rfl, h₂⟩
    · exact .inl (.of_keeps (List.forall_mem_singleton.mpr hscale))
    have hnow : KeepsScaling (.now : Op K) := .of_read rfl
    rcases exec_perform h₂ with ⟨rfl, -⟩ | ⟨w₅, decision, w₆, rest₃, -, -, rfl, h₃⟩
    · exact .inl (.cons hscale (.of_keeps (List.forall_mem_singleton.mpr hnow)))
    have hdecision : KeepsScaling (.evaluateDecision phpa deploy scale now
      (currentCPU cpuHistory) raw : Op K) := .of_read rfl
    suffices hrest : Unscaled rest₃ result ∨ Scaled r phpa deploy rest₃ result w' from
      hrest.imp (fun h => .cons hscale (.cons hnow (.cons hdecision h)))
        fun h => .cons hscale (.cons hnow (.cons hdecision h))
    by_cases hskip : decision.skipReason = .none
    · rw [if_pos hskip] at h₃
      have hw₆ := (hwf ⟨w₅, .evaluateDecision phpa deploy scale now (currentCPU cpuHistory) raw,
        decision, w₆⟩ (by simp)).2
      rcases exec_bind h₃ with ⟨early, w₇, first, rest, happly, h₄, rfl⟩ | ⟨happly, rfl⟩
      · rcases applyScale_calls happly with ⟨hkeeps, hsome⟩ | ⟨pre, answer, hwrites, hwritten,
          hfails⟩
        · cases early with
          | none => exact absurd rfl hsome
          | some outcome =>
            obtain ⟨rfl, -⟩ := exec_pure h₄
            exact .inl (.of_keeps (by simpa using hkeeps))
        · cases early with
          | none =>
            obtain rfl := hwritten rfl
            obtain ⟨w₈, body, w₉, rfl, hpre⟩ := hwrites
            exact .inr ⟨pre, rest, w₇, decision, interval, ⟨w₈, body, w₉, by simp, hpre⟩,
              (hw₆.exec happly).2, h₄⟩
          | some outcome =>
            obtain ⟨rfl, hresult⟩ := exec_pure h₄
            rw [List.append_nil]
            refine .inl (.of_attempt hwrites fun i hi => ?_)
            exact hfails i (congrArg (some ∘ some) (hresult _ hi).symm)
      · rcases applyScale_calls happly with ⟨hkeeps, -⟩ | ⟨pre, answer, hwrites, -, -⟩
        · exact .inl (.of_keeps hkeeps)
        · exact .inl (.of_attempt hwrites nofun)
    · rw [if_neg hskip] at h₃
      exact .inl (.of_keeps (h₃.ensures (r.publish_unscaled ..)).1)

def Measures (deploy : Deployment) (events : List (APIEvent K)) : Prop :=
  ∃ w₁ window cpuHistory w₂, ⟨w₁, .averageCPU deploy window, .ok cpuHistory, w₂⟩ ∈ events

theorem reconcileMetrics_calls (hw : w.WellFormed)
    (h : Exec (cluster K) w (r.reconcileMetrics phpa deploy interval) events result w') :
    Unscaled events result ∨
      (Measures deploy events ∧ Scaled r phpa deploy events result w') := by
  have hwf := (hw.exec h).1
  unfold reconcileMetrics at h
  rcases exec_perform h with ⟨rfl, -⟩ | ⟨w₁, observed, w₂, rest₁, -, -, rfl, h₁⟩
  · exact .inl (.of_keeps (by simp))
  have hobserve : KeepsScaling (.averageCPU deploy phpa.spec.prediction.window : Op K) :=
    .of_read rfl
  cases observed with
  | error err =>
    have hrest := (h₁.ensures (r.metricsUnavailable_keepsScaling ..)).1
    exact .inl (.of_keeps (List.forall_mem_cons.mpr ⟨hobserve, hrest⟩))
  | ok cpuHistory =>
    have hmeasures : ∀ rest, Measures deploy (⟨w₁, .averageCPU deploy phpa.spec.prediction.window,
      .ok cpuHistory, w₂⟩ :: rest) := fun rest => ⟨w₁, _, cpuHistory, w₂, List.mem_cons_self ..⟩
    rcases exec_perform h₁ with ⟨rfl, -⟩ | ⟨w₃, now, w₄, rest₂, -, -, rfl, h₂⟩
    · exact .inl (.of_keeps (List.forall_mem_singleton.mpr hobserve))
    have hnow : KeepsScaling (.now : Op K) := .of_read rfl
    rcases hvalid : validateCPUHistory cpuHistory now phpa.spec.prediction.window with err | ⟨⟩
    · rw [hvalid] at h₂
      have hrest := (h₂.ensures (r.metricsUnavailable_keepsScaling ..)).1
      exact .inl (.cons hobserve (.of_keeps (List.forall_mem_cons.mpr ⟨hnow, hrest⟩)))
    rw [hvalid] at h₂
    rcases hforecast : r.forecast phpa.spec cpuHistory with _ | err | raw
    · rw [hforecast] at h₂
      obtain ⟨rfl, -⟩ := exec_pure h₂
      exact .inl (.cons hobserve (.of_keeps (List.forall_mem_singleton.mpr hnow)))
    · rw [hforecast] at h₂
      have hrest := (h₂.ensures (r.metricsUnavailable_keepsScaling ..)).1
      exact .inl (.cons hobserve (.of_keeps (List.forall_mem_cons.mpr ⟨hnow, hrest⟩)))
    · rw [hforecast] at h₂
      have hw₄ := (hwf ⟨w₃, .now, now, w₄⟩ (by simp)).2
      exact (reconcileScale_calls hw₄ h₂).imp (fun h => .cons hobserve (.cons hnow h))
        fun h => ⟨hmeasures _, .cons hobserve (.cons hnow h)⟩

theorem reconcile_calls (hw : w.WellFormed) {key : NamespacedName}
    (h : Exec (cluster K) w (r.reconcile key) events result w') :
    Unscaled events result ∨ ∃ phpa deploy, phpa.metadata.key = key ∧ Measures deploy events ∧
      Scaled r phpa deploy events result w' := by
  have hwf := (hw.exec h).1
  unfold reconcile at h
  cases hrequeue : r.requeue with
  | error err =>
    rw [hrequeue] at h
    obtain ⟨rfl, -⟩ := exec_pure h
    exact .inl (.of_keeps (by simp))
  | ok interval =>
  rw [hrequeue] at h
  dsimp only at h
  unfold reconcileTarget at h
  rcases exec_perform h with ⟨rfl, -⟩ | ⟨w₁, found, w₂, rest₁, -, hread, rfl, h₁⟩
  · exact .inl (.of_keeps (by simp))
  have hget : KeepsScaling (.getPHPA .cache key : Op K) := .of_read rfl
  cases found with
  | error err =>
    dsimp only at h₁
    by_cases hmissing : err.is .notFound = true
    · rw [if_pos hmissing] at h₁
      have hforget := (h₁.ensures (P := KeepsScaling) (Q := fun _ => True)
        ⟨.of_read rfl, fun _ => trivial⟩).1
      exact .inl (.of_keeps (List.forall_mem_cons.mpr ⟨hget, hforget⟩))
    · rw [if_neg hmissing] at h₁
      obtain ⟨rfl, -⟩ := exec_pure h₁
      exact .inl (.of_keeps (List.forall_mem_singleton.mpr hget))
  | ok phpa =>
    dsimp only at h₁
    by_cases hdeleting : (!phpa.metadata.notDeleting) = true
    · rw [if_pos hdeleting] at h₁
      obtain ⟨rfl, -⟩ := exec_pure h₁
      exact .inl (.of_keeps (List.forall_mem_singleton.mpr hget))
    rw [if_neg hdeleting] at h₁
    rcases hvalid : validateConfiguration r.isDNS1123Subdomain phpa.spec with err | ⟨⟩
    · rw [hvalid] at h₁
      have hrest := (h₁.ensures (r.metricsUnavailable_keepsScaling ..)).1
      exact .inl (.of_keeps (List.forall_mem_cons.mpr ⟨hget, hrest⟩))
    rw [hvalid] at h₁
    rcases exec_perform h₁ with ⟨rfl, -⟩ | ⟨w₃, target, w₄, rest₂, -, -, rfl, h₂⟩
    · exact .inl (.of_keeps (List.forall_mem_singleton.mpr hget))
    have htarget : KeepsScaling (.getDeployment .cache
      ⟨phpa.metadata.ns, phpa.spec.scaleTargetRef.name⟩ : Op K) := .of_read rfl
    cases target with
    | error err =>
      dsimp only at h₂
      by_cases hmissing : err.is .notFound = true
      · rw [if_pos hmissing] at h₂
        have hrest := (h₂.ensures (r.metricsUnavailable_keepsScaling ..)).1
        exact .inl (.cons hget (.of_keeps (List.forall_mem_cons.mpr ⟨htarget, hrest⟩)))
      · rw [if_neg hmissing] at h₂
        obtain ⟨rfl, -⟩ := exec_pure h₂
        exact .inl (.cons hget (.of_keeps (List.forall_mem_singleton.mpr htarget)))
    | ok deploy =>
      have hw₄ := (hwf ⟨w₃, .getDeployment .cache ⟨phpa.metadata.ns,
        phpa.spec.scaleTargetRef.name⟩, .ok deploy, w₄⟩ (by simp)).2
      refine (reconcileMetrics_calls hw₄ h₂).imp (fun h => .cons hget (.cons htarget h)) ?_
      rintro ⟨⟨wm, window, cpuHistory, wm', hmem⟩, hscaled⟩
      exact ⟨phpa, deploy, hread.2.2,
        ⟨wm, window, cpuHistory, wm', List.mem_cons_of_mem _ (List.mem_cons_of_mem _ hmem)⟩,
        .cons hget (.cons htarget hscaled)⟩

end Reconcile

def ScaleAccepted (e : APIEvent K) : Prop :=
  ∃ target body, e.op = .updateScale target body ∧ e.before.ScaleWritten target body e.after

def AfterScaleWrite (P : List (APIEvent K) → Prop) : List (APIEvent K) → Prop
  | [] => False
  | ⟨_, .updateScale _ _, _, _⟩ :: rest => P rest
  | _ :: rest => AfterScaleWrite P rest

omit [Field K] [LinearOrder K] [FloorRing K] in
theorem afterScaleWrite_iff {P : List (APIEvent K) → Prop} {deploy : Deployment}
    {pre during : List (APIEvent K)} {answer : Except Err Unit}
    (h : WritesScale deploy pre answer during events) : AfterScaleWrite P events ↔ P during := by
  obtain ⟨w₁, body, w₂, rfl, hpre⟩ := h
  induction pre with
  | nil => exact Iff.rfl
  | cons e pre ih =>
    obtain ⟨he, htail⟩ := List.forall_mem_cons.mp hpre
    obtain ⟨before, op, answer', after⟩ := e
    rw [← ih htail, List.cons_append]
    cases op with
    | updateScale target body' => exact absurd rfl (he.1 target body')
    | _ => exact Iff.rfl

/-- Without an accepted Scale write no `lastScaleTime` changes. After an accepted one, a
reconciliation that succeeds has stored a time it read from the clock exactly when the target was
still there after the write; otherwise every `lastScaleTime` is what it was. -/
theorem scale_time_recorded (hw : w.WellFormed) (hforeign : ForeignErrors events)
    {key : NamespacedName} {result : Option (Except Err ℤ)}
    (h : Exec (cluster K) w (r.reconcile key) events result w') :
    ((∀ e ∈ events, ¬ ScaleAccepted e) → ∀ e ∈ events, LeavesScaleTime e) ∧
    ∀ i, result = some (.ok i) → (∃ e ∈ events, ScaleAccepted e) →
      ∃ deploy, Measures deploy events ∧
        (AfterScaleWrite (VerifiesTarget deploy) events →
          AfterScaleWrite (StampsScaleTime key) events) ∧
        (¬ AfterScaleWrite (VerifiesTarget deploy) events → ∀ e ∈ events, LeavesScaleTime e) := by
  have hwf := (hw.exec h).1
  have hleaves : ∀ e ∈ events, KeepsScaleTime e.op → LeavesScaleTime e := fun e he hop =>
    hop.leaves (hwf e he).1 (h.performed e he)
  rcases reconcile_calls hw h with ⟨hkeeps, hfails⟩ | ⟨phpa, deploy, rfl, hmeasures, pre, during,
    w₁, decision, interval, hwrites, hw₁, hpublish⟩
  · refine ⟨fun _ e he => hleaves e he (hkeeps e he), fun i hi ⟨e, he, target, body, hop, _⟩ => ?_⟩
    exact absurd hi (hfails ⟨e, he, fun hnot => hnot target body hop⟩ i)
  · have hverified := afterScaleWrite_iff (P := VerifiesTarget deploy) hwrites
    have hstamps := afterScaleWrite_iff (P := StampsScaleTime phpa.metadata.key) hwrites
    obtain ⟨w₂, body, w₃, rfl, hpre⟩ := hwrites
    constructor
    · intro hnone
      have hmem := List.mem_append_right pre (List.mem_cons_self (l := during)
        (a := ⟨w₂, .updateScale deploy.metadata.key body, .ok (), w₃⟩))
      rcases h.performed _ hmem with haccepted | ⟨-, err, herr⟩
      · exact absurd ⟨_, _, rfl, haccepted⟩ (hnone _ hmem)
      · cases herr
    · rintro i rfl -
      refine ⟨deploy, hmeasures, ?_⟩
      rw [hverified, hstamps]
      rcases publish_scaled hw₁ (hforeign.of_subset fun e he => by simp [he]) hpublish with
        ⟨hyes, hstamped⟩ | ⟨hno, hkept⟩
      · exact ⟨fun _ => hstamped, fun hno => absurd hyes hno⟩
      · refine ⟨fun hyes => absurd hyes hno, fun _ e he => hleaves e he ?_⟩
        rcases List.mem_append.mp he with he | he
        · exact (hpre e he).2
        · rcases List.mem_cons.mp he with rfl | he
          · intro before after hop
            cases hop
          · exact (hkept e he).2

def unreachable : Err := ⟨[], "connection refused"⟩

def unverifiedStatus : PredictiveHPAStatus :=
  { safetyPHPA.status with
    currentCPUUtilizationPercentage := none
    predictedCPUUtilizationPercentage := none
    conditions := [
      ⟨"MetricsReady", .false, "TargetChanged",
        "metricsprovider: target changed during observation: " ++
          "could not verify target before status publication: connection refused", 1, 130 * second⟩,
      ⟨"ScaleDownStabilized", .unknown, "MetricsUnavailable",
        "No scaling recommendation evaluated while CPU metrics are unavailable", 1,
        130 * second⟩] }

def unverifiedWorld : World := busyWritten.putPHPA (withStatus safetyPHPA unverifiedStatus 4)

def unverifiedCalls : List (APIEvent ℚ) :=
  busyReads ++ ⟨busyWorld, .updateScale safetyDeployment.metadata.key busyBody, .ok (),
    busyWritten⟩ :: [
  ⟨busyWritten, .getDeployment .api safetyDeployment.metadata.key, .error unreachable, busyWritten⟩,
  ⟨busyWritten, .getPHPA .api safetyPHPA.metadata.key, .ok safetyPHPA, busyWritten⟩,
  ⟨busyWritten, .wallClock, 130 * second, busyWritten⟩,
  ⟨busyWritten, .wallClock, 130 * second, busyWritten⟩,
  ⟨busyWritten, .patchStatus safetyPHPA { safetyPHPA with status := unverifiedStatus }, .ok (),
    unverifiedWorld⟩]

theorem unverifiedCalls_exec :
    Exec (cluster ℚ) safetyWorld (safetyReconciler.reconcile safetyPHPA.metadata.key)
      unverifiedCalls (some (.ok (30 * second))) unverifiedWorld := by
  refine busyCalls_publish ?_
  have hunreachable : unreachable.is .notFound = false := by decide
  refine .call .refl ⟨rfl, fun h => absurd (hunreachable.symm.trans h) (by decide)⟩ ?_
  refine .call .refl ⟨rfl, rfl⟩ ?_
  refine .call .refl rfl ?_
  refine .call .refl rfl ?_
  refine .call .refl (.inl ⟨safetyPHPA, rfl, rfl, rfl⟩) ?_
  exact .done .refl

theorem unverifiedCalls_foreign : ForeignErrors unverifiedCalls := by
  intro e he
  simp only [unverifiedCalls, busyReads, List.cons_append, List.nil_append, List.mem_cons,
    List.not_mem_nil, or_false] at he
  rcases he with rfl | rfl | rfl | rfl | rfl | rfl | rfl | rfl | rfl | rfl | rfl | rfl | rfl |
    rfl | rfl | rfl <;> trivial

theorem scale_time_recorded_unverified :
    (∃ e ∈ unverifiedCalls, ScaleAccepted e) ∧ ∀ e ∈ unverifiedCalls, LeavesScaleTime e := by
  have haccepted : ∃ e ∈ unverifiedCalls, ScaleAccepted e :=
    ⟨⟨busyWorld, .updateScale safetyDeployment.metadata.key busyBody, .ok (), busyWritten⟩,
      by simp [unverifiedCalls], _, _, rfl, busyWritten_accepted⟩
  obtain ⟨deploy, -, -, hleaves⟩ := (scale_time_recorded safetyWorld_wellFormed
    unverifiedCalls_foreign unverifiedCalls_exec).2 _ rfl haccepted
  exact ⟨haccepted, hleaves id⟩

/-- A reconciliation that succeeds after an accepted Scale write can leave the stored
`lastScaleTime` at its old value. -/
theorem scale_time_lost :
    ∃ events w', Exec (cluster ℚ) safetyWorld
        (safetyReconciler.reconcile safetyPHPA.metadata.key) events (some (.ok (30 * second))) w' ∧
      safetyWorld.WellFormed ∧ ForeignErrors events ∧ (∃ e ∈ events, ScaleAccepted e) ∧
      (w'.phpas safetyPHPA.metadata.key).map (fun p => p.status.lastScaleTime) = some (some 1) ∧
      ∀ now, (∃ w₁ w₂, ⟨w₁, .wallClock, now, w₂⟩ ∈ events) → now ≠ 1 := by
  refine ⟨_, _, unverifiedCalls_exec, safetyWorld_wellFormed, unverifiedCalls_foreign,
    ⟨⟨busyWorld, .updateScale safetyDeployment.metadata.key busyBody, .ok (), busyWritten⟩,
      by simp [unverifiedCalls], _, _, rfl, busyWritten_accepted⟩, rfl, ?_⟩
  rintro now ⟨w₁, w₂, hmem⟩
  have hnow : now = 130 * second := by
    simp [unverifiedCalls, busyReads] at hmem
    exact hmem.2.1
  rw [hnow]
  decide

end Autoscaler.Controller.PredictiveHPAReconciler
