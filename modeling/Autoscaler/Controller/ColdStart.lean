import Autoscaler.Controller.Retention
import Autoscaler.Controller.ScalingDecision

/-! Cold-start protection over whole runs, with restarts, replacements and clock rollbacks. -/
namespace Autoscaler.Controller

/-- What happens to the history map: a stabilization call, the deletion of a key whose object
is gone, or the loss of the whole map with the process. -/
inductive HistoryOp where
  | call (c : StabilizeCall)
  | forget (key : NamespacedName)
  | restart

def HistoryOp.apply (history : History) : HistoryOp → History
  | .call c => (c.run history).2
  | .forget key => Function.update history key none
  | .restart => fun _ => none

/-- The operations of one key; a restart loses the histories of all keys. -/
def HistoryOp.concerns (key : NamespacedName) : HistoryOp → Bool
  | .call c => c.phpa.metadata.key = key
  | .forget k => k = key
  | .restart => true

/-- The creation of a history entry, as an observer of the calls would log it. -/
structure Guard where
  createdAt : ℤ
  replicas : ℤ
  window : ℤ
  deriving DecidableEq

def StabilizeCall.guard (c : StabilizeCall) : Guard :=
  ⟨c.now, c.requested, stabilizationWindow c.phpa.spec⟩

/-- Another policy or target object, another target name or window, or an earlier time. -/
def StabilizeCall.Replaces (c last : StabilizeCall) : Prop :=
  c.phpa.metadata.uid ≠ last.phpa.metadata.uid ∨
    c.deploy.metadata.uid ≠ last.deploy.metadata.uid ∨
    c.deploy.metadata.name ≠ last.deploy.metadata.name ∨
    stabilizationWindow c.phpa.spec ≠ stabilizationWindow last.phpa.spec ∨ c.now < last.now

instance (c last : StabilizeCall) : Decidable (c.Replaces last) :=
  inferInstanceAs (Decidable (_ ∨ _ ∨ _ ∨ _ ∨ _))

/-- The last call of a key since its history was lost, and the guard in force then. -/
structure Watch where
  last : StabilizeCall
  guard : Guard

def StabilizeCall.watch (c : StabilizeCall) : Option Watch → Watch
  | none => ⟨c, c.guard⟩
  | some watch => ⟨c, if c.Replaces watch.last then c.guard else watch.guard⟩

/-- The observer's notes after an operation; they are made of the operations alone. -/
def HistoryOp.note (log : NamespacedName → Option Watch) :
    HistoryOp → NamespacedName → Option Watch
  | .call c =>
    Function.update log c.phpa.metadata.key (some (c.watch (log c.phpa.metadata.key)))
  | .forget key => Function.update log key none
  | .restart => fun _ => none

structure Tracked where
  history : History
  log : NamespacedName → Option Watch

namespace Tracked

def empty : Tracked := ⟨fun _ => none, fun _ => none⟩

def step (s : Tracked) (op : HistoryOp) : Tracked := ⟨op.apply s.history, op.note s.log⟩

def run (s : Tracked) (ops : List HistoryOp) : Tracked := ops.foldl step s

/-- The guard in force at a call, by the observer's notes. -/
def guard (s : Tracked) (c : StabilizeCall) : Guard :=
  (c.watch (s.log c.phpa.metadata.key)).guard

end Tracked

def ScaleHistory.guard (h : ScaleHistory) : Guard := ⟨h.protectedAt, h.protectedReplicas, h.window⟩

/-- The stored entry is of the last call's incarnation, and it holds the guard in force. -/
structure Watch.Describes (w : Watch) (h : ScaleHistory) : Prop where
  phpaUID : h.phpaUID = w.last.phpa.metadata.uid
  targetUID : h.targetUID = w.last.deploy.metadata.uid
  targetName : h.targetName = w.last.deploy.metadata.name
  window : h.window = stabilizationWindow w.last.phpa.spec
  lastRecordedAt : h.lastRecordedAt = w.last.now
  guard : h.guard = w.guard

def Tracked.Agree (s : Tracked) : Prop :=
  ∀ key, Option.Rel Watch.Describes (s.log key) (s.history key)

/-- An entry is rebuilt for the calls that replace the last one. -/
theorem Watch.Describes.rebuilds_iff {w : Watch} {h : ScaleHistory} (hw : w.Describes h)
    (c : StabilizeCall) : rebuilds (some h) c.phpa c.deploy c.now = true ↔ c.Replaces w.last := by
  rw [← Bool.not_eq_false, rebuilds_some_eq_false, hw.phpaUID, hw.targetUID, hw.targetName,
    hw.window, hw.lastRecordedAt]
  unfold StabilizeCall.Replaces
  grind

theorem advance_guard (c : StabilizeCall) (history : History) :
    (c.advance history).2.guard = (historyInForce (history c.phpa.metadata.key) c.phpa c.deploy
      c.now c.requested).guard := rfl

theorem historyInForce_guard {c : StabilizeCall} {stored : Option ScaleHistory}
    {noted : Option Watch} (h : Option.Rel Watch.Describes noted stored) :
    (historyInForce stored c.phpa c.deploy c.now c.requested).guard = (c.watch noted).guard := by
  cases h with
  | none => rfl
  | @some w hist hw =>
    by_cases hreplaces : c.Replaces w.last
    · rw [historyInForce_of_rebuilds ((hw.rebuilds_iff c).mpr hreplaces)]
      exact (if_pos hreplaces).symm
    · have hkept : rebuilds (some hist) c.phpa c.deploy c.now = false := by
        rw [← Bool.not_eq_true, hw.rebuilds_iff c]
        exact hreplaces
      rw [historyInForce_of_kept hkept, hw.guard]
      exact (if_neg hreplaces).symm

/-- A call leaves the entry that the observer notes. -/
theorem watch_describes (c : StabilizeCall) {history : History} {noted : Option Watch}
    (h : Option.Rel Watch.Describes noted (history c.phpa.metadata.key)) :
    (c.watch noted).Describes (c.advance history).2 := by
  have hlast : (c.watch noted).last = c := by cases noted <;> rfl
  obtain ⟨hphpa, htarget, hname, hwindow⟩ :=
    historyInForce_matches (history c.phpa.metadata.key) c.phpa c.deploy c.now c.requested
  constructor
  · rw [hlast]
    exact hphpa
  · rw [hlast]
    exact htarget
  · rw [hlast]
    exact hname
  · rw [hlast]
    exact hwindow
  · rw [hlast]
    rfl
  · rw [advance_guard]
    exact historyInForce_guard h

theorem Tracked.Agree.step {s : Tracked} (h : s.Agree) (op : HistoryOp) : (s.step op).Agree := by
  intro key
  cases op with
  | call c =>
    simp only [Tracked.step, HistoryOp.apply, HistoryOp.note, StabilizeCall.run_snd]
    by_cases hkey : key = c.phpa.metadata.key
    · subst hkey
      rw [Function.update_self, Function.update_self]
      exact .some (watch_describes c (h c.phpa.metadata.key))
    · rw [Function.update_of_ne hkey, Function.update_of_ne hkey]
      exact h key
  | forget k =>
    simp only [Tracked.step, HistoryOp.apply, HistoryOp.note]
    by_cases hkey : key = k
    · subst hkey
      rw [Function.update_self, Function.update_self]
      exact .none
    · rw [Function.update_of_ne hkey, Function.update_of_ne hkey]
      exact h key
  | restart => exact .none

theorem Tracked.Agree.run {s : Tracked} (h : s.Agree) (ops : List HistoryOp) :
    (s.run ops).Agree := by
  induction ops generalizing s with
  | nil => exact h
  | cons op ops ih => exact ih (h.step op)

theorem Tracked.agree_empty : Tracked.empty.Agree := fun _ => .none

theorem Tracked.Agree.guard_eq {s : Tracked} (h : s.Agree) (c : StabilizeCall) :
    (c.advance s.history).2.guard = s.guard c := by
  rw [advance_guard]
  exact historyInForce_guard (h c.phpa.metadata.key)

theorem advance_window (c : StabilizeCall) (history : History) :
    (c.advance history).2.window = stabilizationWindow c.phpa.spec :=
  (historyInForce_matches (history c.phpa.metadata.key) c.phpa c.deploy c.now c.requested).2.2.2

/-- Up to and including the end of its guard, an entry retains the protected count. -/
theorem protected_le_finalDesired (c : StabilizeCall) (history : History)
    (hw : 0 < (c.advance history).2.window)
    (ht : c.now ≤ (c.advance history).2.protectedAt + (c.advance history).2.window) :
    min (min c.requested (c.advance history).2.protectedReplicas) c.phpa.spec.maxReplicas ≤
      (c.run history).1.finalDesired := by
  rw [advance_window] at hw ht
  have hcold : (c.run history).1.coldStart = true := by
    change (decide _ && !decide _) = true
    simpa using ⟨hw, ht⟩
  have hfinal := stabilizeRecommendation_finalDesired history c.phpa c.deploy c.now c.desired
    c.requested c.minimum
  dsimp only at hfinal
  change (c.run history).1.finalDesired = clampReplicas _ _ (if _ then min c.requested
    (if (c.run history).1.coldStart = true then max _ _ else _) else c.desired) at hfinal
  rw [hfinal, if_pos hcold]
  refine le_trans ?_ (min_le_min_right _ (le_max_left _ _))
  refine min_le_min_right _ ?_
  split_ifs with h
  · exact min_le_min_left _ (le_max_right _ _)
  · have hreq : c.requested ≤ c.desired := by
      by_contra hlt
      exact h ⟨hw, by omega⟩
    exact (min_le_left _ _).trans hreq

/-- Up to the end of the guard in force, a call retains what the guard protects. -/
theorem Tracked.Agree.protected {s : Tracked} (h : s.Agree) (c : StabilizeCall)
    (hw : 0 < (s.guard c).window) (ht : c.now ≤ (s.guard c).createdAt + (s.guard c).window) :
    min (min c.requested (s.guard c).replicas) c.phpa.spec.maxReplicas ≤
      (c.run s.history).1.finalDesired := by
  rw [← h.guard_eq] at hw ht ⊢
  exact protected_le_finalDesired c s.history hw ht

theorem Tracked.Agree.protectedUntil {s : Tracked} (h : s.Agree) (c : StabilizeCall) :
    (c.run s.history).1.protectedUntil = (s.guard c).createdAt + (s.guard c).window := by
  have hwindow := advance_window c s.history
  rw [← h.guard_eq]
  exact congrArg ((c.advance s.history).2.protectedAt + ·) hwindow.symm

theorem Tracked.log_run {s : Tracked} {ops : List HistoryOp} {key : NamespacedName}
    (hquiet : ∀ op ∈ ops, op.concerns key = false) : (s.run ops).log key = s.log key := by
  induction ops generalizing s with
  | nil => rfl
  | cons op ops ih =>
    obtain ⟨hop, hops⟩ := List.forall_mem_cons.mp hquiet
    refine (ih (s := s.step op) hops).trans ?_
    cases op with
    | call c =>
      have hne : key ≠ c.phpa.metadata.key := fun h => of_decide_eq_false hop h.symm
      exact Function.update_of_ne hne ..
    | forget k =>
      have hne : key ≠ k := fun h => of_decide_eq_false hop h.symm
      exact Function.update_of_ne hne ..
    | restart => cases hop

theorem Tracked.run_append (s : Tracked) (pre post : List HistoryOp) :
    s.run (pre ++ post) = (s.run pre).run post :=
  List.foldl_append

theorem Tracked.guard_of_lost {s : Tracked} {c : StabilizeCall}
    (h : s.log c.phpa.metadata.key = none) : s.guard c = c.guard := by
  rw [Tracked.guard, h]
  rfl

/-- A call replaces the guard of the call before it on its key, or leaves it in force. -/
theorem Tracked.guard_of_call {s : Tracked} {last c : StabilizeCall} {mid : List HistoryOp}
    (hkey : last.phpa.metadata.key = c.phpa.metadata.key)
    (hquiet : ∀ op ∈ mid, op.concerns c.phpa.metadata.key = false) :
    (s.run (.call last :: mid)).guard c = if c.Replaces last then c.guard else s.guard last := by
  have hlog : (s.run (.call last :: mid)).log c.phpa.metadata.key =
      some (last.watch (s.log last.phpa.metadata.key)) := by
    refine (Tracked.log_run (s := s.step (.call last)) hquiet).trans ?_
    rw [← hkey]
    exact Function.update_self ..
  have hlast : (last.watch (s.log last.phpa.metadata.key)).last = last := by
    cases s.log last.phpa.metadata.key <;> rfl
  rw [Tracked.guard, hlog, StabilizeCall.watch, hlast]
  rfl

section Loop

variable {K : Type*} [Field K] [LinearOrder K] [FloorRing K]

def decisionCall (phpa : PredictiveHPA) (deploy : Deployment) (scale : Scale) (now : ℤ)
    (currentCPU rawPredictedCPU : K) : StabilizeCall where
  phpa := phpa
  deploy := deploy
  now := now
  desired := directedRecommendation scale.statusReplicas scale.specReplicas
    (selectDecisionSignal phpa.spec.decisionMode currentCPU
      (capPrediction rawPredictedCPU currentCPU) phpa.spec.targetCPUUtilizationPercentage).2
    phpa.spec.targetCPUUtilizationPercentage (effectiveMinReplicas phpa.spec)
    phpa.spec.maxReplicas
  requested := scale.specReplicas
  minimum := effectiveMinReplicas phpa.spec

/-- Events of a controller that alone writes the request: a decision whose write may be
rejected, the loss of the process, the deletion of the policy object, and replacements. -/
inductive LoopEvent (K : Type*) where
  | decide (now observed : ℤ) (currentCPU rawPredictedCPU : K) (accepted : Bool)
  | restart
  | forget
  | replacePHPA (uid : UID)
  | replaceTarget (uid : UID)

structure Loop where
  tracked : Tracked
  phpaUID : UID
  targetUID : UID
  requested : ℤ

variable (phpa : PredictiveHPA) (deploy : Deployment)

def Loop.policy (s : Loop) : PredictiveHPA :=
  { phpa with metadata := { phpa.metadata with uid := s.phpaUID } }

def Loop.target (s : Loop) : Deployment :=
  { deploy with metadata := { deploy.metadata with uid := s.targetUID } }

def Loop.scale (s : Loop) (observed : ℤ) : Scale :=
  ⟨s.targetUID, deploy.metadata.resourceVersion, s.requested, observed⟩

/-- The policy and the target name are constant; only their incarnations change. -/
def Loop.step (s : Loop) : LoopEvent K → Loop
  | .decide now observed currentCPU rawPredictedCPU accepted =>
    let policy := s.policy phpa
    let target := s.target deploy
    let scale := s.scale deploy observed
    let call := decisionCall policy target scale now currentCPU rawPredictedCPU
    let decision :=
      (evaluateDecision s.tracked.history policy target scale now currentCPU rawPredictedCPU).1
    { s with
      tracked := s.tracked.step (.call call)
      requested := if decision.skipReason = .none ∧ accepted then decision.finalDesired
        else s.requested }
  | .restart => { s with tracked := s.tracked.step .restart }
  | .forget => { s with tracked := s.tracked.step (.forget phpa.metadata.key) }
  | .replacePHPA uid => { s with phpaUID := uid }
  | .replaceTarget uid => { s with targetUID := uid }

def Loop.run (s : Loop) (events : List (LoopEvent K)) : Loop :=
  events.foldl (Loop.step phpa deploy) s

def Loop.call (s : Loop) (now observed : ℤ) (currentCPU rawPredictedCPU : K) : StabilizeCall :=
  decisionCall (s.policy phpa) (s.target deploy) (s.scale deploy observed) now currentCPU
    rawPredictedCPU

/-- While its guard lasts, the entry in force bounds the live request from below. -/
structure Loop.Guarded (s : Loop) : Prop where
  agree : s.tracked.Agree
  bounded : ∀ hist, s.tracked.history phpa.metadata.key = some hist →
    hist.lastRecordedAt ≤ hist.protectedAt + hist.window →
      min hist.protectedReplicas phpa.spec.maxReplicas ≤ s.requested

variable {phpa deploy}

/-- The live request a decision reads is still bounded by the guard in force. -/
theorem Loop.Guarded.requested {s : Loop} (h : s.Guarded phpa) (now observed : ℤ)
    (currentCPU rawPredictedCPU : K)
    (ht : now ≤ ((s.call phpa deploy now observed currentCPU rawPredictedCPU).advance
        s.tracked.history).2.protectedAt + ((s.call phpa deploy now observed currentCPU
        rawPredictedCPU).advance s.tracked.history).2.window) :
    min ((s.call phpa deploy now observed currentCPU rawPredictedCPU).advance
        s.tracked.history).2.protectedReplicas phpa.spec.maxReplicas ≤ s.requested := by
  let inForce := historyInForce (s.tracked.history phpa.metadata.key) (s.policy phpa)
    (s.target deploy) now s.requested
  have hforce : now ≤ inForce.protectedAt + inForce.window →
      min inForce.protectedReplicas phpa.spec.maxReplicas ≤ s.requested := by
    intro ht
    simp only [inForce] at ht ⊢
    cases hr : rebuilds (s.tracked.history phpa.metadata.key) (s.policy phpa) (s.target deploy)
        now with
    | true =>
      rw [historyInForce_of_rebuilds hr]
      exact min_le_left _ _
    | false =>
      cases hstored : s.tracked.history phpa.metadata.key with
      | none => simp [hstored, rebuilds] at hr
      | some hist =>
        rw [hstored] at hr ht
        rw [historyInForce_of_kept hr] at ht ⊢
        have hlast := ((rebuilds_some_eq_false hist _ _ _).mp hr).2.2.2.2
        exact h.bounded hist hstored (hlast.trans ht)
  exact hforce ht

/-- A decision's write, accepted or not, leaves the request above the guard. -/
theorem Loop.Guarded.written {s : Loop} (h : s.Guarded phpa)
    (hw : 0 < stabilizationWindow phpa.spec) (now observed : ℤ)
    (currentCPU rawPredictedCPU : K) (accepted : Bool)
    (ht : now ≤ ((s.call phpa deploy now observed currentCPU rawPredictedCPU).advance
        s.tracked.history).2.protectedAt + ((s.call phpa deploy now observed currentCPU
        rawPredictedCPU).advance s.tracked.history).2.window) :
    min ((s.call phpa deploy now observed currentCPU rawPredictedCPU).advance
        s.tracked.history).2.protectedReplicas phpa.spec.maxReplicas ≤
      (s.step phpa deploy
        (.decide now observed currentCPU rawPredictedCPU accepted)).requested := by
  have hreq := h.requested now observed currentCPU rawPredictedCPU ht
  have hfinal := protected_le_finalDesired
    (s.call phpa deploy now observed currentCPU rawPredictedCPU) s.tracked.history
    (by rw [advance_window]; exact hw) ht
  simp only [Loop.step]
  split_ifs
  · refine le_trans (le_min (le_min ?_ (min_le_left _ _)) (min_le_right _ _)) hfinal
    exact hreq
  · exact hreq

theorem Loop.Guarded.step {s : Loop} (h : s.Guarded phpa)
    (hw : 0 < stabilizationWindow phpa.spec) (event : LoopEvent K) :
    (s.step phpa deploy event).Guarded phpa := by
  cases event with
  | decide now observed currentCPU rawPredictedCPU accepted =>
    refine ⟨h.agree.step _, fun hist hstored ht => ?_⟩
    have hhist : hist = ((s.call phpa deploy now observed currentCPU rawPredictedCPU).advance
        s.tracked.history).2 := by
      simpa [Loop.step, Tracked.step, HistoryOp.apply, StabilizeCall.run_snd, Loop.call,
        decisionCall, Loop.policy, ObjectMeta.key] using hstored.symm
    subst hhist
    exact h.written hw now observed currentCPU rawPredictedCPU accepted ht
  | restart => exact ⟨h.agree.step _, fun hist hstored => by cases hstored⟩
  | forget =>
    refine ⟨h.agree.step _, fun hist hstored => ?_⟩
    simp [Loop.step, Tracked.step, HistoryOp.apply] at hstored
  | replacePHPA uid => exact ⟨h.agree, h.bounded⟩
  | replaceTarget uid => exact ⟨h.agree, h.bounded⟩

theorem Loop.Guarded.run {s : Loop} (h : s.Guarded phpa)
    (hw : 0 < stabilizationWindow phpa.spec) (events : List (LoopEvent K)) :
    (s.run phpa deploy events).Guarded phpa := by
  induction events generalizing s with
  | nil => exact h
  | cons event events ih => exact ih (h.step hw event)

def Loop.start (phpaUID targetUID : UID) (requested : ℤ) : Loop :=
  ⟨Tracked.empty, phpaUID, targetUID, requested⟩

def LoopEvent.isDecision : LoopEvent K → Bool
  | .decide .. => true
  | _ => false

theorem Loop.start_guarded (phpa : PredictiveHPA) (phpaUID targetUID : UID) (requested : ℤ) :
    (Loop.start phpaUID targetUID requested).Guarded phpa :=
  ⟨Tracked.agree_empty, fun hist hstored => by cases hstored⟩

theorem Loop.run_append (s : Loop) (pre post : List (LoopEvent K)) :
    s.run phpa deploy (pre ++ post) = (s.run phpa deploy pre).run phpa deploy post :=
  List.foldl_append

/-- Between decisions, the notes of the policy are kept or lost. -/
theorem Loop.log_run {s : Loop} {events : List (LoopEvent K)}
    (hquiet : ∀ e ∈ events, e.isDecision = false) :
    (s.run phpa deploy events).tracked.log phpa.metadata.key = s.tracked.log phpa.metadata.key ∨
      (s.run phpa deploy events).tracked.log phpa.metadata.key = none := by
  induction events generalizing s with
  | nil => exact .inl rfl
  | cons event events ih =>
    obtain ⟨hevent, hevents⟩ := List.forall_mem_cons.mp hquiet
    have hlost : (s.step phpa deploy event).tracked.log phpa.metadata.key =
        s.tracked.log phpa.metadata.key ∨
        (s.step phpa deploy event).tracked.log phpa.metadata.key = none := by
      cases event with
      | decide => cases hevent
      | restart => exact .inr rfl
      | forget => exact .inr (Function.update_self ..)
      | replacePHPA uid => exact .inl rfl
      | replaceTarget uid => exact .inl rfl
    rcases ih (s := s.step phpa deploy event) hevents with hkept | hnone
    · exact hlost.imp hkept.trans hkept.trans
    · exact .inr hnone

/-- The event loses the history, or its decision is of another policy or target object or of a
later time than a decision at `now` in `before`. -/
def LoopEvent.ResetBy (event : LoopEvent K) (s before : Loop) (now : ℤ) : Prop :=
  match event with
  | .decide earlier .. =>
    before.phpaUID ≠ s.phpaUID ∨ before.targetUID ≠ s.targetUID ∨ now < earlier
  | .restart | .forget => True
  | .replacePHPA _ | .replaceTarget _ => False

/-- After a reset, the live request is protected. -/
theorem Loop.guard_of_reset {s : Loop} {event : LoopEvent K} {mid : List (LoopEvent K)}
    (hquiet : ∀ e ∈ mid, e.isDecision = false) {now observed : ℤ} {currentCPU rawPredictedCPU : K}
    (hreset : event.ResetBy s (s.run phpa deploy (event :: mid)) now) :
    let before := s.run phpa deploy (event :: mid)
    let call := before.call phpa deploy now observed currentCPU rawPredictedCPU
    before.tracked.guard call = call.guard := by
  intro before call
  have hkey : call.phpa.metadata.key = phpa.metadata.key := rfl
  have hlog : before.tracked.log phpa.metadata.key =
        (s.step phpa deploy event).tracked.log phpa.metadata.key ∨
      before.tracked.log phpa.metadata.key = none := Loop.log_run hquiet
  rcases hlog with hkept | hlost
  · cases event with
    | decide earlier observed' currentCPU' rawPredictedCPU' accepted =>
      have hnoted : before.tracked.log phpa.metadata.key = some ((s.call phpa deploy earlier
          observed' currentCPU' rawPredictedCPU').watch (s.tracked.log phpa.metadata.key)) :=
        hkept.trans (Function.update_self ..)
      have hlast : ∀ noted, ((s.call phpa deploy earlier observed' currentCPU'
          rawPredictedCPU').watch noted).last =
          s.call phpa deploy earlier observed' currentCPU' rawPredictedCPU' := by
        intro noted
        cases noted <;> rfl
      have hreplaces : call.Replaces
          (s.call phpa deploy earlier observed' currentCPU' rawPredictedCPU') := by
        rcases hreset with hphpa | htarget | hback
        · exact .inl hphpa
        · exact .inr (.inl htarget)
        · exact .inr (.inr (.inr (.inr hback)))
      rw [Tracked.guard, hkey, hnoted, StabilizeCall.watch, hlast]
      exact if_pos hreplaces
    | restart => exact Tracked.guard_of_lost hkept
    | forget => exact Tracked.guard_of_lost (hkept.trans (Function.update_self ..))
    | replacePHPA uid => cases hreset
    | replaceTarget uid => cases hreset
  · exact Tracked.guard_of_lost hlost

/-- Cold-start protection over whole runs. The guard in force at a call is that of the call that
first followed a loss of the history, a replacement of the policy or the target, a change of the
target name or the window, or a clock rollback. Until it ends it bounds every final value from
below. A controller that alone writes the request therefore never takes it below the protected count
in that time, and every restart or replacement protects the request then live. -/
theorem cold_start_protection :
    (∀ (ops : List HistoryOp) (c : StabilizeCall),
      let before := Tracked.empty.run ops
      let g := before.guard c
      (c.run before.history).1.protectedUntil = g.createdAt + g.window ∧
      (0 < g.window → c.now ≤ g.createdAt + g.window →
        min (min c.requested g.replicas) c.phpa.spec.maxReplicas ≤
          (c.run before.history).1.finalDesired) ∧
      ((∀ op ∈ ops, op.concerns c.phpa.metadata.key = false) → g = c.guard) ∧
      ∀ pre op mid, ops = pre ++ op :: mid →
        (∀ m ∈ mid, m.concerns c.phpa.metadata.key = false) →
        (op = .restart ∨ op = .forget c.phpa.metadata.key → g = c.guard) ∧
        ∀ last, op = .call last → last.phpa.metadata.key = c.phpa.metadata.key →
          g = if c.Replaces last then c.guard else (Tracked.empty.run pre).guard last) ∧
    (∀ (phpa : PredictiveHPA) (deploy : Deployment) (phpaUID targetUID : UID) (initial : ℤ)
      (events : List (LoopEvent K)) (now observed : ℤ) (currentCPU rawPredictedCPU : K)
      (accepted : Bool), 0 < stabilizationWindow phpa.spec →
      let start := Loop.start phpaUID targetUID initial
      let before := start.run phpa deploy events
      let after := before.step phpa deploy
        (.decide now observed currentCPU rawPredictedCPU accepted)
      let g := before.tracked.guard
        (before.call phpa deploy now observed currentCPU rawPredictedCPU)
      let live : Guard := ⟨now, before.requested, stabilizationWindow phpa.spec⟩
      (now ≤ g.createdAt + g.window →
        min g.replicas phpa.spec.maxReplicas ≤ before.requested ∧
          min g.replicas phpa.spec.maxReplicas ≤ after.requested) ∧
      ((∀ e ∈ events, e.isDecision = false) → g = live) ∧
      ∀ pre event mid, events = pre ++ event :: mid → (∀ e ∈ mid, e.isDecision = false) →
        event.ResetBy (start.run phpa deploy pre) before now → g = live) := by
  constructor
  · intro ops c before g
    have hagree : before.Agree := Tracked.agree_empty.run ops
    refine ⟨hagree.protectedUntil c, hagree.protected c, fun hquiet => ?_, ?_⟩
    · exact Tracked.guard_of_lost (Tracked.log_run (s := Tracked.empty) hquiet)
    · rintro pre op mid rfl hquiet
      have hbefore : before = (Tracked.empty.run pre).run (op :: mid) := Tracked.run_append ..
      constructor
      · intro hlost
        have hlog : before.log c.phpa.metadata.key =
            ((Tracked.empty.run pre).step op).log c.phpa.metadata.key := by
          rw [hbefore]
          exact Tracked.log_run (s := (Tracked.empty.run pre).step op) hquiet
        apply Tracked.guard_of_lost (hlog.trans ?_)
        rcases hlost with rfl | rfl
        · rfl
        · exact Function.update_self ..
      · rintro last rfl hkey
        simp only [g, hbefore]
        exact Tracked.guard_of_call hkey hquiet
  · intro phpa deploy phpaUID targetUID initial events now observed currentCPU rawPredictedCPU
      accepted hw start before after g live
    have hguarded : before.Guarded phpa := (Loop.start_guarded phpa _ _ _).run hw events
    have hguard : ((before.call phpa deploy now observed currentCPU rawPredictedCPU).advance
        before.tracked.history).2.guard = g := hguarded.agree.guard_eq _
    refine ⟨fun ht => ?_, fun hquiet => ?_, ?_⟩
    · rw [← hguard] at ht ⊢
      exact ⟨hguarded.requested now observed currentCPU rawPredictedCPU ht,
        hguarded.written hw now observed currentCPU rawPredictedCPU accepted ht⟩
    · apply Tracked.guard_of_lost
      exact (Loop.log_run (s := start) hquiet).elim id id
    · rintro pre event mid rfl hquiet hreset
      have hbefore : before = (start.run phpa deploy pre).run phpa deploy (event :: mid) :=
        Loop.run_append ..
      simp only [g, live]
      rw [hbefore] at hreset ⊢
      exact Loop.guard_of_reset hquiet hreset

end Loop

/-- A restart, then an expired guard that a replacement of the policy renews: an idle reading at the
end of the new guard is held back. -/
theorem cold_start_protection_replaced :
    min 5 (10 : ℤ) ≤ ((Loop.start "phpa-one" "deployment-one" 5).run safetyPHPA safetyDeployment
      [.decide (10 * second) 5 (50 : ℚ) 50 true, .restart,
        .decide (20 * second) 5 50 50 true, .replacePHPA "phpa-replaced",
        .decide (81 * second) 5 0 0 true]).requested := by
  have h := (cold_start_protection (K := ℚ)).2 safetyPHPA safetyDeployment "phpa-one"
    "deployment-one" 5 [.decide (10 * second) 5 50 50 true, .restart,
      .decide (20 * second) 5 50 50 true, .replacePHPA "phpa-replaced"] (81 * second) 5 0 0 true
    (by decide)
  have hlive := h.2.2 [.decide (10 * second) 5 50 50 true, .restart]
    (.decide (20 * second) 5 50 50 true) [.replacePHPA "phpa-replaced"] rfl (by decide)
    (.inl (by decide))
  have hprotected := h.1 (by rw [hlive]; decide)
  rw [hlive] at hprotected
  have hrequested : ((Loop.start "phpa-one" "deployment-one" 5).run safetyPHPA safetyDeployment
      [.decide (10 * second) 5 (50 : ℚ) 50 true, .restart, .decide (20 * second) 5 50 50 true,
        .replacePHPA "phpa-replaced"]).requested = 5 := by decide +kernel
  rw [hrequested] at hprotected
  exact hprotected.2

end Autoscaler.Controller
