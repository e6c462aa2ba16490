import Autoscaler.Controller.ScaleWrites
import Autoscaler.Library.DelayQueue

/-! The controller under its manager: which events queue a policy, what one worker does with a
queued policy, and what a finished reconciliation leaves queued. -/
namespace Autoscaler.Controller

open Effects MetricsProvider DelayQueue

def scaleTargetIndex (phpa : PredictiveHPA) : List String :=
  if phpa.spec.scaleTargetRef.kind ≠ "Deployment" then [] else [phpa.spec.scaleTargetRef.name]

/-- The requests of a Deployment event, from what the cache lists for its namespace and name. -/
def requestsForDeployment (listed : Except Err (List PredictiveHPA)) : List NamespacedName :=
  match listed with
  | .error _ => []
  | .ok items => items.map fun phpa => phpa.metadata.key

/-- An indexed list of the cache returns the policies of the namespace with that index value. -/
def ListsTargets (policies : NamespacedName → Option PredictiveHPA) (target : NamespacedName)
    (listed : Except Err (List PredictiveHPA)) : Prop :=
  ∀ items, listed = .ok items → ∀ phpa, phpa ∈ items ↔
    policies phpa.metadata.key = some phpa ∧ phpa.metadata.ns = target.ns ∧
      target.name ∈ scaleTargetIndex phpa

theorem mem_scaleTargetIndex {phpa : PredictiveHPA} {name : String} :
    name ∈ scaleTargetIndex phpa ↔
      phpa.spec.scaleTargetRef.kind = "Deployment" ∧ phpa.spec.scaleTargetRef.name = name := by
  unfold scaleTargetIndex
  split_ifs with hkind
  · simp [hkind]
  · simpa [not_not.mp hkind] using eq_comm

/-- A Deployment event queues at once the policies that target it, and no others. -/
theorem requestsForDeployment_queues {policies : NamespacedName → Option PredictiveHPA}
    {target key : NamespacedName} {items : List PredictiveHPA}
    (hlisted : ListsTargets policies target (.ok items))
    (hkeyed : ∀ key, ∀ phpa ∈ policies key, phpa.metadata.key = key)
    (q : Queue NamespacedName ℤ) (now : ℤ) :
    if ∃ phpa ∈ policies key, key.ns = target.ns ∧
        phpa.spec.scaleTargetRef.kind = "Deployment" ∧ phpa.spec.scaleTargetRef.name = target.name
    then By (DelayQueue.addAll q (requestsForDeployment (.ok items)) now) key now
    else DelayQueue.addAll q (requestsForDeployment (.ok items)) now key = q key := by
  have hmem : key ∈ requestsForDeployment (.ok items) ↔ ∃ phpa ∈ policies key,
      key.ns = target.ns ∧ phpa.spec.scaleTargetRef.kind = "Deployment" ∧
        phpa.spec.scaleTargetRef.name = target.name := by
    rw [requestsForDeployment, List.mem_map]
    constructor
    · rintro ⟨phpa, hphpa, rfl⟩
      obtain ⟨hcached, hns, hindex⟩ := (hlisted items rfl phpa).mp hphpa
      exact ⟨phpa, hcached, hns, mem_scaleTargetIndex.mp hindex⟩
    · rintro ⟨phpa, hcached, hns, htarget⟩
      have hkey := hkeyed key phpa hcached
      subst hkey
      exact ⟨phpa, (hlisted items rfl phpa).mpr ⟨hcached, hns, mem_scaleTargetIndex.mpr htarget⟩,
        rfl⟩
  split_ifs with h
  · exact by_addAll (hmem.mpr h) q now
  · exact addAll_of_not_mem (fun hkey => h (hmem.mp hkey)) q now

/-- `SetupWithManager`, given the answers of the field indexer and of the builder. -/
def PredictiveHPAReconciler.setupWithManager {K : Type} (r : PredictiveHPAReconciler K)
    (indexed completed : Except Err Unit) : Except Err (PredictiveHPAReconciler K) :=
  match r.requeue with
  | .error err => .error err
  | .ok _ =>
    match indexed with
    | .error err => .error (err.annotate "index PredictiveHPA target")
    | .ok () =>
      match completed with
      | .error err => .error err
      | .ok () => .ok { r with hasAPIReader := true }

/-- The predicates on the policy watch: creations and deletions pass, and updates that change the
generation or the annotations. A status patch changes neither. -/
def notifies (old new : Option PredictiveHPA) (annotated : Bool) : Bool :=
  match old, new with
  | none, none => false
  | some old, some new => old.metadata.generation != new.metadata.generation || annotated
  | _, _ => true

/-- The informer cache, the events it has not handed to the queue yet, the queue, the
reconciliation of the one worker, and the reconciler's history. -/
structure Manager (K : Type) where
  now : ℤ
  policies : NamespacedName → Option PredictiveHPA
  events : List NamespacedName
  queue : Queue NamespacedName ℤ
  running : Option (NamespacedName × Program K (Except Err ℤ))
  history : History

namespace Manager

variable {K : Type}

/-- A fresh process has an empty history, and hears of every policy that its cache lists. -/
def start (now : ℤ) (policies : NamespacedName → Option PredictiveHPA)
    (listed : List NamespacedName) : Manager K where
  now := now
  policies := policies
  events := listed
  queue := DelayQueue.empty
  running := none
  history _ := none

/-- The cache learns the new version of a key, or that it is gone. -/
def observe (m : Manager K) (key : NamespacedName) (new : Option PredictiveHPA)
    (annotated : Bool) : Manager K :=
  { m with
    policies := Function.update m.policies key new
    events := if notifies (m.policies key) new annotated then m.events ++ [key] else m.events }

/-- The queue after a reconciliation: an error is retried with the rate limiter's delay, a
positive result after that time, and a zero result is not. -/
def requeued (m : Manager K) (key : NamespacedName) (delay : ℤ) (result : Except Err ℤ) :
    Queue NamespacedName ℤ :=
  match result with
  | .error _ => DelayQueue.add m.queue key (m.now + delay)
  | .ok after => if 0 < after then DelayQueue.add m.queue key (m.now + after) else m.queue

@[simp] theorem requeued_error (m : Manager K) (key : NamespacedName) (delay : ℤ) (err : Err) :
    m.requeued key delay (.error err) = DelayQueue.add m.queue key (m.now + delay) := rfl

@[simp] theorem requeued_zero (m : Manager K) (key : NamespacedName) (delay : ℤ) :
    m.requeued key delay (.ok 0) = m.queue := by
  simp [requeued]

theorem requeued_of_pos (m : Manager K) (key : NamespacedName) (delay : ℤ) {after : ℤ}
    (h : 0 < after) :
    m.requeued key delay (.ok after) = DelayQueue.add m.queue key (m.now + after) := if_pos h

variable [Field K] [LinearOrder K] [FloorRing K]

/-- What the calls of a reconciliation may answer. A cached read of a policy answers what the cache
holds, or an error that says nothing about it; only two calls touch the history. -/
def Answers (m : Manager K) : (op : Op K) → op.Result → History → Prop
  | .getPHPA .cache key, found, history => history = m.history ∧
      match found with
      | .ok phpa => m.policies key = some phpa
      | .error err => err.is .notFound = true → m.policies key = none
  | .forgetHistory key, _, history => history = Function.update m.history key none
  | .evaluateDecision phpa deploy scale now currentCPU rawPredictedCPU, decision, history =>
      (decision, history) =
        evaluateDecision m.history phpa deploy scale now currentCPU rawPredictedCPU
  | _, _, history => history = m.history

/-- One step of the process, of its informers or of time. The informer may replace a policy by
another as `updates` says; the rate limiter delays by `backoff`. -/
inductive Step (r : PredictiveHPAReconciler K) (backoff : ℤ → Prop)
    (updates : PredictiveHPA → PredictiveHPA → Prop) : Manager K → Manager K → Prop
  | tick {m} (now : ℤ) : m.now ≤ now → Step r backoff updates m { m with now := now }
  | observe {m} (key : NamespacedName) (new : Option PredictiveHPA) (annotated : Bool) :
      (∀ phpa ∈ new, phpa.metadata.key = key) →
      (∀ old ∈ m.policies key, ∀ phpa ∈ new, updates old phpa) →
      Step r backoff updates m (m.observe key new annotated)
  | deliver {m key rest} : m.events = key :: rest →
      Step r backoff updates m
        { m with events := rest, queue := DelayQueue.add m.queue key (m.now + 0) }
  | deploymentEvent {m} (target : NamespacedName) (listed : Except Err (List PredictiveHPA)) :
      ListsTargets m.policies target listed →
      Step r backoff updates m
        { m with queue := DelayQueue.addAll m.queue (requestsForDeployment listed) m.now }
  | take {m} (key : NamespacedName) {due} : m.running = none → m.queue key = some due →
      due ≤ m.now →
      Step r backoff updates m
        { m with queue := DelayQueue.take m.queue key, running := some (key, r.reconcile key) }
  | call {m key} (op : Op K) {next history} (answer : op.Result) :
      m.running = some (key, .call op next) → m.Answers op answer history →
      Step r backoff updates m { m with running := some (key, next answer), history := history }
  | finish {m key result} (delay : ℤ) : m.running = some (key, .pure result) → backoff delay →
      Step r backoff updates m { m with queue := m.requeued key delay result, running := none }

/-- The states of a process that was set up, from its start on. -/
inductive Reachable (r : PredictiveHPAReconciler K) (backoff : ℤ → Prop)
    (updates : PredictiveHPA → PredictiveHPA → Prop) : Manager K → Prop
  | start (r₀ : PredictiveHPAReconciler K) {indexed completed} (now : ℤ) {policies listed} :
      r₀.setupWithManager indexed completed = .ok r →
      (∀ key, ∀ phpa ∈ policies key, phpa.metadata.key = key) →
      (∀ key, policies key ≠ none → key ∈ listed) →
      Reachable r backoff updates (start now policies listed)
  | step {m m'} : Reachable r backoff updates m → Step r backoff updates m m' →
      Reachable r backoff updates m'

/-- No policy comes back from its deletion with the generation that it had. -/
def RenewsGeneration (updates : PredictiveHPA → PredictiveHPA → Prop) : Prop :=
  ∀ old new, updates old new → old.metadata.notDeleting = false →
    new.metadata.notDeleting = true → old.metadata.generation ≠ new.metadata.generation

end Manager

namespace PredictiveHPAReconciler

variable {K : Type} (r : PredictiveHPAReconciler K)

/-- A read, a clock reading or a status patch: what every reconciliation may do at any time. -/
def Routine : Op K → Prop
  | .averageCPU _ _ => False
  | .evaluateDecision _ _ _ _ _ _ => False
  | .updateScale _ _ => False
  | .forgetHistory _ => False
  | _ => True

/-- The operation reads or writes no history but that of `key`, and does not forget it. -/
def Decides (key : NamespacedName) : Op K → Prop
  | .evaluateDecision phpa _ _ _ _ _ => phpa.metadata.key = key
  | .forgetHistory _ => False
  | _ => True

theorem Routine.decides (key : NamespacedName) (op : Op K) (h : Routine op) : Decides key op := by
  cases op <;> trivial

def Returns (interval : ℤ) (result : Except Err ℤ) : Prop :=
  ∀ after, result = .ok after → after = interval

theorem returns_error (interval : ℤ) (err : Err) : Returns interval (.error err) := nofun

theorem returns_ok (interval : ℤ) : Returns interval (.ok interval) := fun _ h => by cases h; rfl

section Intervals

theorem freshPHPA_routine (expected : PredictiveHPA) :
    (r.freshPHPA expected).Ensures Routine fun _ => True := by
  unfold freshPHPA
  refine (Prog.ensures_perform_bind _ _).mpr ⟨trivial, fun found => ?_⟩
  cases found with
  | error => trivial
  | ok latest =>
    dsimp only
    split_ifs <;> trivial

theorem patchStatus_routine (expected : PredictiveHPA) (stamped : Bool)
    {mutate : PredictiveHPAStatus → Program K PredictiveHPAStatus}
    (hmutate : ∀ status, (mutate status).Ensures (fun op => op = .wallClock) fun _ => True) :
    (r.patchStatus expected stamped mutate).Ensures Routine fun _ => True :=
  r.patchStatus_ensures expected stamped trivial trivial (fun _ _ _ => trivial) hmutate

theorem metricsUnavailable_returns (phpa : PredictiveHPA) (err : Err) (interval : ℤ) :
    (r.metricsUnavailable phpa err interval).Ensures Routine (Returns interval) := by
  refine Prog.ensures_bind
    (r.patchStatus_routine phpa false (r.unavailableStatus_readsClock phpa err)) fun patched _ => ?_
  cases patched with
  | error => exact returns_error interval _
  | ok =>
    dsimp only
    split_ifs
    · exact returns_ok interval
    · exact returns_error interval _

variable [Field K] [LinearOrder K] [FloorRing K]

theorem publish_returns (phpa : PredictiveHPA) (deploy : Deployment) (decision : ScalingDecision K)
    (scaled : Bool) (interval : ℤ) :
    (r.publish phpa deploy decision scaled interval).Ensures Routine (Returns interval) := by
  unfold publish publishDecisionStatus validateStatusTarget
  refine Prog.ensures_bind (R := fun _ => True) (Prog.ensures_bind (R := fun _ => True)
    ⟨trivial, fun found => ?_⟩ fun verified _ => ?_) fun published _ => ?_
  · cases found with
    | error => trivial
    | ok latest =>
      show Prog.Ensures Routine _ (if _ then _ else _)
      split_ifs <;> trivial
  · cases verified with
    | error => trivial
    | ok => exact r.patchStatus_routine phpa _ (r.decisionStatus_readsClock phpa _)
  · cases published with
    | ok => exact returns_ok interval
    | error err =>
      dsimp only
      split_ifs
      · exact r.metricsUnavailable_returns phpa err interval
      · exact returns_error interval _

variable {key : NamespacedName}

omit [FloorRing K] in
theorem applyScale_returns (phpa : PredictiveHPA) (deploy : Deployment) (scale : Scale)
    (cpuHistory : CPUHistory K) (decision : ScalingDecision K) (interval : ℤ) :
    (r.applyScale phpa deploy scale cpuHistory decision interval).Ensures (Decides key)
      fun early => ∀ result ∈ early, Returns interval result := by
  have herror : ∀ err : Err, ∀ result ∈ some (Except.error err : Except Err ℤ),
      Returns interval result := by
    rintro err _ ⟨⟩
    exact returns_error interval err
  unfold applyScale
  refine Prog.ensures_bind ((r.freshPHPA_routine phpa).imp (Routine.decides key))
    fun fresh _ => ?_
  cases fresh with
  | error err => exact herror err
  | ok =>
    refine (Prog.ensures_perform_bind _ _).mpr ⟨trivial, fun recheck => ?_⟩
    cases recheck with
    | error err => exact herror _
    | ok latestScale =>
      dsimp only
      split_ifs
      · exact herror _
      refine (Prog.ensures_perform_bind _ _).mpr ⟨trivial, fun now => ?_⟩
      cases validateCPUHistory cpuHistory now phpa.spec.prediction.window with
      | error err =>
        refine Prog.ensures_bind ((r.metricsUnavailable_returns phpa err interval).imp
          (Routine.decides key)) fun result hresult => ?_
        rintro _ ⟨⟩
        exact hresult
      | ok =>
        refine (Prog.ensures_perform_bind _ _).mpr ⟨trivial, fun written => ?_⟩
        cases written with
        | error err => exact herror _
        | ok => exact nofun

theorem reconcileScale_returns {phpa : PredictiveHPA} (hkey : phpa.metadata.key = key)
    (deploy : Deployment) (cpuHistory : CPUHistory K) (raw : K) (interval : ℤ) :
    (r.reconcileScale phpa deploy cpuHistory raw interval).Ensures (Decides key)
      (Returns interval) := by
  unfold reconcileScale
  refine (Prog.ensures_perform_bind _ _).mpr ⟨trivial, fun found => ?_⟩
  cases found with
  | error err => exact returns_error interval _
  | ok scale =>
    dsimp only
    split_ifs
    · exact (r.metricsUnavailable_returns phpa _ interval).imp (Routine.decides key)
    refine (Prog.ensures_perform_bind _ _).mpr ⟨trivial, fun now => ?_⟩
    refine (Prog.ensures_perform_bind _ _).mpr ⟨hkey, fun decision => ?_⟩
    split_ifs
    · refine Prog.ensures_bind
        (r.applyScale_returns phpa deploy scale cpuHistory decision interval) fun early hearly => ?_
      cases early with
      | some result => exact hearly result rfl
      | none =>
        exact (r.publish_returns phpa deploy decision true interval).imp (Routine.decides key)
    · exact (r.publish_returns phpa deploy decision false interval).imp (Routine.decides key)

theorem reconcileMetrics_returns {phpa : PredictiveHPA} (hkey : phpa.metadata.key = key)
    (deploy : Deployment) (interval : ℤ) :
    (r.reconcileMetrics phpa deploy interval).Ensures (Decides key) (Returns interval) := by
  unfold reconcileMetrics
  refine (Prog.ensures_perform_bind _ _).mpr ⟨trivial, fun observed => ?_⟩
  cases observed with
  | error err => exact (r.metricsUnavailable_returns phpa err interval).imp (Routine.decides key)
  | ok cpuHistory =>
    refine (Prog.ensures_perform_bind _ _).mpr ⟨trivial, fun now => ?_⟩
    cases validateCPUHistory cpuHistory now phpa.spec.prediction.window with
    | error err => exact (r.metricsUnavailable_returns phpa err interval).imp (Routine.decides key)
    | ok =>
      dsimp only
      cases r.forecast phpa.spec cpuHistory with
      | none => exact returns_error interval _
      | some forecast =>
        cases forecast with
        | error err =>
          exact (r.metricsUnavailable_returns phpa err interval).imp (Routine.decides key)
        | ok raw => exact r.reconcileScale_returns hkey deploy cpuHistory raw interval

end Intervals

def Requeues (result : Except Err ℤ) : Prop :=
  ∀ after, result = .ok after → r.requeue = .ok after ∨ after = requeueOnConfigError

def forget (key : NamespacedName) : Program K (Except Err ℤ) := do
  let () ← Prog.perform (Op.forgetHistory key)
  return .ok 0

theorem requeue_pos {interval : ℤ} (h : r.requeue = .ok interval) : 0 < interval := by
  have hle : second ≤ interval := by
    unfold requeue at h
    dsimp only at h
    split_ifs at h with hzero hshort hshort <;> cases h <;> exact not_lt.mp hshort
  exact lt_of_lt_of_le (by decide) hle

section Read

variable [Field K] [LinearOrder K] [FloorRing K]

theorem reconcileTarget_requeues {interval : ℤ} (hr : r.requeue = .ok interval)
    {phpa : PredictiveHPA} {key : NamespacedName} (hkey : phpa.metadata.key = key) {target}
    (hcall : r.reconcileTarget key interval = .call (.getPHPA .cache key) target)
    (hlive : phpa.metadata.notDeleting = true) :
    (target (.ok phpa)).Ensures (Decides key) r.Requeues := by
  have hreturns : ∀ result, Returns interval result → r.Requeues result :=
    fun result h after hresult => .inl (hr.trans (congrArg _ (h after hresult).symm))
  unfold reconcileTarget at hcall
  cases hcall
  dsimp only [Prog.bind]
  rw [if_neg (by simp [hlive])]
  cases validateConfiguration r.isDNS1123Subdomain phpa.spec with
  | error err =>
    exact ((r.metricsUnavailable_returns phpa err requeueOnConfigError).imp
      (Routine.decides key)).imp_result fun result h after hresult => .inr (h after hresult)
  | ok =>
    refine (Prog.ensures_perform_bind _ _).mpr ⟨trivial, fun found => ?_⟩
    cases found with
    | error err =>
      dsimp only
      split_ifs
      · exact ((r.metricsUnavailable_returns phpa _ interval).imp
          (Routine.decides key)).imp_result hreturns
      · exact hreturns _ (returns_error interval _)
    | ok deploy => exact (r.reconcileMetrics_returns hkey deploy interval).imp_result hreturns

/-- What a reconciliation goes on to do, by the answer to its first call. -/
theorem reconcile_reads {interval : ℤ} (hr : r.requeue = .ok interval) (key : NamespacedName) :
    ∃ next, r.reconcile key = .call (.getPHPA .cache key) next ∧
      (∀ err : Err, err.is .notFound = true → next (.error err) = forget key) ∧
      (∀ err : Err, err.is .notFound = false → ∃ err', next (.error err) = .pure (.error err')) ∧
      (∀ phpa, phpa.metadata.notDeleting = false → next (.ok phpa) = .pure (.ok 0)) ∧
      ∀ phpa, phpa.metadata.notDeleting = true → phpa.metadata.key = key →
        (next (.ok phpa)).Ensures (Decides key) r.Requeues := by
  refine ⟨_, by rw [reconcile, hr]; rfl, ?_, ?_, ?_, ?_⟩
  · intro err herr
    dsimp only [Prog.bind]
    rw [if_pos herr]
    rfl
  · intro err herr
    dsimp only [Prog.bind]
    rw [if_neg (by simp [herr])]
    exact ⟨_, rfl⟩
  · intro phpa hdeleting
    dsimp only [Prog.bind]
    rw [if_pos (by simp [hdeleting])]
    rfl
  · exact fun phpa hlive hkey => r.reconcileTarget_requeues hr hkey rfl hlive

end Read

end PredictiveHPAReconciler

namespace Manager

open PredictiveHPAReconciler

variable {K : Type} {r : PredictiveHPAReconciler K} {backoff : ℤ → Prop}
  {updates : PredictiveHPA → PredictiveHPA → Prop} {m m' : Manager K} {key key' : NamespacedName}

/-- How long a queued policy may wait: not at all after an event, else a polling interval, or what
the rate limiter chose. -/
def Delay (r : PredictiveHPAReconciler K) (backoff : ℤ → Prop) (delay : ℤ) : Prop :=
  delay = 0 ∨ r.requeue = .ok delay ∨ delay = requeueOnConfigError ∨ backoff delay

/-- An event of the key is on its way to the queue, or the key waits there. -/
def Notified (r : PredictiveHPAReconciler K) (backoff : ℤ → Prop) (m : Manager K)
    (key : NamespacedName) : Prop :=
  key ∈ m.events ∨ Within (Delay r backoff) m.now m.queue key

/-- Without a reconciliation of the key, a live policy will be reconciled, as long as the informer
renews generations; and so will, in any case, a key whose history is left behind. -/
structure Settled (r : PredictiveHPAReconciler K) (backoff : ℤ → Prop)
    (updates : PredictiveHPA → PredictiveHPA → Prop) (m : Manager K) (key : NamespacedName) :
    Prop where
  live : RenewsGeneration updates → ∀ phpa ∈ m.policies key, phpa.metadata.notDeleting = true →
    Notified r backoff m key
  history : m.policies key = none → m.history key ≠ none → Notified r backoff m key

theorem Notified.settled (h : Notified r backoff m key) : Settled r backoff updates m key :=
  ⟨fun _ _ _ _ => h, fun _ _ => h⟩

/-- A step that keeps the policies, the histories and every notification keeps what was settled. -/
theorem Settled.imp (h : Settled r backoff updates m key)
    (hpolicies : m'.policies key = m.policies key) (hhistory : m'.history key = m.history key)
    (hnotified : Notified r backoff m key → Notified r backoff m' key) :
    Settled r backoff updates m' key where
  live hrenews phpa hphpa hlive := hnotified (h.live hrenews phpa (hpolicies ▸ hphpa) hlive)
  history hnone hsome := hnotified (h.history (hpolicies ▸ hnone) (hhistory ▸ hsome))

theorem notified_requeued {result : Except Err ℤ} {delay : ℤ} (h : Notified r backoff m key) :
    Notified r backoff { m with queue := m.requeued key' delay result, running := none } key := by
  refine h.imp_right fun hwaits => ?_
  cases result with
  | error err => exact hwaits.add ..
  | ok after =>
    show Within _ _ (if 0 < after then _ else _) _
    split_ifs
    · exact hwaits.add ..
    · exact hwaits

section Observe

variable {new : Option PredictiveHPA} {annotated : Bool}

theorem notified_observe (h : Notified r backoff m key') :
    Notified r backoff (m.observe key new annotated) key' := by
  refine h.imp_left fun hevent => ?_
  show key' ∈ if _ then m.events ++ [key] else m.events
  split_ifs
  · exact List.mem_append_left _ hevent
  · exact hevent

theorem notified_of_notifies (h : notifies (m.policies key) new annotated = true) :
    Notified r backoff (m.observe key new annotated) key := by
  refine .inl ?_
  show key ∈ if _ then m.events ++ [key] else m.events
  rw [if_pos h]
  exact List.mem_append_right _ (List.mem_singleton_self key)

/-- What the cache learns about a key is notified, unless it leaves a live policy as live and a
known key known: an update that passes no event keeps the generation, so it revives nothing. -/
theorem observe_cases (r : PredictiveHPAReconciler K) (backoff : ℤ → Prop)
    (hupdate : ∀ old ∈ m.policies key, ∀ phpa ∈ new, updates old phpa) :
    Notified r backoff (m.observe key new annotated) key ∨
      (m.policies key = none ∧ new = none) ∨
      ∃ old phpa, m.policies key = some old ∧ new = some phpa ∧
        (RenewsGeneration updates → phpa.metadata.notDeleting = true →
          old.metadata.notDeleting = true) := by
  cases hpass : notifies (m.policies key) new annotated with
  | true => exact .inl (notified_of_notifies hpass)
  | false =>
    right
    cases hold : m.policies key with
    | none =>
      cases new with
      | none => exact .inl ⟨rfl, rfl⟩
      | some phpa => simp [hold, notifies] at hpass
    | some old =>
      cases new with
      | none => simp [hold, notifies] at hpass
      | some phpa =>
        refine .inr ⟨old, phpa, rfl, rfl, fun hrenews hlive => ?_⟩
        by_contra hdeleting
        have hgeneration :=
          hrenews old phpa (hupdate old hold phpa rfl) (by simpa using hdeleting) hlive
        simp [hold, notifies, hgeneration] at hpass

theorem observe_policies_self : (m.observe key new annotated).policies key = new :=
  Function.update_self ..

theorem observe_policies_of_ne (h : key' ≠ key) :
    (m.observe key new annotated).policies key' = m.policies key' :=
  Function.update_of_ne h ..

theorem Settled.observe (h : Settled r backoff updates m key)
    (hupdate : ∀ old ∈ m.policies key, ∀ phpa ∈ new, updates old phpa) :
    Settled r backoff updates (m.observe key new annotated) key := by
  have hself : (m.observe key new annotated).policies key = new := observe_policies_self
  rcases observe_cases r backoff hupdate with
    hnotified | ⟨hold, hnew⟩ | ⟨old, phpa, hold, hnew, hlive⟩
  · exact hnotified.settled
  · exact h.imp (hself.trans (hnew.trans hold.symm)) rfl notified_observe
  · refine ⟨fun hrenews phpa' hphpa' hlive' => ?_, fun hnone => ?_⟩
    · rw [hself, hnew] at hphpa'
      cases hphpa'
      exact notified_observe (h.live hrenews old hold (hlive hrenews hlive'))
    · rw [hself, hnew] at hnone
      cases hnone

end Observe

/-- A reconciliation that ends with this result leaves its key queued. -/
def QueuesAgain (r : PredictiveHPAReconciler K) (backoff : ℤ → Prop) (key : NamespacedName)
    (result : Except Err ℤ) : Prop :=
  ∀ (m : Manager K) delay, backoff delay →
    Within (Delay r backoff) m.now (m.requeued key delay result) key

theorem queuesAgain_error (err : Err) : QueuesAgain r backoff key (.error err) :=
  fun _ _ hdelay => within_add (.inr (.inr (.inr hdelay))) ..

theorem queuesAgain_of_requeues {result : Except Err ℤ} (h : r.Requeues result) :
    QueuesAgain r backoff key result := by
  cases result with
  | error err => exact queuesAgain_error err
  | ok after =>
    intro m delay _
    have hafter := h after rfl
    have hpos : 0 < after := by
      rcases hafter with hinterval | rfl
      · exact r.requeue_pos hinterval
      · decide
    rw [requeued_of_pos m key delay hpos]
    refine within_add ?_ ..
    rcases hafter with hinterval | hconfig
    · exact .inr (.inl hinterval)
    · exact .inr (.inr (.inl hconfig))

theorem ensures_queuesAgain {p : Program K (Except Err ℤ)}
    (h : p.Ensures (Decides key) r.Requeues) :
    p.Ensures (fun _ => True) (QueuesAgain r backoff key) :=
  (h.imp fun _ _ => trivial).imp_result fun _ => queuesAgain_of_requeues

theorem setupWithManager_requeue {r₀ : PredictiveHPAReconciler K}
    {indexed completed : Except Err Unit}
    (h : r₀.setupWithManager indexed completed = .ok r) : ∃ interval, r.requeue = .ok interval := by
  unfold setupWithManager at h
  cases hrequeue : r₀.requeue with
  | error err => simp [hrequeue] at h
  | ok interval =>
    rw [hrequeue] at h
    rcases indexed with _ | ⟨⟨⟩⟩ <;> rcases completed with _ | ⟨⟨⟩⟩ <;> cases h
    exact ⟨interval, hrequeue⟩

variable [Field K] [LinearOrder K] [FloorRing K]

/-- Every way in which the reconciliation can end leaves its key queued; where it has yet to read
the policy, the cache answers as it stands. -/
def EndsQueued (m : Manager K) (r : PredictiveHPAReconciler K) (backoff : ℤ → Prop)
    (key : NamespacedName) (p : Program K (Except Err ℤ)) : Prop :=
  p.Ensures (fun _ => True) (QueuesAgain r backoff key) ∨
    ∃ next, p = .call (.getPHPA .cache key) next ∧
      ∀ found history, m.Answers (.getPHPA .cache key) found history →
        (next found).Ensures (fun _ => True) (QueuesAgain r backoff key)

/-- How far the reconciliation of a key is, and what the cache may have learned since its read. -/
inductive Stage (r : PredictiveHPAReconciler K) (backoff : ℤ → Prop)
    (updates : PredictiveHPA → PredictiveHPA → Prop) (m : Manager K) (key : NamespacedName) :
    Program K (Except Err ℤ) → Prop
  | start : Stage r backoff updates m key (r.reconcile key)
  | failed (err : Err) : Stage r backoff updates m key (.pure (.error err))
  | gone : (m.policies key ≠ none → Notified r backoff m key) →
      Stage r backoff updates m key (forget key)
  | stopped : Settled r backoff updates m key → Stage r backoff updates m key (.pure (.ok 0))
  | active {p} : p.Ensures (Decides key) r.Requeues →
      (m.policies key = none → Notified r backoff m key) → Stage r backoff updates m key p

structure Polls (r : PredictiveHPAReconciler K) (backoff : ℤ → Prop)
    (updates : PredictiveHPA → PredictiveHPA → Prop) (m : Manager K) : Prop where
  interval : ∃ interval, r.requeue = .ok interval
  keyed : ∀ key, ∀ phpa ∈ m.policies key, phpa.metadata.key = key
  idle : ∀ key, (∀ p, m.running ≠ some (key, p)) → Settled r backoff updates m key
  stage : ∀ key p, m.running = some (key, p) → Stage r backoff updates m key p

theorem Stage.imp {p : Program K (Except Err ℤ)} (h : Stage r backoff updates m key p)
    (hpolicies : m'.policies key = m.policies key) (hhistory : m'.history key = m.history key)
    (hnotified : Notified r backoff m key → Notified r backoff m' key) :
    Stage r backoff updates m' key p := by
  cases h with
  | start => exact .start
  | failed err => exact .failed err
  | gone h => exact .gone fun hsome => hnotified (h (hpolicies ▸ hsome))
  | stopped h => exact .stopped (h.imp hpolicies hhistory hnotified)
  | active hensures h => exact .active hensures fun hnone => hnotified (h (hpolicies ▸ hnone))

/-- A step of time or of the queue that keeps every notification keeps the invariant. -/
theorem Polls.imp (h : Polls r backoff updates m) (hpolicies : m'.policies = m.policies)
    (hhistory : m'.history = m.history) (hrunning : m'.running = m.running)
    (hnotified : ∀ key, Notified r backoff m key → Notified r backoff m' key) :
    Polls r backoff updates m' where
  interval := h.interval
  keyed := hpolicies ▸ h.keyed
  idle key hidle := (h.idle key (hrunning ▸ hidle)).imp (congrFun hpolicies key)
    (congrFun hhistory key) (hnotified key)
  stage key p hstage := (h.stage key p (hrunning ▸ hstage)).imp (congrFun hpolicies key)
    (congrFun hhistory key) (hnotified key)

section Calls

variable {op : Op K} {answer : op.Result} {history : History}

theorem Answers.frame (h : m.Answers op answer history) (hop : Decides key op)
    (hne : key' ≠ key) : history key' = m.history key' := by
  cases op with
  | getPHPA reader k =>
    cases reader with
    | cache => rw [h.1]
    | api => rw [show history = m.history from h]
  | evaluateDecision phpa deploy scale now currentCPU raw =>
    have hafter : history =
        (evaluateDecision m.history phpa deploy scale now currentCPU raw).2 := congrArg Prod.snd h
    have hother : key' ≠ phpa.metadata.key := by
      rw [show phpa.metadata.key = key from hop]
      exact hne
    rw [hafter]
    exact Function.update_of_ne hother ..
  | forgetHistory => exact hop.elim
  | _ => rw [show history = m.history from h]

/-- The read that starts a reconciliation. -/
theorem Polls.read (h : Polls r backoff updates m) {next : op.Result → Program K (Except Err ℤ)}
    (hrunning : m.running = some (key, .call op next)) (heq : Prog.call op next = r.reconcile key)
    (hanswer : m.Answers op answer history) :
    history = m.history ∧ Stage r backoff updates m key (next answer) := by
  obtain ⟨interval, hr⟩ := h.interval
  obtain ⟨next', hreads, hgone, hfailed, hdeleting, hlive⟩ := r.reconcile_reads hr key
  rw [hreads] at heq
  cases heq
  obtain ⟨hhistory, hfound⟩ := hanswer
  refine ⟨hhistory, ?_⟩
  cases answer with
  | error err =>
    cases hnotFound : err.is .notFound with
    | true =>
      rw [hgone err hnotFound]
      exact .gone fun hsome => absurd (hfound hnotFound) hsome
    | false =>
      obtain ⟨err', hresult⟩ := hfailed err hnotFound
      rw [hresult]
      exact .failed err'
  | ok phpa =>
    have hkey := h.keyed key phpa hfound
    cases hnot : phpa.metadata.notDeleting with
    | false =>
      rw [hdeleting phpa hnot]
      refine .stopped ⟨fun _ phpa' hphpa' hlive' => ?_, fun hnone => ?_⟩
      · cases hfound.symm.trans hphpa'
        exact absurd hlive' (by simp [hnot])
      · exact absurd (hfound.symm.trans hnone) (by simp)
    | true =>
      exact .active (hlive phpa hnot hkey) fun hnone => absurd (hfound.symm.trans hnone) (by simp)

/-- A reconciliation of a live policy that has not read it yet. -/
theorem Polls.endsQueued (h : Polls r backoff updates m) {phpa : PredictiveHPA}
    (hphpa : m.policies key = some phpa) (hlive : phpa.metadata.notDeleting = true) :
    m.EndsQueued r backoff key (r.reconcile key) := by
  obtain ⟨interval, hr⟩ := h.interval
  obtain ⟨next, hreads, -, hfailed, -, hrest⟩ := r.reconcile_reads hr key
  refine .inr ⟨next, hreads, fun found history hanswer => ?_⟩
  have hfound := hanswer.2
  cases found with
  | error err =>
    cases hnotFound : err.is .notFound with
    | true =>
      rw [hfound hnotFound] at hphpa
      cases hphpa
    | false =>
      obtain ⟨err', hresult⟩ := hfailed err hnotFound
      rw [hresult]
      exact queuesAgain_error err'
  | ok read =>
    cases hphpa.symm.trans hfound
    exact ensures_queuesAgain (hrest phpa hlive (h.keyed key phpa hphpa))

/-- Every call of a reconciliation takes it to another stage, and leaves the other keys. -/
theorem Polls.call (h : Polls r backoff updates m) {next : op.Result → Program K (Except Err ℤ)}
    (hrunning : m.running = some (key, .call op next)) (hanswer : m.Answers op answer history) :
    Polls r backoff updates { m with running := some (key, next answer), history := history } := by
  have hstage := h.stage key _ hrunning
  have hidle : ∀ key', key' ≠ key → Settled r backoff updates m key' := by
    intro key' hne
    refine h.idle key' fun p hp => hne ?_
    rw [hrunning] at hp
    cases hp
    rfl
  have hassemble : (∀ key', key' ≠ key → history key' = m.history key') →
      Stage r backoff updates { m with running := some (key, next answer), history := history } key
        (next answer) →
      Polls r backoff updates
        { m with running := some (key, next answer), history := history } := by
    intro hframe hnext
    refine ⟨h.interval, h.keyed, fun key' hother => ?_, fun key' p hp => ?_⟩
    · have hne : key' ≠ key := by
        rintro rfl
        exact hother _ rfl
      exact (hidle key' hne).imp rfl (hframe key' hne) id
    · cases hp
      exact hnext
  generalize hp : Prog.call op next = p at hstage
  cases hstage with
  | start =>
    obtain ⟨hhistory, hnext⟩ := h.read hrunning hp hanswer
    exact hassemble (fun key' _ => congrFun hhistory key')
      (hnext.imp rfl (congrFun hhistory key) id)
  | failed err => cases hp
  | gone hnotified =>
    unfold forget at hp
    cases hp
    have hafter : history = Function.update m.history key none := hanswer
    refine hassemble (fun key' hne => ?_) (.stopped ⟨fun _ phpa hphpa _ => ?_, fun _ hsome => ?_⟩)
    · rw [hafter]
      exact Function.update_of_ne hne ..
    · exact hnotified (by rw [show m.policies key = some phpa from hphpa]; simp)
    · exact absurd (by rw [hafter]; exact Function.update_self ..) hsome
  | stopped => cases hp
  | active hensures hnotified =>
    subst hp
    exact hassemble (fun key' hne => hanswer.frame hensures.1 hne)
      (.active (hensures.2 answer) hnotified)

end Calls

/-- A finished reconciliation leaves its key queued, or nothing more to do for it. -/
theorem Stage.finish {result : Except Err ℤ} {delay : ℤ}
    (h : Stage r backoff updates m key (.pure result)) (hdelay : backoff delay)
    (hr : ∃ interval, r.requeue = .ok interval) :
    Settled r backoff updates { m with queue := m.requeued key delay result, running := none }
      key := by
  have hqueued : ∀ {result}, QueuesAgain r backoff key result → Settled r backoff updates
      { m with queue := m.requeued key delay result, running := none } key := fun hqueues =>
    Notified.settled (.inr (hqueues m delay hdelay))
  generalize hp : Prog.pure result = p at h
  cases h with
  | start =>
    obtain ⟨interval, hr⟩ := hr
    obtain ⟨next, hreads, -⟩ := r.reconcile_reads hr key
    rw [hreads] at hp
    cases hp
  | failed err =>
    cases hp
    exact hqueued (queuesAgain_error err)
  | gone => cases hp
  | stopped h =>
    cases hp
    rw [requeued_zero]
    exact h.imp rfl rfl id
  | active hensures hnotified =>
    subst hp
    exact hqueued (queuesAgain_of_requeues hensures)

theorem Stage.observe {new : Option PredictiveHPA} {annotated : Bool}
    {p : Program K (Except Err ℤ)} (h : Stage r backoff updates m key p)
    (hupdate : ∀ old ∈ m.policies key, ∀ phpa ∈ new, updates old phpa) :
    Stage r backoff updates (m.observe key new annotated) key p := by
  have hself : (m.observe key new annotated).policies key = new := observe_policies_self
  cases h with
  | start => exact .start
  | failed err => exact .failed err
  | stopped hsettled => exact .stopped (hsettled.observe hupdate)
  | gone hgone =>
    refine .gone fun hsome => ?_
    rcases observe_cases r backoff hupdate with hnotified | ⟨-, hnew⟩ | ⟨old, phpa, hold, -⟩
    · exact hnotified
    · exact absurd (hself.trans hnew) hsome
    · exact notified_observe (hgone (by simp [hold]))
  | active hensures hactive =>
    refine .active hensures fun hnone => ?_
    rcases observe_cases r backoff hupdate with
      hnotified | ⟨hold, -⟩ | ⟨old, phpa, -, hnew, -⟩
    · exact hnotified
    · exact notified_observe (hactive hold)
    · exact absurd (hself.symm.trans hnone) (by simp [hnew])

/-- The informer may tell of any key at any time. -/
theorem Polls.observe (h : Polls r backoff updates m) {new : Option PredictiveHPA}
    {annotated : Bool} (hkey : ∀ phpa ∈ new, phpa.metadata.key = key)
    (hupdate : ∀ old ∈ m.policies key, ∀ phpa ∈ new, updates old phpa) :
    Polls r backoff updates (m.observe key new annotated) := by
  refine ⟨h.interval, fun key' phpa hphpa => ?_, fun key' hidle => ?_, fun key' p hp => ?_⟩
  · by_cases hne : key' = key
    · subst hne
      rw [observe_policies_self] at hphpa
      exact hkey phpa hphpa
    · rw [observe_policies_of_ne hne] at hphpa
      exact h.keyed key' phpa hphpa
  · by_cases hne : key' = key
    · subst hne
      exact (h.idle key' hidle).observe hupdate
    · exact (h.idle key' hidle).imp (observe_policies_of_ne hne) rfl notified_observe
  · by_cases hne : key' = key
    · subst hne
      exact (h.stage key' p hp).observe hupdate
    · exact (h.stage key' p hp).imp (observe_policies_of_ne hne) rfl notified_observe

theorem Polls.step (h : Polls r backoff updates m) (hstep : Step r backoff updates m m') :
    Polls r backoff updates m' := by
  cases hstep with
  | tick now hnow => exact h.imp rfl rfl rfl fun key => Or.imp_right (·.later hnow)
  | observe key new annotated hkey hupdate => exact h.observe hkey hupdate
  | @deliver key rest hevents =>
    refine h.imp rfl rfl rfl fun key' hnotified => ?_
    rcases hnotified with hevent | hwaits
    · rw [hevents] at hevent
      cases hevent with
      | head => exact .inr (within_add (.inl rfl) ..)
      | tail _ hevent => exact .inl hevent
    · exact .inr (hwaits.add ..)
  | deploymentEvent target listed hlisted =>
    exact h.imp rfl rfl rfl fun key => Or.imp_right (·.addAll ..)
  | @take key due hidle hdue hcome =>
    refine ⟨h.interval, h.keyed, fun key' hother => ?_, fun key' p hp => ?_⟩
    · have hne : key' ≠ key := by
        rintro rfl
        exact hother _ rfl
      exact (h.idle key' (by simp [hidle])).imp rfl rfl (Or.imp_right (·.take hne))
    · cases hp
      exact .start
  | call op answer hrunning hanswer => exact h.call hrunning hanswer
  | @finish key result delay hrunning hdelay =>
    have hstage := h.stage key _ hrunning
    refine ⟨h.interval, h.keyed, fun key' _ => ?_, fun key' p hp => by cases hp⟩
    by_cases hne : key' = key
    · subst hne
      exact hstage.finish hdelay h.interval
    · refine (h.idle key' fun p hp => hne ?_).imp rfl rfl notified_requeued
      rw [hrunning] at hp
      cases hp
      rfl

theorem Reachable.polls (h : Reachable r backoff updates m) : Polls r backoff updates m := by
  induction h with
  | start r₀ now hsetup hkeyed hlisted =>
    refine ⟨setupWithManager_requeue hsetup, hkeyed, fun key _ => ⟨fun _ phpa hphpa _ => ?_, ?_⟩,
      fun key p hp => by cases hp⟩
    · exact .inl (hlisted key (Option.ne_none_iff_exists'.mpr ⟨phpa, hphpa⟩))
    · exact fun _ hsome => absurd rfl hsome
  | step _ hstep ih => exact ih.step hstep

/-- However events, time and reconciliations interleave, a live policy never drops out of polling,
unless one comes back from its deletion with the generation that it had: its event is about to be
queued, it waits at most a polling interval or what the rate limiter chose, or it is being
reconciled and that reconciliation can only end by queueing it again. -/
theorem live_policy_polled (h : Reachable r backoff updates m) (hrenews : RenewsGeneration updates)
    {phpa : PredictiveHPA} (hphpa : m.policies key = some phpa)
    (hlive : phpa.metadata.notDeleting = true) :
    key ∈ m.events ∨ Within (Delay r backoff) m.now m.queue key ∨
      ∃ p, m.running = some (key, p) ∧ m.EndsQueued r backoff key p := by
  have hpolls := h.polls
  by_cases hrunning : ∃ p, m.running = some (key, p)
  · obtain ⟨p, hp⟩ := hrunning
    cases hpolls.stage key p hp with
    | start => exact .inr (.inr ⟨_, hp, hpolls.endsQueued hphpa hlive⟩)
    | failed err => exact .inr (.inr ⟨_, hp, .inl (queuesAgain_error err)⟩)
    | gone hnotified => exact (hnotified (by simp [hphpa])).imp_right .inl
    | stopped hs => exact (hs.live hrenews phpa hphpa hlive).imp_right .inl
    | active hensures => exact .inr (.inr ⟨_, hp, .inl (ensures_queuesAgain hensures)⟩)
  · have hs := hpolls.idle key fun p hp => hrunning ⟨p, hp⟩
    exact (hs.live hrenews phpa hphpa hlive).imp_right .inl

def safetyPolicies : NamespacedName → Option PredictiveHPA :=
  Function.update (fun _ => none) safetyPHPA.metadata.key (some safetyPHPA)

def secondBackoff (delay : ℤ) : Prop := delay = second

/-- Updates of an informer that loses no event of a deletion. -/
def renewing (old new : PredictiveHPA) : Prop :=
  old.metadata.notDeleting = false → new.metadata.notDeleting = true →
    old.metadata.generation ≠ new.metadata.generation

theorem safetyStart (updates : PredictiveHPA → PredictiveHPA → Prop) :
    Reachable safetyReconciler secondBackoff updates
      (start 0 safetyPolicies [safetyPHPA.metadata.key]) := by
  have hlisted : ∀ key phpa, safetyPolicies key = some phpa →
      key = safetyPHPA.metadata.key ∧ phpa = safetyPHPA := by
    intro key phpa hphpa
    by_cases hkey : key = safetyPHPA.metadata.key
    · subst hkey
      exact ⟨rfl, Option.some.inj (hphpa.symm.trans (Function.update_self ..))⟩
    · rw [safetyPolicies, Function.update_of_ne hkey] at hphpa
      cases hphpa
  have hsetup : safetyReconciler.setupWithManager (.ok ()) (.ok ()) = .ok safetyReconciler := rfl
  refine .start safetyReconciler 0 hsetup ?_ ?_
  · intro key phpa hphpa
    obtain ⟨rfl, rfl⟩ := hlisted key phpa hphpa
    rfl
  · intro key hsome
    obtain ⟨phpa, hphpa⟩ := Option.ne_none_iff_exists'.mp hsome
    rw [(hlisted key phpa hphpa).1]
    exact List.mem_singleton_self _

def unreadTarget : Except Err Deployment := .error ⟨[], "connection refused"⟩

theorem live_policy_polled_unread : ∃ m : Manager ℚ, m.running = none ∧
    m.queue safetyPHPA.metadata.key = some second ∧
    (safetyPHPA.metadata.key ∈ m.events ∨
      Within (Delay safetyReconciler secondBackoff) m.now m.queue safetyPHPA.metadata.key ∨
      ∃ p, m.running = some (safetyPHPA.metadata.key, p) ∧
        m.EndsQueued safetyReconciler secondBackoff safetyPHPA.metadata.key p) := by
  have hqueued := (safetyStart renewing).step (.deliver rfl)
  have htaken := hqueued.step (.take safetyPHPA.metadata.key rfl rfl le_rfl)
  have hread := htaken.step
    (.call (.getPHPA .cache safetyPHPA.metadata.key) (.ok safetyPHPA) rfl ⟨rfl, rfl⟩)
  have hfailed := hread.step
    (.call (.getDeployment .cache safetyDeployment.metadata.key) unreadTarget rfl rfl)
  have hfinished := hfailed.step (.finish second rfl rfl)
  exact ⟨_, rfl, rfl, live_policy_polled hfinished (fun _ _ => id) rfl rfl⟩

/-- Histories do not outlive their policies: once no event, queue entry or reconciliation of a
deleted policy is left, its history is gone. -/
theorem history_forgotten (h : Reachable r backoff updates m) (hgone : m.policies key = none)
    (hevents : key ∉ m.events) (hqueue : m.queue key = none)
    (hidle : ∀ p, m.running ≠ some (key, p)) : m.history key = none := by
  by_contra hsome
  rcases (h.polls.idle key hidle).history hgone hsome with hevent | hwaits
  · exact hevents hevent
  · have hwaiting := hwaits.isSome
    rw [hqueue] at hwaiting
    cases hwaiting

def absentPolicy : Except Err PredictiveHPA := .error ⟨[.notFound], "PredictiveHPA not found"⟩

theorem history_forgotten_deleted : ∃ m : Manager ℚ,
    Reachable safetyReconciler secondBackoff (fun _ _ => True) m ∧
      m.history safetyPHPA.metadata.key = none := by
  have hqueued := (safetyStart fun _ _ => True).step (.deliver rfl)
  have hdeleted := hqueued.step (.observe safetyPHPA.metadata.key none false (by simp) (by simp))
  have hdelivered := hdeleted.step (.deliver rfl)
  have htaken := hdelivered.step (.take safetyPHPA.metadata.key rfl rfl le_rfl)
  have hread := htaken.step
    (.call (.getPHPA .cache safetyPHPA.metadata.key) absentPolicy rfl ⟨rfl, fun _ => rfl⟩)
  have hforgotten := hread.step (.call (.forgetHistory safetyPHPA.metadata.key) () rfl rfl)
  have hfinished := hforgotten.step (.finish second rfl rfl)
  exact ⟨_, hfinished, history_forgotten hfinished rfl List.not_mem_nil rfl (by simp)⟩

end Manager

end Autoscaler.Controller
