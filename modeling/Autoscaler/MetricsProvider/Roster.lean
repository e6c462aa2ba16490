import Autoscaler.Library.Memo
import Autoscaler.MetricsProvider.Samples

/-! The roster of a target: the containers of the Pods that it owns through its ReplicaSets, read
from one snapshot of the API. -/
namespace Autoscaler.MetricsProvider

abbrev Labels := Finmap fun _ : String => String

structure LabelSelectorRequirement where
  key : String
  operator : String
  values : List String

structure LabelSelector where
  matchLabels : Labels
  matchExpressions : List LabelSelectorRequirement

/-- What `metav1.LabelSelectorAsSelector` makes of a label selector. -/
structure Selector where
  empty : Bool
  selects : Labels → Bool

structure OwnerReference where
  kind : String
  name : String
  uid : UID
  controller : Option Bool
  deriving DecidableEq, Repr

def getControllerOf (ownerReferences : List OwnerReference) : Option OwnerReference :=
  ownerReferences.find? fun owner => owner.controller == some true

structure LiveDeployment where
  metadata : ObjectMeta
  selector : Option LabelSelector

structure ReplicaSet where
  uid : UID
  ownerReferences : List OwnerReference
  deriving DecidableEq, Repr

inductive PodPhase where
  | pending
  | running
  | succeeded
  | failed
  | unknown (value : String)
  deriving DecidableEq, Repr

structure PodCondition where
  type : String
  status : ConditionStatus
  deriving DecidableEq, Repr

structure InitContainer where
  restartPolicy : Option String
  deriving DecidableEq, Repr

/-- A container of a Pod's specification; without a CPU request its quantity is zero. -/
structure Container where
  name : String
  cpuRequest : Float64 ℚ
  named : name ≠ ""

structure ContainerStatus where
  name : String
  ready : Bool
  running : Bool
  containerID : String
  deriving DecidableEq, Repr

/-- A Pod as the API admits it: it has a name, and its containers have different ones. -/
structure Pod where
  metadata : ObjectMeta
  labels : Labels
  ownerReferences : List OwnerReference
  hasPodResources : Bool
  initContainers : List InitContainer
  containers : List Container
  phase : PodPhase
  conditions : List PodCondition
  containerStatuses : List ContainerStatus
  named : metadata.name ≠ ""
  nodupContainers : (containers.map Container.name).Nodup

/-- The API objects that one roster is read from; `listErr` is the failure of the Pod list. -/
structure Snapshot where
  deployments : NamespacedName → Except Err LiveDeployment
  pods : List Pod
  listErr : Option Err
  replicaSets : NamespacedName → Except Err ReplicaSet
  nodupPods : (pods.map fun pod => pod.metadata.key).Nodup

abbrev Containers := List (ContainerKey × ExpectedContainer)

def insertEntry (expected : Containers) (entry : ContainerKey × ExpectedContainer) : Containers :=
  expected.filter (fun e => e.1 ≠ entry.1) ++ [entry]

namespace Pod

variable (pod : Pod)

/-- The last condition of the type decides. -/
def ready : Bool :=
  pod.conditions.foldl
    (fun ready condition =>
      if condition.type = "Ready" then decide (condition.status = .true) else ready) false

/-- The last status of the name counts. -/
def status (name : String) : Option ContainerStatus :=
  (pod.containerStatuses.foldl (fun statuses status => statuses.insert status.name status)
    (∅ : Finmap fun _ : String => ContainerStatus)).lookup name

/-- The controller, of a Pod that is neither deleting nor terminal and is run by a ReplicaSet. -/
def replicaSetOwner : Option OwnerReference :=
  if pod.metadata.deletionTimestamp.isSome || pod.phase = .succeeded || pod.phase = .failed then
    none
  else (getControllerOf pod.ownerReferences).filter fun owner => owner.kind = "ReplicaSet"

def restartable (init : InitContainer) : Bool := init.restartPolicy == some "Always"

def check : Except Err Unit :=
  if pod.hasPodResources then .error (.wrap .invalidData "Pod-level resources are unsupported")
  else if pod.initContainers.any restartable then
    .error (.wrap .invalidData "restartable init sidecars are unsupported")
  else if pod.metadata.uid = "" || pod.phase ≠ .running || !pod.ready then
    .error (.wrap .incompleteData ("Pod " ++ pod.metadata.name ++ " is not ready"))
  else .ok ()

end Pod

/-- `strings.Cut`: the text before and after the first separator. -/
def cut (separator : List Char) : List Char → Option (List Char × List Char)
  | [] => if separator = [] then some ([], []) else none
  | c :: rest =>
    if separator.isPrefixOf (c :: rest) then some ([], (c :: rest).drop separator.length)
    else (cut separator rest).map fun found => (c :: found.1, found.2)

/-- The part of a status' container ID that names the instance. -/
def instanceID (containerID : String) : Option String :=
  match cut "://".toList containerID.toList with
  | none => none
  | some (_, id) =>
    if id.isEmpty || id.any fun c => c = '/' || c = '\\' then none else some (String.ofList id)

def containerEntry (pod : Pod) (rsUID : UID) (container : Container) :
    Except Err (ContainerKey × ExpectedContainer) :=
  let label := "container " ++ pod.metadata.name ++ "/" ++ container.name
  match container.cpuRequest with
  | .finite request =>
    if request ≤ 0 then .error (.wrap .invalidData (label ++ " requires a positive CPU request"))
    else
      match (pod.status container.name).filter fun status => status.ready && status.running with
      | none => .error (.wrap .incompleteData (label ++ " is not running"))
      | some status =>
        match instanceID status.containerID with
        | none => .error (.wrap .incompleteData "container instance identity is unavailable")
        | some containerID =>
          .ok (⟨pod.metadata.ns, pod.metadata.name, container.name⟩,
            ⟨pod.metadata.uid, rsUID, containerID, request⟩)
  | _ => .error (.wrap .invalidData (label ++ " requires a positive CPU request"))

def addPodContainers.loop (pod : Pod) (rsUID : UID) :
    List Container → Containers → Except Err Containers
  | [], expected => .ok expected
  | container :: rest, expected =>
    match containerEntry pod rsUID container with
    | .error err => .error err
    | .ok entry => loop pod rsUID rest (insertEntry expected entry)

def addPodContainers (expected : Containers) (pod : Pod) (rsUID : UID) : Except Err Containers :=
  match pod.check with
  | .error err => .error err
  | .ok () => addPodContainers.loop pod rsUID pod.containers expected

structure PodList where
  live : LiveDeployment
  pods : List Pod
  inNamespace : ∀ pod ∈ pods, pod.metadata.ns = live.metadata.ns
  nodupPods : (pods.map fun pod => pod.metadata.key).Nodup

def Snapshot.list (snapshot : Snapshot) (live : LiveDeployment) (selector : Selector) :
    PodList where
  live := live
  pods := snapshot.pods.filter fun pod =>
    decide (pod.metadata.ns = live.metadata.ns) && selector.selects pod.labels
  inNamespace pod hpod := by
    have hselected := (List.mem_filter.mp hpod).2
    rw [Bool.and_eq_true] at hselected
    exact of_decide_eq_true hselected.1
  nodupPods := snapshot.nodupPods.sublist (List.filter_sublist.map _)

section ReadRoster

variable (labelSelectorAsSelector : LabelSelector → Except Err Selector)

/-- The reads before the Pods are looked at. -/
def listPods (snapshot : Snapshot) (target : Deployment) : Except Err PodList :=
  match snapshot.deployments target.metadata.key with
  | .error err => .error (.wrap .targetChanged ("get Deployment: " ++ err.message))
  | .ok live =>
    if live.metadata.uid ≠ target.metadata.uid || live.metadata.deletionTimestamp.isSome then
      .error (.ofSentinel .targetChanged)
    else
      match live.selector with
      | none => .error (.wrap .invalidData "missing Deployment selector")
      | some labelSelector =>
        match (labelSelectorAsSelector labelSelector).toOption.filter (!·.empty) with
        | none => .error (.wrap .invalidData "invalid Deployment selector")
        | some selector =>
          match snapshot.listErr with
          | some err => .error (err.annotate "list target Pods")
          | none => .ok (snapshot.list live selector)

/-- The owner that a Pod names, with the error its loss is reported as. -/
def getReplicaSet (snapshot : Snapshot) (live : LiveDeployment) (name : String) :
    Except Err ReplicaSet :=
  match snapshot.replicaSets ⟨live.metadata.ns, name⟩ with
  | .ok rs => .ok rs
  | .error err =>
    if err.is .notFound then .error (.wrap .incompleteData "Pod owner is unavailable")
    else .error (err.annotate "get Pod ReplicaSet")

/-- The ReplicaSet is the one the Pod's owner reference means, and the live target controls it. -/
def ownedBy (live : LiveDeployment) (owner : OwnerReference) (rs : ReplicaSet) : Bool :=
  decide (rs.uid = owner.uid) &&
    (getControllerOf rs.ownerReferences).any fun rsOwner =>
      decide (rsOwner.kind = "Deployment") && decide (rsOwner.uid = live.metadata.uid) &&
        decide (rsOwner.name = live.metadata.name)

/-- The loop over the listed Pods; an owner is fetched once. -/
def readRoster.loop (snapshot : Snapshot) (live : LiveDeployment) :
    List Pod → (Finmap fun _ : String => ReplicaSet) → Containers → Except Err Containers
  | [], _, containers => .ok containers
  | pod :: rest, replicaSets, containers =>
    match pod.replicaSetOwner with
    | none => loop snapshot live rest replicaSets containers
    | some owner =>
      match Memo.fetch (getReplicaSet snapshot live) replicaSets owner.name with
      | .error err => .error err
      | .ok (rs, replicaSets) =>
        if ownedBy live owner rs then
          match addPodContainers containers pod rs.uid with
          | .error err => .error err
          | .ok containers => loop snapshot live rest replicaSets containers
        else loop snapshot live rest replicaSets containers

def readRoster.loopUncached (snapshot : Snapshot) (live : LiveDeployment) :
    List Pod → Containers → Except Err Containers
  | [], containers => .ok containers
  | pod :: rest, containers =>
    match pod.replicaSetOwner with
    | none => loopUncached snapshot live rest containers
    | some owner =>
      match getReplicaSet snapshot live owner.name with
      | .error err => .error err
      | .ok rs =>
        if ownedBy live owner rs then
          match addPodContainers containers pod rs.uid with
          | .error err => .error err
          | .ok containers => loopUncached snapshot live rest containers
        else loopUncached snapshot live rest containers

end ReadRoster

/-! What the loops collect. A key of the map names its Pod, so no entry is ever replaced. -/

def podKey (entry : ContainerKey × ExpectedContainer) : NamespacedName := ⟨entry.1.ns, entry.1.pod⟩

def Pod.containerKey (pod : Pod) (container : Container) : ContainerKey :=
  ⟨pod.metadata.ns, pod.metadata.name, container.name⟩

/-- The Pod runs the container with a positive request, in this instance. -/
structure Runs (pod : Pod) (container : Container) (containerID : String) (request : ℚ) :
    Prop where
  requested : container.cpuRequest = .finite request
  positive : 0 < request
  running : ∃ status, pod.status container.name = some status ∧ status.ready = true ∧
    status.running = true ∧ instanceID status.containerID = some containerID

theorem containerEntry_ok_iff (pod : Pod) (rsUID : UID) (container : Container)
    (entry : ContainerKey × ExpectedContainer) :
    containerEntry pod rsUID container = .ok entry ↔
      ∃ containerID request, Runs pod container containerID request ∧
        entry = (pod.containerKey container,
          ⟨pod.metadata.uid, rsUID, containerID, request⟩) := by
  constructor
  · intro h
    unfold containerEntry at h
    cases hrequest : container.cpuRequest with
    | nan => rw [hrequest] at h; cases h
    | inf negative => rw [hrequest] at h; cases h
    | finite request =>
      rw [hrequest] at h
      dsimp only at h
      split_ifs at h with hpos
      cases hstatus : (pod.status container.name).filter
          fun status => status.ready && status.running with
      | none => rw [hstatus] at h; cases h
      | some status =>
        rw [hstatus] at h
        dsimp only at h
        obtain ⟨hfound, hready⟩ := Option.filter_eq_some_iff.mp hstatus
        rw [Bool.and_eq_true] at hready
        cases hid : instanceID status.containerID with
        | none => rw [hid] at h; cases h
        | some containerID =>
          rw [hid] at h
          cases h
          exact ⟨containerID, request, ⟨hrequest, not_le.mp hpos,
            ⟨status, hfound, hready.1, hready.2, hid⟩⟩, rfl⟩
  · rintro ⟨containerID, request, ⟨hrequest, hpos, status, hfound, hready, hrunning, hid⟩, rfl⟩
    have hstatus : (pod.status container.name).filter
        (fun status => status.ready && status.running) = some status :=
      Option.filter_eq_some_iff.mpr ⟨hfound, by rw [hready, hrunning]; rfl⟩
    unfold containerEntry
    rw [hrequest]
    dsimp only
    rw [if_neg (not_le.mpr hpos), hstatus]
    dsimp only
    rw [hid]
    rfl

theorem containerEntry_key {pod : Pod} {rsUID : UID} {container : Container}
    {entry : ContainerKey × ExpectedContainer}
    (h : containerEntry pod rsUID container = .ok entry) :
    entry.1 = pod.containerKey container := by
  obtain ⟨containerID, request, -, rfl⟩ := (containerEntry_ok_iff _ _ _ _).mp h
  rfl

theorem insertEntry_of_fresh {expected : Containers} {entry : ContainerKey × ExpectedContainer}
    (h : ∀ e ∈ expected, e.1 ≠ entry.1) : insertEntry expected entry = expected ++ [entry] := by
  have hkept : expected.filter (fun e => e.1 ≠ entry.1) = expected :=
    List.filter_eq_self.mpr fun e he => by simpa using h e he
  rw [insertEntry, hkept]

theorem addPodContainers.loop_eq (pod : Pod) (rsUID : UID) (containers : List Container)
    (hnames : (containers.map Container.name).Nodup) (expected : Containers)
    (hfresh : ∀ e ∈ expected, ∀ c ∈ containers, e.1 ≠ pod.containerKey c) :
    addPodContainers.loop pod rsUID containers expected =
      (FirstFailure.collect (containerEntry pod rsUID) containers).map (expected ++ ·) := by
  induction containers generalizing expected with
  | nil => simp [addPodContainers.loop, FirstFailure.collect, Except.map]
  | cons container rest ih =>
    unfold addPodContainers.loop
    cases hentry : containerEntry pod rsUID container with
    | error err => rw [FirstFailure.collect_cons_error _ hentry]; rfl
    | ok entry =>
      have hkey := containerEntry_key hentry
      obtain ⟨hname, hrest⟩ := List.nodup_cons.mp hnames
      rw [FirstFailure.collect_cons_ok _ hentry]
      dsimp only
      rw [insertEntry_of_fresh fun e he => hkey ▸ hfresh e he container List.mem_cons_self,
        ih hrest]
      · cases FirstFailure.collect (containerEntry pod rsUID) rest with
        | error err => rfl
        | ok entries => simp [Except.map]
      · intro e he c hc
        rcases List.mem_append.mp he with he | he
        · exact hfresh e he c (List.mem_cons_of_mem _ hc)
        · rw [List.mem_singleton.mp he, hkey]
          intro heq
          have hsame : container.name = c.name := congrArg ContainerKey.container heq
          exact hname (hsame ▸ List.mem_map_of_mem hc)

def podEntries (pod : Pod) (rsUID : UID) : Except Err Containers :=
  match pod.check with
  | .error err => .error err
  | .ok () => FirstFailure.collect (containerEntry pod rsUID) pod.containers

theorem podEntries_keys {pod : Pod} {rsUID : UID} {entries : Containers}
    (h : podEntries pod rsUID = .ok entries) :
    entries.map Prod.fst = pod.containers.map pod.containerKey := by
  unfold podEntries at h
  cases hcheck : pod.check with
  | error err => rw [hcheck] at h; cases h
  | ok u =>
    rw [hcheck] at h
    have hall := (FirstFailure.collect_ok_iff _ _ _).mp h
    clear h
    generalize pod.containers = containers at hall ⊢
    induction hall with
    | nil => rfl
    | cons hentry _ ih => rw [List.map_cons, List.map_cons, containerEntry_key hentry, ih]

theorem podKey_of_podEntries {pod : Pod} {rsUID : UID} {entries : Containers}
    (h : podEntries pod rsUID = .ok entries) : ∀ e ∈ entries, podKey e = pod.metadata.key := by
  intro e he
  have hkey : e.1 ∈ pod.containers.map pod.containerKey :=
    podEntries_keys h ▸ List.mem_map_of_mem he
  obtain ⟨container, -, heq⟩ := List.mem_map.mp hkey
  rw [podKey, ← heq]
  rfl

theorem addPodContainers_eq (pod : Pod) (rsUID : UID) (expected : Containers)
    (hfresh : ∀ e ∈ expected, podKey e ≠ pod.metadata.key) :
    addPodContainers expected pod rsUID = (podEntries pod rsUID).map (expected ++ ·) := by
  unfold addPodContainers podEntries
  cases pod.check with
  | error err => rfl
  | ok u =>
    refine addPodContainers.loop_eq pod rsUID _ pod.nodupContainers expected ?_
    intro e he c _ heq
    exact hfresh e he (by rw [podKey, heq]; rfl)

section Collect

variable (snapshot : Snapshot) (live : LiveDeployment)

/-- The part of the roster that one listed Pod accounts for. -/
def podContainers (pod : Pod) : Except Err Containers :=
  match pod.replicaSetOwner with
  | none => .ok []
  | some owner =>
    match getReplicaSet snapshot live owner.name with
    | .error err => .error err
    | .ok rs => if ownedBy live owner rs then podEntries pod rs.uid else .ok []

theorem podKey_of_podContainers {pod : Pod} {entries : Containers}
    (h : podContainers snapshot live pod = .ok entries) :
    (entries.map Prod.fst).Nodup ∧ ∀ e ∈ entries, podKey e = pod.metadata.key := by
  have hnil : (([] : Containers).map Prod.fst).Nodup ∧
      ∀ e ∈ ([] : Containers), podKey e = pod.metadata.key :=
    ⟨List.nodup_nil, fun e he => absurd he List.not_mem_nil⟩
  unfold podContainers at h
  cases howner : pod.replicaSetOwner with
  | none => rw [howner] at h; cases h; exact hnil
  | some owner =>
    rw [howner] at h
    dsimp only at h
    cases hrs : getReplicaSet snapshot live owner.name with
    | error err => rw [hrs] at h; cases h
    | ok rs =>
      rw [hrs] at h
      dsimp only at h
      split_ifs at h with howned
      · refine ⟨?_, podKey_of_podEntries h⟩
        have hkeys : pod.containers.map pod.containerKey =
            (pod.containers.map Container.name).map
              (ContainerKey.mk pod.metadata.ns pod.metadata.name) := by
          rw [List.map_map]
          rfl
        rw [podEntries_keys h, hkeys]
        exact pod.nodupContainers.map fun a b heq => congrArg ContainerKey.container heq
      · cases h
        exact hnil

/-- The loop collects what each Pod accounts for. -/
theorem readRoster.loopUncached_eq (pods : List Pod)
    (hpods : (pods.map fun pod => pod.metadata.key).Nodup) (containers : Containers)
    (hfresh : ∀ e ∈ containers, ∀ pod ∈ pods, podKey e ≠ pod.metadata.key) :
    readRoster.loopUncached snapshot live pods containers =
      (FirstFailure.collect (podContainers snapshot live) pods).map
        (containers ++ ·.flatten) := by
  induction pods generalizing containers with
  | nil => simp [readRoster.loopUncached, FirstFailure.collect, Except.map]
  | cons pod rest ih =>
    obtain ⟨hpod, hrest⟩ := List.nodup_cons.mp hpods
    have hskip : podContainers snapshot live pod = .ok [] →
        readRoster.loopUncached snapshot live rest containers =
          (FirstFailure.collect (podContainers snapshot live) (pod :: rest)).map
            (containers ++ ·.flatten) := by
      intro h
      rw [ih hrest containers fun e he p hp => hfresh e he p (List.mem_cons_of_mem _ hp),
        FirstFailure.collect_cons_ok _ h]
      cases FirstFailure.collect (podContainers snapshot live) rest <;> rfl
    unfold readRoster.loopUncached
    cases howner : pod.replicaSetOwner with
    | none => exact hskip (by rw [podContainers, howner])
    | some owner =>
      dsimp only
      cases hrs : getReplicaSet snapshot live owner.name with
      | error err =>
        have hfail : podContainers snapshot live pod = .error err := by
          rw [podContainers, howner]
          simp [hrs]
        rw [FirstFailure.collect_cons_error _ hfail]
        rfl
      | ok rs =>
        dsimp only
        split_ifs with howned
        · have hpodContainers : podContainers snapshot live pod = podEntries pod rs.uid := by
            rw [podContainers, howner]
            simp [hrs, howned]
          rw [addPodContainers_eq pod rs.uid containers
            fun e he => hfresh e he pod List.mem_cons_self]
          cases hentries : podEntries pod rs.uid with
          | error err =>
            rw [FirstFailure.collect_cons_error _ (hpodContainers.trans hentries)]
            rfl
          | ok entries =>
            rw [FirstFailure.collect_cons_ok _ (hpodContainers.trans hentries)]
            dsimp only [Except.map]
            rw [ih hrest]
            · cases FirstFailure.collect (podContainers snapshot live) rest with
              | error err => rfl
              | ok tail => simp [Except.map]
            · intro e he p hp heq
              rcases List.mem_append.mp he with he | he
              · exact hfresh e he p (List.mem_cons_of_mem _ hp) heq
              · rw [podKey_of_podEntries hentries e he] at heq
                exact hpod (List.mem_map.mpr ⟨p, hp, heq.symm⟩)
        · exact hskip (by rw [podContainers, howner]; simp [hrs, howned])

/-- Fetching an owner once collects what fetching it for every Pod does. -/
theorem readRoster.loop_eq_uncached (pods : List Pod)
    (replicaSets : Finmap fun _ : String => ReplicaSet)
    (hcache : Memo.Agrees (getReplicaSet snapshot live) replicaSets) (containers : Containers) :
    readRoster.loop snapshot live pods replicaSets containers =
      readRoster.loopUncached snapshot live pods containers := by
  induction pods generalizing replicaSets containers with
  | nil => rfl
  | cons pod rest ih =>
    unfold readRoster.loop readRoster.loopUncached
    cases pod.replicaSetOwner with
    | none => exact ih replicaSets hcache containers
    | some owner =>
      dsimp only
      rcases Memo.fetch_cases (getReplicaSet snapshot live) hcache owner.name with
        ⟨err, hget, hfetch⟩ | ⟨rs, replicaSets', hget, hfetch, hcache'⟩
      · rw [hget, hfetch]
      · rw [hget, hfetch]
        dsimp only
        split_ifs
        · cases addPodContainers containers pod rs.uid with
          | error err => rfl
          | ok containers' => exact ih replicaSets' hcache' containers'
        · exact ih replicaSets' hcache' containers

/-- Distinct keys of one namespace. -/
structure WellKeyed (containers : Containers) : Prop where
  nodupKeys : (containers.map Prod.fst).Nodup
  oneNamespace : ∀ a ∈ containers, ∀ b ∈ containers, a.1.ns = b.1.ns

theorem collect_keys {pods : List Pod} (hpods : (pods.map fun pod => pod.metadata.key).Nodup)
    {entries : List Containers}
    (h : FirstFailure.collect (podContainers snapshot live) pods = .ok entries) :
    (entries.flatten.map Prod.fst).Nodup ∧
      ∀ e ∈ entries.flatten, podKey e ∈ pods.map fun pod => pod.metadata.key := by
  induction pods generalizing entries with
  | nil =>
    cases h
    exact ⟨List.nodup_nil, fun e he => absurd he List.not_mem_nil⟩
  | cons pod rest ih =>
    obtain ⟨hpod, hrest⟩ := List.nodup_cons.mp hpods
    have hall := (FirstFailure.collect_ok_iff _ _ _).mp h
    obtain ⟨first, tail, hfirst, htail, rfl⟩ := List.forall₂_cons_left_iff.mp hall
    obtain ⟨hnodup, hkeys⟩ := podKey_of_podContainers snapshot live hfirst
    obtain ⟨hnodup', hkeys'⟩ := ih hrest ((FirstFailure.collect_ok_iff _ _ _).mpr htail)
    rw [List.flatten_cons]
    constructor
    · rw [List.map_append]
      refine hnodup.append hnodup' ?_
      intro key hkey hkey'
      obtain ⟨e, he, rfl⟩ := List.mem_map.mp hkey
      obtain ⟨e', he', heq⟩ := List.mem_map.mp hkey'
      have hsame : podKey e' = podKey e := by rw [podKey, heq]; rfl
      have hmem := hkeys' e' he'
      rw [hsame, hkeys e he] at hmem
      exact hpod hmem
    · intro e he
      rcases List.mem_append.mp he with he | he
      · exact hkeys e he ▸ List.mem_cons_self
      · exact List.mem_cons_of_mem _ (hkeys' e he)

theorem loopUncached_wellKeyed (listed : PodList) {containers : Containers}
    (h : readRoster.loopUncached snapshot listed.live listed.pods [] = .ok containers) :
    WellKeyed containers := by
  rw [readRoster.loopUncached_eq snapshot listed.live listed.pods listed.nodupPods []
    fun e he => absurd he List.not_mem_nil] at h
  cases hcollect : FirstFailure.collect (podContainers snapshot listed.live) listed.pods with
  | error err => rw [hcollect] at h; cases h
  | ok entries =>
    rw [hcollect] at h
    cases h
    obtain ⟨hnodup, hkeys⟩ := collect_keys snapshot listed.live listed.nodupPods hcollect
    have hns : ∀ e ∈ entries.flatten, e.1.ns = listed.live.metadata.ns := by
      intro e he
      obtain ⟨pod, hpod, heq⟩ := List.mem_map.mp (hkeys e he)
      rw [← listed.inNamespace pod hpod]
      exact (congrArg NamespacedName.ns heq).symm
    exact ⟨hnodup, fun a ha b hb => (hns a ha).trans (hns b hb).symm⟩

theorem loop_wellKeyed (listed : PodList) {containers : Containers}
    (h : readRoster.loop snapshot listed.live listed.pods ∅ [] = .ok containers) :
    WellKeyed containers := by
  rw [readRoster.loop_eq_uncached snapshot listed.live _ _ (Memo.agrees_empty _)] at h
  exact loopUncached_wellKeyed snapshot listed h

end Collect

def rosterOf (generation : ℤ) : (result : Except Err Containers) →
    (∀ containers, result = .ok containers → WellKeyed containers) → Except Err TargetRoster
  | .error err, _ => .error err
  | .ok containers, h =>
    if containers.isEmpty then .error (.ofSentinel .noData)
    else .ok ⟨generation, containers, (h containers rfl).nodupKeys, (h containers rfl).oneNamespace⟩

theorem rosterOf_congr {generation : ℤ} {result result' : Except Err Containers}
    (h : ∀ containers, result = .ok containers → WellKeyed containers)
    (h' : ∀ containers, result' = .ok containers → WellKeyed containers)
    (hresult : result = result') :
    rosterOf generation result h = rosterOf generation result' h' := by
  subst hresult
  rfl

theorem rosterOf_ok {generation : ℤ} {result : Except Err Containers}
    {h : ∀ containers, result = .ok containers → WellKeyed containers} {roster : TargetRoster}
    (hroster : rosterOf generation result h = .ok roster) :
    result = .ok roster.containers ∧ roster.generation = generation := by
  cases result with
  | error err => cases hroster
  | ok containers =>
    rw [rosterOf] at hroster
    split_ifs at hroster
    cases hroster
    exact ⟨rfl, rfl⟩

theorem rosterOf_eq {generation : ℤ} {result : Except Err Containers}
    (h : ∀ containers, result = .ok containers → WellKeyed containers) {roster : TargetRoster}
    (hresult : result = .ok roster.containers) (hgeneration : roster.generation = generation)
    (hne : roster.containers ≠ []) : rosterOf generation result h = .ok roster := by
  subst hresult hgeneration
  rw [rosterOf, if_neg (by simpa using hne)]

section ReadRoster

variable (labelSelectorAsSelector : LabelSelector → Except Err Selector)

def readRoster (snapshot : Snapshot) (target : Deployment) : Except Err TargetRoster :=
  match listPods labelSelectorAsSelector snapshot target with
  | .error err => .error err
  | .ok listed =>
    rosterOf listed.live.metadata.generation
      (readRoster.loop snapshot listed.live listed.pods ∅ [])
      fun _ => loop_wellKeyed snapshot listed

def readRosterUncached (snapshot : Snapshot) (target : Deployment) : Except Err TargetRoster :=
  match listPods labelSelectorAsSelector snapshot target with
  | .error err => .error err
  | .ok listed =>
    rosterOf listed.live.metadata.generation
      (readRoster.loopUncached snapshot listed.live listed.pods [])
      fun _ => loopUncached_wellKeyed snapshot listed

theorem readRoster_eq_uncached (snapshot : Snapshot) (target : Deployment) :
    readRoster labelSelectorAsSelector snapshot target =
      readRosterUncached labelSelectorAsSelector snapshot target := by
  unfold readRoster readRosterUncached
  cases listPods labelSelectorAsSelector snapshot target with
  | error err => rfl
  | ok listed =>
    exact rosterOf_congr _ _ (readRoster.loop_eq_uncached _ _ _ _ (Memo.agrees_empty _) _)

structure Targets (snapshot : Snapshot) (target : Deployment) (live : LiveDeployment)
    (selector : Selector) : Prop where
  found : snapshot.deployments target.metadata.key = .ok live
  sameUID : live.metadata.uid = target.metadata.uid
  notDeleting : live.metadata.deletionTimestamp = none
  parsed : ∃ labelSelector, live.selector = some labelSelector ∧
    labelSelectorAsSelector labelSelector = .ok selector
  notEmpty : selector.empty = false

variable {labelSelectorAsSelector}

theorem listPods_ok {snapshot : Snapshot} {target : Deployment} {listed : PodList}
    (h : listPods labelSelectorAsSelector snapshot target = .ok listed) :
    ∃ selector, Targets labelSelectorAsSelector snapshot target listed.live selector ∧
      snapshot.listErr = none ∧ listed = snapshot.list listed.live selector := by
  unfold listPods at h
  cases hlive : snapshot.deployments target.metadata.key with
  | error err => rw [hlive] at h; cases h
  | ok live =>
    rw [hlive] at h
    dsimp only at h
    split_ifs at h with hsame
    cases hlabels : live.selector with
    | none => rw [hlabels] at h; cases h
    | some labelSelector =>
      rw [hlabels] at h
      dsimp only at h
      cases hselector : (labelSelectorAsSelector labelSelector).toOption.filter (!·.empty) with
      | none => rw [hselector] at h; cases h
      | some selector =>
        rw [hselector] at h
        dsimp only at h
        cases hlist : snapshot.listErr with
        | some err => rw [hlist] at h; cases h
        | none =>
          rw [hlist] at h
          cases h
          obtain ⟨hparsed, hempty⟩ := Option.filter_eq_some_iff.mp hselector
          rw [Bool.or_eq_true, not_or] at hsame
          have huid : live.metadata.uid = target.metadata.uid := by simpa using hsame.1
          have hdeletion : live.metadata.deletionTimestamp = none := by simpa using hsame.2
          refine ⟨selector, ⟨hlive, huid, hdeletion, ⟨labelSelector, hlabels, ?_⟩, ?_⟩, rfl, rfl⟩
          · cases hresult : labelSelectorAsSelector labelSelector with
            | error err => rw [hresult] at hparsed; cases hparsed
            | ok selector' =>
              rw [hresult] at hparsed
              cases hparsed
              rfl
          · simpa using hempty

end ReadRoster

end Autoscaler.MetricsProvider
