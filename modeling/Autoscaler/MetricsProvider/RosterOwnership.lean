import Autoscaler.MetricsProvider.Roster

/-! A roster holds the containers that the target owns by a chain of UIDs, and no others. -/
namespace Autoscaler.MetricsProvider

/-- The live target controls the ReplicaSet that controls the Pod, each by kind, name and UID. -/
def Owned (snapshot : Snapshot) (live : LiveDeployment) (pod : Pod) (rs : ReplicaSet) : Prop :=
  ∃ owner rsOwner, getControllerOf pod.ownerReferences = some owner ∧ owner.kind = "ReplicaSet" ∧
    snapshot.replicaSets ⟨live.metadata.ns, owner.name⟩ = .ok rs ∧ rs.uid = owner.uid ∧
    getControllerOf rs.ownerReferences = some rsOwner ∧ rsOwner.kind = "Deployment" ∧
    rsOwner.uid = live.metadata.uid ∧ rsOwner.name = live.metadata.name

/-- An owned Pod that the selector matches, neither deleting nor terminal. -/
structure Eligible (snapshot : Snapshot) (live : LiveDeployment) (selector : Selector) (pod : Pod)
    (rs : ReplicaSet) : Prop where
  mem : pod ∈ snapshot.pods
  sameNamespace : pod.metadata.ns = live.metadata.ns
  selected : selector.selects pod.labels = true
  notDeleting : pod.metadata.deletionTimestamp = none
  notSucceeded : pod.phase ≠ .succeeded
  notFailed : pod.phase ≠ .failed
  owned : Owned snapshot live pod rs

structure Supported (pod : Pod) : Prop where
  noPodResources : pod.hasPodResources = false
  noRestartableInit : ∀ init ∈ pod.initContainers, init.restartPolicy ≠ some "Always"
  identified : pod.metadata.uid ≠ ""
  running : pod.phase = .running
  ready : pod.ready = true
  containers : ∀ container ∈ pod.containers, ∃ containerID request,
    Runs pod container containerID request

theorem Pod.check_ok_iff (pod : Pod) :
    pod.check = .ok () ↔ pod.hasPodResources = false ∧
      (∀ init ∈ pod.initContainers, init.restartPolicy ≠ some "Always") ∧
      pod.metadata.uid ≠ "" ∧ pod.phase = .running ∧ pod.ready = true := by
  have hinit : pod.initContainers.any Pod.restartable = false ↔
      ∀ init ∈ pod.initContainers, init.restartPolicy ≠ some "Always" := by
    simp [Pod.restartable]
  unfold Pod.check
  split_ifs with hresources hrestart hready
  · simp [hresources]
  · rw [← hinit]
    simp [hrestart]
  · simp only [false_iff, not_and]
    intro _ _ huid hphase
    simpa [huid, hphase] using hready
  · simp only [true_iff]
    rw [← hinit]
    simp at hresources hrestart hready
    exact ⟨hresources, by simpa using hrestart, hready.1.1, hready.1.2, hready.2⟩

theorem supported_of_podEntries {pod : Pod} {rsUID : UID} {entries : Containers}
    (h : podEntries pod rsUID = .ok entries) : Supported pod ∧
      ∀ entry, entry ∈ entries ↔
        ∃ container ∈ pod.containers, containerEntry pod rsUID container = .ok entry := by
  unfold podEntries at h
  cases hcheck : pod.check with
  | error err => rw [hcheck] at h; cases h
  | ok u =>
    rw [hcheck] at h
    obtain ⟨hresources, hinit, huid, hphase, hready⟩ := (Pod.check_ok_iff pod).mp hcheck
    refine ⟨⟨hresources, hinit, huid, hphase, hready, fun container hcontainer => ?_⟩,
      fun entry => FirstFailure.mem_of_collect_ok _ h⟩
    obtain ⟨entry, -, hentry⟩ := FirstFailure.exists_of_collect_ok _ h container hcontainer
    obtain ⟨containerID, request, hruns, -⟩ := (containerEntry_ok_iff _ _ _ _).mp hentry
    exact ⟨containerID, request, hruns⟩

theorem Pod.replicaSetOwner_eq_some_iff (pod : Pod) (owner : OwnerReference) :
    pod.replicaSetOwner = some owner ↔ pod.metadata.deletionTimestamp = none ∧
      pod.phase ≠ .succeeded ∧ pod.phase ≠ .failed ∧
      getControllerOf pod.ownerReferences = some owner ∧ owner.kind = "ReplicaSet" := by
  unfold Pod.replicaSetOwner
  split_ifs with hskip
  · simp only [false_iff]
    rintro ⟨hdeletion, hsucceeded, hfailed, -⟩
    simp [hdeletion, hsucceeded, hfailed] at hskip
  · simp at hskip
    rw [Option.filter_eq_some_iff]
    simp [hskip]

theorem ownedBy_iff (live : LiveDeployment) (owner : OwnerReference) (rs : ReplicaSet) :
    ownedBy live owner rs = true ↔ rs.uid = owner.uid ∧
      ∃ rsOwner, getControllerOf rs.ownerReferences = some rsOwner ∧
        rsOwner.kind = "Deployment" ∧ rsOwner.uid = live.metadata.uid ∧
        rsOwner.name = live.metadata.name := by
  unfold ownedBy
  cases getControllerOf rs.ownerReferences <;> simp [and_assoc]

theorem getReplicaSet_ok_iff (snapshot : Snapshot) (live : LiveDeployment) (name : String)
    (rs : ReplicaSet) :
    getReplicaSet snapshot live name = .ok rs ↔
      snapshot.replicaSets ⟨live.metadata.ns, name⟩ = .ok rs := by
  unfold getReplicaSet
  cases snapshot.replicaSets ⟨live.metadata.ns, name⟩ with
  | ok rs' => rfl
  | error err => cases hfound : err.is .notFound <;> simp [hfound]

section Ownership

variable {snapshot : Snapshot} {live : LiveDeployment} {selector : Selector} {pod : Pod}

theorem podContainers_of_eligible {rs : ReplicaSet}
    (h : Eligible snapshot live selector pod rs) :
    podContainers snapshot live pod = podEntries pod rs.uid := by
  obtain ⟨owner, rsOwner, howner, hkind, hrs, huid, hrsOwner, hchain⟩ := h.owned
  have hfound : pod.replicaSetOwner = some owner :=
    (Pod.replicaSetOwner_eq_some_iff pod owner).mpr
      ⟨h.notDeleting, h.notSucceeded, h.notFailed, howner, hkind⟩
  have howned : ownedBy live owner rs = true :=
    (ownedBy_iff live owner rs).mpr ⟨huid, rsOwner, hrsOwner, hchain⟩
  unfold podContainers
  rw [hfound]
  dsimp only
  rw [(getReplicaSet_ok_iff _ _ _ _).mpr hrs]
  exact if_pos howned

/-- Only an owned Pod accounts for any entry. -/
theorem eligible_of_mem {entries : Containers} {entry : ContainerKey × ExpectedContainer}
    (hpod : pod ∈ (snapshot.list live selector).pods)
    (h : podContainers snapshot live pod = .ok entries) (hentry : entry ∈ entries) :
    ∃ rs, Eligible snapshot live selector pod rs := by
  obtain ⟨hmem, hselected⟩ := List.mem_filter.mp hpod
  rw [Bool.and_eq_true, decide_eq_true_eq] at hselected
  unfold podContainers at h
  cases howner : pod.replicaSetOwner with
  | none => rw [howner] at h; cases h; exact absurd hentry List.not_mem_nil
  | some owner =>
    rw [howner] at h
    dsimp only at h
    cases hrs : getReplicaSet snapshot live owner.name with
    | error err => rw [hrs] at h; cases h
    | ok rs =>
      rw [hrs] at h
      dsimp only at h
      split_ifs at h with howned
      · obtain ⟨hdeletion, hsucceeded, hfailed, hcontroller, hkind⟩ :=
          (Pod.replicaSetOwner_eq_some_iff pod owner).mp howner
        obtain ⟨huid, rsOwner, hrsOwner, hchain⟩ := (ownedBy_iff live owner rs).mp howned
        exact ⟨rs, hmem, hselected.1, hselected.2, hdeletion, hsucceeded, hfailed, owner, rsOwner,
          hcontroller, hkind, (getReplicaSet_ok_iff _ _ _ _).mp hrs, huid, hrsOwner, hchain⟩
      · cases h
        exact absurd hentry List.not_mem_nil

theorem mem_list_of_eligible {rs : ReplicaSet} (h : Eligible snapshot live selector pod rs) :
    pod ∈ (snapshot.list live selector).pods := by
  refine List.mem_filter.mpr ⟨h.mem, ?_⟩
  rw [h.selected, Bool.and_true, decide_eq_true_eq]
  exact h.sameNamespace

end Ownership

/-- The roster consists of the running containers of the eligible Pods, all of them supported. -/
structure Attributed (snapshot : Snapshot) (live : LiveDeployment) (selector : Selector)
    (roster : TargetRoster) : Prop where
  generation : roster.generation = live.metadata.generation
  mem_iff : ∀ entry, entry ∈ roster.containers ↔ ∃ pod rs container containerID request,
    Eligible snapshot live selector pod rs ∧ container ∈ pod.containers ∧
      Runs pod container containerID request ∧
      entry = (pod.containerKey container, ⟨pod.metadata.uid, rs.uid, containerID, request⟩)
  supported : ∀ pod rs, Eligible snapshot live selector pod rs → Supported pod

section ReadRoster

variable {labelSelectorAsSelector : LabelSelector → Except Err Selector} {snapshot : Snapshot}
  {target : Deployment} {roster : TargetRoster}

theorem attributed_of_readRoster
    (h : readRoster labelSelectorAsSelector snapshot target = .ok roster) :
    ∃ live selector, Targets labelSelectorAsSelector snapshot target live selector ∧
      Attributed snapshot live selector roster := by
  rw [readRoster_eq_uncached, readRosterUncached] at h
  cases hlist : listPods labelSelectorAsSelector snapshot target with
  | error err => rw [hlist] at h; cases h
  | ok listed =>
    rw [hlist] at h
    obtain ⟨selector, htargets, -, hlisted⟩ := listPods_ok hlist
    obtain ⟨hloop, hgeneration⟩ := rosterOf_ok h
    generalize listed.live = live at hlisted htargets hloop hgeneration
    subst hlisted
    rw [readRoster.loopUncached_eq _ _ _ (snapshot.list live selector).nodupPods []
      fun e he => absurd he List.not_mem_nil] at hloop
    cases hcollect : FirstFailure.collect (podContainers snapshot live)
        (snapshot.list live selector).pods with
    | error err => rw [hcollect] at hloop; cases hloop
    | ok entries =>
      rw [hcollect] at hloop
      have hflatten : entries.flatten = roster.containers := Except.ok.inj hloop
      -- every eligible Pod was read without an error
      have hread : ∀ pod rs, Eligible snapshot live selector pod rs →
          ∃ own ∈ entries, podEntries pod rs.uid = .ok own := by
        intro pod rs hpod
        rw [← podContainers_of_eligible hpod]
        exact FirstFailure.exists_of_collect_ok _ hcollect pod (mem_list_of_eligible hpod)
      refine ⟨live, selector, htargets, hgeneration, fun entry => ?_, fun pod rs hpod => ?_⟩
      · rw [← hflatten, List.mem_flatten]
        constructor
        · rintro ⟨own, hown, hentry⟩
          obtain ⟨pod, hpod, hpodContainers⟩ :=
            (FirstFailure.mem_of_collect_ok _ hcollect).mp hown
          obtain ⟨rs, heligible⟩ := eligible_of_mem hpod hpodContainers hentry
          rw [podContainers_of_eligible heligible] at hpodContainers
          obtain ⟨container, hcontainer, hok⟩ :=
            ((supported_of_podEntries hpodContainers).2 entry).mp hentry
          obtain ⟨containerID, request, hruns, heq⟩ := (containerEntry_ok_iff _ _ _ _).mp hok
          exact ⟨pod, rs, container, containerID, request, heligible, hcontainer, hruns, heq⟩
        · rintro ⟨pod, rs, container, containerID, request, heligible, hcontainer, hruns, heq⟩
          obtain ⟨own, hown, hentries⟩ := hread pod rs heligible
          exact ⟨own, hown, ((supported_of_podEntries hentries).2 entry).mpr
            ⟨container, hcontainer, (containerEntry_ok_iff _ _ _ _).mpr
              ⟨containerID, request, hruns, heq⟩⟩⟩
      · obtain ⟨own, -, hentries⟩ := hread pod rs hpod
        exact (supported_of_podEntries hentries).1

/-- The Pod has no ReplicaSet controller, or its ReplicaSet exists with another UID or is not
controlled by the target. -/
def foreign (snapshot : Snapshot) (live : LiveDeployment) (pod : Pod) : Bool :=
  match (getControllerOf pod.ownerReferences).filter fun owner => owner.kind = "ReplicaSet" with
  | none => true
  | some owner =>
    match snapshot.replicaSets ⟨live.metadata.ns, owner.name⟩ with
    | .error _ => false
    | .ok rs => !ownedBy live owner rs

theorem podContainers_of_foreign {live : LiveDeployment} {pod : Pod}
    (h : foreign snapshot live pod = true) : podContainers snapshot live pod = .ok [] := by
  unfold podContainers Pod.replicaSetOwner
  unfold foreign at h
  split_ifs with hskip
  · rfl
  · cases howner : (getControllerOf pod.ownerReferences).filter
        fun owner => owner.kind = "ReplicaSet" with
    | none => rfl
    | some owner =>
      rw [howner] at h
      dsimp only at h ⊢
      cases hrs : snapshot.replicaSets ⟨live.metadata.ns, owner.name⟩ with
      | error err => rw [hrs] at h; cases h
      | ok rs =>
        rw [hrs] at h
        rw [(getReplicaSet_ok_iff _ _ _ _).mpr hrs]
        exact if_neg (by simpa using h)

/-- Two lists of Pods that agree up to foreign ones are read alike. -/
theorem loop_eq_of_foreign (live : LiveDeployment) (selector : Selector) (pods : List Pod)
    (nodupPods : (pods.map fun pod => pod.metadata.key).Nodup)
    (hsame : pods.filter (fun pod => !foreign snapshot live pod) =
      snapshot.pods.filter fun pod => !foreign snapshot live pod) :
    readRoster.loopUncached { snapshot with pods := pods, nodupPods := nodupPods } live
        (Snapshot.list { snapshot with pods := pods, nodupPods := nodupPods } live selector).pods
        [] =
      readRoster.loopUncached snapshot live (snapshot.list live selector).pods [] := by
  have hnone : ∀ listed : List Pod, ∀ e ∈ ([] : Containers), ∀ pod ∈ listed,
      podKey e ≠ pod.metadata.key := fun _ e he => absurd he List.not_mem_nil
  have hskip : ∀ listed : List Pod, ∀ pod ∈ listed, (!foreign snapshot live pod) = false →
      podContainers snapshot live pod = .ok [] := by
    intro listed pod _ hforeign
    exact podContainers_of_foreign (by simpa using hforeign)
  have hlisted : ((Snapshot.list { snapshot with pods := pods, nodupPods := nodupPods } live
      selector).pods).filter (fun pod => !foreign snapshot live pod) =
        (snapshot.list live selector).pods.filter fun pod => !foreign snapshot live pod := by
    unfold Snapshot.list
    dsimp only
    rw [List.filter_comm, hsame, List.filter_comm]
  have hcollect := congrArg
    (fun listed => (FirstFailure.collect (podContainers snapshot live) listed).map List.flatten)
    hlisted
  rw [FirstFailure.collect_filter _ _ (hskip _), FirstFailure.collect_filter _ _ (hskip _)]
    at hcollect
  rw [readRoster.loopUncached_eq _ _ _ (PodList.nodupPods _) _ (hnone _),
    readRoster.loopUncached_eq _ _ _ (PodList.nodupPods _) _ (hnone _)]
  exact hcollect

theorem readRoster_of_foreign (pods : List Pod)
    (nodupPods : (pods.map fun pod => pod.metadata.key).Nodup)
    (hsame : ∀ live, snapshot.deployments target.metadata.key = .ok live →
      pods.filter (fun pod => !foreign snapshot live pod) =
        snapshot.pods.filter fun pod => !foreign snapshot live pod) :
    readRoster labelSelectorAsSelector { snapshot with pods := pods, nodupPods := nodupPods }
        target = readRoster labelSelectorAsSelector snapshot target := by
  rw [readRoster_eq_uncached, readRoster_eq_uncached]
  unfold readRosterUncached listPods
  dsimp only
  cases hlive : snapshot.deployments target.metadata.key with
  | error err => rfl
  | ok live =>
    dsimp only
    split_ifs
    · rfl
    · cases live.selector with
      | none => rfl
      | some labelSelector =>
        dsimp only
        cases (labelSelectorAsSelector labelSelector).toOption.filter (!·.empty) with
        | none => rfl
        | some selector =>
          have hloop := loop_eq_of_foreign live selector pods nodupPods (hsame live hlive)
          revert hloop
          cases snapshot.listErr with
          | some err => exact fun _ => rfl
          | none => exact fun hloop => rosterOf_congr _ _ hloop

theorem Targets.unique {live live' : LiveDeployment} {selector selector' : Selector}
    (h : Targets labelSelectorAsSelector snapshot target live selector)
    (h' : Targets labelSelectorAsSelector snapshot target live' selector') :
    live = live' ∧ selector = selector' := by
  have hlive : live = live' := Except.ok.inj (h.found.symm.trans h'.found)
  subst hlive
  obtain ⟨labelSelector, hlabels, hparsed⟩ := h.parsed
  obtain ⟨labelSelector', hlabels', hparsed'⟩ := h'.parsed
  have hsame : labelSelector = labelSelector' := Option.some.inj (hlabels.symm.trans hlabels')
  subst hsame
  exact ⟨rfl, Except.ok.inj (hparsed.symm.trans hparsed')⟩

/-- A roster attributes to the target the containers that it owns by UID, in a supported state,
whatever other Pods there are and however its owners are fetched. -/
theorem readRoster_ownership (labelSelectorAsSelector : LabelSelector → Except Err Selector)
    (snapshot : Snapshot) (target : Deployment) :
    (∀ roster, readRoster labelSelectorAsSelector snapshot target = .ok roster →
      ∃ live selector, Targets labelSelectorAsSelector snapshot target live selector ∧
        Attributed snapshot live selector roster) ∧
    (∀ live selector pod rs, Targets labelSelectorAsSelector snapshot target live selector →
      Eligible snapshot live selector pod rs → ¬ Supported pod →
      ∃ err, readRoster labelSelectorAsSelector snapshot target = .error err) ∧
    (∀ pods nodupPods, (∀ live, snapshot.deployments target.metadata.key = .ok live →
        pods.filter (fun pod => !foreign snapshot live pod) =
          snapshot.pods.filter fun pod => !foreign snapshot live pod) →
      readRoster labelSelectorAsSelector { snapshot with pods := pods, nodupPods := nodupPods }
        target = readRoster labelSelectorAsSelector snapshot target) ∧
    readRoster labelSelectorAsSelector snapshot target =
      readRosterUncached labelSelectorAsSelector snapshot target := by
  refine ⟨fun roster h => attributed_of_readRoster h, ?_,
    fun pods nodupPods h => readRoster_of_foreign pods nodupPods h, readRoster_eq_uncached _ _ _⟩
  intro live selector pod rs htargets heligible hunsupported
  cases hroster : readRoster labelSelectorAsSelector snapshot target with
  | error err => exact ⟨err, rfl⟩
  | ok roster =>
    obtain ⟨live', selector', htargets', hattributed⟩ := attributed_of_readRoster hroster
    obtain ⟨rfl, rfl⟩ := htargets.unique htargets'
    exact absurd (hattributed.supported pod rs heligible) hunsupported

/-- What the later checks of an observation rely on. -/
theorem readRoster_entries (h : readRoster labelSelectorAsSelector snapshot target = .ok roster) :
    ∀ entry ∈ roster.containers, 0 < entry.2.request ∧ entry.1.pod ≠ "" ∧
      entry.2.podUID ≠ "" ∧ entry.1.container ≠ "" ∧ entry.2.containerID ≠ "" := by
  obtain ⟨live, selector, -, hattributed⟩ := attributed_of_readRoster h
  intro entry hentry
  obtain ⟨pod, rs, container, containerID, request, heligible, -, hruns, rfl⟩ :=
    (hattributed.mem_iff entry).mp hentry
  refine ⟨hruns.positive, pod.named, (hattributed.supported pod rs heligible).identified,
    container.named, ?_⟩
  obtain ⟨status, -, -, -, hid⟩ := hruns.running
  unfold instanceID at hid
  cases hcut : cut "://".toList status.containerID.toList with
  | none => rw [hcut] at hid; cases hid
  | some found =>
    rw [hcut] at hid
    dsimp only at hid
    split_ifs at hid with hbad
    cases hid
    rw [Bool.or_eq_true, not_or] at hbad
    simpa using hbad.1

end ReadRoster

end Autoscaler.MetricsProvider
