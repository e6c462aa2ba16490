import Autoscaler.MetricsProvider.QueryGates

/-! Concurrent calls on one target take effect one after another, in the order in which they
acquired its gate. -/
namespace Autoscaler.MetricsProvider

section

variable {ι : Type*} [DecidableEq ι] {maxSampleAge : ℤ} {calls : ι → Call} {s s' : ProviderState ι}
  {i j : ι}

namespace Moves

theorem pc_of_ne (h : Moves maxSampleAge calls s i s') (hji : j ≠ i) : s'.pc j = s.pc j := by
  cases h with
  | stay => rfl
  | goto | acquire | perform | release => exact Function.update_of_ne hji ..

theorem acquired_subset (h : Moves maxSampleAge calls s i s') : s.acquired ⊆ s'.acquired := by
  cases h with
  | stay | goto | perform | release => exact List.Subset.refl _
  | acquire => exact List.subset_append_left _ _

theorem history_eq (h : Moves maxSampleAge calls s i s') (hi : (s.pc i).phase = .outside) :
    s'.history = s.history := by
  cases h with
  | stay | goto | acquire | release => rfl
  | perform pc' hpc hphase =>
    rw [hpc, hphase] at hi
    cases hi

theorem rank_lt_or_stay (h : Moves maxSampleAge calls s i s') :
    (s'.pc i).rank < (s.pc i).rank ∨
      s' = s ∧ ((s.pc i).phase.inside = true → s.gates (gateOf calls i) = false) := by
  cases h with
  | stay hwait => exact .inr ⟨rfl, hwait⟩
  | goto pc' hpc _ hrank | acquire pc' hpc _ _ hrank | perform pc' hpc _ _ hrank
  | release pc' hpc _ _ hrank =>
    subst hpc
    refine .inl ?_
    change (Function.update s.pc i pc' i).rank < _
    rwa [Function.update_self]

end Moves

/-- What holds in every state that the calls reach: they pass through the gates in the protocol's
order, and the history is the outcome of what they did to it. -/
structure Coherent (maxSampleAge : ℤ) (calls : ι → Call) (s : ProviderState ι) : Prop where
  serial : Gates.Serial (gateOf calls) s.protocol
  follows : ∀ i, (s.pc i).Follows maxSampleAge (calls i)
  history : s.history = Isolation.run CacheOp.perform ∅
    (s.performed.flatMap fun i => (calls i).cacheOps maxSampleAge)

namespace Coherent

theorem initial : Coherent maxSampleAge calls .initial where
  serial := Gates.Serial.initial
  follows _ := trivial
  history := rfl

theorem phase_update (pcs : ι → PC) (i : ι) (pc : PC) :
    (fun j => (Function.update pcs i pc j).phase) =
      Function.update (fun j => (pcs j).phase) i pc.phase :=
  Function.comp_update PC.phase pcs i pc

theorem follows_update (h : Coherent maxSampleAge calls s) {pc : PC}
    (hpc : pc.Follows maxSampleAge (calls i)) (j : ι) :
    (Function.update s.pc i pc j).Follows maxSampleAge (calls j) := by
  by_cases hji : j = i
  · subst hji
    rwa [Function.update_self]
  · rw [Function.update_of_ne hji]
    exact h.follows j

theorem moves (h : Coherent maxSampleAge calls s)
    (hmoves : Moves maxSampleAge calls s i s') : Coherent maxSampleAge calls s' := by
  cases hmoves with
  | stay => exact h
  | goto pc' hpc hphase _ hfollows =>
    subst hpc
    refine ⟨?_, h.follows_update hfollows, h.history⟩
    have hprotocol : (s.goto i pc').protocol = s.protocol := by
      simp only [ProviderState.protocol, ProviderState.goto, phase_update, hphase,
        Function.update_eq_self]
    rw [hprotocol]
    exact h.serial
  | acquire pc' hpc hphase hentered _ hfollows hfree =>
    subst hpc
    refine ⟨?_, h.follows_update hfollows, h.history⟩
    have hserial := h.serial.enter hphase hfree
    simp only [ProviderState.protocol, phase_update, hentered]
    exact hserial
  | perform pc' hpc hphase hacted _ hfollows =>
    subst hpc
    refine ⟨?_, h.follows_update hfollows, ?_⟩
    · have hserial := h.serial.act hphase
      simp only [ProviderState.protocol, phase_update, hacted]
      exact hserial
    · change Isolation.run _ s.history _ = _
      rw [List.flatMap_append, List.flatMap_singleton, Isolation.run_append, ← h.history]
  | release pc' hpc hphase hleft _ hfollows _ =>
    subst hpc
    refine ⟨?_, h.follows_update hfollows, h.history⟩
    have hserial := h.serial.leave hphase
    simp only [ProviderState.protocol, phase_update, hleft]
    exact hserial

protected theorem step (h : Coherent maxSampleAge calls s) (i : ι) :
    Coherent maxSampleAge calls (step maxSampleAge calls s i) :=
  h.moves (step_moves s i (h.follows i))

protected theorem runSchedule (h : Coherent maxSampleAge calls s) (schedule : List ι) :
    Coherent maxSampleAge calls (runSchedule maxSampleAge calls s schedule) := by
  induction schedule generalizing s with
  | nil => exact h
  | cons i schedule ih => exact ih (h.step i)

theorem phase_ne_outside (h : Coherent maxSampleAge calls s) (hi : i ∈ s.acquired) :
    (s.pc i).phase ≠ .outside :=
  (h.serial.mem_entered i).mp hi

theorem released_of_rank (h : Coherent maxSampleAge calls s) (hi : i ∈ s.acquired)
    (hrank : (s.pc i).rank = 0) :
    (∃ history err, s.pc i = .finished history err true) ∧ s.released.count i = 1 := by
  have hphase := h.phase_ne_outside hi
  have hleft := h.serial.left i
  change s.released.count i = if (s.pc i).phase = .left then 1 else 0 at hleft
  cases hpc : s.pc i with
  | finished history err gateHeld =>
    rw [hpc] at hphase hleft
    cases gateHeld with
    | true => exact ⟨⟨history, err, rfl⟩, hleft⟩
    | false => exact absurd rfl hphase
  | _ =>
    rw [hpc] at hrank
    simp [PC.rank] at hrank

/-- The step of a call that acquired its gate brings it nearer to the end. -/
theorem rank_step (h : Coherent maxSampleAge calls s) (hi : i ∈ s.acquired) :
    ((step maxSampleAge calls s i).pc i).rank ≤ (s.pc i).rank - 1 := by
  rcases (step_moves s i (h.follows i)).rank_lt_or_stay with hlt | ⟨hstay, hwait⟩
  · exact Nat.le_sub_one_of_lt hlt
  · -- it does not wait for a gate that it holds itself
    have hout : (s.pc i).phase.inside ≠ true := fun hinside => by
      have hfull : s.gates (gateOf calls i) = true := (h.serial.full_iff _).mpr ⟨i, rfl, hinside⟩
      rw [hwait hinside] at hfull
      cases hfull
    rw [hstay, PC.rank_eq_zero (h.phase_ne_outside hi) hout]

/-- However the other calls go on, a call that acquired its gate releases it. -/
theorem completes (h : Coherent maxSampleAge calls s) (hi : i ∈ s.acquired) {later : List ι}
    (hcount : (s.pc i).rank ≤ later.count i) :
    (∃ history err, (runSchedule maxSampleAge calls s later).pc i =
      .finished history err true) ∧
      (runSchedule maxSampleAge calls s later).released.count i = 1 := by
  induction later generalizing s with
  | nil => exact h.released_of_rank hi (Nat.le_zero.mp hcount)
  | cons j later ih =>
    have hmoves := step_moves s j (h.follows j)
    refine ih (h.step j) (hmoves.acquired_subset hi) ?_
    by_cases hji : i = j
    · subst hji
      rw [List.count_cons_self] at hcount
      have hrank := h.rank_step hi
      omega
    · rw [List.count_cons_of_ne (Ne.symm hji)] at hcount
      rwa [hmoves.pc_of_ne hji]

end Coherent

omit [DecidableEq ι] in
theorem gateOf_of_target {target : Deployment} (h : (calls i).target = some target) :
    gateOf calls i = queryGate target.metadata.key := by
  rw [gateOf, h]

omit [DecidableEq ι] in
/-- The operations on a key are those of the calls through its gate. -/
theorem filter_cacheOps_through (key : NamespacedName) (l : List ι) :
    (l.flatMap fun i => (calls i).cacheOps maxSampleAge).filter (fun op => decide (op.key = key)) =
      ((Gates.through (gateOf calls) (queryGate key) l).flatMap fun i =>
        (calls i).cacheOps maxSampleAge).filter fun op => decide (op.key = key) := by
  induction l using List.reverseRecOn with
  | nil => rfl
  | append_singleton l i ih =>
    rw [Gates.through_concat, List.flatMap_append, List.filter_append, ih, List.flatMap_append,
      List.filter_append, List.flatMap_singleton]
    by_cases hgate : gateOf calls i = queryGate key
    · rw [if_pos hgate, List.flatMap_singleton]
    · rw [if_neg hgate]
      refine congrArg _ (List.filter_eq_nil_iff.mpr fun op hop hkey => hgate ?_)
      obtain ⟨target, htarget, htargetKey⟩ := Call.target_of_mem_cacheOps hop
      rw [gateOf_of_target htarget, htargetKey, of_decide_eq_true hkey]

/-- While the targets fit into the cache, the history of each is that of the calls through its gate
alone, one after another. -/
theorem Coherent.lookup_eq (h : Coherent maxSampleAge calls s) {keys : Finset NamespacedName}
    (hcard : keys.card ≤ maxTargets)
    (hkeys : ∀ i ∈ s.acquired, ∀ target, (calls i).target = some target →
      target.metadata.key ∈ keys) (key : NamespacedName) :
    s.history.lookup key = (runCalls (newPrometheus maxSampleAge)
      ((Gates.through (gateOf calls) (queryGate key) s.performed).map calls)).history.lookup
        key := by
  have hproject : ∀ l ⊆ s.performed,
      (Isolation.run CacheOp.perform ∅
        (l.flatMap fun i => (calls i).cacheOps maxSampleAge)).lookup key =
      (Isolation.run CacheOp.perform ∅ ((l.flatMap fun i =>
        (calls i).cacheOps maxSampleAge).filter fun op => decide (op.key = key))).lookup key := by
    intro l hl
    refine ((cache_unwinding hcard).isolated key (Finset.empty_subset _) (Finset.empty_subset _)
      rfl fun op hop => ?_).2
    obtain ⟨i, hi, hop⟩ := List.mem_flatMap.mp hop
    obtain ⟨target, htarget, hkey⟩ := Call.target_of_mem_cacheOps hop
    exact hkey ▸ hkeys i (h.serial.mem_entered_of_acted (hl hi)) target htarget
  rw [h.history, runCalls_history, List.flatMap_map, hproject _ (List.Subset.refl _),
    filter_cacheOps_through]
  exact (hproject _ (List.filter_subset_self _)).symm

def acquirers (calls : ι → Call) (s : ProviderState ι) (key : NamespacedName) : List ι :=
  Gates.through (gateOf calls) (queryGate key) s.acquired

/-- Observations take effect one after another: only the last call that acquired a gate may still
be at work, and each key's history is that of the calls before it, if the targets fit. -/
structure Serialised (maxSampleAge : ℤ) (calls : ι → Call) (s : ProviderState ι) : Prop where
  holdsGate_iff : ∀ i, s.HoldsGate i ↔ i ∈ s.acquired ∧ i ∉ s.released
  exclusive : ∀ i j target target', (calls i).target = some target →
    (calls j).target = some target' → target.metadata.key = target'.metadata.key →
    s.HoldsGate i → s.HoldsGate j → i = j
  untouched : ∀ i ∉ s.acquired, (step maxSampleAge calls s i).history = s.history
  once : ∀ i, s.acquired.count i ≤ 1 ∧ s.released.count i ≤ s.acquired.count i
  finished : ∀ i history err gateHeld, s.pc i = .finished history err gateHeld →
    s.released.count i = s.acquired.count i
  completes : ∀ i ∈ s.acquired, ∀ later : List ι, 11 ≤ later.count i →
    (∃ history err,
      (runSchedule maxSampleAge calls s later).pc i = .finished history err true) ∧
    (runSchedule maxSampleAge calls s later).released.count i = 1
  history : ∀ keys : Finset NamespacedName, keys.card ≤ maxTargets →
    (∀ i ∈ s.acquired, ∀ target, (calls i).target = some target → target.metadata.key ∈ keys) →
    ∀ key, ∃ done,
      (acquirers calls s key = done ∨
        ∃ i, s.HoldsGate i ∧ acquirers calls s key = done ++ [i]) ∧
      s.history.lookup key =
        (runCalls (newPrometheus maxSampleAge) (done.map calls)).history.lookup key

/-- Whatever the order of the steps, observations of one target are serialised. -/
theorem concurrent_observations_serialised (maxSampleAge : ℤ) (calls : ι → Call)
    (schedule : List ι) :
    Serialised maxSampleAge calls (runSchedule maxSampleAge calls .initial schedule) := by
  have h : Coherent maxSampleAge calls (runSchedule maxSampleAge calls .initial schedule) :=
    Coherent.initial.runSchedule schedule
  generalize runSchedule maxSampleAge calls .initial schedule = s at h
  have hentered : ∀ i, s.acquired.count i = if (s.pc i).phase = .outside then 0 else 1 :=
    h.serial.count_entered
  have hleft : ∀ i, s.released.count i = if (s.pc i).phase = .left then 1 else 0 := h.serial.left
  refine ⟨fun i => ?_, fun i j target target' htarget htarget' hkey hi hj => ?_,
    fun i hi => ?_, fun i => ?_, fun i history err gateHeld hpc => ?_,
    fun i hi later hlater => ?_, fun keys hcard hkeys key => ?_⟩
  · rw [← List.count_pos_iff, ← List.count_eq_zero, hentered, hleft, ProviderState.HoldsGate]
    cases (s.pc i).phase <;> simp [Gates.Phase.inside]
  · refine h.serial.exclusive hi hj ?_
    rw [gateOf_of_target htarget, gateOf_of_target htarget', hkey]
  · refine (step_moves s i (h.follows i)).history_eq ?_
    by_contra hphase
    exact hi ((h.serial.mem_entered i).mpr hphase)
  · rw [hentered, hleft]
    cases (s.pc i).phase <;> simp
  · rw [hentered, hleft, hpc]
    cases gateHeld <;> simp [PC.phase]
  · exact h.completes hi ((PC.rank_le (h.phase_ne_outside hi)).trans hlater)
  · exact ⟨_, h.serial.entered_eq_acted (queryGate key), h.lookup_eq hcard hkeys key⟩

end

end Autoscaler.MetricsProvider
