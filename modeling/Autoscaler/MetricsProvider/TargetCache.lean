import Autoscaler.Library.Isolation
import Autoscaler.MetricsProvider.FaithfulHistory

/-! The bounded cache of target histories, under any order of records and discards. -/
namespace Autoscaler.MetricsProvider

inductive CacheOp where
  | record (target : Deployment) (window : ℤ) (sample : Predictor.Sample ℚ) (sourceAt : ℤ)
      (order : MapOrder)
  | discard (key : NamespacedName)

namespace CacheOp

def key : CacheOp → NamespacedName
  | .record target _ _ _ _ => target.metadata.key
  | .discard key => key

def perform (history : History) : CacheOp → Option (CPUHistory ℚ) × History
  | .record target window sample sourceAt order =>
    let (result, history) := MetricsProvider.record history order target window sample sourceAt
    (some result, history)
  | .discard key => (none, MetricsProvider.discard history key)

def Evaluated : CacheOp → Prop
  | .record _ _ sample _ _ => 0 < sample.timestamp
  | .discard _ => True

end CacheOp

/-- Entries are never more than the limit, and each was used after the zero time. -/
structure Bounded (history : History) : Prop where
  card_le : history.keys.card ≤ maxTargets
  used : ∀ key stored, history.lookup key = some stored → 0 < stored.lastUsed

theorem keys_insert (history : History) (key : NamespacedName) (stored : TargetHistory) :
    (history.insert key stored).keys = insert key history.keys := by
  ext k
  rw [Finmap.mem_keys, Finmap.mem_insert, Finset.mem_insert, Finmap.mem_keys]

section Evict

variable {history : History}

/-- From a stored candidate on, the scan keeps the least used of what it has seen. -/
theorem scan_least
    (hused : ∀ key stored, history.lookup key = some stored → 0 < stored.lastUsed)
    (keys : List NamespacedName) {oldestKey : NamespacedName} {oldest : TargetHistory}
    (holdest : history.lookup oldestKey = some oldest) :
    ∃ found, history.lookup (evictOldest.scan history keys oldestKey oldest.lastUsed) =
        some found ∧ found.lastUsed ≤ oldest.lastUsed ∧
      ∀ key ∈ keys, ∀ stored, history.lookup key = some stored →
        found.lastUsed ≤ stored.lastUsed := by
  induction keys generalizing oldestKey oldest with
  | nil => exact ⟨oldest, holdest, le_rfl, fun key hkey => absurd hkey List.not_mem_nil⟩
  | cons key rest ih =>
    have hzero : Time.isZero oldest.lastUsed = false :=
      beq_eq_false_iff_ne.mpr (hused _ _ holdest).ne'
    cases hkey : history.lookup key with
    | none =>
      rw [evictOldest.scan, hkey]
      obtain ⟨found, hfound, hle, hall⟩ := ih holdest
      refine ⟨found, hfound, hle, List.forall_mem_cons.mpr ⟨fun stored hstored => ?_, hall⟩⟩
      cases hkey.symm.trans hstored
    | some stored =>
      rw [evictOldest.scan, hkey]
      dsimp only
      rw [hzero, Bool.false_or]
      by_cases hlt : stored.lastUsed < oldest.lastUsed
      · rw [if_pos (decide_eq_true hlt)]
        obtain ⟨found, hfound, hle, hall⟩ := ih hkey
        refine ⟨found, hfound, hle.trans hlt.le, List.forall_mem_cons.mpr
          ⟨fun stored' hstored' => ?_, hall⟩⟩
        cases hkey.symm.trans hstored'
        exact hle
      · rw [if_neg (by simpa using hlt)]
        obtain ⟨found, hfound, hle, hall⟩ := ih holdest
        refine ⟨found, hfound, hle, List.forall_mem_cons.mpr ⟨fun stored' hstored' => ?_, hall⟩⟩
        cases hkey.symm.trans hstored'
        exact hle.trans (not_lt.mp hlt)

/-- A stored key whose entry was used no later than any other. -/
def LeastUsed (history : History) (victim : NamespacedName) : Prop :=
  ∃ oldest, history.lookup victim = some oldest ∧
    ∀ key stored, history.lookup key = some stored → oldest.lastUsed ≤ stored.lastUsed

/-- Eviction removes one entry, a least used one. -/
theorem evictOldest_least (h : Bounded history) (order : MapOrder) (hne : history.keys.Nonempty) :
    ∃ victim, LeastUsed history victim ∧ evictOldest history order = history.erase victim := by
  refine ⟨_, ?_, rfl⟩
  obtain ⟨k, hk⟩ := hne
  have hkeys : order.keys history ≠ [] := fun hnil => by
    have hmem := (order.mem_keys_iff history k).mpr (Finmap.mem_keys.mp hk)
    rw [hnil] at hmem
    exact absurd hmem List.not_mem_nil
  obtain ⟨first, rest, hfirst⟩ := List.exists_cons_of_ne_nil hkeys
  have hstored : first ∈ history := (order.mem_keys_iff history first).mp (by simp [hfirst])
  obtain ⟨stored, hlookup⟩ := Finmap.mem_iff.mp hstored
  -- the zero start gives way to the first key met
  have hscan : evictOldest.scan history (order.keys history) ⟨"", ""⟩ 0 =
      evictOldest.scan history rest first stored.lastUsed := by
    rw [hfirst, evictOldest.scan, hlookup]
    rfl
  obtain ⟨found, hfound, hle, hall⟩ := scan_least h.used rest hlookup
  refine ⟨found, hscan ▸ hfound, fun key stored' hstored' => ?_⟩
  have hmem := (order.mem_keys_iff history key).mpr (Finmap.mem_iff.mpr ⟨_, hstored'⟩)
  rw [hfirst] at hmem
  rcases List.mem_cons.mp hmem with rfl | hmem
  · cases hlookup.symm.trans hstored'
    exact hle
  · exact hall key hmem stored' hstored'

end Evict

section Open

variable {history : History} {target : Deployment}

theorem openHistory_keeps (order : MapOrder)
    (h : target.metadata.key ∈ history ∨ history.keys.card < maxTargets) :
    (openHistory history order target).1 = history := by
  unfold openHistory
  cases hlookup : history.lookup target.metadata.key with
  | some stored => rfl
  | none =>
    have hroom : ¬ maxTargets ≤ history.keys.card :=
      not_le.mpr (h.resolve_left (Finmap.lookup_eq_none.mp hlookup))
    exact if_neg hroom

theorem openHistory_of_fits {keys : Finset NamespacedName} (order : MapOrder)
    (hkeys : keys.card ≤ maxTargets) (hsub : history.keys ⊆ keys)
    (hmem : target.metadata.key ∈ keys) : (openHistory history order target).1 = history := by
  by_cases hstored : target.metadata.key ∈ history
  · exact openHistory_keeps order (.inl hstored)
  · refine openHistory_keeps order (.inr (lt_of_lt_of_le (Finset.card_lt_card ?_) hkeys))
    exact Finset.ssubset_iff_subset_ne.mpr ⟨hsub, fun heq =>
      hstored (Finmap.mem_keys.mp (heq ▸ hmem))⟩

theorem openHistory_evicts (order : MapOrder) (hnew : target.metadata.key ∉ history)
    (hfull : maxTargets ≤ history.keys.card) :
    (openHistory history order target).1 = evictOldest history order := by
  unfold openHistory
  rw [Finmap.lookup_eq_none.mpr hnew]
  exact if_pos hfull

theorem card_openHistory (h : Bounded history) (order : MapOrder) :
    (insert target.metadata.key (openHistory history order target).1.keys).card ≤ maxTargets := by
  by_cases hstored : target.metadata.key ∈ history
  · rw [openHistory_keeps order (.inl hstored),
      Finset.insert_eq_of_mem (Finmap.mem_keys.mpr hstored)]
    exact h.card_le
  by_cases hroom : history.keys.card < maxTargets
  · rw [openHistory_keeps order (.inr hroom)]
    exact (Finset.card_insert_le _ _).trans hroom
  · have hfull := not_lt.mp hroom
    obtain ⟨victim, ⟨oldest, holdest, -⟩, hevict⟩ := evictOldest_least h order
      (Finset.card_pos.mp (lt_of_lt_of_le (by decide) hfull))
    have hvictim : victim ∈ history.keys :=
      Finmap.mem_keys.mpr (Finmap.mem_iff.mpr ⟨oldest, holdest⟩)
    rw [openHistory_evicts order hstored hfull, hevict, Finmap.keys_erase]
    refine (Finset.card_insert_le _ _).trans ?_
    rw [Finset.card_erase_of_mem hvictim]
    have hcard := h.card_le
    have hpos := Finset.card_pos.mpr ⟨victim, hvictim⟩
    omega

end Open

/-- No operation breaks the limit. -/
theorem Bounded.perform {history : History} (h : Bounded history) {op : CacheOp}
    (hop : op.Evaluated) : Bounded (op.perform history).2 := by
  cases op with
  | record target window sample sourceAt order =>
    refine ⟨?_, fun key stored hstored => ?_⟩
    · change (record history order target window sample sourceAt).2.keys.card ≤ maxTargets
      rw [record_eq, keys_insert]
      exact card_openHistory h order
    · change (record history order target window sample sourceAt).2.lookup key = some stored
        at hstored
      rcases lookup_record_cases _ _ _ _ _ _ hstored with hbefore | ⟨-, rfl⟩
      · exact h.used key stored hbefore
      · exact hop
  | discard k =>
    refine ⟨?_, fun key stored hstored => ?_⟩
    · change (history.erase k).keys.card ≤ maxTargets
      rw [Finmap.keys_erase]
      exact (Finset.card_erase_le).trans h.card_le
    · exact h.used key stored (lookup_discard hstored).2

theorem bounded_empty : Bounded ∅ where
  card_le := by
    rw [Finmap.keys_empty]
    decide
  used key stored hstored := by
    rw [Finmap.lookup_empty] at hstored
    cases hstored

theorem bounded_run {history : History} (h : Bounded history) {ops : List CacheOp}
    (hops : ∀ op ∈ ops, op.Evaluated) : Bounded (Isolation.run CacheOp.perform history ops) := by
  induction ops generalizing history with
  | nil => exact h
  | cons op ops ih =>
    obtain ⟨hop, hops⟩ := List.forall_mem_cons.mp hops
    exact ih (h.perform hop) hops

/-- The record of a new target in a full cache costs one least used entry, another one. -/
theorem record_evicts {history : History} (h : Bounded history) (order : MapOrder)
    {target : Deployment} (hnew : target.metadata.key ∉ history)
    (hfull : history.keys.card = maxTargets) (window : ℤ) (sample : Predictor.Sample ℚ)
    (sourceAt : ℤ) :
    ∃ victim stored, LeastUsed history victim ∧ victim ≠ target.metadata.key ∧
      (record history order target window sample sourceAt).2 =
        (history.erase victim).insert target.metadata.key stored := by
  obtain ⟨victim, hleast, hevict⟩ := evictOldest_least h order
    (Finset.card_pos.mp (by rw [hfull]; decide))
  have ⟨oldest, holdest, _⟩ := hleast
  have hother : victim ≠ target.metadata.key := by
    rintro rfl
    exact hnew (Finmap.mem_iff.mpr ⟨oldest, holdest⟩)
  rw [record_eq, openHistory_evicts order hnew hfull.ge, hevict]
  exact ⟨victim, _, hleast, hother, rfl⟩

/-- As long as the keys fit into the cache, an operation sees and changes its own key only. -/
theorem cache_unwinding {keys : Finset NamespacedName} (hkeys : keys.card ≤ maxTargets) :
    Isolation.Unwinding CacheOp.perform (fun key history => history.lookup key)
      (fun key op => decide (op.key = key)) (fun history => history.keys ⊆ keys)
      fun op => op.key ∈ keys := by
  refine ⟨fun history op hsub hmem => ?_, fun key history op hsub hmem hother => ?_,
    fun key history history' op _ _ _ hown hsame => ?_⟩
  · cases op with
    | record target window sample sourceAt order =>
      change (record history order target window sample sourceAt).2.keys ⊆ keys
      rw [record_eq, keys_insert, openHistory_of_fits order hkeys hsub hmem]
      exact Finset.insert_subset hmem hsub
    | discard k =>
      change (history.erase k).keys ⊆ keys
      rw [Finmap.keys_erase]
      exact (Finset.erase_subset _ _).trans hsub
  · have hne : key ≠ op.key := fun h => of_decide_eq_false hother h.symm
    cases op with
    | record target window sample sourceAt order =>
      change key ≠ target.metadata.key at hne
      change (record history order target window sample sourceAt).2.lookup key = history.lookup key
      rw [record_eq, Finmap.lookup_insert_of_ne _ hne, openHistory_of_fits order hkeys hsub hmem]
    | discard k => exact Finmap.lookup_erase_ne hne
  · obtain rfl : op.key = key := of_decide_eq_true hown
    cases op with
    | record target window sample sourceAt order =>
      have hprior : priorSamples history target.metadata.key target.metadata.uid =
          priorSamples history' target.metadata.key target.metadata.uid := by
        unfold priorSamples
        rw [show history.lookup target.metadata.key = history'.lookup target.metadata.key from
          hsame]
      refine ⟨?_, ?_⟩
      · change some (record history order target window sample sourceAt).1 =
          some (record history' order target window sample sourceAt).1
        rw [record_eq, record_eq, hprior]
      · change (record history order target window sample sourceAt).2.lookup target.metadata.key =
          (record history' order target window sample sourceAt).2.lookup target.metadata.key
        rw [lookup_record_self, lookup_record_self, hprior]
    | discard k =>
      refine ⟨rfl, ?_⟩
      change (history.erase k).lookup k = (history'.erase k).lookup k
      rw [Finmap.lookup_erase, Finmap.lookup_erase]

def Call.cacheOps (maxSampleAge : ℤ) (call : Call) : List CacheOp :=
  match attempt maxSampleAge call with
  | .ok (target, observation) =>
    [.record target call.window observation.sample observation.sourceAt call.order]
  | .error (err, gateHeld) =>
    match call.target with
    | none => []
    | some target =>
      if invalidatesObservationHistory (some err) && gateHeld then [.discard target.metadata.key]
      else []

theorem Call.cacheOps_evaluated (maxSampleAge : ℤ) (call : Call) :
    ∀ op ∈ call.cacheOps maxSampleAge, op.Evaluated := by
  unfold Call.cacheOps
  cases hattempt : attempt maxSampleAge call with
  | error failure =>
    cases call.target with
    | none => exact fun op hop => absurd hop List.not_mem_nil
    | some target =>
      dsimp only
      split_ifs
      · exact List.forall_mem_singleton.mpr trivial
      · exact fun op hop => absurd hop List.not_mem_nil
  | ok accepted =>
    have haccepts : Accepts maxSampleAge call accepted.1 accepted.2 := hattempt
    have hepoch := (observe_ok haccepts.target_eq.2).2.2.2
    have hpos : 0 < Time.unixEpoch := by decide
    exact List.forall_mem_singleton.mpr (hpos.trans_le hepoch)

/-- The operation is on the call's target. -/
theorem Call.target_of_mem_cacheOps {maxSampleAge : ℤ} {call : Call} {op : CacheOp}
    (h : op ∈ call.cacheOps maxSampleAge) :
    ∃ target, call.target = some target ∧ target.metadata.key = op.key := by
  unfold Call.cacheOps at h
  cases hattempt : attempt maxSampleAge call with
  | ok accepted =>
    have haccepts : Accepts maxSampleAge call accepted.1 accepted.2 := hattempt
    rw [hattempt] at h
    rw [List.mem_singleton.mp h]
    exact ⟨accepted.1, haccepts.target_eq.1, rfl⟩
  | error failure =>
    rw [hattempt] at h
    cases htarget : call.target with
    | none =>
      rw [htarget] at h
      exact absurd h List.not_mem_nil
    | some target =>
      rw [htarget] at h
      dsimp only at h
      split_ifs at h
      · rw [List.mem_singleton.mp h]
        exact ⟨target, rfl, rfl⟩
      · exact absurd h List.not_mem_nil

theorem cacheOps_of_accepts {maxSampleAge : ℤ} {call : Call} {target : Deployment}
    {observation : Observation} (h : Accepts maxSampleAge call target observation) :
    call.cacheOps maxSampleAge =
      [.record target call.window observation.sample observation.sourceAt call.order] := by
  rw [Call.cacheOps, show attempt maxSampleAge call = .ok (target, observation) from h]

/-- The deferred discard performs the operation of a failed call. -/
theorem run_cacheOps_of_error {maxSampleAge : ℤ} {call : Call} {err : Err} {gateHeld : Bool}
    (h : attempt maxSampleAge call = .error (err, gateHeld)) (history : History) :
    Isolation.run CacheOp.perform history (call.cacheOps maxSampleAge) =
      deferredDiscard history call.target gateHeld (some err) := by
  unfold Call.cacheOps deferredDiscard
  rw [h]
  cases call.target with
  | none => rfl
  | some target =>
    dsimp only
    split_ifs
    · rfl
    · rfl

theorem averageCPU_history (p : PrometheusProvider) (call : Call) :
    (averageCPUUtilizationPercentage p call).provider.history =
      Isolation.run CacheOp.perform p.history (call.cacheOps p.maxSampleAge) := by
  cases hattempt : attempt p.maxSampleAge call with
  | error failure =>
    rw [averageCPU_of_error hattempt, run_cacheOps_of_error hattempt]
  | ok accepted =>
    have haccepts : Accepts p.maxSampleAge call accepted.1 accepted.2 := hattempt
    rw [averageCPU_of_accepts haccepts, cacheOps_of_accepts haccepts]
    rfl

theorem runCalls_history (p : PrometheusProvider) (calls : List Call) :
    (runCalls p calls).history = Isolation.run CacheOp.perform p.history
      (calls.flatMap fun call => call.cacheOps p.maxSampleAge) := by
  induction calls using List.reverseRecOn with
  | nil => rfl
  | append_singleton calls call ih =>
    rw [runCalls_concat, averageCPU_history, ih, runCalls_maxSampleAge, List.flatMap_append,
      List.flatMap_singleton, Isolation.run_append]

/-- So no run of calls stores more targets than the limit. -/
theorem runCalls_bounded (maxSampleAge : ℤ) (calls : List Call) :
    (runCalls (newPrometheus maxSampleAge) calls).history.keys.card ≤ maxTargets := by
  rw [runCalls_history]
  refine (bounded_run bounded_empty fun op hop => ?_).card_le
  obtain ⟨call, -, hop⟩ := List.mem_flatMap.mp hop
  exact call.cacheOps_evaluated _ op hop

/-- In every state that records and discards reach, the cache is within its limit, and the record
of a new target in a full cache removes one least used entry of another target. While all targets
fit into the cache, each has the results and the entry of its own operations alone. -/
theorem target_cache {ops : List CacheOp} (hops : ∀ op ∈ ops, op.Evaluated) :
    let history := Isolation.run CacheOp.perform ∅ ops
    history.keys.card ≤ maxTargets ∧
      (∀ target window sample sourceAt order, target.metadata.key ∉ history →
        history.keys.card = maxTargets →
          ∃ victim stored, LeastUsed history victim ∧ victim ≠ target.metadata.key ∧
            ((CacheOp.record target window sample sourceAt order).perform history).2 =
              (history.erase victim).insert target.metadata.key stored) ∧
      ((ops.map CacheOp.key).toFinset.card ≤ maxTargets → ∀ key,
        (Isolation.results CacheOp.perform ∅ ops).filter (fun e => e.1.key = key) =
            Isolation.results CacheOp.perform ∅ (ops.filter fun op => op.key = key) ∧
          history.lookup key =
            (Isolation.run CacheOp.perform ∅ (ops.filter fun op => op.key = key)).lookup key) := by
  intro history
  have hbounded : Bounded history := bounded_run bounded_empty hops
  refine ⟨hbounded.card_le, fun target window sample sourceAt order hnew hfull => ?_,
    fun hfits key => ?_⟩
  · exact record_evicts hbounded order hnew hfull window sample sourceAt
  · refine (cache_unwinding hfits).isolated key (Finset.empty_subset _) (Finset.empty_subset _) rfl
      fun op hop => ?_
    exact List.mem_toFinset.mpr (List.mem_map_of_mem hop)

def numbered (n : ℕ) : Deployment :=
  { safetyDeployment with
    metadata := { safetyDeployment.metadata with name := .ofList (.replicate n 'a') } }

theorem numbered_injective : Function.Injective fun n => (numbered n).metadata.key := by
  intro n m h
  have hlist : List.replicate n 'a' = List.replicate m 'a' :=
    String.ofList_injective (congrArg NamespacedName.name h)
  simpa using congrArg List.length hlist

noncomputable def recordOf (target : Deployment) : CacheOp :=
  .record target (300 * second) (warmupObservation 1000).sample (warmupObservation 1000).sourceAt
    someMapOrder

noncomputable def fillingOps (n : ℕ) : List CacheOp :=
  .discard (numbered 0).metadata.key :: (List.range n).map fun i => recordOf (numbered i)

def numberedKeys (n : ℕ) : Finset NamespacedName :=
  (Finset.range n).image fun i => (numbered i).metadata.key

theorem card_numberedKeys (n : ℕ) : (numberedKeys n).card = n := by
  rw [numberedKeys, Finset.card_image_of_injective _ numbered_injective, Finset.card_range]

theorem numberedKeys_succ (n : ℕ) :
    numberedKeys (n + 1) = insert (numbered n).metadata.key (numberedKeys n) := by
  rw [numberedKeys, Finset.range_add_one, Finset.image_insert]
  rfl

theorem fillingOps_keys {n : ℕ} (hn : n ≤ maxTargets) :
    (Isolation.run CacheOp.perform ∅ (fillingOps n)).keys = numberedKeys n := by
  induction n with
  | zero =>
    change (Finmap.erase _ ∅).keys = ∅
    rw [Finmap.keys_erase, Finmap.keys_empty, Finset.erase_empty]
  | succ n ih =>
    have hkeys := ih (Nat.le_of_succ_le hn)
    have hops : fillingOps (n + 1) = fillingOps n ++ [recordOf (numbered n)] := by
      rw [fillingOps, List.range_succ, List.map_append]
      rfl
    rw [hops, Isolation.run_append]
    change (record _ _ _ _ _ _).2.keys = _
    have hmem : (numbered n).metadata.key ∈ numberedKeys (n + 1) := by
      rw [numberedKeys_succ]
      exact Finset.mem_insert_self ..
    have hsub : (Isolation.run CacheOp.perform ∅ (fillingOps n)).keys ⊆ numberedKeys (n + 1) := by
      rw [hkeys, numberedKeys_succ]
      exact Finset.subset_insert ..
    have hcard : (numberedKeys (n + 1)).card ≤ maxTargets := (card_numberedKeys _).trans_le hn
    rw [record_eq, keys_insert, openHistory_of_fits someMapOrder hcard hsub hmem, hkeys,
      numberedKeys_succ]

theorem fillingOps_evaluated (n : ℕ) : ∀ op ∈ fillingOps n, op.Evaluated := by
  refine List.forall_mem_cons.mpr ⟨trivial, List.forall_mem_map.mpr fun i _ => ?_⟩
  change 0 < Time.unixEpoch + 1000 * second
  decide

theorem numbered_not_mem (n : ℕ) : (numbered n).metadata.key ∉ numberedKeys n := by
  intro hmem
  obtain ⟨i, hi, hsame⟩ := Finset.mem_image.mp hmem
  obtain rfl := numbered_injective hsame
  exact Finset.notMem_range_self hi

theorem fillingOps_fit {n : ℕ} (hpos : 0 < n) :
    ((fillingOps n).map CacheOp.key).toFinset.card ≤ n := by
  have hsub : ((fillingOps n).map CacheOp.key).toFinset ⊆ numberedKeys n := by
    intro key hkey
    simp only [fillingOps, List.map_cons, List.map_map, List.mem_toFinset, List.mem_cons,
      List.mem_map, List.mem_range] at hkey
    rcases hkey with rfl | ⟨i, hi, rfl⟩
    · exact Finset.mem_image_of_mem _ (Finset.mem_range.mpr hpos)
    · exact Finset.mem_image_of_mem _ (Finset.mem_range.mpr hi)
  exact (Finset.card_le_card hsub).trans (card_numberedKeys n).le

/-- A full cache evicts for one target more; each target in it stands as if it were alone. -/
theorem target_cache_full : ∃ n, n = maxTargets ∧
    let full := Isolation.run CacheOp.perform ∅ (fillingOps n)
    full.keys.card = maxTargets ∧
      (∃ victim stored, LeastUsed full victim ∧ victim ≠ (numbered n).metadata.key ∧
        ((recordOf (numbered n)).perform full).2 =
          (full.erase victim).insert (numbered n).metadata.key stored) ∧
      full.lookup (numbered 0).metadata.key =
        (Isolation.run CacheOp.perform ∅ ((fillingOps n).filter fun op =>
          op.key = (numbered 0).metadata.key)).lookup (numbered 0).metadata.key := by
  refine ⟨_, rfl, ?_⟩
  -- the number of targets is not looked at
  generalize hn : maxTargets = n
  intro full
  have hkeys : full.keys = numberedKeys n := fillingOps_keys hn.ge
  have hcard : full.keys.card = maxTargets := by rw [hkeys, card_numberedKeys, hn]
  have hnew : (numbered n).metadata.key ∉ full := fun hmem =>
    numbered_not_mem n (hkeys ▸ Finmap.mem_keys.mpr hmem)
  have hfit := (fillingOps_fit (hn ▸ (by decide : 0 < maxTargets))).trans hn.ge
  obtain ⟨-, hevicts, hisolated⟩ := target_cache (fillingOps_evaluated n)
  exact ⟨hn ▸ hcard, hevicts (numbered n) _ _ _ _ hnew hcard,
    (hisolated hfit (numbered 0).metadata.key).2⟩

end Autoscaler.MetricsProvider
