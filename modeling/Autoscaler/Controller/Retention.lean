import Autoscaler.Controller.ScaleHistory
import Mathlib.Data.Rat.Floor

/-! How long a recommendation is retained within one history incarnation. -/
namespace Autoscaler.Controller
open Time

structure StabilizeCall where
  phpa : PredictiveHPA
  deploy : Deployment
  now : ℤ
  desired : ℤ
  requested : ℤ
  minimum : ℤ

namespace StabilizeCall

def run (c : StabilizeCall) (history : History) : StabilizationResult × History :=
  stabilizeRecommendation history c.phpa c.deploy c.now c.desired c.requested c.minimum

def mark (c : StabilizeCall) : ℤ × ℤ := (c.now, c.desired)

def advance (c : StabilizeCall) (history : History) : ℤ × ScaleHistory :=
  advanceHistory (history c.phpa.metadata.key) c.phpa c.deploy c.now c.desired c.requested

theorem run_snd (c : StabilizeCall) (history : History) :
    (c.run history).2 =
      Function.update history c.phpa.metadata.key (some (c.advance history).2) := rfl

def clamp (c : StabilizeCall) : ℤ → ℤ := clampReplicas c.minimum c.phpa.spec.maxReplicas

end StabilizeCall

def runCalls (history : History) (calls : List StabilizeCall) : History :=
  calls.foldl (fun history c => (c.run history).2) history

/-- The calls of one incarnation, from the call that creates the history entry. -/
structure Incarnation (history : History) (calls : List StabilizeCall) (key : NamespacedName)
    (phpaUID targetUID : UID) (targetName : String) (window : ℤ) : Prop where
  begins : ∀ c ∈ calls.head?, rebuilds (history key) c.phpa c.deploy c.now = true
  key_eq : ∀ c ∈ calls, c.phpa.metadata.key = key
  phpaUID_eq : ∀ c ∈ calls, c.phpa.metadata.uid = phpaUID
  targetUID_eq : ∀ c ∈ calls, c.deploy.metadata.uid = targetUID
  targetName_eq : ∀ c ∈ calls, c.deploy.metadata.name = targetName
  window_eq : ∀ c ∈ calls, stabilizationWindow c.phpa.spec = window
  ordered : calls.Pairwise fun a b => a.now ≤ b.now

def maxRecommended (calls : List StabilizeCall) (p : ℤ → Bool) : ℤ :=
  ((calls.filter fun c => p c.now).map (·.desired)).max?.getD 0

@[simp] theorem runCalls_nil (history : History) : runCalls history [] = history := rfl

theorem runCalls_concat (history : History) (calls : List StabilizeCall) (c : StabilizeCall) :
    runCalls history (calls ++ [c]) = (c.run (runCalls history calls)).2 := by
  simp [runCalls]

namespace Incarnation

variable {history : History} {key : NamespacedName} {phpaUID targetUID : UID}
  {targetName : String} {window : ℤ}

theorem left {pre post : List StabilizeCall}
    (h : Incarnation history (pre ++ post) key phpaUID targetUID targetName window) :
    Incarnation history pre key phpaUID targetUID targetName window where
  begins c hc := h.begins c (by rw [List.head?_append, Option.mem_def.mp hc]; rfl)
  key_eq c hc := h.key_eq c (List.mem_append_left _ hc)
  phpaUID_eq c hc := h.phpaUID_eq c (List.mem_append_left _ hc)
  targetUID_eq c hc := h.targetUID_eq c (List.mem_append_left _ hc)
  targetName_eq c hc := h.targetName_eq c (List.mem_append_left _ hc)
  window_eq c hc := h.window_eq c (List.mem_append_left _ hc)
  ordered := (List.pairwise_append.mp h.ordered).1

/-- The entry a later call finds is the one the preceding call stored. -/
theorem stored_kept {pre : List StabilizeCall} {p c : StabilizeCall}
    (h : Incarnation history (pre ++ [p] ++ [c]) key phpaUID targetUID targetName window) :
    runCalls history (pre ++ [p]) key = some (p.advance (runCalls history pre)).2 ∧
      rebuilds (some (p.advance (runCalls history pre)).2) c.phpa c.deploy c.now = false := by
  have hp : p ∈ pre ++ [p] ++ [c] := by simp
  have hc : c ∈ pre ++ [p] ++ [c] := by simp
  constructor
  · rw [runCalls_concat, StabilizeCall.run_snd, h.key_eq p hp, Function.update_self]
  · obtain ⟨hu, ht, hn, hw⟩ := historyInForce_matches
      (runCalls history pre p.phpa.metadata.key) p.phpa p.deploy p.now p.requested
    refine (rebuilds_some_eq_false _ _ _ _).mpr ⟨?_, ?_, ?_, ?_, ?_⟩
    · exact hu.trans ((h.phpaUID_eq p hp).trans (h.phpaUID_eq c hc).symm)
    · exact ht.trans ((h.targetUID_eq p hp).trans (h.targetUID_eq c hc).symm)
    · exact hn.trans ((h.targetName_eq p hp).trans (h.targetName_eq c hc).symm)
    · exact hw.trans ((h.window_eq p hp).trans (h.window_eq c hc).symm)
    · exact (List.pairwise_append.mp h.ordered).2.2 p (by simp) c (by simp)

/-- Throughout an incarnation the entries are the rolling maximum of every earlier call. -/
theorem marks_inForce {pre : List StabilizeCall} {c : StabilizeCall} (hw : 0 < window)
    (h : Incarnation history (pre ++ [c]) key phpaUID targetUID targetName window) :
    (historyInForce (runCalls history pre key) c.phpa c.deploy c.now c.requested).marks =
      RollingMax.summarize (fun t => truncate t (bucketWidth window)) window
        (pre.map StabilizeCall.mark) := by
  induction pre using List.reverseRecOn generalizing c with
  | nil =>
    rw [runCalls_nil, historyInForce_of_rebuilds (h.begins c (by simp))]
    rfl
  | append_singleton pre p ih =>
    obtain ⟨hstored, hkept⟩ := h.stored_kept
    have hp : p ∈ pre ++ [p] ++ [c] := by simp
    have hpw := h.window_eq p hp
    have ih := ih h.left
    rw [hstored, historyInForce_of_kept hkept, List.map_append, List.map_singleton,
      RollingMax.summarize_concat, ← ih, StabilizeCall.advance,
      advanceHistory_marks _ _ _ _ _ _ (by rw [hpw]; exact hw), hpw, h.key_eq p hp]
    rfl

theorem marks_advance {pre : List StabilizeCall} {c : StabilizeCall} (hw : 0 < window)
    (h : Incarnation history (pre ++ [c]) key phpaUID targetUID targetName window) :
    (c.advance (runCalls history pre)).2.marks =
      RollingMax.summarize (fun t => truncate t (bucketWidth window)) window
        ((pre ++ [c]).map StabilizeCall.mark) := by
  have hc : c ∈ pre ++ [c] := by simp
  have hcw := h.window_eq c hc
  rw [StabilizeCall.advance, advanceHistory_marks _ _ _ _ _ _ (by rw [hcw]; exact hw), hcw,
    h.key_eq c hc, h.marks_inForce hw, List.map_append, List.map_singleton,
    RollingMax.summarize_concat]
  rfl

end Incarnation

theorem bucketWidth_eq_ceil {window : ℤ} (hw : 0 ≤ window) :
    bucketWidth window = max second ⌈(window : ℚ) / 128⌉ := by
  have hdiv : (window + 127).tdiv 128 = (window + 127) / 128 :=
    Int.tdiv_eq_ediv_of_nonneg (by omega)
  have hceil : ⌈(window : ℚ) / 128⌉ = (window + 127) / 128 := by
    rw [Int.ceil_eq_iff, lt_div_iff₀ (by norm_num), div_le_iff₀ (by norm_num)]
    constructor
    · exact_mod_cast (show ((window + 127) / 128 - 1) * 128 < window by omega)
    · exact_mod_cast (show window ≤ (window + 127) / 128 * 128 by omega)
  rw [bucketWidth, hdiv, hceil]

theorem le_maxRecommended {calls : List StabilizeCall} {p : ℤ → Bool} {c : StabilizeCall}
    (hc : c ∈ calls) (hp : p c.now = true) : c.desired ≤ maxRecommended calls p := by
  have hmem : c.desired ∈ (calls.filter fun c => p c.now).map (·.desired) :=
    List.mem_map_of_mem (List.mem_filter.mpr ⟨hc, hp⟩)
  cases hm : ((calls.filter fun c => p c.now).map (·.desired)).max? with
  | none => rw [List.max?_eq_none_iff.mp hm] at hmem; cases hmem
  | some m =>
    rw [maxRecommended, hm]
    exact (List.max?_eq_some_iff.mp hm).2 _ hmem

theorem maxRecommended_attained {calls : List StabilizeCall} {p : ℤ → Bool} {c : StabilizeCall}
    (hc : c ∈ calls) (hp : p c.now = true) :
    ∃ q ∈ calls, p q.now = true ∧ q.desired = maxRecommended calls p := by
  have hmem : c.desired ∈ (calls.filter fun c => p c.now).map (·.desired) :=
    List.mem_map_of_mem (List.mem_filter.mpr ⟨hc, hp⟩)
  cases hm : ((calls.filter fun c => p c.now).map (·.desired)).max? with
  | none => rw [List.max?_eq_none_iff.mp hm] at hmem; cases hmem
  | some m =>
    obtain ⟨q, hq, hqm⟩ := List.mem_map.mp (List.max?_eq_some_iff.mp hm).1
    obtain ⟨hq, hpq⟩ := List.mem_filter.mp hq
    exact ⟨q, hq, hpq, by rw [maxRecommended, hm]; exact hqm⟩

/-- A negative peak is clamped away, so starting the scan from zero changes nothing. -/
theorem clampReplicas_max_zero (minimum maximum x y : ℤ) :
    clampReplicas minimum maximum (min x (max y 0)) = clampReplicas minimum maximum (min x y) := by
  unfold clampReplicas
  omega

/-- Without cold-start protection a reduction is limited by the retained peak alone. -/
theorem finalDesired_of_reduction {c : StabilizeCall} {history : History}
    (hw : 0 < stabilizationWindow c.phpa.spec) (hcold : (c.run history).1.coldStart = false)
    (hdown : c.desired < c.requested) :
    (c.run history).1.finalDesired = c.clamp (min c.requested (c.advance history).1) := by
  have hfinal := stabilizeRecommendation_finalDesired history c.phpa c.deploy c.now c.desired
    c.requested c.minimum
  have hcold' : ¬ (c.run history).1.coldStart = true := by simp [hcold]
  dsimp only at hfinal
  rw [if_pos ⟨hw, hdown⟩] at hfinal
  exact hfinal.trans (congrArg (fun x => clampReplicas _ _ (min c.requested x)) (if_neg hcold'))

/-- Retention is sandwiched: no recommendation in the window expires early, and none outlives
it by a full bucket width, whatever merging and pruning happened before. -/
theorem retention_sandwich {history : History} {pre : List StabilizeCall} {c : StabilizeCall}
    {post : List StabilizeCall} {key : NamespacedName} {phpaUID targetUID : UID}
    {targetName : String} {window : ℤ}
    (h : Incarnation history (pre ++ c :: post) key phpaUID targetUID targetName window)
    (hw : 0 < window) (hcold : (c.run (runCalls history pre)).1.coldStart = false)
    (hdown : c.desired < c.requested) :
    let width := max second ⌈(window : ℚ) / 128⌉
    let recorded := pre ++ [c]
    let final := (c.run (runCalls history pre)).1.finalDesired
    c.clamp (min c.requested
        (maxRecommended recorded fun s => c.now - window ≤ s ∧ s ≤ c.now)) ≤ final ∧
      final ≤ c.clamp (min c.requested
        (maxRecommended recorded fun s => c.now - window - width < s ∧ s ≤ c.now)) := by
  rw [← List.singleton_append, ← List.append_assoc] at h
  have h := h.left
  have hord : (pre.map StabilizeCall.mark ++ [c.mark]).Pairwise fun a b => a.1 ≤ b.1 := by
    rw [← List.map_singleton, ← List.map_append]
    exact List.pairwise_map.mpr h.ordered
  obtain ⟨hsum, hwithin⟩ := RollingMax.summarize_summary
    (fun t => truncate t (bucketWidth window)) window (pre.map StabilizeCall.mark) c.mark hord
  obtain ⟨hlow, hhigh⟩ := hsum.sandwich hwithin (lt_add_of_truncate_eq (bucketWidth_pos window))
  rw [← List.map_singleton, ← List.map_append, ← h.marks_advance hw] at hlow hhigh
  obtain ⟨hzero, hpeak, hattained⟩ := advanceHistory_peak
    (runCalls history pre c.phpa.metadata.key) c.phpa c.deploy c.now c.desired c.requested
  have hc : c ∈ pre ++ [c] := by simp
  intro width recorded final
  have hwidth : width = bucketWidth window := (bucketWidth_eq_ceil hw.le).symm
  have hpos := bucketWidth_pos window
  have hfinal : final = c.clamp (min c.requested (c.advance (runCalls history pre)).1) :=
    finalDesired_of_reduction (by rw [h.window_eq c hc]; exact hw) hcold hdown
  rw [hfinal]
  constructor
  · have hnow : decide (c.now - window ≤ c.now ∧ c.now ≤ c.now) = true := by simp; omega
    obtain ⟨q, hq, hqt, hqv⟩ := @maxRecommended_attained recorded
      (fun s => c.now - window ≤ s ∧ s ≤ c.now) c hc hnow
    have hcut : c.now - window ≤ q.now := (of_decide_eq_true hqt).1
    obtain ⟨m, hm, hle⟩ := hlow q.mark (List.mem_map_of_mem hq) hcut
    have hpk : maxRecommended recorded (fun s => c.now - window ≤ s ∧ s ≤ c.now) ≤
        (c.advance (runCalls history pre)).1 := by
      rw [← hqv]
      exact hle.trans (hpeak m hm)
    exact clampReplicas_mono _ _ (min_le_min_left _ hpk)
  · have hpk : (c.advance (runCalls history pre)).1 ≤
        max (maxRecommended recorded
          fun s => c.now - window - width < s ∧ s ≤ c.now) 0 := by
      rcases hattained with h0 | ⟨m, hm, hmv⟩
      · exact h0.le.trans (le_max_right _ _)
      · obtain ⟨r, hr, hlt, hle, hv⟩ := hhigh m hm
        obtain ⟨q, hq, rfl⟩ := List.mem_map.mp hr
        refine le_trans (le_of_eq (hmv.symm.trans hv.symm)) (le_trans ?_ (le_max_left _ _))
        refine le_maxRecommended hq ?_
        rw [hwidth]
        simpa using ⟨hlt, hle⟩
    calc c.clamp (min c.requested (c.advance (runCalls history pre)).1)
        ≤ c.clamp (min c.requested (max _ 0)) := clampReplicas_mono _ _ (min_le_min_left _ hpk)
      _ = c.clamp (min c.requested _) := clampReplicas_max_zero _ _ _ _

/-- Three falling recommendations of the safety fixture, the last one after its guard. -/
def fallingCalls : List StabilizeCall :=
  [⟨safetyPHPA, safetyDeployment, 10 * second, 5, 5, 1⟩,
   ⟨safetyPHPA, safetyDeployment, 60 * second, 4, 5, 1⟩]

def lateReduction : StabilizeCall := ⟨safetyPHPA, safetyDeployment, 110 * second, 2, 5, 1⟩

theorem fallingCalls_incarnation :
    Incarnation (fun _ => none) (fallingCalls ++ lateReduction :: []) ⟨"test", "web"⟩
      "phpa-one" "deployment-one" "web" (60 * second) := by
  constructor <;> decide

theorem retention_sandwich_falling :
    4 ≤ (lateReduction.run (runCalls (fun _ => none) fallingCalls)).1.finalDesired ∧
      (lateReduction.run (runCalls (fun _ => none) fallingCalls)).1.finalDesired ≤ 4 := by
  have h := retention_sandwich fallingCalls_incarnation (by decide) (by decide) (by decide)
  simp only [← bucketWidth_eq_ceil (show (0 : ℤ) ≤ 60 * second by decide)] at h
  exact ⟨le_trans (by decide) h.1, h.2.trans (by decide)⟩

end Autoscaler.Controller
