import Autoscaler.Controller.Retention

/-! The stored recommendation entries stay ordered, few and spread over their buckets. -/
namespace Autoscaler.Controller
open Time

namespace ScaleHistory

/-- What every call leaves in the entry list, measured at the time of its last record. -/
structure Bucketed (h : ScaleHistory) : Prop where
  increasing : h.entries.Pairwise fun a b => a.timestamp < b.timestamp
  distinct : h.entries.Pairwise fun a b =>
    truncate a.timestamp (max second ⌈(h.window : ℚ) / 128⌉) ≠
      truncate b.timestamp (max second ⌈(h.window : ℚ) / 128⌉)
  within : ∀ e ∈ h.entries,
    h.lastRecordedAt - h.window ≤ e.timestamp ∧ e.timestamp ≤ h.lastRecordedAt
  nonempty : h.entries ≠ []
  bounded : h.entries.length ≤ 129

def Spread (h : ScaleHistory) : Prop :=
  RollingMax.Spread (fun t => truncate t (bucketWidth h.window)) h.lastRecordedAt
    (h.lastRecordedAt - h.window) h.marks

/-- The window spans at most 128 buckets, so the bucket numbers take at most 129 values. -/
theorem Spread.length_le {h : ScaleHistory} (hs : h.Spread) : h.entries.length ≤ 129 := by
  have hpos := bucketWidth_pos h.window
  have hspan : h.window ≤ 128 * bucketWidth h.window := by
    have hle : (h.window + 127).tdiv 128 ≤ bucketWidth h.window := le_max_right _ _
    rcases le_or_gt 0 (h.window + 127) with hnonneg | hneg
    · rw [Int.tdiv_eq_ediv_of_nonneg hnonneg] at hle
      omega
    · omega
  have hindex : h.marks.Pairwise fun m m' =>
      m.1 / bucketWidth h.window < m'.1 / bucketWidth h.window :=
    hs.buckets.imp fun hlt => by
      rw [truncate_eq_mul _ hpos, truncate_eq_mul _ hpos] at hlt
      exact lt_of_mul_lt_mul_left hlt hpos.le
  rw [← List.length_map (fun e : ScaleEntry => (e.timestamp, e.desired))]
  refine RollingMax.length_le_of_index (n := 128)
    (a := (h.lastRecordedAt - h.window) / bucketWidth h.window) hindex fun m hm => ?_
  obtain ⟨hlo, hhi⟩ := hs.within m hm
  refine ⟨Int.ediv_le_ediv hpos hlo, ?_⟩
  calc m.1 / bucketWidth h.window
      ≤ (h.lastRecordedAt - h.window + 128 * bucketWidth h.window) / bucketWidth h.window :=
        Int.ediv_le_ediv hpos (by omega)
    _ = (h.lastRecordedAt - h.window) / bucketWidth h.window + 128 :=
        Int.add_mul_ediv_right _ _ hpos.ne'

theorem Spread.bucketed {h : ScaleHistory} (hs : h.Spread) (hw : 0 ≤ h.window)
    (hne : h.entries ≠ []) : h.Bucketed where
  increasing := by
    have hmarks : h.marks.Pairwise fun a b => a.1 < b.1 :=
      hs.increasing fun _ _ hle => truncate_le_truncate (bucketWidth_pos h.window) hle
    rw [marks, List.pairwise_map] at hmarks
    exact hmarks
  distinct := by
    rw [← bucketWidth_eq_ceil hw]
    have hmarks : h.marks.Pairwise fun a b =>
        truncate a.1 (bucketWidth h.window) ≠ truncate b.1 (bucketWidth h.window) :=
      hs.buckets.imp fun hlt => hlt.ne
    rw [marks, List.pairwise_map] at hmarks
    exact hmarks
  within e he := hs.within (e.timestamp, e.desired) (List.mem_map_of_mem he)
  nonempty := hne
  bounded := hs.length_le

end ScaleHistory

section Advance

variable (stored : Option ScaleHistory) (phpa : PredictiveHPA) (deploy : Deployment)
  (now desired requested : ℤ)

theorem advanceHistory_window :
    (advanceHistory stored phpa deploy now desired requested).2.window =
      stabilizationWindow phpa.spec :=
  (historyInForce_matches stored phpa deploy now requested).2.2.2

theorem advanceHistory_lastRecordedAt :
    (advanceHistory stored phpa deploy now desired requested).2.lastRecordedAt = now := rfl

/-- The entry in force ends no later than the call, and a rebuilt one is empty. -/
theorem historyInForce_spread (h : ∀ hist ∈ stored, hist.Spread) :
    ∃ last ≤ now, RollingMax.Spread
      (fun t => truncate t (bucketWidth (stabilizationWindow phpa.spec))) last
      (last - stabilizationWindow phpa.spec)
      (historyInForce stored phpa deploy now requested).marks := by
  cases hr : rebuilds stored phpa deploy now with
  | true =>
    rw [historyInForce_of_rebuilds hr]
    exact ⟨now, le_rfl, RollingMax.Spread.nil _ _ _⟩
  | false =>
    cases stored with
    | none => simp [rebuilds] at hr
    | some hist =>
      obtain ⟨-, -, -, hwindow, hlast⟩ := (rebuilds_some_eq_false hist phpa deploy now).mp hr
      have hspread := h hist rfl
      rw [ScaleHistory.Spread, hwindow] at hspread
      rw [historyInForce_of_kept hr]
      exact ⟨hist.lastRecordedAt, hlast, hspread⟩

/-- One call keeps the invariant, whatever it finds and however far the clock moved. -/
theorem advanceHistory_spread (hw : 0 ≤ stabilizationWindow phpa.spec)
    (h : ∀ hist ∈ stored, hist.Spread) :
    (advanceHistory stored phpa deploy now desired requested).2.Spread := by
  have hmono : Monotone fun t => truncate t (bucketWidth (stabilizationWindow phpa.spec)) :=
    fun _ _ hle => truncate_le_truncate (bucketWidth_pos _) hle
  unfold ScaleHistory.Spread
  rw [advanceHistory_window, advanceHistory_lastRecordedAt, advanceHistory_marks_eq]
  obtain ⟨last, hlast, hspread⟩ := historyInForce_spread stored phpa deploy now requested h
  split_ifs with hzero
  · exact ((RollingMax.Spread.nil _ now now).push hmono le_rfl
      (fun _ hm => absurd hm List.not_mem_nil) desired).prune hmono _
  · exact (hspread.push hmono (by omega)
      (fun m hm => (hspread.within m hm).2.trans hlast) desired).prune hmono _

end Advance

/-- Every entry of a run was left by one of its calls, spread over its window. -/
theorem runCalls_spread (calls : List StabilizeCall)
    (hw : ∀ c ∈ calls, 0 ≤ stabilizationWindow c.phpa.spec) (key : NamespacedName) :
    ∀ hist ∈ runCalls (fun _ => none) calls key,
      hist.Spread ∧ 0 ≤ hist.window ∧ hist.entries ≠ [] := by
  induction calls using List.reverseRecOn with
  | nil => simp
  | append_singleton calls c ih =>
    have ih := ih fun c' hc' => hw c' (List.mem_append_left _ hc')
    have hwindow := hw c (by simp)
    intro hist hhist
    rw [runCalls_concat, StabilizeCall.run_snd] at hhist
    by_cases hkey : key = c.phpa.metadata.key
    · subst hkey
      rw [Function.update_self] at hhist
      obtain rfl := Option.mem_some_iff.mp hhist
      refine ⟨advanceHistory_spread _ _ _ _ _ _ hwindow fun hist hh => (ih hist hh).1, ?_,
        advanceHistory_nonempty _ _ _ _ _ _ hwindow⟩
      rw [StabilizeCall.advance, advanceHistory_window]
      exact hwindow
    · rw [Function.update_of_ne hkey] at hhist
      exact ih hist hhist

/-- After every call of every run all stored entry lists are ordered, spread over distinct
buckets and bounded; the call's own list reaches up to the call, covers its window and has the
first element that the call reports. -/
theorem stored_entries_bucketed (pre : List StabilizeCall) (c : StabilizeCall)
    (hw : ∀ c' ∈ pre ++ [c], 0 ≤ stabilizationWindow c'.phpa.spec) :
    (∀ key, ∀ hist ∈ runCalls (fun _ => none) (pre ++ [c]) key, hist.Bucketed) ∧
    ∃ hist, runCalls (fun _ => none) (pre ++ [c]) c.phpa.metadata.key = some hist ∧
      hist.lastRecordedAt = c.now ∧ hist.window = stabilizationWindow c.phpa.spec ∧
      ∃ first, hist.entries.head? = some first ∧
        (c.run (runCalls (fun _ => none) pre)).1.historyOldest = some first.timestamp := by
  have hall := runCalls_spread (pre ++ [c]) hw
  refine ⟨fun key hist hh => ?_, (c.advance (runCalls (fun _ => none) pre)).2, ?_, rfl, ?_, ?_⟩
  · obtain ⟨hspread, hwindow, hne⟩ := hall key hist hh
    exact hspread.bucketed hwindow hne
  · rw [runCalls_concat, StabilizeCall.run_snd, Function.update_self]
  · exact advanceHistory_window _ _ _ _ _ _
  · obtain ⟨first, rest, hentries⟩ := List.exists_cons_of_ne_nil
      (advanceHistory_nonempty (runCalls (fun _ => none) pre c.phpa.metadata.key) c.phpa c.deploy
        c.now c.desired c.requested (hw c (by simp)))
    refine ⟨first, ?_, ?_⟩
    · rw [StabilizeCall.advance, hentries]
      rfl
    · have holdest : (c.run (runCalls (fun _ => none) pre)).1.historyOldest =
          (c.advance (runCalls (fun _ => none) pre)).2.entries.head?.map (·.timestamp) := rfl
      rw [holdest, StabilizeCall.advance, hentries]
      rfl

/-- The falling calls, then a clock that rolled back behind them. -/
theorem stored_entries_bucketed_rollback :
    ∃ hist, runCalls (fun _ => none) (fallingCalls ++
        [⟨safetyPHPA, safetyDeployment, 20 * second, 2, 5, 1⟩]) ⟨"test", "web"⟩ = some hist ∧
      hist.Bucketed ∧ hist.lastRecordedAt = 20 * second := by
  obtain ⟨hall, hist, hhist, hlast, -⟩ := stored_entries_bucketed fallingCalls
    ⟨safetyPHPA, safetyDeployment, 20 * second, 2, 5, 1⟩ (by decide)
  exact ⟨hist, hhist, hall _ hist hhist, hlast⟩

end Autoscaler.Controller
