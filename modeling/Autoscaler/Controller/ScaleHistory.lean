import Autoscaler.Api
import Autoscaler.Library.RollingMax
import Mathlib.Data.List.TakeWhile
import Mathlib.Logic.Function.Basic

/-! The process-local recommendation history and the stabilization it feeds. -/
namespace Autoscaler.Controller
open Time

structure ScaleEntry where
  timestamp : ℤ
  desired : ℤ
  deriving DecidableEq, Repr

structure ScaleHistory where
  entries : List ScaleEntry
  phpaUID : UID
  targetUID : UID
  targetName : String
  window : ℤ
  lastRecordedAt : ℤ
  protectedAt : ℤ
  protectedReplicas : ℤ
  deriving DecidableEq, Repr

/-- Go's integer division truncates toward zero. -/
def bucketWidth (window : ℤ) : ℤ := max second ((window + 127).tdiv 128)

namespace ScaleHistory

def record (h : ScaleHistory) (now desired : ℤ) : ScaleHistory :=
  let width := bucketWidth h.window
  { h with entries :=
      match h.entries.getLast? with
      | some last =>
        if truncate last.timestamp width = truncate now width then
          h.entries.dropLast ++ [⟨now, max last.desired desired⟩]
        else h.entries ++ [⟨now, desired⟩]
      | none => h.entries ++ [⟨now, desired⟩] }

/-- Prune the entries before `now - window`; the maximum starts from zero. -/
def maxInWindow (h : ScaleHistory) (now window : ℤ) : ℤ × ScaleHistory :=
  let cutoff := now - window
  let entries := h.entries.dropWhile fun e => e.timestamp < cutoff
  (entries.foldl (fun m e => if e.desired > m then e.desired else m) 0, { h with entries })

def len (h : ScaleHistory) : ℕ := h.entries.length

end ScaleHistory

/-- The map guarded by the reconciler's mutex. -/
abbrev History := NamespacedName → Option ScaleHistory

/-- `historyOldest` is `none` where indexing the empty entry list would panic. -/
structure StabilizationResult where
  finalDesired : ℤ
  windowSeconds : ℤ
  stabilized : Bool
  coldStart : Bool
  protectedUntil : ℤ
  historyEntries : ℕ
  historyOldest : Option ℤ
  deriving DecidableEq, Repr

def stabilizationWindowSeconds (spec : PredictiveHPASpec) : ℤ :=
  spec.scaleDownStabilizationWindowSeconds.getD 60

def stabilizationWindow (spec : PredictiveHPASpec) : ℤ :=
  stabilizationWindowSeconds spec * second

/-- A changed identity or window, or a clock rollback, invalidates the old geometry. -/
def ScaleHistory.invalidFor (hist : ScaleHistory) (phpa : PredictiveHPA) (deploy : Deployment)
    (now : ℤ) : Bool :=
  hist.phpaUID != phpa.metadata.uid || hist.targetUID != deploy.metadata.uid ||
    hist.targetName != deploy.metadata.name || stabilizationWindow phpa.spec != hist.window ||
    decide (now < hist.lastRecordedAt)

/-- Whether a call finds no usable entry and starts a new one. -/
def rebuilds (stored : Option ScaleHistory) (phpa : PredictiveHPA) (deploy : Deployment)
    (now : ℤ) : Bool :=
  match stored with
  | none => true
  | some hist => hist.invalidFor phpa deploy now

def freshHistory (phpa : PredictiveHPA) (deploy : Deployment) (now requested : ℤ) :
    ScaleHistory where
  entries := []
  phpaUID := phpa.metadata.uid
  targetUID := deploy.metadata.uid
  targetName := deploy.metadata.name
  window := stabilizationWindow phpa.spec
  lastRecordedAt := 0
  protectedAt := now
  protectedReplicas := requested

/-- The entry a call works on: the stored one while it is valid, else a fresh guard. -/
def historyInForce (stored : Option ScaleHistory) (phpa : PredictiveHPA) (deploy : Deployment)
    (now requested : ℤ) : ScaleHistory :=
  match stored with
  | none => freshHistory phpa deploy now requested
  | some hist =>
    if hist.invalidFor phpa deploy now then freshHistory phpa deploy now requested else hist

/-- Record a raw recommendation and prune; the peak may retain capacity. -/
def advanceHistory (stored : Option ScaleHistory) (phpa : PredictiveHPA) (deploy : Deployment)
    (now desired requested : ℤ) : ℤ × ScaleHistory :=
  let window := stabilizationWindow phpa.spec
  let hist := historyInForce stored phpa deploy now requested
  let hist := { hist with
    lastRecordedAt := now
    entries := if window = 0 then [] else hist.entries }
  (hist.record now desired).maxInWindow now window

/-- The current replica bounds win over every other rule. -/
def clampReplicas (minimum maximum x : ℤ) : ℤ := min (max x (max minimum 1)) maximum

def stabilizeRecommendation (history : History) (phpa : PredictiveHPA) (deploy : Deployment)
    (now desired requested minimum : ℤ) : StabilizationResult × History :=
  let window := stabilizationWindow phpa.spec
  let key := phpa.metadata.key
  let (peak, hist) := advanceHistory (history key) phpa deploy now desired requested
  let protectedUntil := hist.protectedAt + window
  let coldStart := decide (window > 0) && !decide (now > protectedUntil)
  let finalDesired :=
    if window > 0 ∧ desired < requested then
      -- History can retain a request but cannot initiate expansion.
      min requested (if coldStart then max peak hist.protectedReplicas else peak)
    else desired
  let finalDesired := clampReplicas minimum phpa.spec.maxReplicas finalDesired
  ({ finalDesired, windowSeconds := stabilizationWindowSeconds phpa.spec,
     stabilized := decide (finalDesired > desired), coldStart, protectedUntil,
     historyEntries := hist.len,
     historyOldest := hist.entries.head?.map (·.timestamp) },
   Function.update history key (some hist))

namespace ScaleHistory

def marks (h : ScaleHistory) : List (ℤ × ℤ) := h.entries.map fun e => (e.timestamp, e.desired)

/-- The entries are a conservative rolling maximum over truncation buckets. -/
theorem marks_record (h : ScaleHistory) (now desired : ℤ) :
    (h.record now desired).marks =
      RollingMax.push (fun t => truncate t (bucketWidth h.window)) h.marks now desired := by
  unfold marks record RollingMax.push
  rcases List.eq_nil_or_concat' h.entries with he | ⟨init, last, he⟩
  · simp [he]
  · by_cases hb : truncate last.timestamp (bucketWidth h.window) =
        truncate now (bucketWidth h.window) <;> simp [he, hb]

theorem record_concat (h : ScaleHistory) (now desired : ℤ) :
    ∃ init v, (h.record now desired).entries = init ++ [⟨now, v⟩] := by
  unfold record
  dsimp only
  split
  · split_ifs
    · exact ⟨_, _, rfl⟩
    · exact ⟨_, _, rfl⟩
  · exact ⟨_, _, rfl⟩

theorem marks_maxInWindow (h : ScaleHistory) (now window : ℤ) :
    (h.maxInWindow now window).2.marks = RollingMax.prune (now - window) h.marks := by
  simp only [marks, maxInWindow, RollingMax.prune, List.dropWhile_map]
  rfl

/-- The zero-started scan returns zero or an entry's value, and bounds every entry. -/
theorem foldl_max_spec (entries : List ScaleEntry) (m : ℤ) :
    let peak := entries.foldl (fun m e => if e.desired > m then e.desired else m) m
    m ≤ peak ∧ (∀ e ∈ entries, e.desired ≤ peak) ∧
      (peak = m ∨ ∃ e ∈ entries, e.desired = peak) := by
  induction entries generalizing m with
  | nil => simp
  | cons e entries ih =>
    obtain ⟨hm, hall, hex⟩ := ih (if e.desired > m then e.desired else m)
    simp only [List.foldl_cons]
    have hstep : m ≤ (if e.desired > m then e.desired else m) ∧
        e.desired ≤ (if e.desired > m then e.desired else m) := by
      split_ifs <;> omega
    refine ⟨hstep.1.trans hm, ?_, ?_⟩
    · intro e' he'
      rcases List.mem_cons.mp he' with rfl | he'
      · exact hstep.2.trans hm
      · exact hall e' he'
    · rcases hex with hex | ⟨e', he', hv⟩
      · by_cases hgt : e.desired > m
        · exact Or.inr ⟨e, List.mem_cons_self, by rw [hex, if_pos hgt]⟩
        · exact Or.inl (by rw [hex, if_neg hgt])
      · exact Or.inr ⟨e', List.mem_cons_of_mem _ he', hv⟩

end ScaleHistory

section Bounds

variable (minimum maximum : ℤ)

theorem clampReplicas_le (x : ℤ) : clampReplicas minimum maximum x ≤ maximum := min_le_right _ _

theorem le_clampReplicas (h : max minimum 1 ≤ maximum) (x : ℤ) :
    max minimum 1 ≤ clampReplicas minimum maximum x :=
  le_min (le_max_right _ _) h

theorem clampReplicas_mono {x y : ℤ} (h : x ≤ y) :
    clampReplicas minimum maximum x ≤ clampReplicas minimum maximum y :=
  min_le_min_right _ (max_le_max_right _ h)

/-- A value clamped twice is clamped once. -/
theorem clampReplicas_idem (x : ℤ) :
    clampReplicas minimum maximum (clampReplicas minimum maximum x) =
      clampReplicas minimum maximum x := by
  unfold clampReplicas
  omega

end Bounds

theorem bucketWidth_pos (window : ℤ) : 0 < bucketWidth window :=
  lt_of_lt_of_le (by decide) (le_max_left _ _)

theorem historyInForce_of_rebuilds {stored : Option ScaleHistory} {phpa : PredictiveHPA}
    {deploy : Deployment} {now : ℤ} (h : rebuilds stored phpa deploy now = true)
    (requested : ℤ) :
    historyInForce stored phpa deploy now requested = freshHistory phpa deploy now requested := by
  cases stored with
  | none => rfl
  | some hist => exact if_pos h

theorem historyInForce_of_kept {hist : ScaleHistory} {phpa : PredictiveHPA}
    {deploy : Deployment} {now : ℤ} (h : rebuilds (some hist) phpa deploy now = false)
    (requested : ℤ) : historyInForce (some hist) phpa deploy now requested = hist :=
  if_neg (by simpa [rebuilds] using h)

/-- A stored entry is kept exactly when identity and window match and time did not roll back. -/
theorem rebuilds_some_eq_false (hist : ScaleHistory) (phpa : PredictiveHPA)
    (deploy : Deployment) (now : ℤ) :
    rebuilds (some hist) phpa deploy now = false ↔
      hist.phpaUID = phpa.metadata.uid ∧ hist.targetUID = deploy.metadata.uid ∧
      hist.targetName = deploy.metadata.name ∧ hist.window = stabilizationWindow phpa.spec ∧
      hist.lastRecordedAt ≤ now := by
  simp only [rebuilds, ScaleHistory.invalidFor, Bool.or_eq_false_iff, bne_eq_false_iff_eq,
    decide_eq_false_iff_not, not_lt, and_assoc]
  rw [@eq_comm _ (stabilizationWindow phpa.spec)]

/-- Kept or rebuilt, the entry in force matches the call's own policy and target. -/
theorem historyInForce_matches (stored : Option ScaleHistory) (phpa : PredictiveHPA)
    (deploy : Deployment) (now requested : ℤ) :
    let hist := historyInForce stored phpa deploy now requested
    hist.phpaUID = phpa.metadata.uid ∧ hist.targetUID = deploy.metadata.uid ∧
      hist.targetName = deploy.metadata.name ∧ hist.window = stabilizationWindow phpa.spec := by
  cases hr : rebuilds stored phpa deploy now with
  | true => rw [historyInForce_of_rebuilds hr]; exact ⟨rfl, rfl, rfl, rfl⟩
  | false =>
    cases stored with
    | none => simp [rebuilds] at hr
    | some hist =>
      rw [historyInForce_of_kept hr]
      obtain ⟨hp, ht, hn, hw, -⟩ := (rebuilds_some_eq_false hist phpa deploy now).mp hr
      exact ⟨hp, ht, hn, hw⟩

section Advance

variable (stored : Option ScaleHistory) (phpa : PredictiveHPA) (deploy : Deployment)
  (now desired requested : ℤ)

/-- A zero window keeps no earlier recommendation. -/
theorem advanceHistory_marks_eq :
    (advanceHistory stored phpa deploy now desired requested).2.marks =
      RollingMax.prune (now - stabilizationWindow phpa.spec)
        (RollingMax.push (fun t => truncate t (bucketWidth (stabilizationWindow phpa.spec)))
          (if stabilizationWindow phpa.spec = 0 then []
            else (historyInForce stored phpa deploy now requested).marks) now desired) := by
  have hwin := (historyInForce_matches stored phpa deploy now requested).2.2.2
  simp only [advanceHistory, ScaleHistory.marks_maxInWindow, ScaleHistory.marks_record, hwin]
  simp only [ScaleHistory.marks]
  split_ifs <;> rfl

theorem advanceHistory_marks (hw : 0 < stabilizationWindow phpa.spec) :
    (advanceHistory stored phpa deploy now desired requested).2.marks =
      RollingMax.prune (now - stabilizationWindow phpa.spec)
        (RollingMax.push (fun t => truncate t (bucketWidth (stabilizationWindow phpa.spec)))
          (historyInForce stored phpa deploy now requested).marks now desired) := by
  rw [advanceHistory_marks_eq, if_neg hw.ne']

/-- The recommendation just recorded is never pruned, so an entry is never left empty. -/
theorem advanceHistory_nonempty (hw : 0 ≤ stabilizationWindow phpa.spec) :
    (advanceHistory stored phpa deploy now desired requested).2.entries ≠ [] := by
  intro hnil
  obtain ⟨init, v, hrecord⟩ := ScaleHistory.record_concat { historyInForce stored phpa deploy now
    requested with
      lastRecordedAt := now
      entries := if stabilizationWindow phpa.spec = 0 then []
        else (historyInForce stored phpa deploy now requested).entries } now desired
  have hdropped := List.dropWhile_eq_nil_iff.mp hnil ⟨now, v⟩ (by rw [hrecord]; simp)
  have hlt : now < now - stabilizationWindow phpa.spec := by simpa using hdropped
  omega

/-- The peak is the largest retained recommendation, or zero when that is negative. -/
theorem advanceHistory_peak :
    let advanced := advanceHistory stored phpa deploy now desired requested
    0 ≤ advanced.1 ∧ (∀ m ∈ advanced.2.marks, m.2 ≤ advanced.1) ∧
      (advanced.1 = 0 ∨ ∃ m ∈ advanced.2.marks, m.2 = advanced.1) := by
  obtain ⟨h0, hall, hex⟩ := ScaleHistory.foldl_max_spec
    (advanceHistory stored phpa deploy now desired requested).2.entries 0
  refine ⟨h0, ?_, ?_⟩
  · intro m hm
    obtain ⟨e, he, rfl⟩ := List.mem_map.mp hm
    exact hall e he
  · rcases hex with hex | ⟨e, he, hv⟩
    · exact Or.inl hex
    · exact Or.inr ⟨_, List.mem_map_of_mem he, hv⟩

end Advance

section Stabilize

variable (history : History) (phpa : PredictiveHPA) (deploy : Deployment)
  (now desired requested minimum : ℤ)

theorem stabilizeRecommendation_snd :
    (stabilizeRecommendation history phpa deploy now desired requested minimum).2 =
      Function.update history phpa.metadata.key (some
        (advanceHistory (history phpa.metadata.key) phpa deploy now desired requested).2) := rfl

/-- The result of a call on the entry of its key, and the entry it leaves there. -/
def stabilizeEntry (stored : Option ScaleHistory) : StabilizationResult × ScaleHistory :=
  ((stabilizeRecommendation (fun _ => stored) phpa deploy now desired requested minimum).1,
    (advanceHistory stored phpa deploy now desired requested).2)

theorem stabilizeEntry_oldest (stored : Option ScaleHistory)
    (hw : 0 ≤ stabilizationWindow phpa.spec) :
    (stabilizeEntry phpa deploy now desired requested minimum stored).1.historyOldest.isSome := by
  have holdest : (stabilizeEntry phpa deploy now desired requested minimum stored).1.historyOldest =
      (advanceHistory stored phpa deploy now desired requested).2.entries.head?.map
        (·.timestamp) := rfl
  obtain ⟨e, rest, hentries⟩ := List.exists_cons_of_ne_nil
    (advanceHistory_nonempty stored phpa deploy now desired requested hw)
  rw [holdest, hentries]
  rfl

/-- A call reads and writes the entry of its own key only. -/
theorem stabilizeRecommendation_eq :
    stabilizeRecommendation history phpa deploy now desired requested minimum =
      let entry := stabilizeEntry phpa deploy now desired requested minimum
        (history phpa.metadata.key)
      (entry.1, Function.update history phpa.metadata.key (some entry.2)) := rfl

theorem stabilizeRecommendation_finalDesired :
    let result := (stabilizeRecommendation history phpa deploy now desired requested minimum).1
    let peak := (advanceHistory (history phpa.metadata.key) phpa deploy now desired requested).1
    let hist := historyInForce (history phpa.metadata.key) phpa deploy now requested
    result.finalDesired = clampReplicas minimum phpa.spec.maxReplicas
      (if stabilizationWindow phpa.spec > 0 ∧ desired < requested then
        min requested (if result.coldStart then max peak hist.protectedReplicas else peak)
      else desired) := rfl

end Stabilize

end Autoscaler.Controller
