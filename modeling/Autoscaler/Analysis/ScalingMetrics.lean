import Autoscaler.Float64
import Autoscaler.Library.Adjacent
import Autoscaler.Library.FirstFailure
import Mathlib.Algebra.Order.Floor.Ring
import Mathlib.Data.Rat.Floor
import Mathlib.Order.Bounds.Basic

/-! The legacy scaling summary of a replica series. -/
namespace Autoscaler.Analysis

/-- A sample of the replica series: whole Unix seconds and the count. -/
abbrev ReplicaSample := ℤ × Float64 ℚ

def minReplicas : ℤ := 1

/-- `int` of a finite float: the fraction is cut off. -/
def truncate (value : ℚ) : ℤ := if 0 ≤ value then ⌊value⌋ else ⌈value⌉

def toInt : Float64 ℚ → Except String ℤ
  | .finite value => .ok (truncate value)
  | .nan => .error "cannot convert float NaN to integer"
  | .inf _ => .error "cannot convert float infinity to integer"

structure ScalingEvent where
  timestampUTC : ℤ
  relSecondsFromK6Start : ℤ
  fromReplicas : ℤ
  toReplicas : ℤ
  deriving DecidableEq, Repr

structure ScalingMetrics where
  events : List ScalingEvent
  firstScaleupRelSeconds : Option ℤ
  convergenceRelSeconds : Option ℤ
  steadyStateReplicas : Option ℤ
  firstScaledownRelSecondsAfterK6Stop : Option ℤ
  fullScaledownRelSecondsAfterK6Stop : Option ℤ
  scaledownCompleted : Bool
  dataSource : String
  samplingPrecisionSeconds : ℤ
  deriving DecidableEq, Repr

/-- `int(k6_start.timestamp())`, of a time in microseconds. -/
def wholeSeconds (microseconds : ℤ) : ℤ := Int.tdiv microseconds 1000000

/-- `datetime.fromtimestamp`: the years end at 9999. A time is kept as its Unix seconds. -/
def fromTimestamp (epoch : ℤ) : Except String ℤ :=
  if -62135596800 ≤ epoch ∧ epoch < 253402300800 then .ok epoch else .error "year is out of range"

def computeScalingMetrics.walk (k6StartEpoch : ℤ) :
    ℤ → List ReplicaSample → Except String (List ScalingEvent)
  | _, [] => .ok []
  | prevReplicas, (tsEpoch, replicasF) :: rest => do
    let replicas ← toInt replicasF
    if replicas ≠ prevReplicas then
      let ts ← fromTimestamp tsEpoch
      let later ← walk k6StartEpoch replicas rest
      return ⟨ts, tsEpoch - k6StartEpoch, prevReplicas, replicas⟩ :: later
    else walk k6StartEpoch prevReplicas rest

def scaledownIncomplete : String :=
  "scaledown_completed=false: experiment window ended with replicas above minReplicas; " ++
    "tail observation may be too short"

def computeScalingMetrics.derive (events : List ScalingEvent) (k6StartEpoch k6StopEpoch last : ℤ) :
    ScalingMetrics × List String :=
  let scaleups := events.filter fun e => decide (e.fromReplicas < e.toReplicas)
  let scaledowns := events.filter fun e => decide (e.toReplicas < e.fromReplicas)
  let steadyStateReplicas := if scaleups = [] then none else (events.map (·.toReplicas)).max?
  let convergenceEvents := events.filter fun e => decide (some e.toReplicas = steadyStateReplicas)
  let terminal := scaledowns.filter fun e => decide (e.toReplicas = minReplicas)
  let endsAtMin := decide (last ≤ minReplicas)
  let afterStop := fun e : ScalingEvent => e.relSecondsFromK6Start + k6StartEpoch - k6StopEpoch
  let completed :=
    if scaledowns = [] then decide (∀ replicas ∈ steadyStateReplicas, replicas ≤ minReplicas)
    else endsAtMin && decide (terminal ≠ [])
  let warnings :=
    if completed then []
    else if scaledowns = [] then
      ["no scale-down events detected; experiment ended at steady_state=" ++
        toString (steadyStateReplicas.getD 0) ++ " replicas"]
    else [scaledownIncomplete]
  ({ events := events
     firstScaleupRelSeconds := scaleups.head?.map (·.relSecondsFromK6Start)
     convergenceRelSeconds :=
       if scaleups = [] then none else convergenceEvents.head?.map (·.relSecondsFromK6Start)
     steadyStateReplicas := steadyStateReplicas
     firstScaledownRelSecondsAfterK6Stop := scaledowns.head?.map afterStop
     fullScaledownRelSecondsAfterK6Stop :=
       if scaledowns ≠ [] ∧ completed = true then terminal.getLast?.map afterStop else none
     scaledownCompleted := completed
     dataSource := "prom.json replicas"
     samplingPrecisionSeconds := 15 }, warnings)

def computeScalingMetrics (k6Start k6Stop : ℤ) :
    List ReplicaSample → Except String (ScalingMetrics × List String)
  | [] => .ok ({
      events := []
      firstScaleupRelSeconds := none
      convergenceRelSeconds := none
      steadyStateReplicas := none
      firstScaledownRelSecondsAfterK6Stop := none
      fullScaledownRelSecondsAfterK6Stop := none
      scaledownCompleted := false
      dataSource := "prom.json replicas"
      samplingPrecisionSeconds := 15 },
      ["prom replicas series empty; scaling metrics unavailable"])
  | first :: rest => do
    let prevReplicas ← toInt first.2
    let events ← computeScalingMetrics.walk (wholeSeconds k6Start) prevReplicas rest
    let last ← toInt ((first :: rest).getLast (List.cons_ne_nil first rest)).2
    return computeScalingMetrics.derive events (wholeSeconds k6Start) (wholeSeconds k6Stop) last

/-- A series of whole counts, as the extraction passes it. -/
def wholeSeries (counts : List (ℤ × ℤ)) : List ReplicaSample :=
  counts.map fun sample => (sample.1, .finite (sample.2 : ℚ))

def Rises (pair : (ℤ × ℤ) × (ℤ × ℤ)) : Prop := pair.1.2 < pair.2.2

instance (pair : (ℤ × ℤ) × (ℤ × ℤ)) : Decidable (Rises pair) :=
  inferInstanceAs (Decidable (pair.1.2 < pair.2.2))

/-- The first sample at which the count becomes `replicas`. -/
def FirstReached (counts : List (ℤ × ℤ)) (replicas : ℤ) (sample : ℤ × ℤ) : Prop :=
  ∃ before earlier later, counts.zip counts.tail = earlier ++ (before, sample) :: later ∧
    (before.2 ≠ replicas ∧ sample.2 = replicas) ∧
    ∀ pair ∈ earlier, ¬ (pair.1.2 ≠ replicas ∧ pair.2.2 = replicas)

/-- The summary tells how the series ends, and its peak when it has an increase. -/
structure TellsSeries (counts : List (ℤ × ℤ)) (k6StartEpoch : ℤ) (metrics : ScalingMetrics) :
    Prop where
  completed : ∀ last ∈ counts.getLast?,
    (metrics.scaledownCompleted = true ↔ last.2 ≤ minReplicas)
  peak : (∃ pair ∈ counts.zip counts.tail, Rises pair) →
    ∃ replicas sample, metrics.steadyStateReplicas = some replicas ∧
      IsGreatest {n | ∃ s ∈ counts, s.2 = n} replicas ∧ FirstReached counts replicas sample ∧
      metrics.convergenceRelSeconds = some (sample.1 - k6StartEpoch)

/-- The series is not constant above the minimum, and if it has an increase, one of them gets to the
first count again. -/
structure Recovers (counts : List (ℤ × ℤ)) : Prop where
  settled : ∀ first ∈ counts.head?, (∀ s ∈ counts, s.2 = first.2) → first.2 ≤ minReplicas
  reached : ∀ first ∈ counts.head?, (∃ pair ∈ counts.zip counts.tail, Rises pair) →
    ∃ pair ∈ counts.zip counts.tail, Rises pair ∧ first.2 ≤ pair.2.2

section Events

variable {k6StartEpoch k6StopEpoch : ℤ} {first : ℤ × ℤ} {rest : List (ℤ × ℤ)}

theorem truncate_intCast (n : ℤ) : truncate (n : ℚ) = n := by
  unfold truncate
  rw [Int.floor_intCast, Int.ceil_intCast, ite_self]

theorem toInt_intCast (n : ℤ) : toInt (.finite (n : ℚ)) = .ok n :=
  congrArg Except.ok (truncate_intCast n)

def changeEvent (k6StartEpoch : ℤ) (pair : (ℤ × ℤ) × (ℤ × ℤ)) : ScalingEvent :=
  ⟨pair.2.1, pair.2.1 - k6StartEpoch, pair.1.2, pair.2.2⟩

/-- The event of a change, which `datetime` can date. -/
def datedEvent (k6StartEpoch : ℤ) (pair : (ℤ × ℤ) × (ℤ × ℤ)) : Except String ScalingEvent :=
  (fromTimestamp pair.2.1).map fun _ => changeEvent k6StartEpoch pair

theorem fromTimestamp_eq (epoch : ℤ) :
    fromTimestamp epoch = .ok epoch ∨ ∃ err, fromTimestamp epoch = .error err := by
  unfold fromTimestamp
  split_ifs
  · exact .inl rfl
  · exact .inr ⟨_, rfl⟩

theorem changes_eq_of_collect {pairs : List ((ℤ × ℤ) × (ℤ × ℤ))} {events : List ScalingEvent}
    (h : FirstFailure.collect (datedEvent k6StartEpoch) pairs = .ok events) :
    events = pairs.map (changeEvent k6StartEpoch) := by
  have hall : List.Forall₂ (fun pair e => changeEvent k6StartEpoch pair = e) pairs events := by
    refine ((FirstFailure.collect_ok_iff _ _ _).mp h).imp fun pair e he => ?_
    rcases fromTimestamp_eq pair.2.1 with hdated | ⟨err, herr⟩
    · rw [datedEvent, hdated] at he
      exact Except.ok.inj he
    · rw [datedEvent, herr] at he
      cases he
  rw [← List.forall₂_map_left_iff, List.forall₂_eq_eq_eq] at hall
  exact hall.symm

theorem walk_eq (first : ℤ × ℤ) (rest : List (ℤ × ℤ)) :
    computeScalingMetrics.walk k6StartEpoch first.2 (wholeSeries rest) =
      FirstFailure.collect (datedEvent k6StartEpoch)
        (Adjacent.changes Prod.snd (first :: rest)) := by
  induction rest generalizing first with
  | nil => rfl
  | cons second rest ih =>
    obtain ⟨tsEpoch, replicas⟩ := second
    have hwalk : computeScalingMetrics.walk k6StartEpoch first.2
        (wholeSeries ((tsEpoch, replicas) :: rest)) =
        if replicas ≠ first.2 then do
          let ts ← fromTimestamp tsEpoch
          let later ← computeScalingMetrics.walk k6StartEpoch replicas (wholeSeries rest)
          return ⟨ts, tsEpoch - k6StartEpoch, first.2, replicas⟩ :: later
        else computeScalingMetrics.walk k6StartEpoch first.2 (wholeSeries rest) := by
      change (toInt (.finite (replicas : ℚ)) >>= fun _ => _) = _
      rw [toInt_intCast]
      rfl
    rw [hwalk, Adjacent.changes_cons_cons]
    by_cases hchange : first.2 = replicas
    · rw [if_neg (not_not.mpr hchange.symm), if_neg (not_not.mpr hchange),
        ← ih (tsEpoch, replicas), hchange]
    · rw [if_pos (Ne.symm hchange), if_pos hchange, FirstFailure.collect,
        ← ih (tsEpoch, replicas), datedEvent]
      dsimp only
      rcases fromTimestamp_eq tsEpoch with hdated | ⟨err, herr⟩
      · rw [hdated]
        cases computeScalingMetrics.walk k6StartEpoch replicas (wholeSeries rest) <;> rfl
      · rw [herr]
        rfl

/-- The summary of the changes, once all of them have a date. -/
theorem computeScalingMetrics_ok_iff {first : ℤ × ℤ} {rest : List (ℤ × ℤ)} {k6Start k6Stop : ℤ}
    {summary : ScalingMetrics × List String} :
    computeScalingMetrics k6Start k6Stop (wholeSeries (first :: rest)) = .ok summary ↔
      (∃ events, FirstFailure.collect (datedEvent (wholeSeconds k6Start))
        (Adjacent.changes Prod.snd (first :: rest)) = .ok events) ∧
      computeScalingMetrics.derive
        ((Adjacent.changes Prod.snd (first :: rest)).map (changeEvent (wholeSeconds k6Start)))
        (wholeSeconds k6Start) (wholeSeconds k6Stop)
        ((first :: rest).getLast (List.cons_ne_nil first rest)).2 = summary := by
  have hlast : ((wholeSeries (first :: rest)).getLast (List.cons_ne_nil _ _)).2 =
      .finite (((first :: rest).getLast (List.cons_ne_nil first rest)).2 : ℚ) := by
    unfold wholeSeries
    rw [List.getLast_map]
  have hrun : computeScalingMetrics k6Start k6Stop (wholeSeries (first :: rest)) = (do
      let events ← FirstFailure.collect (datedEvent (wholeSeconds k6Start))
        (Adjacent.changes Prod.snd (first :: rest))
      return computeScalingMetrics.derive events (wholeSeconds k6Start) (wholeSeconds k6Stop)
        ((first :: rest).getLast (List.cons_ne_nil first rest)).2) := by
    change (toInt (.finite (first.2 : ℚ)) >>= fun prevReplicas => _) = _
    rw [toInt_intCast, ← walk_eq]
    change (computeScalingMetrics.walk _ _ (wholeSeries rest) >>= fun events =>
      toInt ((wholeSeries (first :: rest)).getLast (List.cons_ne_nil _ _)).2 >>= fun last => _) = _
    rw [hlast, toInt_intCast]
    rfl
  rw [hrun]
  cases hcollect : FirstFailure.collect (datedEvent (wholeSeconds k6Start))
      (Adjacent.changes Prod.snd (first :: rest)) with
  | error err => simp
  | ok events =>
    rw [changes_eq_of_collect hcollect]
    constructor
    · intro h
      exact ⟨⟨_, rfl⟩, Except.ok.inj h⟩
    · intro h
      exact congrArg Except.ok h.2

end Events

section Derive

variable {counts : List (ℤ × ℤ)} (k6StartEpoch : ℤ)

variable (counts) in
/-- The events of one direction are missing when no count moves that way. -/
theorem filter_events_eq_nil_iff (R : ℤ → ℤ → Prop) [DecidableRel R] (hne : ∀ a b, R a b → a ≠ b) :
    ((Adjacent.changes Prod.snd counts).map (changeEvent k6StartEpoch)).filter
      (fun e => decide (R e.fromReplicas e.toReplicas)) = [] ↔
    ∀ pair ∈ counts.zip counts.tail, ¬ R pair.1.2 pair.2.2 := by
  rw [List.filter_eq_nil_iff, List.forall_mem_map]
  constructor
  · intro h pair hpair hR
    exact h pair ((Adjacent.mem_changes_iff _).mpr ⟨hpair, hne _ _ hR⟩) (decide_eq_true hR)
  · intro h pair hpair hR
    exact h pair ((Adjacent.mem_changes_iff _).mp hpair).1 (of_decide_eq_true hR)

/-- The last count is the constant one, or a change leads to it. -/
theorem last_of_changes (first : ℤ × ℤ) (rest : List (ℤ × ℤ)) :
    (∀ s ∈ first :: rest, s.2 = first.2) ∨
      ∃ pair ∈ Adjacent.changes Prod.snd (first :: rest),
        pair.2.2 = ((first :: rest).getLast (List.cons_ne_nil first rest)).2 := by
  by_cases hconst : ∀ s ∈ first :: rest, s.2 = first.2
  · exact .inl hconst
  · refine .inr ?_
    have hsplit := List.dropLast_append_getLast (List.cons_ne_nil first rest)
    have hdiffer : ∃ s ∈ (first :: rest).dropLast,
        s.2 ≠ ((first :: rest).getLast (List.cons_ne_nil first rest)).2 := by
      by_contra hall
      push Not at hall
      have hsame : ∀ s ∈ first :: rest,
          s.2 = ((first :: rest).getLast (List.cons_ne_nil first rest)).2 := by
        intro s hs
        rw [← hsplit] at hs
        rcases List.mem_append.mp hs with hinit | hlast
        · exact hall s hinit
        · rw [List.mem_singleton.mp hlast]
      exact hconst fun s hs => (hsame s hs).trans (hsame first List.mem_cons_self).symm
    have hchange := Adjacent.exists_change_to_last Prod.snd hdiffer
    rwa [hsplit] at hchange

section Completed

variable {first : ℤ × ℤ} {rest : List (ℤ × ℤ)}

theorem eq_of_constant (hconst : ∀ s ∈ first :: rest, s.2 = first.2) :
    ∀ pair ∈ (first :: rest).zip rest, pair.1.2 = pair.2.2 := by
  intro pair hpair
  obtain ⟨hbefore, hafter⟩ := List.of_mem_zip hpair
  exact (hconst _ hbefore).trans (hconst _ (List.mem_cons_of_mem _ hafter)).symm

/-- After a decrease, an end at the minimum has a decrease to it. -/
theorem completed_of_falls (hcounts : ∀ s ∈ first :: rest, minReplicas ≤ s.2) {events terminal}
    (hevents : events =
      (Adjacent.changes Prod.snd (first :: rest)).map (changeEvent k6StartEpoch))
    (hterminal : terminal = (events.filter fun e => decide (e.toReplicas < e.fromReplicas)).filter
      fun e => decide (e.toReplicas = minReplicas))
    (hfalls : ∃ pair ∈ (first :: rest).zip rest, pair.2.2 < pair.1.2)
    (hlast : ((first :: rest).getLast (List.cons_ne_nil first rest)).2 ≤ minReplicas) :
    terminal ≠ [] := by
  have hlastMin := le_antisymm hlast (hcounts _ (List.getLast_mem _))
  rcases last_of_changes first rest with hconst | ⟨pair, hpair, hto⟩
  · obtain ⟨pair, hpair, hfall⟩ := hfalls
    exact absurd (eq_of_constant hconst pair hpair) hfall.ne'
  · obtain ⟨hzip, hne⟩ := (Adjacent.mem_changes_iff _).mp hpair
    have hmin : pair.2.2 = minReplicas := hto.trans hlastMin
    have hfrom := hcounts _ (List.of_mem_zip hzip).1
    have hfall : pair.2.2 < pair.1.2 := by
      rw [hmin]
      exact lt_of_le_of_ne hfrom fun heq => hne (heq.symm.trans hmin.symm)
    refine List.ne_nil_of_mem (a := changeEvent k6StartEpoch pair) ?_
    rw [hterminal, hevents, List.mem_filter, List.mem_filter]
    exact ⟨⟨List.mem_map_of_mem hpair, decide_eq_true hfall⟩, decide_eq_true hmin⟩

theorem lt_of_no_falls (hcounts : ∀ s ∈ first :: rest, minReplicas ≤ s.2)
    (hrises : ∀ pair ∈ (first :: rest).zip rest, pair.1.2 ≤ pair.2.2) :
    ∀ pair ∈ Adjacent.changes Prod.snd (first :: rest), minReplicas < pair.2.2 := by
  intro pair hpair
  obtain ⟨hzip, hne⟩ := (Adjacent.mem_changes_iff _).mp hpair
  exact (hcounts _ (List.of_mem_zip hzip).1).trans_lt (lt_of_le_of_ne (hrises pair hzip) hne)

theorem not_peak_le {pair : (ℤ × ℤ) × (ℤ × ℤ)}
    (hpair : pair ∈ Adjacent.changes Prod.snd (first :: rest)) (habove : minReplicas < pair.2.2) :
    ¬ ∀ replicas ∈ (((Adjacent.changes Prod.snd (first :: rest)).map
      (changeEvent k6StartEpoch)).map (·.toReplicas)).max?, replicas ≤ minReplicas := by
  intro hall
  have hmem : pair.2.2 ∈ ((Adjacent.changes Prod.snd (first :: rest)).map
      (changeEvent k6StartEpoch)).map (·.toReplicas) :=
    List.mem_map.mpr ⟨_, List.mem_map_of_mem hpair, rfl⟩
  obtain ⟨replicas, hmax⟩ := Option.isSome_iff_exists.mp (List.isSome_max?_of_mem hmem)
  have hle := (List.max?_eq_some_iff.mp hmax).2 _ hmem
  exact habove.not_ge (hle.trans (hall replicas hmax))

theorem completed_iff (hcounts : ∀ s ∈ first :: rest, minReplicas ≤ s.2) (k6StopEpoch : ℤ) :
    ((computeScalingMetrics.derive
        ((Adjacent.changes Prod.snd (first :: rest)).map (changeEvent k6StartEpoch)) k6StartEpoch
        k6StopEpoch ((first :: rest).getLast (List.cons_ne_nil first rest)).2).1.scaledownCompleted
          = true ↔ ((first :: rest).getLast (List.cons_ne_nil first rest)).2 ≤ minReplicas) ↔
      ((∀ s ∈ first :: rest, s.2 = first.2) → first.2 ≤ minReplicas) := by
  set last := (first :: rest).getLast (List.cons_ne_nil first rest) with hlastdef
  set events := (Adjacent.changes Prod.snd (first :: rest)).map (changeEvent k6StartEpoch)
    with hevents
  have hlastmem : last ∈ first :: rest := List.getLast_mem _
  have hdowns := filter_events_eq_nil_iff (first :: rest) k6StartEpoch
    (fun a b => b < a) fun a b h => h.ne'
  have hups := filter_events_eq_nil_iff (first :: rest) k6StartEpoch
    (fun a b => a < b) fun a b h => h.ne
  rw [← hevents] at hdowns hups
  unfold computeScalingMetrics.derive
  dsimp only
  by_cases hdown : events.filter (fun e => decide (e.toReplicas < e.fromReplicas)) = []
  · have hrises : ∀ pair ∈ (first :: rest).zip rest, pair.1.2 ≤ pair.2.2 :=
      fun pair hpair => not_lt.mp (hdowns.mp hdown pair hpair)
    have habove := lt_of_no_falls hcounts hrises
    rw [if_pos hdown, decide_eq_true_eq]
    rcases last_of_changes first rest with hconst | ⟨pair, hpair, hto⟩
    · -- no count changes, which the code takes for a completed scale-down
      have hflat : ∀ pair ∈ (first :: rest).zip rest, ¬ pair.1.2 < pair.2.2 :=
        fun pair hpair => (eq_of_constant hconst pair hpair).not_lt
      have hnone : ∀ replicas ∈ (none : Option ℤ), replicas ≤ minReplicas := by simp
      rw [if_pos (hups.mpr hflat), hconst last hlastmem, iff_true_left hnone, forall_prop_of_true]
      exact hconst
    · have hnotlast : ¬ last.2 ≤ minReplicas := not_le.mpr (hto ▸ habove pair hpair)
      obtain ⟨hzip, hne⟩ := (Adjacent.mem_changes_iff _).mp hpair
      have hscaleups : events.filter (fun e => decide (e.fromReplicas < e.toReplicas)) ≠ [] :=
        fun hnil => hups.mp hnil pair hzip (lt_of_le_of_ne (hrises pair hzip) hne)
      have hvaries : ¬ ∀ s ∈ first :: rest, s.2 = first.2 :=
        fun hconst => hne (eq_of_constant hconst pair hzip)
      have hpeak := not_peak_le k6StartEpoch hpair (habove pair hpair)
      rw [if_neg hscaleups]
      exact iff_of_true (iff_of_false hpeak hnotlast) fun hconst => absurd hconst hvaries
  · obtain ⟨pair, hpair, hfall⟩ : ∃ pair ∈ (first :: rest).zip rest, pair.2.2 < pair.1.2 := by
      by_contra hnone
      push Not at hnone
      exact hdown (hdowns.mpr fun pair hpair => not_lt.mpr (hnone pair hpair))
    have hvaries : ¬ ∀ s ∈ first :: rest, s.2 = first.2 :=
      fun hconst => hfall.ne' (eq_of_constant hconst pair hpair)
    rw [if_neg hdown, Bool.and_eq_true, decide_eq_true_eq, decide_eq_true_eq]
    refine iff_of_true ⟨And.left, fun hlast => ⟨hlast, ?_⟩⟩ fun hconst => absurd hconst hvaries
    exact completed_of_falls k6StartEpoch hcounts hevents rfl ⟨pair, hpair, hfall⟩ hlast

end Completed

section Peak

variable {k6StartEpoch} {first : ℤ × ℤ} {rest : List (ℤ × ℤ)}

/-- The first event that leads to `replicas` is at the first sample at which they are reached. -/
theorem firstReached_of_head? {replicas : ℤ} {e : ScalingEvent}
    (h : (((Adjacent.changes Prod.snd counts).map (changeEvent k6StartEpoch)).filter
      fun e => decide (e.toReplicas = replicas)).head? = some e) :
    ∃ sample, FirstReached counts replicas sample ∧
      e.relSecondsFromK6Start = sample.1 - k6StartEpoch := by
  rw [List.head?_filter, List.find?_map, Adjacent.changes, List.find?_filter] at h
  obtain ⟨⟨before, sample⟩, hfind, rfl⟩ := Option.map_eq_some_iff.mp h
  obtain ⟨htest, earlier, later, hsplit, hearlier⟩ := List.find?_eq_some_iff_append.mp hfind
  rw [decide_eq_true_eq, decide_eq_true_eq] at htest
  have hto : sample.2 = replicas := of_decide_eq_true htest.2
  refine ⟨sample, ⟨before, earlier, later, hsplit, ⟨?_, hto⟩, ?_⟩, rfl⟩
  · exact fun heq => htest.1 (heq.trans hto.symm)
  · rintro pair hpair ⟨hfrom, hreached⟩
    have hnot := hearlier pair hpair
    rw [Bool.not_eq_true', decide_eq_false_iff_not, decide_eq_true_eq] at hnot
    exact hnot ⟨fun heq => hfrom (heq.trans hreached), decide_eq_true hreached⟩

/-- The highest count that a change leads to is the peak unless the first count is above it. -/
theorem isGreatest_iff {m : ℤ}
    (hmax : ((Adjacent.changes Prod.snd (first :: rest)).map fun pair => pair.2.2).max? = some m) :
    IsGreatest {n | ∃ s ∈ first :: rest, s.2 = n} m ↔ first.2 ≤ m := by
  obtain ⟨hmem, hle⟩ := List.max?_eq_some_iff.mp hmax
  obtain ⟨pair, hpair, rfl⟩ := List.mem_map.mp hmem
  have hafter := (List.of_mem_zip ((Adjacent.mem_changes_iff _).mp hpair).1).2
  constructor
  · intro h
    exact h.2 ⟨first, List.mem_cons_self, rfl⟩
  · intro hfirst
    refine ⟨⟨pair.2, List.mem_cons_of_mem _ hafter, rfl⟩, ?_⟩
    rintro _ ⟨s, hs, rfl⟩
    rcases Adjacent.eq_first_or_changed Prod.snd first rest s hs with heq | ⟨next, hnext, heq⟩
    · exact heq.trans_le hfirst
    · exact heq ▸ hle _ (List.mem_map_of_mem hnext)

/-- The highest count that a change leads to is one that an increase leads to, unless the first
count is above it. -/
theorem reached_iff {m : ℤ}
    (hmax : ((Adjacent.changes Prod.snd (first :: rest)).map fun pair => pair.2.2).max? = some m) :
    (∃ pair ∈ (first :: rest).zip rest, Rises pair ∧ first.2 ≤ pair.2.2) ↔ first.2 ≤ m := by
  obtain ⟨hmem, hle⟩ := List.max?_eq_some_iff.mp hmax
  constructor
  · rintro ⟨pair, hpair, hrises, hfirst⟩
    have hchange := (Adjacent.mem_changes_iff Prod.snd).mpr ⟨hpair, hrises.ne⟩
    exact hfirst.trans (hle _ (List.mem_map_of_mem hchange))
  · intro hfirst
    obtain ⟨pair, hpair, rfl⟩ := List.mem_map.mp hmem
    obtain ⟨hzip, hne⟩ := (Adjacent.mem_changes_iff _).mp hpair
    refine ⟨pair, hzip, lt_of_le_of_ne ?_ hne, hfirst⟩
    have hbefore := (List.of_mem_zip hzip).1
    rcases Adjacent.eq_first_or_changed Prod.snd first rest _ hbefore with heq | ⟨next, hnext, heq⟩
    · exact heq.trans_le hfirst
    · exact heq ▸ hle _ (List.mem_map_of_mem hnext)

variable (k6StartEpoch) in
theorem derive_of_rises (hrises : ∃ pair ∈ (first :: rest).zip rest, Rises pair)
    (k6StopEpoch last : ℤ) : ∃ m sample,
      ((Adjacent.changes Prod.snd (first :: rest)).map fun pair => pair.2.2).max? = some m ∧
      FirstReached (first :: rest) m sample ∧
      (computeScalingMetrics.derive
        ((Adjacent.changes Prod.snd (first :: rest)).map (changeEvent k6StartEpoch)) k6StartEpoch
        k6StopEpoch last).1.steadyStateReplicas = some m ∧
      (computeScalingMetrics.derive
        ((Adjacent.changes Prod.snd (first :: rest)).map (changeEvent k6StartEpoch)) k6StartEpoch
        k6StopEpoch last).1.convergenceRelSeconds = some (sample.1 - k6StartEpoch) := by
  obtain ⟨pair, hpair, hrise⟩ := hrises
  set events := (Adjacent.changes Prod.snd (first :: rest)).map (changeEvent k6StartEpoch)
    with hevents
  have hscaleups : events.filter (fun e => decide (e.fromReplicas < e.toReplicas)) ≠ [] := by
    rw [hevents, Ne, filter_events_eq_nil_iff _ k6StartEpoch (fun a b => a < b) fun a b h => h.ne]
    exact fun hnone => hnone pair hpair hrise
  have htargets : events.map (·.toReplicas) =
      (Adjacent.changes Prod.snd (first :: rest)).map fun pair => pair.2.2 := List.map_map
  have hchange := (Adjacent.mem_changes_iff Prod.snd).mpr ⟨hpair, hrise.ne⟩
  obtain ⟨m, hmax⟩ := Option.isSome_iff_exists.mp
    (List.isSome_max?_of_mem (List.mem_map_of_mem (f := fun pair => pair.2.2) hchange))
  obtain ⟨top, htop, hm⟩ := List.mem_map.mp (List.max?_eq_some_iff.mp hmax).1
  have hfound : changeEvent k6StartEpoch top ∈ events.filter fun e => decide (e.toReplicas = m) :=
    List.mem_filter.mpr ⟨List.mem_map_of_mem htop, decide_eq_true hm⟩
  obtain ⟨e, he⟩ := Option.isSome_iff_exists.mp
    (List.isSome_head?.mpr (List.ne_nil_of_mem hfound))
  obtain ⟨sample, hfirst, hrel⟩ := firstReached_of_head? he
  refine ⟨m, sample, hmax, hfirst, ?_, ?_⟩
  · unfold computeScalingMetrics.derive
    dsimp only
    rw [if_neg hscaleups, htargets, hmax]
  · unfold computeScalingMetrics.derive
    dsimp only
    rw [if_neg hscaleups, if_neg hscaleups, htargets, hmax]
    simp only [Option.some_inj]
    rw [he, Option.map_some, hrel]

end Peak

end Derive

/-- The summary tells the series exactly when it is not constant above the minimum and an increase,
if it has one, gets to the first count again. -/
theorem scaling_summary_faithful_iff {counts : List (ℤ × ℤ)} (hne : counts ≠ [])
    (hcounts : ∀ s ∈ counts, 1 ≤ s.2) (k6Start k6Stop : ℤ) :
    (∀ metrics warnings,
      computeScalingMetrics k6Start k6Stop (wholeSeries counts) = .ok (metrics, warnings) →
        (TellsSeries counts (wholeSeconds k6Start) metrics ↔ Recovers counts)) ∧
    ((∀ s ∈ counts, fromTimestamp s.1 = .ok s.1) → ∃ summary,
      computeScalingMetrics k6Start k6Stop (wholeSeries counts) = .ok summary) := by
  obtain ⟨first, rest, rfl⟩ := List.exists_cons_of_ne_nil hne
  constructor
  · intro metrics warnings hrun
    obtain ⟨-, hderive⟩ := computeScalingMetrics_ok_iff.mp hrun
    have hcompleted := completed_iff (wholeSeconds k6Start) hcounts (wholeSeconds k6Stop)
    have hlast := List.getLast?_eq_some_getLast (List.cons_ne_nil first rest)
    rw [hderive] at hcompleted
    constructor
    · intro h
      refine ⟨fun _ hfirst => ?_, fun _ hfirst hrises => ?_⟩
      · cases Option.some.inj hfirst
        exact hcompleted.mp (h.completed _ hlast)
      · cases Option.some.inj hfirst
        obtain ⟨replicas, sample, hsteady, hgreatest, -, -⟩ := h.peak hrises
        obtain ⟨m, -, hmax, -, hm, -⟩ := derive_of_rises (wholeSeconds k6Start) hrises
          (wholeSeconds k6Stop) ((first :: rest).getLast (List.cons_ne_nil first rest)).2
        rw [hderive, hsteady] at hm
        cases Option.some.inj hm
        exact (reached_iff hmax).mpr ((isGreatest_iff hmax).mp hgreatest)
    · intro h
      refine ⟨fun last hmem => ?_, fun hrises => ?_⟩
      · cases Option.some.inj (hlast.symm.trans hmem)
        exact hcompleted.mpr (h.settled first rfl)
      · obtain ⟨m, sample, hmax, hfirst, hsteady, hconvergence⟩ :=
          derive_of_rises (wholeSeconds k6Start) hrises (wholeSeconds k6Stop)
            ((first :: rest).getLast (List.cons_ne_nil first rest)).2
        rw [hderive] at hsteady hconvergence
        have hgreatest := (isGreatest_iff hmax).mpr
          ((reached_iff hmax).mp (h.reached first rfl hrises))
        exact ⟨m, sample, hsteady, hgreatest, hfirst, hconvergence⟩
  · intro hdated
    refine ⟨_, computeScalingMetrics_ok_iff.mpr ⟨?_, rfl⟩⟩
    refine (FirstFailure.exists_collect_ok_iff _ _).mpr fun pair hpair => ?_
    have hmem := (List.of_mem_zip ((Adjacent.mem_changes_iff _).mp hpair).1).2
    exact ⟨changeEvent _ pair, by rw [datedEvent, hdated _ (List.mem_cons_of_mem _ hmem)]; rfl⟩

/-- A scale-up that is taken back to the minimum. -/
theorem scaling_summary_faithful_iff_return :
    (∀ s ∈ [((15 : ℤ), (1 : ℤ)), (30, 3), (45, 1)], 1 ≤ s.2) ∧ ∃ metrics warnings,
      computeScalingMetrics 0 40000000 (wholeSeries [(15, 1), (30, 3), (45, 1)]) =
        .ok (metrics, warnings) ∧
      TellsSeries [(15, 1), (30, 3), (45, 1)] 0 metrics := by
  have hcounts : ∀ s ∈ [((15 : ℤ), (1 : ℤ)), (30, 3), (45, 1)], 1 ≤ s.2 := by decide
  have htells := scaling_summary_faithful_iff (List.cons_ne_nil _ _) hcounts 0 40000000
  obtain ⟨⟨metrics, warnings⟩, hrun⟩ := htells.2 (by decide)
  refine ⟨hcounts, metrics, warnings, hrun, (htells.1 metrics warnings hrun).mpr ⟨?_, ?_⟩⟩
  · rintro _ ⟨⟩ hconst
    exact absurd (hconst (30, 3) (by decide)) (by decide)
  · rintro _ ⟨⟩ -
    exact ⟨((15, 1), (30, 3)), by decide, by decide⟩

/-- A constant series above the minimum counts as scaled down, and a first count above all later
ones is not the peak. -/
theorem scaling_summary_unfaithful :
    (∃ metrics warnings, computeScalingMetrics 0 20000000 (wholeSeries [(15, 3), (30, 3)]) =
        .ok (metrics, warnings) ∧ ¬ TellsSeries [(15, 3), (30, 3)] 0 metrics) ∧
    ∃ metrics warnings,
      computeScalingMetrics 0 40000000 (wholeSeries [(15, 10), (30, 2), (45, 3)]) =
        .ok (metrics, warnings) ∧ ¬ TellsSeries [(15, 10), (30, 2), (45, 3)] 0 metrics := by
  constructor
  · refine ⟨_, _, computeScalingMetrics_ok_iff.mpr ⟨⟨_, rfl⟩, rfl⟩, fun h => ?_⟩
    exact absurd ((h.completed (30, 3) rfl).mp rfl) (by decide)
  · refine ⟨_, _, computeScalingMetrics_ok_iff.mpr ⟨⟨_, rfl⟩, rfl⟩, fun h => ?_⟩
    obtain ⟨replicas, -, hsteady, hgreatest, -⟩ :=
      h.peak ⟨((30, 2), (45, 3)), by decide, by decide⟩
    have hpeak : replicas = 3 := (Option.some.inj hsteady).symm
    have hfirst : (10 : ℤ) ≤ replicas := hgreatest.2 ⟨(15, 10), by decide, rfl⟩
    omega

end Autoscaler.Analysis
