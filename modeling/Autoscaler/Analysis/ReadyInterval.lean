import Autoscaler.Analysis.WriteChain
import Mathlib.Algebra.Order.Group.Defs

/-! When the ready replicas first exceeded their initial number after an expansion, as
`ready_interval` bounds it. -/
namespace Autoscaler.Analysis

variable {T : Type*} [LinearOrder T]

/-- The number that a decoded value stands for in a comparison. -/
def comparedNumber : JsonValue → Except String (Float64 ℚ)
  | .number value => .ok value
  | .boolean value => .ok (.finite (if value then 1 else 0))
  | .null | .other => .error "TypeError"

def exceeds (initial : ℤ) : Float64 ℚ → Bool
  | .finite ready => decide ((initial : ℚ) < ready)
  | .inf negative => !negative
  | .nan => false

def atMost (initial : ℤ) : Float64 ℚ → Bool
  | .finite ready => decide (ready ≤ initial)
  | .inf negative => negative
  | .nan => false

def firstUpscale (onset : T) (writes : List (ScaleWrite T)) : Option (ScaleWrite T) :=
  writes.find? fun write => decide (onset ≤ write.finished) && decide (write.before < write.after)

/-- The loop over the reads, with the start of the last one that did not exceed `initial`. -/
def readyInterval.loop (scaled : T) (initial : ℤ) :
    Option T → List (StateRow T) → Except String (Option (Option T × T))
  | _, [] => .ok none
  | previous, row :: rest =>
    if !row.isRead then loop scaled initial previous rest
    else
      match readInterval row "deployment" with
      | .error err => .error err
      | .ok (start, finish) =>
        match row.response.lookup "deployment" with
        | none => .error "KeyError: deployment"
        | some obj =>
          match comparedNumber (fieldValue obj .ready) with
          | .error err => .error err
          | .ok ready =>
            if scaled ≤ finish ∧ exceeds initial ready = true then .ok (some (previous, finish))
            else loop scaled initial (if atMost initial ready then some start else previous) rest

/-- `ready_interval`; its bounds are relative to the onset. -/
def readyInterval [AddCommGroup T] (states : List (StateRow T)) (onset : T)
    (writes : List (ScaleWrite T)) (initial : ℤ) : Except String (Option (Option T × T)) :=
  match firstUpscale onset writes with
  | none => .ok none
  | some write =>
    (readyInterval.loop write.finished initial none states).map fun interval =>
      interval.map fun bounds => (bounds.1.map (· - onset), bounds.2 - onset)

/-! The ready replicas of a target that exceed their initial number from one instant on. -/

/-- A successful read shows how many replicas were ready at an instant of its request. -/
structure ReadsReady (readyAt : T → ℤ) (row : StateRow T) (obj : Resource) (t : T) : Prop where
  found : row.response.lookup "deployment" = some obj
  started : (row.timingOf "deployment").requestStartedAt ≤ t
  finished : t ≤ (row.timingOf "deployment").requestFinishedAt
  value : fieldValue obj .ready = .number (.finite (readyAt t))

def ShowsMore (initial : ℤ) (row : StateRow T) : Prop :=
  ∃ obj ready, row.response.lookup "deployment" = some obj ∧
    fieldValue obj .ready = .number (.finite ready) ∧ (initial : ℚ) < ready

section Crossing

variable {readyAt : T → ℤ} {initial : ℤ} {crossing scaled : T}

theorem ReadsReady.showsMore_iff {row : StateRow T} {obj : Resource} {t : T}
    (h : ReadsReady readyAt row obj t) : ShowsMore initial row ↔ initial < readyAt t := by
  constructor
  · rintro ⟨obj', ready, hfound, hvalue, hmore⟩
    obtain rfl : obj' = obj := Option.some.inj (hfound.symm.trans h.found)
    have hready : ready = readyAt t := by
      have hsame := hvalue.symm.trans h.value
      simpa using hsame
    rw [hready] at hmore
    exact_mod_cast hmore
  · intro hmore
    exact ⟨obj, readyAt t, h.found, h.value, by exact_mod_cast hmore⟩

theorem readyInterval.loop_read {row : StateRow T} (hread : row.isRead = true) {obj : Resource}
    {t : T} (h : ReadsReady readyAt row obj t) (previous : Option T) (rest : List (StateRow T)) :
    readyInterval.loop scaled initial previous (row :: rest) =
      if scaled ≤ (row.timingOf "deployment").requestFinishedAt ∧ initial < readyAt t then
        .ok (some (previous, (row.timingOf "deployment").requestFinishedAt))
      else readyInterval.loop scaled initial
        (if readyAt t ≤ initial then some (row.timingOf "deployment").requestStartedAt
          else previous) rest := by
  have hinterval := readInterval_ok (h.started.trans h.finished)
  rw [readyInterval.loop, hread, hinterval, h.found]
  simp [h.value, comparedNumber, exceeds, atMost]

theorem readyInterval.loop_skipped {row : StateRow T} (hread : row.isRead = false)
    (previous : Option T) (rest : List (StateRow T)) :
    readyInterval.loop scaled initial previous (row :: rest) =
      readyInterval.loop scaled initial previous rest := by
  rw [readyInterval.loop, hread]
  rfl

/-- The interval that the loop finds is around the crossing, and it finds one when a read shows
it. -/
theorem readyInterval.loop_brackets (hcrossing : ∀ t, initial < readyAt t ↔ crossing ≤ t)
    {states : List (StateRow T)}
    (hreads : ∀ row ∈ reads states, ∃ obj t, ReadsReady readyAt row obj t) {previous : Option T}
    (hprevious : ∀ p ∈ previous, p < crossing) :
    ∃ interval, readyInterval.loop scaled initial previous states = .ok interval ∧
      (∀ bounds ∈ interval, crossing ≤ bounds.2 ∧ ∀ p ∈ bounds.1, p < crossing) ∧
      (interval = none ↔ ∀ row ∈ reads states,
        scaled ≤ (row.timingOf "deployment").requestFinishedAt → ¬ ShowsMore initial row) := by
  induction states generalizing previous with
  | nil => exact ⟨none, rfl, by simp, by simp [reads]⟩
  | cons row rest ih =>
    cases hread : row.isRead with
    | false =>
      have hsame : reads (row :: rest) = reads rest := by simp [reads, hread]
      rw [hsame] at hreads ⊢
      rw [readyInterval.loop_skipped hread]
      exact ih hreads hprevious
    | true =>
      have hsplit : reads (row :: rest) = row :: reads rest := by simp [reads, hread]
      rw [hsplit] at hreads ⊢
      obtain ⟨⟨obj, t, hrow⟩, hrest⟩ := List.forall_mem_cons.mp hreads
      rw [readyInterval.loop_read hread hrow, List.forall_mem_cons, hrow.showsMore_iff]
      by_cases hfound : scaled ≤ (row.timingOf "deployment").requestFinishedAt ∧
          initial < readyAt t
      · rw [if_pos hfound]
        have hbefore : crossing ≤ (row.timingOf "deployment").requestFinishedAt :=
          ((hcrossing t).mp hfound.2).trans hrow.finished
        refine ⟨_, rfl, ?_, ?_⟩
        · rintro _ ⟨⟩
          exact ⟨hbefore, hprevious⟩
        · constructor
          · intro hnone
            cases hnone
          · intro hnever
            exact absurd hfound.2 (hnever.1 hfound.1)
      · rw [if_neg hfound]
        have hlater : ∀ p ∈ (if readyAt t ≤ initial then
            some (row.timingOf "deployment").requestStartedAt else previous), p < crossing := by
          split_ifs with hmost
          · rintro p ⟨⟩
            have hnot : ¬ crossing ≤ t := fun h => absurd ((hcrossing t).mpr h) (by omega)
            exact hrow.started.trans_lt (not_le.mp hnot)
          · exact hprevious
        obtain ⟨interval, hloop, hbounds, hnone⟩ := ih hrest hlater
        refine ⟨interval, hloop, hbounds, hnone.trans ?_⟩
        constructor
        · intro hnever
          exact ⟨fun hlate hmore => hfound ⟨hlate, hmore⟩, hnever⟩
        · exact And.right

end Crossing

/-- For a target whose ready replicas exceed their initial number from one instant on, and reads
that show how many were ready at an instant of their request, the reported interval is around that
instant. There is none only if no write expanded the target, or no read that finished after the
first one that did shows more ready replicas. -/
theorem ready_interval_brackets [AddCommGroup T] [IsOrderedAddMonoid T] {readyAt : T → ℤ}
    {initial : ℤ} {crossing : T} (hcrossing : ∀ t, initial < readyAt t ↔ crossing ≤ t)
    {states : List (StateRow T)}
    (hreads : ∀ row ∈ reads states, ∃ obj t, ReadsReady readyAt row obj t) (onset : T)
    (writes : List (ScaleWrite T)) :
    ∃ interval, readyInterval states onset writes initial = .ok interval ∧
      (∀ bounds ∈ interval, crossing - onset ≤ bounds.2 ∧ ∀ p ∈ bounds.1, p < crossing - onset) ∧
      (interval = none ↔ ∀ write ∈ firstUpscale onset writes, ∀ row ∈ reads states,
        write.finished ≤ (row.timingOf "deployment").requestFinishedAt →
          ¬ ShowsMore initial row) := by
  unfold readyInterval
  cases hupscale : firstUpscale onset writes with
  | none => exact ⟨none, rfl, by simp, by simp⟩
  | some write =>
    obtain ⟨interval, hloop, hbounds, hnone⟩ : ∃ interval,
        readyInterval.loop write.finished initial none states = .ok interval ∧ _ ∧ _ :=
      readyInterval.loop_brackets hcrossing hreads (by simp)
    refine ⟨interval.map fun bounds => (bounds.1.map (· - onset), bounds.2 - onset), ?_, ?_, ?_⟩
    · dsimp only
      rw [hloop]
      rfl
    · intro bounds hmem
      obtain ⟨found, hfound, rfl⟩ := Option.map_eq_some_iff.mp hmem
      obtain ⟨hlast, hfirst⟩ := hbounds found hfound
      constructor
      · exact sub_le_sub_right hlast onset
      · intro p hp
        obtain ⟨q, hq, rfl⟩ := Option.map_eq_some_iff.mp hp
        exact sub_lt_sub_right (hfirst q hq) onset
    · rw [Option.map_eq_none_iff, hnone]
      simp

def readyRow (start finish ready : ℤ) : StateRow ℤ where
  kind := "state"
  status := "success"
  timing := ⟨start, finish⟩
  requests := []
  response := [("deployment",
    ⟨some 1, .number (.finite 7), some (.number (.finite ready)), []⟩)]

def readySince (t : ℤ) : ℤ := if 20 ≤ t then 7 else 5

theorem ready_interval_brackets_written :
    readyInterval [readyRow 6 8 5, readyRow 14 16 5, readyRow 22 24 7] 4 [⟨10, 12, 5, 7⟩] 5 =
        .ok (some (some 10, 20)) ∧
      (20 - 4 : ℤ) ≤ 20 ∧ (10 : ℤ) < 20 - 4 := by
  have hcrossing : ∀ t, 5 < readySince t ↔ 20 ≤ t := by
    intro t
    unfold readySince
    split_ifs <;> omega
  have hreads : ∀ row ∈ reads [readyRow 6 8 5, readyRow 14 16 5, readyRow 22 24 7],
      ∃ obj t, ReadsReady readySince row obj t := by
    have hall : reads [readyRow 6 8 5, readyRow 14 16 5, readyRow 22 24 7] =
        [readyRow 6 8 5, readyRow 14 16 5, readyRow 22 24 7] := by decide
    rw [hall]
    simp only [List.forall_mem_cons, List.not_mem_nil, false_implies, implies_true, and_true]
    refine ⟨⟨_, 7, rfl, ?_, ?_, rfl⟩, ⟨_, 15, rfl, ?_, ?_, rfl⟩, ⟨_, 23, rfl, ?_, ?_, rfl⟩⟩
    all_goals decide
  have hinterval : readyInterval [readyRow 6 8 5, readyRow 14 16 5, readyRow 22 24 7] 4
      [⟨10, 12, 5, 7⟩] 5 = .ok (some (some 10, 20)) := by decide +kernel
  obtain ⟨interval, hfound, hbounds, -⟩ :=
    ready_interval_brackets hcrossing hreads 4 [⟨10, 12, 5, 7⟩]
  obtain rfl : some (some 10, 20) = interval := Except.ok.inj (hinterval.symm.trans hfound)
  obtain ⟨hlast, hfirst⟩ := hbounds _ rfl
  exact ⟨hinterval, hlast, hfirst 10 rfl⟩

end Autoscaler.Analysis
