import Mathlib.Data.List.Basic
import Mathlib.Order.Lattice

/-! Operations with closed time intervals, each of which takes effect at one instant of its own,
in a fixed order. -/
namespace EffectTimeline

variable {α T : Type*} [LinearOrder T] (started finished : α → T)

/-- Intervals that are nonempty and do not overlap; they may touch. -/
structure Ordered (ops : List α) : Prop where
  valid : ∀ op ∈ ops, started op ≤ finished op
  disjoint : ops.Pairwise fun op later => finished op ≤ started later

/-- An assignment of effect instants to the operations, in their order. -/
structure Timeline (ops : List α) where
  effects : List (α × T)
  effects_ops : effects.map Prod.fst = ops
  within : ∀ effect ∈ effects, started effect.1 ≤ effect.2 ∧ effect.2 ≤ finished effect.1
  ordered : effects.Pairwise fun effect later => effect.2 ≤ later.2

variable {started finished}

/-- Exactly the operations before the cut have taken effect by `t`. An effect at `t` itself may lie
on either side. -/
def Timeline.Cut {ops : List α} (timeline : Timeline started finished ops) (t : T)
    (before after : List α) : Prop :=
  ∃ past future, timeline.effects = past ++ future ∧ past.map Prod.fst = before ∧
    future.map Prod.fst = after ∧ (∀ effect ∈ past, effect.2 ≤ t) ∧ ∀ effect ∈ future, t ≤ effect.2

variable {before after : List α} {low high : T}

theorem Ordered.left (h : Ordered started finished (before ++ after)) :
    Ordered started finished before where
  valid op hop := h.valid op (List.mem_append_left after hop)
  disjoint := (List.pairwise_append.mp h.disjoint).1

theorem Ordered.right (h : Ordered started finished (before ++ after)) :
    Ordered started finished after where
  valid op hop := h.valid op (List.mem_append_right before hop)
  disjoint := (List.pairwise_append.mp h.disjoint).2.1

theorem Ordered.tail {op : α} (h : Ordered started finished (op :: after)) :
    Ordered started finished after where
  valid later hlater := h.valid later (List.mem_cons_of_mem op hlater)
  disjoint := (List.pairwise_cons.mp h.disjoint).2

theorem Timeline.Cut.ops_eq {ops : List α} {timeline : Timeline started finished ops} {t : T}
    (h : timeline.Cut t before after) : ops = before ++ after := by
  obtain ⟨past, future, hsplit, rfl, rfl, -, -⟩ := h
  have hops := timeline.effects_ops
  rw [hsplit, List.map_append] at hops
  exact hops.symm

/-- A cut at an instant of `[low, high]` separates what starts late from what finishes early. -/
theorem Timeline.Cut.bounds {ops : List α} {timeline : Timeline started finished ops} {t : T}
    (h : timeline.Cut t before after) (hlow : low ≤ t) (hhigh : t ≤ high) :
    (∀ op ∈ before, started op ≤ high) ∧ ∀ op ∈ after, low ≤ finished op := by
  obtain ⟨past, future, hsplit, rfl, rfl, hpast, hfuture⟩ := h
  constructor
  · intro op hop
    obtain ⟨effect, heffect, rfl⟩ := List.mem_map.mp hop
    have hmem : effect ∈ timeline.effects := by
      rw [hsplit]
      exact List.mem_append_left future heffect
    exact (timeline.within effect hmem).1.trans ((hpast effect heffect).trans hhigh)
  · intro op hop
    obtain ⟨effect, heffect, rfl⟩ := List.mem_map.mp hop
    have hmem : effect ∈ timeline.effects := by
      rw [hsplit]
      exact List.mem_append_right past heffect
    exact hlow.trans ((hfuture effect heffect).trans (timeline.within effect hmem).2)

/-- What comes before the cut takes effect at its start, the rest at its finish. -/
def Ordered.timeline (h : Ordered started finished (before ++ after)) :
    Timeline started finished (before ++ after) where
  effects := before.map (fun op => (op, started op)) ++ after.map fun op => (op, finished op)
  effects_ops := by simp [List.map_map, Function.comp_def]
  within effect heffect := by
    rcases List.mem_append.mp heffect with hmem | hmem
    · obtain ⟨op, hop, rfl⟩ := List.mem_map.mp hmem
      exact ⟨le_rfl, h.left.valid op hop⟩
    · obtain ⟨op, hop, rfl⟩ := List.mem_map.mp hmem
      exact ⟨h.right.valid op hop, le_rfl⟩
  ordered := by
    have hdisjoint := List.pairwise_append.mp h.disjoint
    refine List.pairwise_append.mpr ⟨?_, ?_, ?_⟩
    · refine List.pairwise_map.mpr (hdisjoint.1.imp_of_mem fun {op later} hop _ hle => ?_)
      exact (h.left.valid op hop).trans hle
    · refine List.pairwise_map.mpr (hdisjoint.2.1.imp_of_mem fun {op later} _ hlater hle => ?_)
      exact hle.trans (h.right.valid later hlater)
    · intro effect heffect effect' heffect'
      obtain ⟨op, hop, rfl⟩ := List.mem_map.mp heffect
      obtain ⟨later, hlater, rfl⟩ := List.mem_map.mp heffect'
      have hle := hdisjoint.2.2 op hop later hlater
      exact (h.left.valid op hop).trans (hle.trans (h.right.valid later hlater))

/-- The instant at which this timeline is cut: the read's start, or the last start before it. -/
theorem Ordered.exists_instant (h : Ordered started finished (before ++ after))
    (hrange : low ≤ high) (hbefore : ∀ op ∈ before, started op ≤ high)
    (hafter : ∀ op ∈ after, low ≤ finished op) :
    ∃ t, low ≤ t ∧ t ≤ high ∧ (∀ op ∈ before, started op ≤ t) ∧ ∀ op ∈ after, t ≤ finished op := by
  have hdisjoint := List.pairwise_append.mp h.disjoint
  rcases List.eq_nil_or_concat' before with rfl | ⟨init, last, rfl⟩
  · exact ⟨low, le_rfl, hrange, by simp, hafter⟩
  · have hlast : last ∈ init ++ [last] := by simp
    refine ⟨max low (started last), le_max_left _ _, max_le hrange (hbefore last hlast), ?_, ?_⟩
    · intro op hop
      rcases List.mem_append.mp hop with hop | hop
      · have hle := (List.pairwise_append.mp hdisjoint.1).2.2 op hop last (by simp)
        have hvalid := h.left.valid op (List.mem_append_left [last] hop)
        exact (hvalid.trans hle).trans (le_max_right _ _)
      · rw [List.mem_singleton.mp hop]
        exact le_max_right _ _
    · intro op hop
      refine max_le (hafter op hop) ?_
      have hle := hdisjoint.2.2 last hlast op hop
      exact (h.left.valid last hlast).trans (hle.trans (h.right.valid op hop))

/-- Some timeline has the cut at an instant of `[low, high]` exactly when nothing before it starts
too late and nothing after it finishes too early. -/
theorem Ordered.exists_cut_iff (h : Ordered started finished (before ++ after))
    (hrange : low ≤ high) :
    (∃ timeline : Timeline started finished (before ++ after), ∃ t, low ≤ t ∧ t ≤ high ∧
        timeline.Cut t before after) ↔
      (∀ op ∈ before, started op ≤ high) ∧ ∀ op ∈ after, low ≤ finished op := by
  constructor
  · rintro ⟨timeline, t, hlow, hhigh, hcut⟩
    exact hcut.bounds hlow hhigh
  · rintro ⟨hbefore, hafter⟩
    obtain ⟨t, hlow, hhigh, hpast, hfuture⟩ := h.exists_instant hrange hbefore hafter
    refine ⟨h.timeline, t, hlow, hhigh, before.map fun op => (op, started op),
      after.map fun op => (op, finished op), rfl, ?_, ?_, ?_, ?_⟩
    · simp [List.map_map, Function.comp_def]
    · simp [List.map_map, Function.comp_def]
    · intro effect heffect
      obtain ⟨op, hop, rfl⟩ := List.mem_map.mp heffect
      exact hpast op hop
    · intro effect heffect
      obtain ⟨op, hop, rfl⟩ := List.mem_map.mp heffect
      exact hfuture op hop

end EffectTimeline
