import Mathlib.Algebra.Order.Group.Defs
import Mathlib.Data.Int.Interval
import Mathlib.Data.List.DropRight
import Mathlib.Data.List.Forall2
import Mathlib.Data.List.Induction
import Mathlib.Order.Lattice

/-! A conservative rolling maximum over a time window. Values recorded in one bucket
share a single mark carrying their maximum and the newest time, and expired marks are
dropped from the front. The marks therefore no longer contain the recorded values;
`Summary` relates them to the full log. -/
namespace RollingMax

section Push

variable {T α β : Type*} [LinearOrder α] [DecidableEq β]

/-- Merge a value into the last mark when both lie in one bucket; append it otherwise. -/
def push (bucket : T → β) (marks : List (T × α)) (t : T) (v : α) : List (T × α) :=
  match marks.getLast? with
  | none => [(t, v)]
  | some last =>
    if bucket last.1 = bucket t then marks.dropLast ++ [(t, max last.2 v)]
    else marks ++ [(t, v)]

/-- Only the last mark is ever rewritten. -/
theorem push_cases (bucket : T → β) (marks : List (T × α)) (t : T) (v : α) :
    (∃ init last, marks = init ++ [last] ∧ bucket last.1 = bucket t ∧
      push bucket marks t v = init ++ [(t, max last.2 v)]) ∨
    ((∀ last ∈ marks.getLast?, bucket last.1 ≠ bucket t) ∧
      push bucket marks t v = marks ++ [(t, v)]) := by
  rcases List.eq_nil_or_concat' marks with rfl | ⟨init, last, rfl⟩
  · exact Or.inr ⟨by simp, rfl⟩
  · by_cases hb : bucket last.1 = bucket t
    · exact Or.inl ⟨init, last, rfl, hb, by simp [push, hb]⟩
    · exact Or.inr ⟨by simpa using hb, by simp [push, hb]⟩

theorem push_getLast (bucket : T → β) (marks : List (T × α)) (t : T) (v : α) :
    ∃ init w, push bucket marks t v = init ++ [(t, w)] ∧ v ≤ w := by
  rcases push_cases bucket marks t v with ⟨init, last, -, -, hp⟩ | ⟨-, hp⟩
  · exact ⟨init, _, hp, le_max_right _ _⟩
  · exact ⟨marks, _, hp, le_rfl⟩

end Push

section Marks

variable {T α : Type*} [LinearOrder T]

/-- Drop the leading marks older than the cutoff. -/
def prune (cutoff : T) (marks : List (T × α)) : List (T × α) :=
  marks.dropWhile fun m => m.1 < cutoff

theorem mem_prune_iff {cutoff : T} {marks : List (T × α)}
    (h : marks.Pairwise fun a b => a.1 < b.1) (m : T × α) :
    m ∈ prune cutoff marks ↔ m ∈ marks ∧ cutoff ≤ m.1 := by
  induction marks with
  | nil => simp [prune]
  | cons a marks ih =>
    obtain ⟨ha, hm⟩ := List.pairwise_cons.mp h
    by_cases hc : a.1 < cutoff
    · have hp : prune cutoff (a :: marks) = prune cutoff marks := by simp [prune, hc]
      rw [hp, ih hm, List.mem_cons]
      constructor
      · exact fun ⟨hin, hle⟩ => ⟨Or.inr hin, hle⟩
      · rintro ⟨rfl | hin, hle⟩
        · exact absurd hle (not_le.mpr hc)
        · exact ⟨hin, hle⟩
    · have hp : prune cutoff (a :: marks) = a :: marks := by simp [prune, hc]
      rw [hp]
      refine ⟨fun hin => ⟨hin, ?_⟩, And.left⟩
      rcases List.mem_cons.mp hin with rfl | hin
      · exact not_lt.mp hc
      · exact (not_lt.mp hc).trans (ha m hin).le

theorem prune_concat {cutoff : T} (init : List (T × α)) {m : T × α} (hm : cutoff ≤ m.1) :
    prune cutoff (init ++ [m]) = prune cutoff init ++ [m] := by
  induction init with
  | nil => simp [prune, hm]
  | cons a init ih =>
    by_cases hc : a.1 < cutoff
    · simpa [prune, hc] using ih
    · simp [prune, hc]

theorem getLast_mem_prune {cutoff : T} (init : List (T × α)) {m : T × α} (hm : cutoff ≤ m.1) :
    m ∈ prune cutoff (init ++ [m]) := by
  rw [prune_concat init hm]
  exact List.mem_append_right _ List.mem_cons_self

/-- Recording again at the same time keeps every mark, or raises the newest one. -/
theorem rerecord_dominates {β : Type*} [LinearOrder α] [DecidableEq β] (bucket : T → β)
    (marks : List (T × α)) {cutoff t : T} (ht : cutoff ≤ t) (v w : α) :
    ∀ m ∈ prune cutoff (push bucket marks t v),
      ∃ m' ∈ prune cutoff (push bucket (prune cutoff (push bucket marks t v)) t w),
        m.2 ≤ m'.2 := by
  obtain ⟨init, u, hpush, -⟩ := push_getLast bucket marks t v
  have hagain : push bucket (prune cutoff init ++ [(t, u)]) t w =
      prune cutoff init ++ [(t, max u w)] := by
    simp [push]
  have htwice : prune cutoff (prune cutoff init) = prune cutoff init :=
    List.dropWhile_idempotent _ _
  rw [hpush, prune_concat init (m := (t, u)) ht, hagain,
    prune_concat _ (m := (t, max u w)) ht, htwice]
  intro m hm
  rcases List.mem_append.mp hm with hm | hm
  · exact ⟨m, List.mem_append_left _ hm, le_rfl⟩
  · rw [List.mem_singleton.mp hm]
    exact ⟨(t, max u w), by simp, le_max_left _ _⟩

/-- What the marks still say about the log: nothing at or after the cutoff is lost, and
every mark carries a value logged in its own bucket, no later than the mark. -/
structure Summary {β : Type*} [LinearOrder α] (bucket : T → β) (now cutoff : T)
    (log marks : List (T × α)) : Prop where
  increasing : marks.Pairwise fun a b => a.1 < b.1
  latest : ∀ m ∈ marks, m.1 ≤ now
  covers : ∀ r ∈ log, cutoff ≤ r.1 → ∃ m ∈ marks, r.1 ≤ m.1 ∧ r.2 ≤ m.2
  attained : ∀ m ∈ marks, ∃ r ∈ log, bucket r.1 = bucket m.1 ∧ r.1 ≤ m.1 ∧ r.2 = m.2

theorem Summary.empty {β : Type*} [LinearOrder α] (bucket : T → β) (now cutoff : T) :
    Summary bucket now cutoff ([] : List (T × α)) [] :=
  ⟨List.Pairwise.nil, by simp, by simp, by simp⟩

/-- Advancing the cutoff only forgets what it excludes. -/
theorem Summary.prune {β : Type*} [LinearOrder α] {bucket : T → β} {now cutoff cutoff' : T}
    {log marks : List (T × α)} (h : Summary bucket now cutoff log marks)
    (hc : cutoff ≤ cutoff') :
    Summary bucket now cutoff' log (RollingMax.prune cutoff' marks) := by
  have hmem : ∀ m, m ∈ RollingMax.prune cutoff' marks ↔ m ∈ marks ∧ cutoff' ≤ m.1 :=
    mem_prune_iff h.increasing
  refine ⟨h.increasing.sublist (List.dropWhile_sublist _), ?_, ?_, ?_⟩
  · exact fun m hm => h.latest m ((hmem m).mp hm).1
  · intro r hr hcr
    obtain ⟨m, hm, hmt, hmv⟩ := h.covers r hr (hc.trans hcr)
    exact ⟨m, (hmem m).mpr ⟨hm, hcr.trans hmt⟩, hmt, hmv⟩
  · exact fun m hm => h.attained m ((hmem m).mp hm).1

/-- A mark in another bucket than the newest time is strictly older. -/
theorem Summary.lt_of_bucket_ne {β : Type*} [LinearOrder α] {bucket : T → β} {now cutoff : T}
    {log marks : List (T × α)} (h : Summary bucket now cutoff log marks) {t : T} (ht : now ≤ t)
    (hb : ∀ last ∈ marks.getLast?, bucket last.1 ≠ bucket t) :
    ∀ m ∈ marks, m.1 < t := by
  rcases List.eq_nil_or_concat' marks with rfl | ⟨init, last, rfl⟩
  · simp
  have hlt : last.1 < t := by
    refine lt_of_le_of_ne ((h.latest last (by simp)).trans ht) fun he => ?_
    exact hb last (by simp) (congrArg bucket he)
  intro m hm
  rcases List.mem_append.mp hm with hm | hm
  · exact ((List.pairwise_append.mp h.increasing).2.2 m hm last (by simp)).trans hlt
  · rw [List.mem_singleton.mp hm]; exact hlt

/-- Retention is sandwiched: a value logged at or after the cutoff is dominated by a kept
mark, and every kept mark's value was logged less than one bucket width before it. -/
theorem Summary.sandwich {β : Type*} [LinearOrder α] [AddCommGroup T] [IsOrderedAddMonoid T]
    {bucket : T → β} {now cutoff : T} {log marks : List (T × α)}
    (h : Summary bucket now cutoff log marks) (hwithin : ∀ m ∈ marks, cutoff ≤ m.1) {width : T}
    (hwidth : ∀ s t, bucket s = bucket t → t < s + width) :
    (∀ r ∈ log, cutoff ≤ r.1 → ∃ m ∈ marks, r.2 ≤ m.2) ∧
    (∀ m ∈ marks, ∃ r ∈ log, cutoff - width < r.1 ∧ r.1 ≤ now ∧ r.2 = m.2) := by
  refine ⟨fun r hr hc => ?_, fun m hm => ?_⟩
  · obtain ⟨m, hm, -, hv⟩ := h.covers r hr hc
    exact ⟨m, hm, hv⟩
  · obtain ⟨r, hr, hb, hle, hv⟩ := h.attained m hm
    refine ⟨r, hr, ?_, hle.trans (h.latest m hm), hv⟩
    exact sub_lt_iff_lt_add.mpr ((hwithin m hm).trans_lt (hwidth _ _ hb))

end Marks

section SummaryPush

variable {T α β : Type*} [LinearOrder T] [LinearOrder α] [DecidableEq β]
variable {bucket : T → β} {now cutoff : T} {log marks : List (T × α)}

/-- Recording at a later time keeps the summary. -/
theorem Summary.push (h : Summary bucket now cutoff log marks) {t : T} (ht : now ≤ t) (v : α) :
    Summary bucket t cutoff (log ++ [(t, v)]) (RollingMax.push bucket marks t v) := by
  rcases push_cases bucket marks t v with ⟨init, last, rfl, hb, hp⟩ | ⟨hb, hp⟩ <;> rw [hp]
  · have hlast : last.1 ≤ t := (h.latest last (by simp)).trans ht
    obtain ⟨hinit, -, hlt⟩ := List.pairwise_append.mp h.increasing
    have holder : ∀ m ∈ init, m.1 < t := fun m hm => (hlt m hm last (by simp)).trans_le hlast
    refine ⟨?_, ?_, ?_, ?_⟩
    · exact List.pairwise_append.mpr ⟨hinit, List.pairwise_singleton _ _, by simpa using holder⟩
    · intro m hm
      rcases List.mem_append.mp hm with hm | hm
      · exact (holder m hm).le
      · rw [List.mem_singleton.mp hm]
    · intro r hr hc
      rcases List.mem_append.mp hr with hr | hr
      · obtain ⟨m, hm, hmt, hmv⟩ := h.covers r hr hc
        rcases List.mem_append.mp hm with hm | hm
        · exact ⟨m, by simp [hm], hmt, hmv⟩
        · rw [List.mem_singleton.mp hm] at hmt hmv
          exact ⟨(t, max last.2 v), by simp, hmt.trans hlast, hmv.trans (le_max_left _ _)⟩
      · rw [List.mem_singleton.mp hr]
        exact ⟨(t, max last.2 v), by simp, le_rfl, le_max_right _ _⟩
    · intro m hm
      rcases List.mem_append.mp hm with hm | hm
      · obtain ⟨r, hr, hrm⟩ := h.attained m (List.mem_append_left _ hm)
        exact ⟨r, List.mem_append_left _ hr, hrm⟩
      · rw [List.mem_singleton.mp hm]
        -- The maximum is either the old mark's value or the value just recorded.
        rcases le_total last.2 v with hv | hv
        · exact ⟨(t, v), by simp, rfl, le_rfl, (max_eq_right hv).symm⟩
        · obtain ⟨r, hr, hrb, hrt, hrv⟩ := h.attained last (by simp)
          exact ⟨r, List.mem_append_left _ hr, hrb.trans hb, hrt.trans hlast,
            hrv.trans (max_eq_left hv).symm⟩
  · have holder := h.lt_of_bucket_ne ht hb
    refine ⟨?_, ?_, ?_, ?_⟩
    · exact List.pairwise_append.mpr
        ⟨h.increasing, List.pairwise_singleton _ _, by simpa using holder⟩
    · intro m hm
      rcases List.mem_append.mp hm with hm | hm
      · exact (holder m hm).le
      · rw [List.mem_singleton.mp hm]
    · intro r hr hc
      rcases List.mem_append.mp hr with hr | hr
      · obtain ⟨m, hm, hrm⟩ := h.covers r hr hc
        exact ⟨m, List.mem_append_left _ hm, hrm⟩
      · rw [List.mem_singleton.mp hr]
        exact ⟨(t, v), by simp, le_rfl, le_rfl⟩
    · intro m hm
      rcases List.mem_append.mp hm with hm | hm
      · obtain ⟨r, hr, hrm⟩ := h.attained m hm
        exact ⟨r, List.mem_append_left _ hr, hrm⟩
      · rw [List.mem_singleton.mp hm]
        exact ⟨(t, v), by simp, rfl, le_rfl, rfl⟩

end SummaryPush

section Below

variable {T α β : Type*} [LinearOrder T] [LinearOrder α] [DecidableEq β]

/-- Marks at the same times, with no larger values. -/
def Below (marks marks' : List (T × α)) : Prop :=
  List.Forall₂ (fun m m' => m.1 = m'.1 ∧ m.2 ≤ m'.2) marks marks'

variable {marks marks' : List (T × α)}

omit [LinearOrder T] in
theorem Below.concat_left {init : List (T × α)} {m : T × α} (h : Below (init ++ [m]) marks') :
    ∃ init' m', marks' = init' ++ [m'] ∧ Below init init' ∧ m.1 = m'.1 ∧ m.2 ≤ m'.2 := by
  have hreverse := List.forall₂_reverse_iff.mpr h
  rw [List.reverse_append, List.reverse_singleton, List.singleton_append] at hreverse
  obtain ⟨m', rest, hm, hrest, hmarks⟩ := List.forall₂_cons_left_iff.mp hreverse
  refine ⟨rest.reverse, m', ?_, ?_, hm⟩
  · rw [← List.reverse_cons, ← hmarks, List.reverse_reverse]
  · exact List.forall₂_reverse_iff.mp (by rwa [List.reverse_reverse])

omit [LinearOrder T] in
/-- The order survives a larger value at the same time. -/
theorem Below.push (h : Below marks marks') (bucket : T → β) (t : T) {v v' : α} (hv : v ≤ v') :
    Below (RollingMax.push bucket marks t v) (RollingMax.push bucket marks' t v') := by
  rcases List.eq_nil_or_concat' marks with rfl | ⟨init, last, rfl⟩
  · obtain rfl := List.forall₂_nil_left_iff.mp h
    exact .cons ⟨rfl, hv⟩ .nil
  · obtain ⟨init', last', rfl, hinit, htime, hvalue⟩ := h.concat_left
    by_cases hb : bucket last.1 = bucket t
    · have hb' : bucket last'.1 = bucket t := htime ▸ hb
      simp only [RollingMax.push, List.getLast?_concat, if_pos hb, if_pos hb',
        List.dropLast_concat]
      exact List.rel_append hinit (.cons ⟨rfl, max_le_max hvalue hv⟩ .nil)
    · have hb' : bucket last'.1 ≠ bucket t := htime ▸ hb
      simp only [RollingMax.push, List.getLast?_concat, if_neg hb, if_neg hb']
      exact List.rel_append h (.cons ⟨rfl, hv⟩ .nil)

/-- Both sides lose the same marks. -/
theorem Below.prune (h : Below marks marks') (cutoff : T) :
    Below (RollingMax.prune cutoff marks) (RollingMax.prune cutoff marks') := by
  induction h with
  | nil => exact .nil
  | @cons m m' marks marks' hm hmarks ih =>
    unfold RollingMax.prune at ih ⊢
    by_cases hold : m.1 < cutoff
    · have hold' : m'.1 < cutoff := hm.1 ▸ hold
      rw [List.dropWhile_cons_of_pos (by simpa using hold),
        List.dropWhile_cons_of_pos (by simpa using hold')]
      exact ih
    · have hold' : ¬ m'.1 < cutoff := hm.1 ▸ hold
      rw [List.dropWhile_cons_of_neg (by simpa using hold),
        List.dropWhile_cons_of_neg (by simpa using hold')]
      exact .cons hm hmarks

omit [LinearOrder T] in
theorem Below.exists_le (h : Below marks marks') {m : T × α} (hm : m ∈ marks) :
    ∃ m' ∈ marks', m.2 ≤ m'.2 := by
  induction h with
  | nil => exact absurd hm List.not_mem_nil
  | @cons a a' marks marks' ha hmarks ih =>
    rcases List.mem_cons.mp hm with rfl | hm
    · exact ⟨a', List.mem_cons_self, ha.2⟩
    · obtain ⟨m', hm', hle⟩ := ih hm
      exact ⟨m', List.mem_cons_of_mem _ hm', hle⟩

end Below

section Spread

variable {T α β : Type*} [LinearOrder T] [LinearOrder β]

/-- Marks in increasing buckets within a time window. -/
structure Spread (bucket : T → β) (now cutoff : T) (marks : List (T × α)) : Prop where
  buckets : marks.Pairwise fun a b => bucket a.1 < bucket b.1
  within : ∀ m ∈ marks, cutoff ≤ m.1 ∧ m.1 ≤ now

variable {bucket : T → β} {now cutoff : T} {marks : List (T × α)}

theorem Spread.nil (bucket : T → β) (now cutoff : T) :
    Spread bucket now cutoff ([] : List (T × α)) :=
  ⟨List.Pairwise.nil, fun _ hm => absurd hm List.not_mem_nil⟩

theorem Spread.increasing (h : Spread bucket now cutoff marks) (hmono : Monotone bucket) :
    marks.Pairwise fun a b => a.1 < b.1 :=
  h.buckets.imp fun hlt => hmono.reflect_lt hlt

theorem Spread.prune (h : Spread bucket now cutoff marks) (hmono : Monotone bucket)
    (cutoff' : T) : Spread bucket now cutoff' (RollingMax.prune cutoff' marks) where
  buckets := h.buckets.sublist (List.dropWhile_sublist _)
  within m hm := by
    obtain ⟨hmem, hle⟩ := (mem_prune_iff (h.increasing hmono) m).mp hm
    exact ⟨hle, (h.within m hmem).2⟩

/-- Recording no earlier than the window's end opens a later bucket or stays in the last one. -/
theorem Spread.push [LinearOrder α] (h : Spread bucket now cutoff marks) (hmono : Monotone bucket)
    {t : T} (hcutoff : cutoff ≤ t) (ht : ∀ m ∈ marks, m.1 ≤ t) (v : α) :
    Spread bucket t cutoff (RollingMax.push bucket marks t v) := by
  rcases push_cases bucket marks t v with ⟨init, last, rfl, hb, hp⟩ | ⟨hb, hp⟩ <;> rw [hp]
  · obtain ⟨hinit, -, hlt⟩ := List.pairwise_append.mp h.buckets
    refine ⟨List.pairwise_append.mpr ⟨hinit, List.pairwise_singleton _ _, ?_⟩, ?_⟩
    · intro a ha b hb'
      rw [List.mem_singleton.mp hb', ← hb]
      exact hlt a ha last List.mem_cons_self
    · intro m hm
      rcases List.mem_append.mp hm with hm | hm
      · exact ⟨(h.within m (List.mem_append_left _ hm)).1, ht m (List.mem_append_left _ hm)⟩
      · rw [List.mem_singleton.mp hm]
        exact ⟨hcutoff, le_rfl⟩
  · refine ⟨List.pairwise_append.mpr ⟨h.buckets, List.pairwise_singleton _ _, ?_⟩, ?_⟩
    · intro a ha b hb'
      rw [List.mem_singleton.mp hb']
      rcases List.eq_nil_or_concat' marks with rfl | ⟨init, last, rfl⟩
      · exact absurd ha List.not_mem_nil
      have hlast : bucket last.1 < bucket t :=
        lt_of_le_of_ne (hmono (ht last (by simp))) (hb last (by simp))
      rcases List.mem_append.mp ha with ha | ha
      · exact ((List.pairwise_append.mp h.buckets).2.2 a ha last (by simp)).trans hlast
      · rw [List.mem_singleton.mp ha]
        exact hlast
    · intro m hm
      rcases List.mem_append.mp hm with hm | hm
      · exact ⟨(h.within m hm).1, ht m hm⟩
      · rw [List.mem_singleton.mp hm]
        exact ⟨hcutoff, le_rfl⟩

omit [LinearOrder T] [LinearOrder β] in
/-- Distinct integer indices from a range of `n + 1` number at most `n + 1`. -/
theorem length_le_of_index {index : T × α → ℤ} {marks : List (T × α)} {a : ℤ} {n : ℕ}
    (h : marks.Pairwise fun m m' => index m < index m')
    (hrange : ∀ m ∈ marks, a ≤ index m ∧ index m ≤ a + n) : marks.length ≤ n + 1 := by
  have hnodup : (marks.map index).Nodup :=
    List.pairwise_map.mpr (h.imp fun hlt => ne_of_lt hlt)
  have hsub : (marks.map index).toFinset ⊆ Finset.Icc a (a + n) := by
    intro i hi
    obtain ⟨m, hm, rfl⟩ := List.mem_map.mp (List.mem_toFinset.mp hi)
    exact Finset.mem_Icc.mpr (hrange m hm)
  calc marks.length = (marks.map index).toFinset.card := by
        rw [List.toFinset_card_of_nodup hnodup, List.length_map]
    _ ≤ (Finset.Icc a (a + n)).card := Finset.card_le_card hsub
    _ = n + 1 := by
        rw [Int.card_Icc]
        omega

end Spread

section Capped

variable {T α β : Type*} [LinearOrder α] [LinearOrder β]

/-- The marks of every bucket after `b` carry at most `c`. -/
def CappedAfter (bucket : T → β) (b : β) (c : α) (marks : List (T × α)) : Prop :=
  ∀ m ∈ marks, m.2 ≤ c ∨ bucket m.1 ≤ b

variable {bucket : T → β} {b : β} {c : α} {marks : List (T × α)}

theorem CappedAfter.push (h : CappedAfter bucket b c marks) (t : T) {v : α} (hv : v ≤ c) :
    CappedAfter bucket b c (RollingMax.push bucket marks t v) := by
  rcases push_cases bucket marks t v with ⟨init, last, rfl, hb, hp⟩ | ⟨-, hp⟩ <;> rw [hp]
  · intro m hm
    rcases List.mem_append.mp hm with hm | hm
    · exact h m (List.mem_append_left _ hm)
    · rw [List.mem_singleton.mp hm]
      -- A merged mark keeps the bucket of the mark it replaces.
      exact (h last (by simp)).imp (fun hle => max_le hle hv) fun hle => hb ▸ hle
  · intro m hm
    rcases List.mem_append.mp hm with hm | hm
    · exact h m hm
    · rw [List.mem_singleton.mp hm]
      exact .inl hv

theorem CappedAfter.prune [LinearOrder T] (h : CappedAfter bucket b c marks) (cutoff : T) :
    CappedAfter bucket b c (RollingMax.prune cutoff marks) :=
  fun m hm => h m ((List.dropWhile_sublist _).subset hm)

end Capped

section Run

variable {T α β : Type*} [AddCommGroup T] [LinearOrder T] [IsOrderedAddMonoid T]
  [LinearOrder α] [DecidableEq β]

/-- Record every logged value in order, pruning to the window after each one. -/
def summarize (bucket : T → β) (window : T) (log : List (T × α)) : List (T × α) :=
  log.foldl (fun marks r => prune (r.1 - window) (push bucket marks r.1 r.2)) []

omit [IsOrderedAddMonoid T] in
@[simp] theorem summarize_concat (bucket : T → β) (window : T) (log : List (T × α))
    (r : T × α) : summarize bucket window (log ++ [r]) =
      prune (r.1 - window) (push bucket (summarize bucket window log) r.1 r.2) := by
  simp [summarize]

/-- Every run with nondecreasing times summarizes its whole log up to the last cutoff. -/
theorem summarize_summary (bucket : T → β) (window : T) (log : List (T × α)) (r : T × α)
    (ht : (log ++ [r]).Pairwise fun a b => a.1 ≤ b.1) :
    Summary bucket r.1 (r.1 - window) (log ++ [r]) (summarize bucket window (log ++ [r])) ∧
      ∀ m ∈ summarize bucket window (log ++ [r]), r.1 - window ≤ m.1 := by
  have hpushed : ∃ cutoff ≤ r.1 - window, Summary bucket r.1 cutoff (log ++ [r])
      (push bucket (summarize bucket window log) r.1 r.2) := by
    induction log using List.reverseRecOn generalizing r with
    | nil =>
      exact ⟨r.1 - window, le_rfl, (Summary.empty bucket r.1 (r.1 - window)).push le_rfl r.2⟩
    | append_singleton log p ih =>
      obtain ⟨hlog, -, hlast⟩ := List.pairwise_append.mp ht
      have hpr : p.1 - window ≤ r.1 - window := sub_le_sub_right (hlast p (by simp) r (by simp)) _
      obtain ⟨cutoff, hc, hs⟩ := ih p hlog
      refine ⟨p.1 - window, hpr, ?_⟩
      rw [summarize_concat]
      exact (hs.prune hc).push (hlast p (by simp) r (by simp)) r.2
  obtain ⟨cutoff, hc, hs⟩ := hpushed
  rw [summarize_concat]
  exact ⟨hs.prune hc, fun m hm => ((mem_prune_iff hs.increasing m).mp hm).2⟩

end Run

end RollingMax
