import Mathlib.Algebra.Order.BigOperators.Group.List
import Mathlib.Algebra.Order.Group.Defs
import Mathlib.Data.List.Induction
import Mathlib.Order.Hom.Basic
import Mathlib.Tactic.Abel

/-! Lists of half-open intervals in increasing order: what they leave uncovered, and the joining of
those that touch. The points may come from a larger order than the endpoints. -/
namespace IntervalCover

section Order

variable {K P : Type*} [LinearOrder K] [LinearOrder P] (e : K ↪o P)

def Covers (l : List (K × K)) (t : P) : Prop := ∃ i ∈ l, e i.1 ≤ t ∧ t < e i.2

/-- Nonempty intervals within `[lo, hi]`, one after another; they may touch. -/
structure Ordered (lo hi : K) (l : List (K × K)) : Prop where
  nonempty : ∀ i ∈ l, i.1 < i.2
  within : ∀ i ∈ l, lo ≤ i.1 ∧ i.2 ≤ hi
  disjoint : l.Pairwise fun i j => i.2 ≤ j.1

/-- Nonempty intervals in increasing order with room between them. -/
structure Separated (l : List (K × K)) : Prop where
  nonempty : ∀ i ∈ l, i.1 < i.2
  apart : l.Pairwise fun i j => i.2 < j.1

/-- What the intervals leave uncovered between the cursor and `hi`. -/
def gaps (hi : K) : List (K × K) → K → List (K × K)
  | [], cursor => if cursor < hi then [(cursor, hi)] else []
  | i :: rest, cursor =>
    if cursor < i.1 then (cursor, i.1) :: gaps hi rest i.2 else gaps hi rest i.2

variable {lo hi : K} {l : List (K × K)} {e}

theorem gaps_cons (i : K × K) (cursor : K) : gaps hi (i :: l) cursor =
    if cursor < i.1 then (cursor, i.1) :: gaps hi l i.2 else gaps hi l i.2 := rfl

theorem covers_cons {i : K × K} {t : P} :
    Covers e (i :: l) t ↔ (e i.1 ≤ t ∧ t < e i.2) ∨ Covers e l t := by
  simp [Covers]

theorem covers_append (l l' : List (K × K)) {t : P} :
    Covers e (l ++ l') t ↔ Covers e l t ∨ Covers e l' t := by
  simp [Covers, or_and_right, exists_or]

theorem Ordered.tail {i : K × K} (h : Ordered lo hi (i :: l)) : Ordered i.2 hi l where
  nonempty j hj := h.nonempty j (List.mem_cons_of_mem i hj)
  within j hj := ⟨(List.pairwise_cons.mp h.disjoint).1 j hj,
    (h.within j (List.mem_cons_of_mem i hj)).2⟩
  disjoint := (List.pairwise_cons.mp h.disjoint).2

theorem Ordered.sublist {l' : List (K × K)} (h : Ordered lo hi l) (hsub : l'.Sublist l) :
    Ordered lo hi l' where
  nonempty i hi := h.nonempty i (hsub.subset hi)
  within i hi := h.within i (hsub.subset hi)
  disjoint := h.disjoint.sublist hsub

theorem gaps_within (h : Ordered lo hi l) : ∀ i ∈ gaps hi l lo, lo ≤ i.1 ∧ i.2 ≤ hi := by
  induction l generalizing lo with
  | nil =>
    intro i hmem
    unfold gaps at hmem
    split_ifs at hmem
    · rw [List.mem_singleton.mp hmem]
      exact ⟨le_rfl, le_rfl⟩
    · cases hmem
  | cons first rest ih =>
    have ⟨hlow, hhigh⟩ := h.within first (by simp)
    have hnonempty := h.nonempty first (by simp)
    have hrest : ∀ i ∈ gaps hi rest first.2, lo ≤ i.1 ∧ i.2 ≤ hi := fun i hmem =>
      ⟨(hlow.trans hnonempty.le).trans (ih h.tail i hmem).1, (ih h.tail i hmem).2⟩
    rw [gaps_cons]
    split_ifs
    · exact List.forall_mem_cons.mpr ⟨⟨le_rfl, hnonempty.le.trans hhigh⟩, hrest⟩
    · exact hrest

theorem gaps_separated (h : Ordered lo hi l) : Separated (gaps hi l lo) := by
  induction l generalizing lo with
  | nil =>
    unfold gaps
    split_ifs with hlt
    · exact ⟨by simpa using hlt, List.pairwise_singleton _ _⟩
    · exact ⟨by simp, List.Pairwise.nil⟩
  | cons first rest ih =>
    have hrest := ih h.tail
    have hnonempty := h.nonempty first (by simp)
    rw [gaps_cons]
    split_ifs with hlt
    · refine ⟨List.forall_mem_cons.mpr ⟨hlt, hrest.nonempty⟩, ?_⟩
      refine List.pairwise_cons.mpr ⟨fun i hmem => ?_, hrest.apart⟩
      exact hnonempty.trans_le (gaps_within h.tail i hmem).1
    · exact hrest

theorem covers_gaps_of_mem (h : Ordered lo hi l) {t : P} (hlow : e lo ≤ t) (hhigh : t < e hi) :
    Covers e (gaps hi l lo) t ↔ ¬ Covers e l t := by
  induction l generalizing lo with
  | nil =>
    have hlt : lo < hi := e.lt_iff_lt.mp (hlow.trans_lt hhigh)
    rw [gaps, if_pos hlt]
    simp [Covers, hlow, hhigh]
  | cons first rest ih =>
    have ⟨hfirst, _⟩ := h.within first (by simp)
    have hnonempty := h.nonempty first (by simp)
    have hgap : Covers e (gaps hi (first :: rest) lo) t ↔
        t < e first.1 ∨ Covers e (gaps hi rest first.2) t := by
      rw [gaps_cons]
      split_ifs with hlt
      · rw [covers_cons]
        simp [hlow]
      · have hle : e first.1 ≤ t := (e.le_iff_le.mpr (not_lt.mp hlt)).trans hlow
        simp [hle.not_gt]
    rw [hgap, covers_cons]
    by_cases hpast : e first.2 ≤ t
    · have hle : e first.1 ≤ t := (e.lt_iff_lt.mpr hnonempty).le.trans hpast
      rw [ih h.tail hpast]
      simp [hle.not_gt, hpast.not_gt]
    · have hbefore : t < e first.2 := not_le.mp hpast
      have hnot : ∀ l : List (K × K), (∀ i ∈ l, first.2 ≤ i.1) → ¬ Covers e l t := by
        rintro l hl ⟨i, hmem, hi, -⟩
        exact hpast ((e.le_iff_le.mpr (hl i hmem)).trans hi)
      have hnoRest := hnot rest fun i hmem => (h.tail.within i hmem).1
      have hnoGap := hnot _ fun i hmem => (gaps_within h.tail i hmem).1
      simp [hnoRest, hnoGap, hbefore]

/-- The gaps cover exactly what the intervals leave uncovered between the bounds. -/
theorem covers_gaps_iff (h : Ordered lo hi l) {t : P} :
    Covers e (gaps hi l lo) t ↔ (e lo ≤ t ∧ t < e hi) ∧ ¬ Covers e l t := by
  constructor
  · intro hgap
    have hgaps := hgap
    obtain ⟨i, hmem, hstart, hfinish⟩ := hgaps
    have ⟨hfirst, hlast⟩ := gaps_within h i hmem
    have hlow : e lo ≤ t := (e.le_iff_le.mpr hfirst).trans hstart
    have hhigh : t < e hi := hfinish.trans_le (e.le_iff_le.mpr hlast)
    exact ⟨⟨hlow, hhigh⟩, (covers_gaps_of_mem h hlow hhigh).mp hgap⟩
  · rintro ⟨⟨hlow, hhigh⟩, hnot⟩
    exact (covers_gaps_of_mem h hlow hhigh).mpr hnot

/-- An interval of a separated list is as large as the cover allows. -/
theorem Separated.maximal (h : Separated l) {i : K × K} (hi : i ∈ l) {a b : P} (ha : a ≤ e i.1)
    (hb : e i.2 ≤ b) (hcover : ∀ t, a ≤ t → t < b → Covers e l t) : a = e i.1 ∧ b = e i.2 := by
  obtain ⟨pre, post, rfl⟩ := List.append_of_mem hi
  have hnonempty : e i.1 < e i.2 := e.lt_iff_lt.mpr (h.nonempty i hi)
  obtain ⟨hpre, hpost, hapart⟩ := List.pairwise_append.mp h.apart
  have hlater : ∀ j ∈ post, e i.2 < e j.1 :=
    fun j hj => e.lt_iff_lt.mpr ((List.pairwise_cons.mp hpost).1 j hj)
  have hearlier : ∀ j ∈ pre, e j.2 < e i.1 :=
    fun j hj => e.lt_iff_lt.mpr (hapart j hj i List.mem_cons_self)
  constructor
  · by_contra hne
    have hlt : a < e i.1 := lt_of_le_of_ne ha hne
    -- a point right of everything before `i`, and still before `i`
    obtain ⟨t, hat, hti, hpast⟩ : ∃ t, a ≤ t ∧ t < e i.1 ∧ ∀ j ∈ pre, e j.2 ≤ t := by
      rcases List.eq_nil_or_concat' pre with rfl | ⟨init, last, rfl⟩
      · exact ⟨a, le_rfl, hlt, by simp⟩
      · refine ⟨max a (e last.2), le_max_left _ _, max_lt hlt (hearlier last (by simp)), ?_⟩
        intro j hj
        refine le_trans ?_ (le_max_right _ _)
        rcases List.mem_append.mp hj with hj | hj
        · have hjlast := (List.pairwise_append.mp hpre).2.2 j hj last (by simp)
          have hnonlast := h.nonempty last (by simp)
          exact e.le_iff_le.mpr (hjlast.trans hnonlast).le
        · rw [List.mem_singleton.mp hj]
    obtain ⟨j, hj, hlow, hhigh⟩ := hcover t hat (hti.trans (hnonempty.trans_le hb))
    rcases List.mem_append.mp hj with hj | hj
    · exact hhigh.not_ge (hpast j hj)
    · rcases List.mem_cons.mp hj with rfl | hj
      · exact hti.not_ge hlow
      · exact (hti.trans (hnonempty.trans (hlater j hj))).not_ge hlow
  · by_contra hne
    have hlt : e i.2 < b := lt_of_le_of_ne hb (Ne.symm hne)
    obtain ⟨j, hj, hlow, hhigh⟩ := hcover (e i.2) (ha.trans hnonempty.le) hlt
    rcases List.mem_append.mp hj with hj | hj
    · exact hhigh.not_ge ((hearlier j hj).trans hnonempty).le
    · rcases List.mem_cons.mp hj with rfl | hj
      · exact lt_irrefl _ hhigh
      · exact (hlater j hj).not_ge hlow

end Order

section Clip

variable {K P : Type*} [LinearOrder K] [LinearOrder P] {e : K ↪o P} (lo hi : K) {l : List (K × K)}

def clip (l : List (K × K)) : List (K × K) :=
  l.filterMap fun i =>
    if max lo i.1 < min hi i.2 then some (max lo i.1, min hi i.2) else none

theorem mem_clip_iff {j : K × K} : j ∈ clip lo hi l ↔
    ∃ i ∈ l, j.1 = max lo i.1 ∧ j.2 = min hi i.2 ∧ j.1 < j.2 := by
  obtain ⟨a, b⟩ := j
  unfold clip
  rw [List.mem_filterMap]
  refine exists_congr fun i => and_congr_right fun _ => ?_
  split_ifs with hlt
  · rw [Option.some.injEq, Prod.mk.injEq]
    constructor
    · rintro ⟨rfl, rfl⟩
      exact ⟨rfl, rfl, hlt⟩
    · rintro ⟨rfl, rfl, -⟩
      exact ⟨rfl, rfl⟩
  · constructor
    · intro h
      cases h
    · rintro ⟨rfl, rfl, h⟩
      exact absurd h hlt

theorem clip_ordered (h : l.Pairwise fun i j => i.2 ≤ j.1) : Ordered lo hi (clip lo hi l) where
  nonempty j hj := by
    obtain ⟨i, -, -, -, hlt⟩ := (mem_clip_iff lo hi).mp hj
    exact hlt
  within j hj := by
    obtain ⟨i, -, hstart, hfinish, -⟩ := (mem_clip_iff lo hi).mp hj
    rw [hstart, hfinish]
    exact ⟨le_max_left _ _, min_le_left _ _⟩
  disjoint := by
    refine List.pairwise_filterMap.mpr (h.imp fun {i j} hle c hc d hd => ?_)
    split_ifs at hc hd
    cases hc
    cases hd
    exact (min_le_right _ _).trans (hle.trans (le_max_right _ _))

theorem covers_clip_iff {t : P} :
    Covers e (clip lo hi l) t ↔ (e lo ≤ t ∧ t < e hi) ∧ Covers e l t := by
  constructor
  · rintro ⟨j, hj, hlow, hhigh⟩
    obtain ⟨i, hmem, hstart, hfinish, -⟩ := (mem_clip_iff lo hi).mp hj
    rw [hstart, e.monotone.map_max, max_le_iff] at hlow
    rw [hfinish, e.monotone.map_min, lt_min_iff] at hhigh
    exact ⟨⟨hlow.1, hhigh.1⟩, i, hmem, hlow.2, hhigh.2⟩
  · rintro ⟨⟨hlow, hhigh⟩, i, hmem, hstart, hfinish⟩
    have hmax : e (max lo i.1) ≤ t := by
      rw [e.monotone.map_max]
      exact max_le hlow hstart
    have hmin : t < e (min hi i.2) := by
      rw [e.monotone.map_min]
      exact lt_min hhigh hfinish
    have hlt : max lo i.1 < min hi i.2 := e.lt_iff_lt.mp (hmax.trans_lt hmin)
    exact ⟨(max lo i.1, min hi i.2), (mem_clip_iff lo hi).mpr ⟨i, hmem, rfl, rfl, hlt⟩, hmax, hmin⟩

end Clip

section Join

variable {K P : Type*} [LinearOrder K] [LinearOrder P] {e : K ↪o P}

/-- Add an interval at the end, as part of the last one if it touches that. -/
def join (l : List (K × K)) (i : K × K) : List (K × K) :=
  match l.getLast? with
  | none => [i]
  | some last => if last.2 = i.1 then l.dropLast ++ [(last.1, i.2)] else l ++ [i]

theorem join_nil (i : K × K) : join [] i = [i] := rfl

theorem join_concat (init : List (K × K)) (last i : K × K) :
    join (init ++ [last]) i =
      if last.2 = i.1 then init ++ [(last.1, i.2)] else (init ++ [last]) ++ [i] := by
  simp [join]

variable {l : List (K × K)} {i : K × K}

theorem Separated.join (h : Separated l) (hi : i.1 < i.2) (hl : ∀ j ∈ l, j.2 ≤ i.1) :
    Separated (IntervalCover.join l i) := by
  rcases List.eq_nil_or_concat' l with rfl | ⟨init, last, rfl⟩
  · rw [join_nil]
    exact ⟨by simpa using hi, List.pairwise_singleton _ _⟩
  · have hlast := h.nonempty last (by simp)
    have hle := hl last (by simp)
    obtain ⟨hinit, -, hbefore⟩ := List.pairwise_append.mp h.apart
    have hfirst : ∀ j ∈ init, j.1 < j.2 := fun j hj => h.nonempty j (List.mem_append_left _ hj)
    rw [join_concat]
    split_ifs with htouch
    · constructor
      · refine List.forall_mem_append.mpr ⟨hfirst, ?_⟩
        simpa using hlast.trans_le (hle.trans hi.le)
      · refine List.pairwise_append.mpr ⟨hinit, List.pairwise_singleton _ _, ?_⟩
        intro j hj k hk
        rw [List.mem_singleton.mp hk]
        exact hbefore j hj last (by simp)
    · have hapart : last.2 < i.1 := lt_of_le_of_ne hle htouch
      constructor
      · exact List.forall_mem_append.mpr ⟨h.nonempty, by simpa using hi⟩
      · refine List.pairwise_append.mpr ⟨h.apart, List.pairwise_singleton _ _, ?_⟩
        intro j hj k hk
        rw [List.mem_singleton.mp hk]
        rcases List.mem_append.mp hj with hj | hj
        · exact (hbefore j hj last (by simp)).trans (hlast.trans hapart)
        · rwa [List.mem_singleton.mp hj]

/-- Joining adds the points of the interval. -/
theorem covers_join (h : ∀ j ∈ l, j.1 ≤ j.2) (hi : i.1 ≤ i.2) {t : P} :
    Covers e (join l i) t ↔ Covers e l t ∨ (e i.1 ≤ t ∧ t < e i.2) := by
  have hsingle : ∀ j : K × K, Covers e [j] t ↔ e j.1 ≤ t ∧ t < e j.2 := by
    intro j
    simp [Covers]
  rcases List.eq_nil_or_concat' l with rfl | ⟨init, last, rfl⟩
  · rw [join_nil, hsingle]
    simp [Covers]
  · rw [join_concat]
    split_ifs with htouch
    · have hlast : e last.1 ≤ e last.2 := e.le_iff_le.mpr (h last (by simp))
      have hnext : e i.1 ≤ e i.2 := e.le_iff_le.mpr hi
      have hunion : (e last.1 ≤ t ∧ t < e i.2) ↔
          (e last.1 ≤ t ∧ t < e last.2) ∨ (e i.1 ≤ t ∧ t < e i.2) := by
        rw [htouch] at hlast ⊢
        constructor
        · rintro ⟨hlow, hhigh⟩
          rcases lt_or_ge t (e i.1) with hlt | hge
          · exact .inl ⟨hlow, hlt⟩
          · exact .inr ⟨hge, hhigh⟩
        · rintro (⟨hlow, hhigh⟩ | ⟨hlow, hhigh⟩)
          · exact ⟨hlow, hhigh.trans_le hnext⟩
          · exact ⟨hlast.trans hlow, hhigh⟩
      rw [covers_append, covers_append, hsingle, hsingle, hunion, or_assoc]
    · rw [covers_append _ [i], hsingle]

def joined (l : List (K × K)) : List (K × K) := l.foldl join []

theorem joined_concat (l : List (K × K)) (i : K × K) :
    joined (l ++ [i]) = join (joined l) i := by
  simp [joined]

/-- Joined intervals end where one of the given ones ends. -/
theorem exists_end_of_mem_joined {j : K × K} (hj : j ∈ joined l) : ∃ k ∈ l, j.2 = k.2 := by
  induction l using List.reverseRecOn generalizing j with
  | nil => cases hj
  | append_singleton l i ih =>
    have hold : ∀ k ∈ joined l, ∃ k' ∈ l ++ [i], k.2 = k'.2 := by
      intro k hk
      obtain ⟨k', hk', heq⟩ := ih hk
      exact ⟨k', List.mem_append_left _ hk', heq⟩
    rw [joined_concat] at hj
    rcases List.eq_nil_or_concat' (joined l) with hnil | ⟨init, last, hsplit⟩
    · rw [hnil, join_nil] at hj
      exact ⟨i, by simp, by rw [List.mem_singleton.mp hj]⟩
    · rw [hsplit] at hold
      rw [hsplit, join_concat] at hj
      split_ifs at hj with htouch
      · rcases List.mem_append.mp hj with hj | hj
        · exact hold j (List.mem_append_left _ hj)
        · exact ⟨i, by simp, by rw [List.mem_singleton.mp hj]⟩
      · rcases List.mem_append.mp hj with hj | hj
        · exact hold j hj
        · exact ⟨i, by simp, by rw [List.mem_singleton.mp hj]⟩

variable {lo hi : K}

theorem joined_separated (h : Ordered lo hi l) : Separated (joined l) := by
  induction l using List.reverseRecOn with
  | nil => exact ⟨by simp [joined], List.Pairwise.nil⟩
  | append_singleton l i ih =>
    have hl : Ordered lo hi l := h.sublist (List.sublist_append_left l [i])
    rw [joined_concat]
    refine (ih hl).join (h.nonempty i (by simp)) fun j hj => ?_
    obtain ⟨k, hk, heq⟩ := exists_end_of_mem_joined hj
    rw [heq]
    exact (List.pairwise_append.mp h.disjoint).2.2 k hk i (by simp)

theorem covers_joined_iff (h : Ordered lo hi l) {t : P} :
    Covers e (joined l) t ↔ Covers e l t := by
  induction l using List.reverseRecOn with
  | nil => rfl
  | append_singleton l i ih =>
    have hl : Ordered lo hi l := h.sublist (List.sublist_append_left l [i])
    have hnonempty := (joined_separated hl).nonempty
    rw [joined_concat, covers_join (fun j hj => (hnonempty j hj).le) (h.nonempty i (by simp)).le,
      ih hl, covers_append]
    simp [Covers]

end Join

section Length

variable {K : Type*} [AddCommGroup K]

def total (l : List (K × K)) : K := (l.map fun i => i.2 - i.1).sum

theorem total_cons (i : K × K) (l : List (K × K)) : total (i :: l) = i.2 - i.1 + total l := by
  simp [total]

theorem total_append (l l' : List (K × K)) : total (l ++ l') = total l + total l' := by
  simp [total]

variable [LinearOrder K] {lo hi : K} {l : List (K × K)}

theorem total_gaps (h : Ordered lo hi l) (hbounds : lo ≤ hi) :
    total l + total (gaps hi l lo) = hi - lo := by
  induction l generalizing lo with
  | nil =>
    unfold gaps
    split_ifs with hlt
    · simp [total]
    · simp [total, le_antisymm hbounds (not_lt.mp hlt)]
  | cons first rest ih =>
    have ⟨hlow, hhigh⟩ := h.within first (by simp)
    have hrest := ih h.tail hhigh
    rw [gaps_cons, total_cons]
    split_ifs with hlt
    · rw [total_cons, add_add_add_comm, hrest]
      abel
    · rw [add_assoc, hrest, le_antisymm hlow (not_lt.mp hlt)]
      abel

theorem total_nonneg [IsOrderedAddMonoid K] (h : ∀ i ∈ l, i.1 < i.2) : 0 ≤ total l := by
  refine List.sum_nonneg (List.forall_mem_map.mpr fun i hi => ?_)
  exact sub_nonneg.mpr (h i hi).le

theorem total_join (l : List (K × K)) (i : K × K) :
    total (join l i) = total l + (i.2 - i.1) := by
  rcases List.eq_nil_or_concat' l with rfl | ⟨init, last, rfl⟩
  · simp [join_nil, total]
  · rw [join_concat]
    split_ifs with htouch
    · rw [total_append, total_append, ← htouch]
      simp only [total, List.map_singleton, List.sum_singleton]
      abel
    · rw [total_append _ [i]]
      simp [total]

theorem total_joined (l : List (K × K)) : total (joined l) = total l := by
  induction l using List.reverseRecOn with
  | nil => rfl
  | append_singleton l i ih =>
    rw [joined_concat, total_join, ih, total_append]
    simp [total]

end Length

section Shift

variable {K P : Type*} [AddCommGroup K] [LinearOrder K] [IsOrderedAddMonoid K] [AddCommGroup P]
  [LinearOrder P] [IsOrderedAddMonoid P] {e : K ↪o P} {lo hi : K} {l : List (K × K)}

def shift (origin : K) (l : List (K × K)) : List (K × K) :=
  l.map fun i => (i.1 - origin, i.2 - origin)

omit [LinearOrder K] [IsOrderedAddMonoid K] in
theorem forall_mem_shift {origin : K} {p : K × K → Prop} :
    (∀ i ∈ shift origin l, p i) ↔ ∀ i ∈ l, p (i.1 - origin, i.2 - origin) :=
  List.forall_mem_map

theorem Ordered.shift (h : Ordered lo hi l) (origin : K) :
    Ordered (lo - origin) (hi - origin) (IntervalCover.shift origin l) where
  nonempty := forall_mem_shift.mpr fun i hi => sub_lt_sub_right (h.nonempty i hi) origin
  within := forall_mem_shift.mpr fun i hi =>
    ⟨sub_le_sub_right (h.within i hi).1 origin, sub_le_sub_right (h.within i hi).2 origin⟩
  disjoint := List.pairwise_map.mpr (h.disjoint.imp fun hle => sub_le_sub_right hle origin)

theorem Separated.shift (h : Separated l) (origin : K) :
    Separated (IntervalCover.shift origin l) where
  nonempty := forall_mem_shift.mpr fun i hi => sub_lt_sub_right (h.nonempty i hi) origin
  apart := List.pairwise_map.mpr (h.apart.imp fun hlt => sub_lt_sub_right hlt origin)

omit [IsOrderedAddMonoid K] in
theorem covers_shift_iff (hsub : ∀ a b, e (a - b) = e a - e b) (origin : K) (t : P) :
    Covers e (shift origin l) (t - e origin) ↔ Covers e l t := by
  simp [Covers, shift, hsub]

omit [LinearOrder K] [IsOrderedAddMonoid K] in
theorem total_shift (origin : K) (l : List (K × K)) : total (shift origin l) = total l := by
  simp [total, shift, Function.comp_def]

end Shift

end IntervalCover
