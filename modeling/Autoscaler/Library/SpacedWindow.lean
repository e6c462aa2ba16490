import Mathlib.Algebra.Order.Ring.Int
import Mathlib.Data.List.Forall2
import Mathlib.Data.List.Induction
import Mathlib.Tactic.Linarith

/-! Timed series with a minimum spacing inside a sliding window. An element that comes too early
is shown in place of the last kept one, which stays as the anchor. -/
namespace SpacedWindow

section Operations

variable {α T : Type*} [CommRing T] [LinearOrder T] (time : α → T)

def retain (window t : T) (l : List α) : List α :=
  l.filter fun a => decide (t - window ≤ time a) && decide (time a < t)

/-- Whether an element at `t` is far enough from the last kept one to be kept itself. -/
def opens (gap t : T) (l : List α) : Bool :=
  match l.getLast? with
  | none => true
  | some last => decide (gap ≤ t - time last)

def store (window gap : T) (l : List α) (x : α) : List α :=
  if opens time gap (time x) (retain time window (time x) l) then
    retain time window (time x) l ++ [x]
  else retain time window (time x) l

def view (window gap : T) (l : List α) (x : α) : List α :=
  if opens time gap (time x) (retain time window (time x) l) then
    retain time window (time x) l ++ [x]
  else (retain time window (time x) l).dropLast ++ [x]

theorem mem_retain {window t : T} {l : List α} {a : α} :
    a ∈ retain time window t l ↔ a ∈ l ∧ t - window ≤ time a ∧ time a < t := by
  simp [retain]

theorem opens_concat (gap t : T) (l : List α) (a : α) :
    opens time gap t (l ++ [a]) = decide (gap ≤ t - time a) := by
  simp [opens]

theorem exists_concat_of_not_opens {gap t : T} {l : List α} (h : opens time gap t l = false) :
    ∃ init last, l = init ++ [last] ∧ t - time last < gap := by
  rcases List.eq_nil_or_concat' l with rfl | ⟨init, last, rfl⟩
  · cases h
  · rw [opens_concat] at h
    exact ⟨init, last, rfl, not_le.mp (of_decide_eq_false h)⟩

theorem mem_store {window gap : T} {l : List α} {x a : α} (h : a ∈ store time window gap l x) :
    a = x ∨ a ∈ l := by
  unfold store at h
  split_ifs at h with ho
  · rcases List.mem_append.mp h with h | h
    · exact .inr ((mem_retain time).mp h).1
    · exact .inl (List.mem_singleton.mp h)
  · exact .inr ((mem_retain time).mp h).1

theorem mem_view {window gap : T} {l : List α} {x a : α} (h : a ∈ view time window gap l x) :
    a = x ∨ a ∈ l := by
  unfold view at h
  split_ifs at h with ho
  · rcases List.mem_append.mp h with h | h
    · exact .inr ((mem_retain time).mp h).1
    · exact .inl (List.mem_singleton.mp h)
  · rcases List.mem_append.mp h with h | h
    · exact .inr ((mem_retain time).mp ((List.dropLast_sublist _).subset h)).1
    · exact .inl (List.mem_singleton.mp h)

theorem view_getLast (window gap : T) (l : List α) (x : α) :
    (view time window gap l x).getLast? = some x := by
  unfold view
  split_ifs <;> simp

/-- Spacing of a series and the window it lies in. -/
structure Spaced (gap low high : T) (l : List α) : Prop where
  spacing : l.Pairwise fun a b => time a + gap ≤ time b
  within : ∀ a ∈ l, low ≤ time a ∧ time a ≤ high

theorem Spaced.nil (gap low high : T) : Spaced time gap low high [] :=
  ⟨List.Pairwise.nil, by simp⟩

theorem Spaced.retain {gap low high window t : T} {l : List α}
    (hl : Spaced time gap low high l) :
    Spaced time gap (t - window) t (SpacedWindow.retain time window t l) where
  spacing := hl.spacing.sublist List.filter_sublist
  within a ha := by
    have hmem := (mem_retain time).mp ha
    exact ⟨hmem.2.1, hmem.2.2.le⟩

theorem Spaced.concat {gap low : T} {l : List α} {x : α} (hl : Spaced time gap low (time x) l)
    (hspace : ∀ a ∈ l, time a + gap ≤ time x) (hlow : low ≤ time x) :
    Spaced time gap low (time x) (l ++ [x]) where
  spacing := by
    refine List.pairwise_append.mpr ⟨hl.spacing, List.pairwise_singleton _ _, ?_⟩
    intro a ha b hb
    rw [List.mem_singleton.mp hb]
    exact hspace a ha
  within a ha := by
    rcases List.mem_append.mp ha with ha | ha
    · exact hl.within a ha
    · rw [List.mem_singleton.mp ha]
      exact ⟨hlow, le_rfl⟩

theorem Spaced.dropLast {gap low high : T} {l : List α} (hl : Spaced time gap low high l) :
    Spaced time gap low high l.dropLast where
  spacing := hl.spacing.sublist (List.dropLast_sublist l)
  within a ha := hl.within a ((List.dropLast_sublist l).subset ha)

/-- In a spaced series the last element bounds the earlier ones. -/
theorem Spaced.before_last {gap low high : T} {init : List α} {last : α}
    (hl : Spaced time gap low high (init ++ [last])) :
    ∀ a ∈ init, time a + gap ≤ time last := by
  intro a ha
  exact (List.pairwise_append.mp hl.spacing).2.2 a ha last (by simp)

end Operations

section Invariant

variable {α T : Type*} [CommRing T] [LinearOrder T] [IsStrictOrderedRing T] (time : α → T)

theorem Spaced.of_opens {gap low t : T} {l : List α} (hgap : 0 ≤ gap)
    (hl : Spaced time gap low t l) (ho : opens time gap t l = true) :
    ∀ a ∈ l, time a + gap ≤ t := by
  rcases List.eq_nil_or_concat' l with rfl | ⟨init, last, rfl⟩
  · simp
  · rw [opens_concat] at ho
    have hlast := of_decide_eq_true ho
    intro a ha
    rcases List.mem_append.mp ha with ha | ha
    · have := hl.before_last time a ha
      linarith
    · rw [List.mem_singleton.mp ha]
      linarith

variable {gap window low high : T} {l : List α}

theorem Spaced.store (hgap : 0 ≤ gap) (hwindow : 0 ≤ window) (hl : Spaced time gap low high l)
    (x : α) :
    Spaced time gap (time x - window) (time x) (SpacedWindow.store time window gap l x) := by
  have hkept : Spaced time gap (time x - window) (time x)
      (SpacedWindow.retain time window (time x) l) := hl.retain time
  unfold SpacedWindow.store
  split_ifs with ho
  · exact hkept.concat time (hkept.of_opens time hgap ho) (by linarith)
  · exact hkept

theorem Spaced.view (hgap : 0 ≤ gap) (hwindow : 0 ≤ window) (hl : Spaced time gap low high l)
    (x : α) :
    Spaced time gap (time x - window) (time x) (SpacedWindow.view time window gap l x) := by
  have hkept : Spaced time gap (time x - window) (time x)
      (SpacedWindow.retain time window (time x) l) := hl.retain time
  unfold SpacedWindow.view
  cases ho : opens time gap (time x) (SpacedWindow.retain time window (time x) l) with
  | true => exact hkept.concat time (hkept.of_opens time hgap ho) (by linarith)
  | false =>
    obtain ⟨init, last, hinit, -⟩ := exists_concat_of_not_opens time ho
    have hmem : last ∈ SpacedWindow.retain time window (time x) l := by simp [hinit]
    have hlast := ((mem_retain time).mp hmem).2.2
    rw [if_neg (by simp)]
    refine (hkept.dropLast time).concat time ?_ (by linarith)
    intro a ha
    rw [hinit] at hkept ha
    have := hkept.before_last time a (by simpa using ha)
    linarith

end Invariant

section Readiness

variable {α T : Type*} [CommRing T] [LinearOrder T] (time : α → T)

theorem retain_concat {window t : T} {l : List α} {a : α} (hlow : t - window ≤ time a)
    (hhigh : time a < t) :
    retain time window t (l ++ [a]) = retain time window t l ++ [a] := by
  have hkeep : (decide (t - window ≤ time a) && decide (time a < t)) = true := by
    rw [Bool.and_eq_true]
    exact ⟨decide_eq_true hlow, decide_eq_true hhigh⟩
  rw [retain, List.filter_append, List.filter_singleton, hkeep]
  rfl

/-- The last anchor is recent, and a later one than `first` has an earlier one not far before. -/
def Anchored (gap step first now : T) (l : List α) : Prop :=
  ∃ init last, l = init ++ [last] ∧ time last ≤ now ∧ now - time last < gap ∧
    (first < time last → ∃ a ∈ init, time a < time last ∧ time last - time a < gap + step)

variable {window gap step first now : T} {l : List α} {x : α}

/-- The first element seen is anchored, whatever was kept before. -/
theorem anchored_first (hgap : 0 < gap) (hx : time x = first) :
    Anchored time gap step first (time x) (store time window gap l x) := by
  unfold store
  cases ho : opens time gap (time x) (retain time window (time x) l) with
  | true =>
    rw [if_pos rfl]
    refine ⟨_, x, rfl, le_rfl, by rwa [sub_self], fun hlt => ?_⟩
    exact absurd hx hlt.ne'
  | false =>
    obtain ⟨init, last, hinit, hrecent⟩ := exists_concat_of_not_opens time ho
    have hmem : last ∈ retain time window (time x) l := by simp [hinit]
    have hlast := ((mem_retain time).mp hmem).2.2
    rw [if_neg (by simp)]
    refine ⟨init, last, hinit, hlast.le, hrecent, fun hlt => ?_⟩
    rw [← hx] at hlt
    exact absurd hlast hlt.not_gt

section Step

variable [IsStrictOrderedRing T] (hl : Anchored time gap step first now l) (hlater : now < time x)
  (hsoon : time x ≤ now + step)
include hl hlater hsoon

/-- The last anchor and the one before it are still in the window of the next element. -/
theorem Anchored.retain (hwindow : gap + gap + step ≤ window) :
    ∃ init last, SpacedWindow.retain time window (time x) l = init ++ [last] ∧
      time last < time x ∧ time x - time last < gap + step ∧
      (first < time last → time x - time last < gap →
        ∃ a ∈ init, time a < time last ∧ time last - time a < gap + step) := by
  obtain ⟨init, last, rfl, hlast, hrecent, hbefore⟩ := hl
  have hgap : 0 < gap := by linarith
  have hclose : time x - time last < gap + step := by linarith
  refine ⟨_, last, retain_concat time (by linarith) (by linarith), by linarith, hclose, ?_⟩
  intro hfirst hx
  obtain ⟨a, ha, hlt, hspace⟩ := hbefore hfirst
  refine ⟨a, (mem_retain time).mpr ⟨ha, ?_, ?_⟩, hlt, hspace⟩
  · linarith
  · linarith

theorem Anchored.store (hwindow : gap + gap + step ≤ window) :
    Anchored time gap step first (time x) (SpacedWindow.store time window gap l x) := by
  have hgap : 0 < gap := by
    obtain ⟨init, last, -, hlast, hrecent, -⟩ := hl
    linarith
  obtain ⟨init, last, hkept, hlast, hclose, hbefore⟩ := hl.retain time hlater hsoon hwindow
  unfold SpacedWindow.store
  rw [hkept, opens_concat]
  split_ifs with ho
  · refine ⟨init ++ [last], x, rfl, le_rfl, by rwa [sub_self], fun _ => ?_⟩
    exact ⟨last, by simp, hlast, hclose⟩
  · have hx : time x - time last < gap := not_le.mp fun hle => ho (decide_eq_true hle)
    exact ⟨init, last, rfl, hlast.le, hx, fun hfirst => hbefore hfirst hx⟩

/-- One spacing after the first element, every element is shown with another one. -/
theorem Anchored.two_le_length_view (hwindow : gap + gap + step ≤ window)
    (hready : first + gap ≤ time x) :
    2 ≤ (SpacedWindow.view time window gap l x).length := by
  obtain ⟨init, last, hkept, hlast, hclose, hbefore⟩ := hl.retain time hlater hsoon hwindow
  unfold SpacedWindow.view
  rw [hkept, opens_concat]
  split_ifs with ho
  · simp
  · have hx : time x - time last < gap := not_le.mp fun hle => ho (decide_eq_true hle)
    obtain ⟨a, ha, -⟩ := hbefore (by linarith) hx
    have hpos : 0 < init.length := List.length_pos_of_mem ha
    rw [List.dropLast_concat, List.length_append, List.length_singleton]
    omega

end Step

end Readiness

section Simulation

variable {α β T U : Type*} [CommRing T] [LinearOrder T] [CommRing U] [LinearOrder U]
  {time : α → T} {time' : β → U}

/-- Two clocks that compare related elements with `x` and `y` in the same way. -/
structure SameClock (time : α → T) (time' : β → U) (R : α → β → Prop) (window gap : T)
    (window' gap' : U) (x : α) (y : β) : Prop where
  within : ∀ a b, R a b → (time x - window ≤ time a ↔ time' y - window' ≤ time' b)
  before : ∀ a b, R a b → (time a < time x ↔ time' b < time' y)
  spaced : ∀ a b, R a b → (gap ≤ time x - time a ↔ gap' ≤ time' y - time' b)
  related : R x y

variable {R : α → β → Prop} {window gap : T} {window' gap' : U} {x : α} {y : β} {l : List α}
  {l' : List β}

theorem SameClock.retain (h : SameClock time time' R window gap window' gap' x y)
    (hl : List.Forall₂ R l l') :
    List.Forall₂ R (SpacedWindow.retain time window (time x) l)
      (SpacedWindow.retain time' window' (time' y) l') := by
  refine List.rel_filter ?_ hl
  intro a b hab
  simp only [Bool.and_eq_true, decide_eq_true_eq]
  exact and_congr (h.within a b hab) (h.before a b hab)

theorem SameClock.opens (h : SameClock time time' R window gap window' gap' x y)
    (hl : List.Forall₂ R l l') :
    SpacedWindow.opens time gap (time x) l = SpacedWindow.opens time' gap' (time' y) l' := by
  have hrev := List.forall₂_reverse_iff.mpr hl
  unfold SpacedWindow.opens
  rw [← List.head?_reverse, ← List.head?_reverse]
  generalize l.reverse = r, l'.reverse = r' at hrev ⊢
  cases hrev with
  | nil => rfl
  | cons hlast _ => exact decide_eq_decide.mpr (h.spaced _ _ hlast)

/-- Related series stay related when related elements are stored. -/
theorem SameClock.store (h : SameClock time time' R window gap window' gap' x y)
    (hl : List.Forall₂ R l l') :
    List.Forall₂ R (SpacedWindow.store time window gap l x)
      (SpacedWindow.store time' window' gap' l' y) := by
  have hkept := h.retain hl
  unfold SpacedWindow.store
  rw [h.opens hkept]
  split_ifs
  · exact List.rel_append hkept (.cons h.related .nil)
  · exact hkept

/-- Related series show related series. -/
theorem SameClock.view (h : SameClock time time' R window gap window' gap' x y)
    (hl : List.Forall₂ R l l') :
    List.Forall₂ R (SpacedWindow.view time window gap l x)
      (SpacedWindow.view time' window' gap' l' y) := by
  have hkept := h.retain hl
  unfold SpacedWindow.view
  rw [h.opens hkept]
  split_ifs
  · exact List.rel_append hkept (.cons h.related .nil)
  · refine List.rel_append ?_ (.cons h.related .nil)
    rw [List.dropLast_eq_take, List.dropLast_eq_take, hkept.length_eq]
    exact List.forall₂_take _ hkept

end Simulation

section Length

variable {α : Type*} (time : α → ℤ)

/-- A spaced series has at most one element for each gap of its window, and one more. -/
theorem Spaced.length_le {gap low high : ℤ} {l : List α} (hgap : 0 < gap)
    (hl : Spaced time gap low high l) (hwindow : low ≤ high) :
    (l.length : ℤ) ≤ (high - low) / gap + 1 := by
  have hspan : ∀ (l : List α) (a : α), Spaced time gap low high (l ++ [a]) →
      low + l.length * gap ≤ time a := by
    intro l
    induction l using List.reverseRecOn with
    | nil =>
      intro a ha
      have := (ha.within a (by simp)).1
      simpa using this
    | append_singleton init b ih =>
      intro a ha
      have hinit : Spaced time gap low high (init ++ [b]) := by
        have := ha.dropLast time
        simpa using this
      have hb := ih b hinit
      have hba := ha.before_last time b (by simp)
      have hlen : ((init ++ [b]).length : ℤ) = init.length + 1 := by simp
      rw [hlen, add_mul, one_mul]
      omega
  rcases List.eq_nil_or_concat' l with rfl | ⟨init, last, rfl⟩
  · have := Int.ediv_nonneg (by omega : 0 ≤ high - low) hgap.le
    simp only [List.length_nil, Nat.cast_zero]
    omega
  · have hlow := hspan init last hl
    have hhigh := (hl.within last (by simp)).2
    have hdiv : (init.length : ℤ) ≤ (high - low) / gap :=
      (Int.le_ediv_iff_mul_le hgap).mpr (by omega)
    have hlen : ((init ++ [last]).length : ℤ) = init.length + 1 := by simp
    omega

end Length

end SpacedWindow
