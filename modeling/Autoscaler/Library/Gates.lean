import Mathlib.Data.List.Basic
import Mathlib.Data.List.Count
import Mathlib.Data.List.Nodup
import Mathlib.Logic.Function.Basic

/-! Processes that pass through gates. A gate is a channel with room for one token: a process puts
the token in to enter, acts once inside, and takes the token out to leave. The lists record who
entered, acted and left, in order. -/
namespace Gates

inductive Phase where
  | outside
  | entered
  | acted
  | left
  deriving DecidableEq, Repr

def Phase.inside : Phase → Bool
  | .entered | .acted => true
  | .outside | .left => false

structure State (ι γ : Type*) where
  full : γ → Bool
  phase : ι → Phase
  entered : List ι
  acted : List ι
  left : List ι

variable {ι γ : Type*} [DecidableEq ι] [DecidableEq γ] (gate : ι → γ)

namespace State

def initial : State ι γ := ⟨fun _ => false, fun _ => .outside, [], [], []⟩

variable (s : State ι γ) (i : ι)

def enter : State ι γ where
  full := Function.update s.full (gate i) true
  phase := Function.update s.phase i .entered
  entered := s.entered ++ [i]
  acted := s.acted
  left := s.left

def act : State ι γ where
  full := s.full
  phase := Function.update s.phase i .acted
  entered := s.entered
  acted := s.acted ++ [i]
  left := s.left

def leave : State ι γ where
  full := Function.update s.full (gate i) false
  phase := Function.update s.phase i .left
  entered := s.entered
  acted := s.acted
  left := s.left ++ [i]

@[simp] theorem enter_phase_self : (s.enter gate i).phase i = .entered := Function.update_self ..

omit [DecidableEq γ] in
@[simp] theorem act_phase_self : (s.act i).phase i = .acted := Function.update_self ..

@[simp] theorem leave_phase_self : (s.leave gate i).phase i = .left := Function.update_self ..

variable {i} {j : ι}

theorem enter_phase_of_ne (h : j ≠ i) : (s.enter gate i).phase j = s.phase j :=
  Function.update_of_ne h ..

omit [DecidableEq γ] in
theorem act_phase_of_ne (h : j ≠ i) : (s.act i).phase j = s.phase j := Function.update_of_ne h ..

theorem leave_phase_of_ne (h : j ≠ i) : (s.leave gate i).phase j = s.phase j :=
  Function.update_of_ne h ..

end State

def through (g : γ) (l : List ι) : List ι := l.filter fun i => decide (gate i = g)

omit [DecidableEq ι] in
theorem through_concat (g : γ) (l : List ι) (i : ι) :
    through gate g (l ++ [i]) = through gate g l ++ if gate i = g then [i] else [] := by
  rw [through, List.filter_append, List.filter_singleton]
  by_cases hg : gate i = g <;> simp [hg, through]

/-- A full gate has one process inside, the last one that entered through it. Processes act in the
order in which they entered through their gate, and each leaves once. -/
structure Serial (s : State ι γ) : Prop where
  full_iff : ∀ g, s.full g = true ↔ ∃ i, gate i = g ∧ (s.phase i).inside = true
  nodup : s.entered.Nodup
  mem_entered : ∀ i, i ∈ s.entered ↔ s.phase i ≠ .outside
  last : ∀ i, (s.phase i).inside = true →
    (through gate (gate i) s.entered).getLast? = some i
  order : ∀ g, through gate g s.acted =
    (through gate g s.entered).filter fun i => decide (s.phase i ≠ .entered)
  left : ∀ i, s.left.count i = if s.phase i = .left then 1 else 0

namespace Serial

variable {gate} {s : State ι γ}

theorem exclusive (h : Serial gate s) {i j : ι} (hi : (s.phase i).inside = true)
    (hj : (s.phase j).inside = true) (hgate : gate i = gate j) : i = j := by
  have hlast := h.last i hi
  rw [hgate, h.last j hj] at hlast
  exact (Option.some.inj hlast).symm

/-- Whoever entered through a gate before the process inside is not inside. -/
theorem entered_before (h : Serial gate s) {i : ι} (hi : (s.phase i).inside = true) :
    ∃ before, through gate (gate i) s.entered = before ++ [i] ∧
      ∀ j ∈ before, j ≠ i ∧ (s.phase j).inside = false := by
  obtain ⟨before, hsplit⟩ := List.getLast?_eq_some_iff.mp (h.last i hi)
  have hnodup : (before ++ [i]).Nodup := hsplit ▸ h.nodup.filter _
  refine ⟨before, hsplit, fun j hj => ?_⟩
  have hne : j ≠ i := by
    rintro rfl
    exact (List.disjoint_of_nodup_append hnodup) hj (List.mem_singleton.mpr rfl)
  have hmem : j ∈ through gate (gate i) s.entered := hsplit ▸ List.mem_append_left _ hj
  have hgate : gate j = gate i := of_decide_eq_true (List.mem_filter.mp hmem).2
  refine ⟨hne, Bool.eq_false_iff.mpr fun hinside => hne (h.exclusive hinside hi hgate)⟩

omit [DecidableEq ι] in
theorem filter_of_not_inside {phase : ι → Phase} {l : List ι}
    (h : ∀ j ∈ l, (phase j).inside = false) :
    l.filter (fun j => decide (phase j ≠ .entered)) = l := by
  refine List.filter_eq_self.mpr fun j hj => decide_eq_true fun hentered => ?_
  have hout := h j hj
  rw [hentered] at hout
  cases hout

theorem initial : Serial gate (State.initial : State ι γ) where
  full_iff g := by simp [State.initial, Phase.inside]
  nodup := List.nodup_nil
  mem_entered i := by simp [State.initial]
  last i hi := by cases hi
  order g := rfl
  left i := rfl

theorem notMem_entered (h : Serial gate s) {i : ι} (hi : s.phase i = .outside) : i ∉ s.entered :=
  fun hmem => (h.mem_entered i).mp hmem hi

theorem enter (h : Serial gate s) {i : ι} (hphase : s.phase i = .outside)
    (hfree : s.full (gate i) = false) : Serial gate (s.enter gate i) := by
  have hnew := h.notMem_entered hphase
  have hempty : ∀ j, gate j = gate i → (s.phase j).inside = false := by
    intro j hj
    by_contra hinside
    rw [(h.full_iff (gate i)).mpr ⟨j, hj, by simpa using hinside⟩] at hfree
    cases hfree
  have hother : ∀ j ∈ s.entered, (s.enter gate i).phase j = s.phase j := by
    intro j hj
    refine s.enter_phase_of_ne gate ?_
    rintro rfl
    exact hnew hj
  refine ⟨fun g => ?_, ?_, fun j => ?_, fun j hj => ?_, fun g => ?_, fun j => ?_⟩
  · by_cases hg : gate i = g
    · subst hg
      exact iff_of_true (Function.update_self ..) ⟨i, rfl, by simp [Phase.inside]⟩
    · change Function.update s.full (gate i) true g = true ↔ _
      rw [Function.update_of_ne (Ne.symm hg), h.full_iff]
      refine exists_congr fun j => and_congr_right fun hj => ?_
      rw [s.enter_phase_of_ne gate]
      rintro rfl
      exact hg hj
  · refine h.nodup.append (List.nodup_cons.mpr ⟨List.not_mem_nil, List.nodup_nil⟩) ?_
    intro a ha hai
    rw [List.mem_singleton.mp hai] at ha
    exact hnew ha
  · change j ∈ s.entered ++ [i] ↔ _
    by_cases hji : j = i
    · subst hji
      simp
    · rw [List.mem_append, List.mem_singleton, h.mem_entered, s.enter_phase_of_ne gate hji]
      simp [hji]
  · change (through gate (gate j) (s.entered ++ [i])).getLast? = some j
    rw [through_concat]
    by_cases hji : j = i
    · subst hji
      rw [if_pos rfl, List.getLast?_concat]
    · rw [s.enter_phase_of_ne gate hji] at hj
      have hgate : gate i ≠ gate j := by
        intro heq
        rw [hempty j heq.symm] at hj
        cases hj
      rw [if_neg hgate, List.append_nil]
      exact h.last j hj
  · -- the newcomer has not acted, the others are as before
    change through gate g s.acted = (through gate g (s.entered ++ [i])).filter _
    have hold : (through gate g s.entered).filter
        (fun j => decide ((s.enter gate i).phase j ≠ .entered)) =
          (through gate g s.entered).filter fun j => decide (s.phase j ≠ .entered) :=
      List.filter_congr fun j hj => by rw [hother j (List.mem_of_mem_filter hj)]
    rw [through_concat, List.filter_append, hold, h.order]
    by_cases hg : gate i = g <;> simp [hg]
  · change s.left.count j = _
    rw [h.left]
    by_cases hji : j = i
    · subst hji
      simp [hphase]
    · rw [s.enter_phase_of_ne gate hji]

theorem act (h : Serial gate s) {i : ι} (hphase : s.phase i = .entered) :
    Serial gate (s.act i) := by
  have hinside : ∀ j, ((s.act i).phase j).inside = (s.phase j).inside := by
    intro j
    by_cases hji : j = i
    · subst hji
      simp [hphase, Phase.inside]
    · rw [s.act_phase_of_ne hji]
  have hactor : (s.phase i).inside = true := by rw [hphase]; rfl
  refine ⟨fun g => ?_, h.nodup, fun j => ?_, fun j hj => ?_, fun g => ?_, fun j => ?_⟩
  · simp only [hinside]
    exact h.full_iff g
  · change j ∈ s.entered ↔ _
    rw [h.mem_entered]
    by_cases hji : j = i
    · subst hji
      simp [hphase]
    · rw [s.act_phase_of_ne hji]
  · rw [hinside] at hj
    exact h.last j hj
  · change through gate g (s.acted ++ [i]) = (through gate g s.entered).filter _
    by_cases hg : gate i = g
    · subst hg
      obtain ⟨before, hsplit, hgone⟩ := h.entered_before hactor
      have hbefore : before.filter (fun j => decide (s.phase j ≠ .entered)) = before :=
        filter_of_not_inside fun j hj => (hgone j hj).2
      have hbefore' : before.filter (fun j => decide ((s.act i).phase j ≠ .entered)) = before :=
        filter_of_not_inside fun j hj => (hinside j).trans (hgone j hj).2
      have horder := h.order (gate i)
      rw [hsplit, List.filter_append, hbefore] at horder
      rw [through_concat, horder, hsplit, List.filter_append, hbefore', if_pos rfl]
      simp [hphase]
    · have hsame : (through gate g s.entered).filter
          (fun j => decide ((s.act i).phase j ≠ .entered)) =
            (through gate g s.entered).filter fun j => decide (s.phase j ≠ .entered) := by
        refine List.filter_congr fun j hj => ?_
        rw [s.act_phase_of_ne]
        rintro rfl
        exact hg (of_decide_eq_true (List.mem_filter.mp hj).2)
      rw [hsame, ← h.order, through_concat, if_neg hg, List.append_nil]
  · change s.left.count j = _
    rw [h.left]
    by_cases hji : j = i
    · subst hji
      simp [hphase]
    · rw [s.act_phase_of_ne hji]

theorem leave (h : Serial gate s) {i : ι} (hphase : s.phase i = .acted) :
    Serial gate (s.leave gate i) := by
  have hleaver : (s.phase i).inside = true := by rw [hphase]; rfl
  refine ⟨fun g => ?_, h.nodup, fun j => ?_, fun j hj => ?_, fun g => ?_, fun j => ?_⟩
  · by_cases hg : gate i = g
    · subst hg
      refine iff_of_false (by simp [State.leave]) ?_
      rintro ⟨j, hj, hinside⟩
      by_cases hji : j = i
      · subst hji
        simp [Phase.inside] at hinside
      · rw [s.leave_phase_of_ne gate hji] at hinside
        exact hji (h.exclusive hinside hleaver hj)
    · change Function.update s.full (gate i) false g = true ↔ _
      rw [Function.update_of_ne (Ne.symm hg), h.full_iff]
      refine exists_congr fun j => and_congr_right fun hj => ?_
      rw [s.leave_phase_of_ne gate]
      rintro rfl
      exact hg hj
  · change j ∈ s.entered ↔ _
    rw [h.mem_entered]
    by_cases hji : j = i
    · subst hji
      simp [hphase]
    · rw [s.leave_phase_of_ne gate hji]
  · by_cases hji : j = i
    · subst hji
      simp [Phase.inside] at hj
    · rw [s.leave_phase_of_ne gate hji] at hj
      exact h.last j hj
  · change through gate g s.acted = _
    rw [h.order]
    refine List.filter_congr fun j _ => ?_
    by_cases hji : j = i
    · subst hji
      simp [hphase]
    · rw [s.leave_phase_of_ne gate hji]
  · change (s.left ++ [i]).count j = _
    rw [List.count_append, h.left]
    by_cases hji : j = i
    · subst hji
      simp [hphase]
    · rw [s.leave_phase_of_ne gate hji, List.count_singleton]
      simp [Ne.symm hji]

theorem mem_entered_of_acted (h : Serial gate s) {i : ι} (hi : i ∈ s.acted) : i ∈ s.entered := by
  have hmem : i ∈ through gate (gate i) s.acted :=
    List.mem_filter.mpr ⟨hi, decide_eq_true rfl⟩
  rw [h.order] at hmem
  exact List.mem_of_mem_filter (List.mem_of_mem_filter hmem)

/-- All that entered through a gate have acted, in the same order, but perhaps the last one, who
is then inside. -/
theorem entered_eq_acted (h : Serial gate s) (g : γ) :
    through gate g s.entered = through gate g s.acted ∨
      ∃ i, (s.phase i).inside = true ∧
        through gate g s.entered = through gate g s.acted ++ [i] := by
  by_cases hquiet : ∀ i, gate i = g → s.phase i ≠ .entered
  · left
    rw [h.order]
    refine (List.filter_eq_self.mpr fun i hi => decide_eq_true (hquiet i ?_)).symm
    exact of_decide_eq_true (List.mem_filter.mp hi).2
  · right
    push Not at hquiet
    obtain ⟨i, rfl, hentered⟩ := hquiet
    have hinside : (s.phase i).inside = true := by rw [hentered]; rfl
    obtain ⟨before, hsplit, hgone⟩ := h.entered_before hinside
    have hbefore : before.filter (fun j => decide (s.phase j ≠ .entered)) = before :=
      filter_of_not_inside fun j hj => (hgone j hj).2
    refine ⟨i, hinside, ?_⟩
    rw [h.order, hsplit, List.filter_append, hbefore]
    simp [hentered]

theorem count_entered (h : Serial gate s) (i : ι) :
    s.entered.count i = if s.phase i = .outside then 0 else 1 := by
  split_ifs with hphase
  · exact List.count_eq_zero.mpr (h.notMem_entered hphase)
  · exact List.count_eq_one_of_mem h.nodup ((h.mem_entered i).mpr hphase)

end Serial

end Gates
