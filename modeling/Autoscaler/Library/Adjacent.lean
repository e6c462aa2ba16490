import Mathlib.Data.List.Chain

/-! Pairs of consecutive elements of a list, `l.zip l.tail`, and those between which a value
changes. -/
namespace Adjacent

variable {α : Type*} {l : List α}

theorem zip_tail_cons_cons (a b : α) (l : List α) :
    (a :: b :: l).zip (a :: b :: l).tail = (a, b) :: (b :: l).zip (b :: l).tail := rfl

theorem mem_zip_tail_iff {a b : α} :
    (a, b) ∈ l.zip l.tail ↔ ∃ pre post, l = pre ++ a :: b :: post := by
  induction l with
  | nil => simp
  | cons first rest ih =>
    cases rest with
    | nil =>
      constructor
      · intro hmem
        cases hmem
      · rintro ⟨pre, post, hsplit⟩
        have hlength := congrArg List.length hsplit
        simp at hlength
        omega
    | cons second rest =>
      rw [zip_tail_cons_cons, List.mem_cons]
      constructor
      · rintro (heq | hmem)
        · cases heq
          exact ⟨[], rest, rfl⟩
        · obtain ⟨pre, post, hsplit⟩ := ih.mp hmem
          exact ⟨first :: pre, post, by rw [hsplit, List.cons_append]⟩
      · rintro ⟨pre, post, hsplit⟩
        cases pre with
        | nil =>
          cases hsplit
          exact .inl rfl
        | cons _ pre =>
          rw [List.cons_append, List.cons.injEq] at hsplit
          exact .inr (ih.mpr ⟨pre, post, hsplit.2⟩)

theorem forall_zip_tail_iff (R : α → α → Prop) (l : List α) :
    (∀ pair ∈ l.zip l.tail, R pair.1 pair.2) ↔ l.IsChain R := by
  induction l with
  | nil => simp
  | cons a rest ih =>
    cases rest with
    | nil => simp
    | cons b rest =>
      rw [zip_tail_cons_cons, List.forall_mem_cons, List.isChain_cons_cons]
      exact and_congr_right fun _ => ih

theorem zip_tail_pairwise {R : α → α → Prop} (h : l.Pairwise R) :
    (l.zip l.tail).Pairwise fun pair later => pair.2 = later.1 ∨ R pair.2 later.1 := by
  induction l with
  | nil => simp
  | cons a rest ih =>
    cases rest with
    | nil => simp
    | cons b rest =>
      have hrest := (List.pairwise_cons.mp h).2
      rw [zip_tail_cons_cons, List.pairwise_cons]
      refine ⟨fun later hlater => ?_, ih hrest⟩
      rcases List.mem_cons.mp (List.of_mem_zip hlater).1 with heq | hmem
      · exact .inl heq.symm
      · exact .inr ((List.pairwise_cons.mp hrest).1 _ hmem)

/-- A search through the pairs that start before `a`, if they do. -/
theorem find?_zip_tail (before : Option α) (a : α) (l : List α) (p : α × α → Bool) :
    ((before.toList ++ a :: l).zip (before.toList ++ a :: l).tail).find? p =
      ((before.map fun b => (b, a)).filter p).or (((a :: l).zip l).find? p) := by
  cases before with
  | none => rfl
  | some b =>
    change ((b, a) :: (a :: l).zip l).find? p = _
    rw [List.find?_cons]
    cases hp : p (b, a) <;> simp [Option.filter, hp]

section Changes

variable {β : Type*} [DecidableEq β] (value : α → β)

/-- The pairs between which the value changes. -/
def changes (l : List α) : List (α × α) :=
  (l.zip l.tail).filter fun pair => decide (value pair.1 ≠ value pair.2)

theorem mem_changes_iff {pair : α × α} :
    pair ∈ changes value l ↔ pair ∈ l.zip l.tail ∧ value pair.1 ≠ value pair.2 := by
  rw [changes, List.mem_filter, decide_eq_true_eq]

theorem changes_cons_cons (a b : α) (l : List α) : changes value (a :: b :: l) =
    if value a ≠ value b then (a, b) :: changes value (b :: l) else changes value (b :: l) := by
  rw [changes, zip_tail_cons_cons, List.filter_cons]
  simp only [decide_eq_true_eq]
  rfl

/-- Every value is the first one or one that a change leads to. -/
theorem eq_first_or_changed (first : α) (rest : List α) : ∀ a ∈ first :: rest,
    value a = value first ∨ ∃ pair ∈ changes value (first :: rest), value pair.2 = value a := by
  induction rest generalizing first with
  | nil => simp
  | cons second rest ih =>
    rw [changes_cons_cons, List.forall_mem_cons]
    refine ⟨.inl rfl, fun a ha => ?_⟩
    split_ifs with hchange
    · rcases ih second a ha with heq | ⟨pair, hpair, heq⟩
      · exact .inr ⟨(first, second), List.mem_cons_self, heq.symm⟩
      · exact .inr ⟨pair, List.mem_cons_of_mem _ hpair, heq⟩
    · rw [not_not.mp hchange]
      exact ih second a ha

theorem changes_subset_cons (a : α) (l : List α) : changes value l ⊆ changes value (a :: l) := by
  intro pair hpair
  cases l with
  | nil => cases hpair
  | cons b rest =>
    rw [changes_cons_cons]
    split_ifs
    · exact List.mem_cons_of_mem _ hpair
    · exact hpair

theorem changes_subset_append (pre l : List α) : changes value l ⊆ changes value (pre ++ l) := by
  induction pre with
  | nil => exact List.Subset.refl _
  | cons a pre ih => exact List.Subset.trans ih (changes_subset_cons value a (pre ++ l))

/-- A last value that an earlier one differs from is reached by a change. -/
theorem exists_change_to_last {init : List α} {last : α} (h : ∃ a ∈ init, value a ≠ value last) :
    ∃ pair ∈ changes value (init ++ [last]), value pair.2 = value last := by
  induction init with
  | nil =>
    obtain ⟨a, ha, -⟩ := h
    cases ha
  | cons first rest ih =>
    by_cases hlater : ∃ a ∈ rest, value a ≠ value last
    · obtain ⟨pair, hpair, heq⟩ := ih hlater
      exact ⟨pair, changes_subset_cons value first _ hpair, heq⟩
    · -- the first element alone differs, so the next one already has the last value
      have hsame : ∀ a ∈ rest ++ [last], value a = value last := by
        intro a ha
        rcases List.mem_append.mp ha with hmem | hmem
        · by_contra hne
          exact hlater ⟨a, hmem, hne⟩
        · rw [List.mem_singleton.mp hmem]
      have hfirst : value first ≠ value last := by
        obtain ⟨a, ha, hne⟩ := h
        rcases List.mem_cons.mp ha with rfl | hmem
        · exact hne
        · exact absurd ⟨a, hmem, hne⟩ hlater
      obtain ⟨next, tail, hsplit⟩ := List.exists_cons_of_ne_nil (List.concat_ne_nil last rest)
      rw [hsplit] at hsame
      have hnext := hsame next List.mem_cons_self
      refine ⟨(first, next), ?_, hnext⟩
      rw [List.cons_append, hsplit, changes_cons_cons, if_pos (hnext ▸ hfirst)]
      exact List.mem_cons_self

end Changes

end Adjacent
