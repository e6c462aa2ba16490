import Mathlib.Data.List.Sort

/-! Insertion sort by a comparison that need not order all elements. -/
namespace ComparisonSort

variable {α : Type*} {r R : α → α → Prop} [DecidableRel r]

theorem pairwise_orderedInsert {a : α} {l : List α} (h : l.Pairwise R)
    (hr : ∀ b ∈ l, r a b → R a b) (hnr : ∀ b ∈ l, ¬ r a b → R b a)
    (htrans : ∀ b ∈ l, ∀ c ∈ l, R a b → R b c → R a c) : (l.orderedInsert r a).Pairwise R := by
  induction l with
  | nil => exact List.pairwise_singleton R a
  | cons b rest ih =>
    obtain ⟨hb, hrest⟩ := List.pairwise_cons.mp h
    rw [List.orderedInsert]
    split_ifs with hab
    · have hRab := hr b List.mem_cons_self hab
      refine List.pairwise_cons.mpr ⟨List.forall_mem_cons.mpr ⟨hRab, fun c hc => ?_⟩, h⟩
      exact htrans b List.mem_cons_self c (.tail _ hc) hRab (hb c hc)
    · refine List.pairwise_cons.mpr ⟨fun c hc => ?_, ?_⟩
      · rcases (List.mem_orderedInsert r).mp hc with rfl | hmem
        · exact hnr b List.mem_cons_self hab
        · exact hb c hmem
      · exact ih hrest (fun c hc => hr c (.tail _ hc)) (fun c hc => hnr c (.tail _ hc))
          fun c hc d hd => htrans c (.tail _ hc) d (.tail _ hd)

/-- The result is in any order that the comparison decides between its elements. -/
theorem pairwise_insertionSort {l : List α} (hr : ∀ a ∈ l, ∀ b ∈ l, r a b → R a b)
    (hnr : ∀ a ∈ l, ∀ b ∈ l, ¬ r a b → R b a)
    (htrans : ∀ a ∈ l, ∀ b ∈ l, ∀ c ∈ l, R a b → R b c → R a c) :
    (l.insertionSort r).Pairwise R := by
  induction l with
  | nil => exact .nil
  | cons a rest ih =>
    have hsorted := ih (fun b hb c hc => hr b (.tail _ hb) c (.tail _ hc))
      (fun b hb c hc => hnr b (.tail _ hb) c (.tail _ hc))
      fun b hb c hc d hd => htrans b (.tail _ hb) c (.tail _ hc) d (.tail _ hd)
    have hmem : ∀ b ∈ rest.insertionSort r, b ∈ a :: rest :=
      fun b hb => .tail _ ((List.mem_insertionSort r).mp hb)
    rw [List.insertionSort_cons]
    exact pairwise_orderedInsert hsorted
      (fun b hb => hr a List.mem_cons_self b (hmem b hb))
      (fun b hb => hnr a List.mem_cons_self b (hmem b hb))
      fun b hb c hc => htrans a List.mem_cons_self b (hmem b hb) c (hmem c hc)

/-- An element that is inserted comes before `last`, or the comparison put it after it. -/
theorem orderedInsert_append (a last : α) (pre post : List α) :
    (∃ before, (pre ++ last :: post).orderedInsert r a = before ++ last :: post) ∨
      (¬ r a last ∧ (pre ++ last :: post).orderedInsert r a =
        pre ++ last :: post.orderedInsert r a) := by
  induction pre with
  | nil =>
    rw [List.nil_append, List.orderedInsert]
    split_ifs with ha
    · exact .inl ⟨[a], rfl⟩
    · exact .inr ⟨ha, rfl⟩
  | cons b pre ih =>
    rw [List.cons_append, List.orderedInsert]
    split_ifs with ha
    · exact .inl ⟨a :: b :: pre, rfl⟩
    · rcases ih with ⟨before, hbefore⟩ | ⟨hlast, hafter⟩
      · exact .inl ⟨b :: before, by rw [hbefore, List.cons_append]⟩
      · exact .inr ⟨hlast, by rw [hafter, List.cons_append]⟩

/-- Only what the comparison does not put before the last element of the input comes after it. -/
theorem insertionSort_concat (r : α → α → Prop) [DecidableRel r] (l : List α) (last : α) :
    ∃ pre post, (l ++ [last]).insertionSort r = pre ++ last :: post ∧ ∀ a ∈ post, ¬ r a last := by
  induction l with
  | nil => exact ⟨[], [], rfl, by simp⟩
  | cons a l ih =>
    obtain ⟨pre, post, hsorted, hpost⟩ := ih
    rw [List.cons_append, List.insertionSort_cons, hsorted]
    rcases orderedInsert_append (r := r) a last pre post with ⟨before, hbefore⟩ | ⟨hlast, hafter⟩
    · exact ⟨before, post, hbefore, hpost⟩
    · refine ⟨pre, _, hafter, fun b hb => ?_⟩
      rcases (List.mem_orderedInsert r).mp hb with rfl | hmem
      · exact hlast
      · exact hpost b hmem

section Filter

variable (htrans : ∀ a b c, r a b → r b c → r a c) (p : α → Bool)

include htrans

theorem filter_orderedInsert (a : α) {l : List α} (h : l.Pairwise r) :
    (l.orderedInsert r a).filter p =
      if p a = true then (l.filter p).orderedInsert r a else l.filter p := by
  induction l with
  | nil => rw [List.orderedInsert, List.filter_cons]; rfl
  | cons b rest ih =>
    obtain ⟨hb, hrest⟩ := List.pairwise_cons.mp h
    rw [List.orderedInsert]
    by_cases hab : r a b
    · rw [if_pos hab, List.filter_cons]
      split_ifs with hp
      · -- what the filter leaves comes after `b`, and so after `a`
        have hall : ∀ c ∈ (b :: rest).filter p, r a c := by
          intro c hc
          rcases List.mem_cons.mp (List.mem_filter.mp hc).1 with rfl | hmem
          · exact hab
          · exact htrans a b c hab (hb c hmem)
        cases hfilter : (b :: rest).filter p with
        | nil => rfl
        | cons c kept =>
          rw [hfilter] at hall
          rw [List.orderedInsert, if_pos (hall c List.mem_cons_self)]
      · rfl
    · rw [if_neg hab, List.filter_cons, List.filter_cons, ih hrest]
      by_cases hpb : p b = true
      · rw [if_pos hpb, if_pos hpb]
        split_ifs with hp
        · rw [List.orderedInsert, if_neg hab]
        · rfl
      · rw [if_neg hpb, if_neg hpb]

/-- A stable sort keeps the order of any part of the list. -/
theorem filter_insertionSort (htotal : ∀ a b, ¬ r a b → r b a) (l : List α) :
    (l.insertionSort r).filter p = (l.filter p).insertionSort r := by
  induction l with
  | nil => rfl
  | cons a rest ih =>
    have hsorted : (rest.insertionSort r).Pairwise r :=
      pairwise_insertionSort (fun _ _ _ _ h => h) (fun a _ b _ => htotal a b)
        fun a _ b _ c _ => htrans a b c
    rw [List.insertionSort_cons, filter_orderedInsert htrans p a hsorted, List.filter_cons, ih]
    split_ifs
    · rw [List.insertionSort_cons]
    · rfl

end Filter

end ComparisonSort
