import Mathlib.Data.List.Induction
import Mathlib.Data.List.Nodup
import Mathlib.Data.List.Perm.Lattice

/-! Items of several sources written one among the other, and the groups that tell them apart
again, in the order in which the sources first appear. -/
namespace Demultiplex

variable {κ α : Type*} [DecidableEq κ]

def part (k : κ) (items : List (κ × α)) : List α :=
  (items.filter fun item => decide (item.1 = k)).map Prod.snd

/-- Every item belongs to a source, and each source wrote its own items in order. -/
structure Interleaves (sources : List (κ × List α)) (items : List (κ × α)) : Prop where
  part_eq : ∀ source ∈ sources, part source.1 items = source.2
  owned : ∀ item ∈ items, item.1 ∈ sources.map Prod.fst

def add (k : κ) (a : α) : List (κ × List α) → List (κ × List α)
  | [] => [(k, [a])]
  | group :: rest =>
    if group.1 = k then (k, group.2 ++ [a]) :: rest else group :: add k a rest

def groups (items : List (κ × α)) : List (κ × List α) :=
  items.foldl (fun found item => add item.1 item.2 found) []

variable {k k' : κ} {a : α} {items : List (κ × α)} {found : List (κ × List α)}

theorem part_append (k : κ) (items items' : List (κ × α)) :
    part k (items ++ items') = part k items ++ part k items' := by
  simp [part]

theorem part_concat_self (k : κ) (items : List (κ × α)) (a : α) :
    part k (items ++ [(k, a)]) = part k items ++ [a] := by
  simp [part]

theorem part_concat_of_ne (h : k' ≠ k) (items : List (κ × α)) (a : α) :
    part k (items ++ [(k', a)]) = part k items := by
  simp [part, h]

theorem mem_part : a ∈ part k items ↔ (k, a) ∈ items := by
  simp [part]

theorem keys_add (k : κ) (a : α) (found : List (κ × List α)) :
    (add k a found).map Prod.fst =
      if k ∈ found.map Prod.fst then found.map Prod.fst else found.map Prod.fst ++ [k] := by
  induction found with
  | nil => rfl
  | cons group rest ih =>
    rw [add]
    by_cases hk : group.1 = k
    · simp [hk]
    · rw [if_neg hk, List.map_cons, ih]
      have hne : k ≠ group.1 := Ne.symm hk
      simp only [List.map_cons, List.mem_cons, hne, false_or]
      split_ifs <;> simp

theorem mem_add_of_ne (h : k' ≠ k) {l : List α} : (k', l) ∈ add k a found ↔ (k', l) ∈ found := by
  induction found with
  | nil => simp [add, h]
  | cons group rest ih =>
    rw [add]
    split_ifs with hk
    · have hhead : (k', l) ≠ group := by
        rintro rfl
        exact h hk
      simp [h, hhead]
    · rw [List.mem_cons, List.mem_cons, ih]

/-- The group of the key, with the item at its end. -/
theorem mem_add_self (hnodup : (found.map Prod.fst).Nodup) {l : List α} :
    (k, l) ∈ add k a found ↔
      (∃ l₀, (k, l₀) ∈ found ∧ l = l₀ ++ [a]) ∨ k ∉ found.map Prod.fst ∧ l = [a] := by
  induction found with
  | nil => simp [add]
  | cons group rest ih =>
    obtain ⟨hhead, hrest⟩ := List.nodup_cons.mp hnodup
    rw [add]
    split_ifs with hk
    · subst hk
      have hother : ∀ l₀, (group.1, l₀) ∉ rest := fun l₀ hl₀ =>
        hhead (List.mem_map.mpr ⟨_, hl₀, rfl⟩)
      constructor
      · intro hmem
        rcases List.mem_cons.mp hmem with heq | hmem
        · exact .inl ⟨group.2, List.mem_cons_self, congrArg Prod.snd heq⟩
        · exact absurd hmem (hother l)
      · rintro (⟨l₀, hl₀, rfl⟩ | ⟨hnot, -⟩)
        · rcases List.mem_cons.mp hl₀ with heq | hl₀
          · rw [show l₀ = group.2 from congrArg Prod.snd heq]
            exact List.mem_cons_self
          · exact absurd hl₀ (hother l₀)
        · exact absurd List.mem_cons_self hnot
    · have hne : ∀ l₀, (k, l₀) ≠ group := by
        rintro l₀ rfl
        exact hk rfl
      rw [List.mem_cons, ih hrest]
      simp [hne, Ne.symm hk]

/-- Every key has one group: its items. -/
structure Grouped (items : List (κ × α)) (found : List (κ × List α)) : Prop where
  nodup : (found.map Prod.fst).Nodup
  mem_iff : ∀ k l, (k, l) ∈ found ↔ l = part k items ∧ l ≠ []

theorem Grouped.mem_keys (h : Grouped items found) :
    k ∈ found.map Prod.fst ↔ part k items ≠ [] := by
  constructor
  · intro hk
    obtain ⟨⟨k, l⟩, hmem, rfl⟩ := List.mem_map.mp hk
    obtain ⟨rfl, hne⟩ := (h.mem_iff k l).mp hmem
    exact hne
  · exact fun hne => List.mem_map.mpr ⟨_, (h.mem_iff k _).mpr ⟨rfl, hne⟩, rfl⟩

theorem Grouped.add (h : Grouped items found) (k : κ) (a : α) :
    Grouped (items ++ [(k, a)]) (add k a found) where
  nodup := by
    rw [keys_add]
    split_ifs with hk
    · exact h.nodup
    · exact List.nodup_append.mpr ⟨h.nodup, List.nodup_singleton k, by
        rintro x hx y hy rfl
        exact hk (List.mem_singleton.mp hy ▸ hx)⟩
  mem_iff k' l := by
    by_cases hk : k' = k
    · subst hk
      rw [mem_add_self h.nodup, part_concat_self, h.mem_keys, not_not]
      constructor
      · rintro (⟨l₀, hl₀, rfl⟩ | ⟨hempty, rfl⟩)
        · rw [((h.mem_iff k' l₀).mp hl₀).1]
          exact ⟨rfl, by simp⟩
        · rw [hempty]
          exact ⟨rfl, by simp⟩
      · rintro ⟨rfl, -⟩
        by_cases hempty : part k' items = []
        · exact .inr ⟨hempty, by rw [hempty]; rfl⟩
        · exact .inl ⟨_, (h.mem_iff k' _).mpr ⟨rfl, hempty⟩, rfl⟩
    · rw [mem_add_of_ne hk, h.mem_iff, part_concat_of_ne (Ne.symm hk)]

theorem groups_concat (items : List (κ × α)) (k : κ) (a : α) :
    groups (items ++ [(k, a)]) = add k a (groups items) := by
  simp [groups]

theorem grouped_groups (items : List (κ × α)) : Grouped items (groups items) := by
  induction items using List.reverseRecOn with
  | nil => exact ⟨List.nodup_nil, fun k l => by simp [groups, part]⟩
  | append_singleton items item ih =>
    rw [groups_concat]
    exact ih.add item.1 item.2

section Sources

variable {sources : List (κ × List α)} {before : List (κ × α)}

/-- The groups are the sources that wrote anything. -/
theorem Interleaves.groups_perm (h : Interleaves sources items)
    (hnodup : (sources.map Prod.fst).Nodup) :
    (groups items).Perm (sources.filter fun source => !source.2.isEmpty) := by
  have hgrouped := grouped_groups items
  refine (List.perm_ext_iff_of_nodup hgrouped.nodup.of_map (hnodup.of_map.filter _)).mpr ?_
  rintro ⟨k, l⟩
  rw [hgrouped.mem_iff, List.mem_filter, Bool.not_eq_true', List.isEmpty_eq_false_iff]
  constructor
  · rintro ⟨rfl, hne⟩
    refine ⟨?_, hne⟩
    obtain ⟨a, ha⟩ := List.exists_mem_of_ne_nil _ hne
    obtain ⟨⟨k, l⟩, hsource, rfl⟩ := List.mem_map.mp (h.owned _ (mem_part.mp ha))
    rw [show part k items = l from h.part_eq _ hsource]
    exact hsource
  · rintro ⟨hsource, hne⟩
    exact ⟨(h.part_eq _ hsource).symm, hne⟩

/-- What was written by some time, and by whom. -/
theorem Interleaves.of_prefix (h : Interleaves sources items) (hbefore : before <+: items) :
    Interleaves (sources.map fun source => (source.1, part source.1 before)) before where
  part_eq := by
    intro source hsource
    obtain ⟨_, -, rfl⟩ := List.mem_map.mp hsource
    rfl
  owned item hitem := by
    rw [List.map_map]
    exact h.owned item (hbefore.subset hitem)

theorem Interleaves.part_prefix (h : Interleaves sources items) (hbefore : before <+: items)
    {source : κ × List α} (hsource : source ∈ sources) : part source.1 before <+: source.2 := by
  rw [← h.part_eq source hsource]
  exact (hbefore.filter _).map _

end Sources

end Demultiplex
