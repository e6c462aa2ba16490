import Mathlib.Data.List.Basic

/-! Tables that keep the first entry under each key. -/
namespace FirstSeen

variable {κ β : Type*} [DecidableEq κ]

def record (table : List (κ × β)) (entry : κ × β) : List (κ × β) :=
  if entry.1 ∈ table.map Prod.fst then table else table ++ [entry]

def recordKey (keys : List κ) (k : κ) : List κ := if k ∈ keys then keys else keys ++ [k]

theorem subset_record (table : List (κ × β)) (entry : κ × β) : table ⊆ record table entry := by
  unfold record
  split_ifs
  · exact List.Subset.refl _
  · exact List.subset_append_left _ _

theorem fst_mem_record (table : List (κ × β)) (entry : κ × β) :
    entry.1 ∈ (record table entry).map Prod.fst := by
  unfold record
  split_ifs with hmem
  · exact hmem
  · simp

theorem subset_foldl_record (table entries : List (κ × β)) :
    table ⊆ entries.foldl record table := by
  induction entries generalizing table with
  | nil => exact List.Subset.refl _
  | cons entry rest ih => exact List.Subset.trans (subset_record table entry) (ih _)

theorem fst_mem_foldl_record (table : List (κ × β)) {entries : List (κ × β)} {entry : κ × β}
    (h : entry ∈ entries) : entry.1 ∈ (entries.foldl record table).map Prod.fst := by
  induction entries generalizing table with
  | nil => cases h
  | cons first rest ih =>
    rcases List.mem_cons.mp h with rfl | hmem
    · obtain ⟨found, hfound, hkey⟩ := List.mem_map.mp (fst_mem_record table entry)
      exact List.mem_map.mpr ⟨found, subset_foldl_record _ rest hfound, hkey⟩
    · exact ih _ hmem

/-- What a run adds to a table: the first entry under each key that was not there. -/
theorem mem_foldl_record_iff (table entries : List (κ × β)) {k : κ} {v : β} :
    (k, v) ∈ entries.foldl record table ↔ (k, v) ∈ table ∨
      k ∉ table.map Prod.fst ∧ entries.find? (fun e => decide (e.1 = k)) = some (k, v) := by
  induction entries generalizing table with
  | nil => simp
  | cons entry rest ih =>
    rw [List.foldl_cons, ih, List.find?_cons]
    unfold record
    by_cases hkey : entry.1 = k
    · have hdecide : decide (entry.1 = k) = true := decide_eq_true hkey
      rw [hdecide, hkey]
      split_ifs with hmem
      · simp [hmem]
      · simp [hkey, hmem, eq_comm]
    · have hdecide : decide (entry.1 = k) = false := decide_eq_false hkey
      have hne : (k, v) ≠ entry := fun heq => hkey (congrArg Prod.fst heq).symm
      rw [hdecide]
      split_ifs with hmem
      · rfl
      · simp [hne, Ne.symm hkey]

theorem mem_foldl_recordKey (keys seen : List κ) {k : κ} :
    k ∈ keys.foldl recordKey seen ↔ k ∈ seen ∨ k ∈ keys := by
  induction keys generalizing seen with
  | nil => simp
  | cons first rest ih =>
    rw [List.foldl_cons, ih, List.mem_cons]
    unfold recordKey
    split_ifs with hmem
    · constructor
      · rintro (h | h)
        · exact .inl h
        · exact .inr (.inr h)
      · rintro (h | rfl | h)
        · exact .inl h
        · exact .inl hmem
        · exact .inr h
    · rw [List.mem_append, List.mem_singleton, or_assoc]

/-- Repeated keys of one run add nothing. -/
theorem foldl_record_recordKey (entry : κ → β) (table : List (κ × β)) (keys seen : List κ) :
    ((keys.foldl recordKey seen).map fun k => (k, entry k)).foldl record table =
      (keys.map fun k => (k, entry k)).foldl record
        ((seen.map fun k => (k, entry k)).foldl record table) := by
  induction keys generalizing seen with
  | nil => rfl
  | cons k rest ih =>
    rw [List.foldl_cons, ih, List.map_cons, List.foldl_cons]
    congr 1
    unfold recordKey
    split_ifs with hmem
    · have hentry : (k, entry k) ∈ seen.map fun k => (k, entry k) := List.mem_map.mpr ⟨k, hmem, rfl⟩
      rw [record, if_pos (fst_mem_foldl_record table hentry)]
    · rw [List.map_append, List.foldl_append]
      rfl

end FirstSeen
