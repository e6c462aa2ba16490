import Mathlib.Data.Finmap

/-! Fetching through a table of earlier answers. -/
namespace Memo

variable {κ ν ε : Type*} [DecidableEq κ] (get : κ → Except ε ν)

/-- The value under a key, asked for once. -/
def fetch (table : Finmap fun _ : κ => ν) (k : κ) : Except ε (ν × Finmap fun _ : κ => ν) :=
  match table.lookup k with
  | some v => .ok (v, table)
  | none =>
    match get k with
    | .error e => .error e
    | .ok v => .ok (v, table.insert k v)

/-- Every entry of the table is the answer under its key. -/
def Agrees (table : Finmap fun _ : κ => ν) : Prop :=
  ∀ k v, table.lookup k = some v → get k = .ok v

theorem agrees_empty : Agrees get ∅ := by
  intro k v h
  cases h

theorem Agrees.insert {table : Finmap fun _ : κ => ν} (h : Agrees get table) {k : κ} {v : ν}
    (hv : get k = .ok v) : Agrees get (table.insert k v) := by
  intro k' v' hlookup
  by_cases hk : k' = k
  · subst hk
    rw [Finmap.lookup_insert] at hlookup
    cases hlookup
    exact hv
  · rw [Finmap.lookup_insert_of_ne _ hk] at hlookup
    exact h k' v' hlookup

/-- A fetch through a table that agrees answers as the source does, and keeps the agreement. -/
theorem fetch_cases {table : Finmap fun _ : κ => ν} (h : Agrees get table) (k : κ) :
    (∃ e, get k = .error e ∧ fetch get table k = .error e) ∨
    ∃ v table', get k = .ok v ∧ fetch get table k = .ok (v, table') ∧ Agrees get table' := by
  unfold fetch
  cases hlookup : table.lookup k with
  | some v => exact .inr ⟨v, table, h k v hlookup, rfl, h⟩
  | none =>
    cases hget : get k with
    | error e => exact .inl ⟨e, rfl, rfl⟩
    | ok v => exact .inr ⟨v, table.insert k v, rfl, rfl, h.insert get hget⟩

end Memo
