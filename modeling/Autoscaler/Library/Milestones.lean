import Autoscaler.Library.Effects

/-! Programs that pass numbered stages in order, each of them at most once. -/
namespace Effects

universe u

variable {Op : Type u} {Ret : Op → Type u} {α β : Type u} {stage : Op → Option ℕ}

namespace Prog

/-- From stage `n` on, every operation of a stage comes after those of the earlier ones. -/
def Ascends (stage : Op → Option ℕ) : ℕ → Prog Op Ret α → Prop
  | _, .pure _ => True
  | n, .call op next =>
    match stage op with
    | none => ∀ r, (next r).Ascends stage n
    | some k => n ≤ k ∧ ∀ r, (next r).Ascends stage (k + 1)

variable {p : Prog Op Ret α} {n : ℕ}

theorem ascends_of_ensures {Q : α → Prop} (h : p.Ensures (fun op => stage op = none) Q) :
    p.Ascends stage n := by
  induction p with
  | pure a => trivial
  | call op next ih =>
    rw [Ascends, h.1]
    exact fun r => ih r (h.2 r)

theorem ascends_perform {op : Op} {f : Ret op → Prog Op Ret α} (hop : stage op = none)
    (hf : ∀ r, (f r).Ascends stage n) : (perform op >>= f).Ascends stage n := by
  show (Prog.call op f).Ascends stage n
  rw [Ascends, hop]
  exact hf

theorem ascends_perform_stage {op : Op} {f : Ret op → Prog Op Ret α} {k : ℕ}
    (hop : stage op = some k) (hn : n ≤ k) (hf : ∀ r, (f r).Ascends stage (k + 1)) :
    (perform op >>= f).Ascends stage n := by
  show (Prog.call op f).Ascends stage n
  rw [Ascends, hop]
  exact ⟨hn, hf⟩

theorem Ascends.bind_quiet {Q : β → Prop} {f : α → Prog Op Ret β} (h : p.Ascends stage n)
    (hf : ∀ a, (f a).Ensures (fun op => stage op = none) Q) : (p >>= f).Ascends stage n := by
  induction p generalizing n with
  | pure a => exact ascends_of_ensures (hf a)
  | call op next ih =>
    show (Prog.call op fun r => (next r).bind f).Ascends stage n
    rw [Ascends] at h ⊢
    cases hstage : stage op with
    | none =>
      rw [hstage] at h
      exact fun r => ih r (h r)
    | some k =>
      rw [hstage] at h
      exact ⟨h.1, fun r => ih r (h.2 r)⟩

theorem ascends_bind {R : β → Prop} {p : Prog Op Ret β} {f : β → Prog Op Ret α}
    (hp : p.Ensures (fun op => stage op = none) R) (hf : ∀ b, (f b).Ascends stage n) :
    (p >>= f).Ascends stage n := by
  induction p with
  | pure b => exact hf b
  | call op next ih =>
    show (Prog.call op fun r => (next r).bind f).Ascends stage n
    rw [Ascends, hp.1]
    exact fun r => ih r (hp.2 r)

end Prog

def stagesOf {W : Type u} (stage : Op → Option ℕ) (events : List (Event W Op Ret)) : List ℕ :=
  events.filterMap fun e => stage e.op

theorem Exec.ascends {W : Type u} {S : Semantics W Op Ret} {w w' : W} {p : Prog Op Ret α}
    {events : List (Event W Op Ret)} {result : Option α} {n : ℕ}
    (hexec : Exec S w p events result w') (h : p.Ascends stage n) :
    (stagesOf stage events).Pairwise (· < ·) ∧ ∀ k ∈ stagesOf stage events, n ≤ k := by
  induction hexec generalizing n with
  | stop => simp [stagesOf]
  | done => simp [stagesOf]
  | @call w w₁ w₂ w₃ op r next events result _ _ _ ih =>
    rw [Prog.Ascends] at h
    cases hstage : stage op with
    | none =>
      rw [hstage] at h
      have heq : stagesOf stage (⟨w₁, op, r, w₂⟩ :: events) = stagesOf stage events :=
        List.filterMap_cons_none hstage
      rw [heq]
      exact ih (h r)
    | some k =>
      rw [hstage] at h
      have heq : stagesOf stage (⟨w₁, op, r, w₂⟩ :: events) = k :: stagesOf stage events :=
        List.filterMap_cons_some hstage
      obtain ⟨hordered, hbound⟩ := ih (h.2 r)
      rw [heq]
      refine ⟨List.pairwise_cons.mpr ⟨fun k' hk' => ?_, hordered⟩,
        List.forall_mem_cons.mpr ⟨h.1, fun k' hk' => ?_⟩⟩
      · have := hbound k' hk'
        omega
      · have := hbound k' hk'
        have := h.1
        omega

end Effects
