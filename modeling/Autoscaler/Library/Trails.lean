import Autoscaler.Library.Effects

/-! What the executions of a program leave behind of its loud operations. -/
namespace Effects

universe u

variable {W Op : Type u} {Ret : Op → Type u} {α β : Type u}

def trail (loud : Op → Bool) (events : List (Event W Op Ret)) : List (Event W Op Ret) :=
  events.filter fun e => loud e.op

namespace Prog

/-- The trail of every execution, complete or cut off, is as told. -/
def Leaves (S : Semantics W Op Ret) (loud : Op → Bool) (P : List (Event W Op Ret) → Prop)
    (p : Prog Op Ret α) : Prop :=
  ∀ w events result w', Exec S w p events result w' → P (trail loud events)

variable {S : Semantics W Op Ret} {loud : Op → Bool} {P : List (Event W Op Ret) → Prop}

theorem leaves_of_ensures {Q : α → Prop} {p : Prog Op Ret α}
    (h : p.Ensures (fun op => loud op = false) Q) (hnil : P []) : p.Leaves S loud P := by
  intro w events result w' hexec
  have hquiet := (hexec.ensures h).1
  have hempty : trail loud events = [] :=
    List.filter_eq_nil_iff.mpr fun e he => by simp [hquiet e he]
  rw [hempty]
  exact hnil

theorem leaves_pure (a : α) (hnil : P []) : Leaves S loud P (Pure.pure a : Prog Op Ret α) :=
  leaves_of_ensures (Q := fun _ => True) trivial hnil

theorem leaves_perform {op : Op} {f : Ret op → Prog Op Ret α} (hop : loud op = false)
    (hnil : P []) (hf : ∀ r, (f r).Leaves S loud P) : (perform op >>= f).Leaves S loud P := by
  intro w events result w' hexec
  rcases exec_perform hexec with ⟨rfl, -⟩ | ⟨w₁, r, w₂, rest, -, -, rfl, hrest⟩
  · exact hnil
  · have hskip : trail loud (⟨w₁, op, r, w₂⟩ :: rest) = trail loud rest :=
      List.filter_cons_of_neg (by simp [hop])
    rw [hskip]
    exact hf r _ _ _ _ hrest

theorem leaves_perform_loud {op : Op} {f : Ret op → Prog Op Ret α} (hop : loud op = true)
    (hnil : P [])
    (hf : ∀ w₁ r w₂, (f r).Leaves S loud fun later => P (⟨w₁, op, r, w₂⟩ :: later)) :
    (perform op >>= f).Leaves S loud P := by
  intro w events result w' hexec
  rcases exec_perform hexec with ⟨rfl, -⟩ | ⟨w₁, r, w₂, rest, -, -, rfl, hrest⟩
  · exact hnil
  · have hkeep : trail loud (⟨w₁, op, r, w₂⟩ :: rest) = ⟨w₁, op, r, w₂⟩ :: trail loud rest :=
      List.filter_cons_of_pos hop
    rw [hkeep]
    exact hf w₁ r w₂ _ _ _ _ hrest

theorem leaves_bind {R : β → Prop} {p : Prog Op Ret β} {f : β → Prog Op Ret α}
    (hp : p.Ensures (fun op => loud op = false) R) (hnil : P [])
    (hf : ∀ b, (f b).Leaves S loud P) : (p >>= f).Leaves S loud P := by
  intro w events result w' hexec
  have hquiet : ∀ {w events result w'}, Exec S w p events result w' → trail loud events = [] :=
    fun hexec => List.filter_eq_nil_iff.mpr fun e he => by simp [(hexec.ensures hp).1 e he]
  rcases exec_bind hexec with ⟨b, w₁, first, second, hfirst, hsecond, rfl⟩ | ⟨hfirst, -⟩
  · have hsplit : trail loud (first ++ second) = trail loud first ++ trail loud second :=
      List.filter_append ..
    rw [hsplit, hquiet hfirst]
    exact hf b _ _ _ _ hsecond
  · rw [hquiet hfirst]
    exact hnil

theorem Leaves.bind_quiet {Q : β → Prop} {p : Prog Op Ret α} {f : α → Prog Op Ret β}
    (h : p.Leaves S loud P) (hf : ∀ a, (f a).Ensures (fun op => loud op = false) Q) :
    (p >>= f).Leaves S loud P := by
  intro w events result w' hexec
  rcases exec_bind hexec with ⟨a, w₁, first, second, hfirst, hsecond, rfl⟩ | ⟨hfirst, -⟩
  · have hsplit : trail loud (first ++ second) = trail loud first ++ trail loud second :=
      List.filter_append ..
    have hempty : trail loud second = [] :=
      List.filter_eq_nil_iff.mpr fun e he => by simp [(hsecond.ensures (hf a)).1 e he]
    rw [hsplit, hempty, List.append_nil]
    exact h _ _ _ _ hfirst
  · exact h _ _ _ _ hfirst

end Prog

end Effects
