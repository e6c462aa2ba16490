import Autoscaler.Library.Raising

/-! Scripts in worlds whose answers keep a promise: when they return a value and raise nothing. -/
namespace Raising

open Effects

variable {Op ε σ α β : Type} {Ret : Op → Type} {promise : (op : Op) → Except ε (Ret op) → Prop}

/-- With answers that keep the promise, the program returns a value with `Q`. -/
def Yields (promise : (op : Op) → Except ε (Ret op) → Prop) (Q : α → Prop) :
    Prog Op (fun op => Except ε (Ret op)) α → Prop
  | .pure a => Q a
  | .call op next => ∀ r, promise op r → Yields promise Q (next r)

theorem Yields.imp {Q R : α → Prop} {p : Prog Op (fun op => Except ε (Ret op)) α}
    (h : Yields promise Q p) (himp : ∀ a, Q a → R a) : Yields promise R p := by
  induction p with
  | pure a => exact himp a h
  | call op next ih => exact fun r hr => ih r (h r hr)

theorem Yields.of_exec {W : Type} {S : Semantics W Op fun op => Except ε (Ret op)} {w w' : W}
    {p : Prog Op (fun op => Except ε (Ret op)) α}
    {events : List (Event W Op fun op => Except ε (Ret op))} {a : α} {Q : α → Prop}
    (hperform : ∀ w op r w', S.perform w op r w' → promise op r)
    (hexec : Exec S w p events (some a) w') (h : Yields promise Q p) : Q a := by
  induction p generalizing w events with
  | pure b =>
    obtain ⟨-, hresult⟩ := exec_pure hexec
    rw [hresult a rfl]
    exact h
  | call op next ih =>
    cases hexec with
    | call _ hop hrest => exact ih _ hrest (h _ (hperform _ _ _ _ hop))

section Rules

variable {Q : α → Prop} {R : β → Prop} {m : Script Op Ret ε σ α}

end Rules

end Raising
