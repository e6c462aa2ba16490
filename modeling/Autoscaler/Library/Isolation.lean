import Mathlib.Data.List.Basic

/-! Isolation in a shared state. Where a command leaves every view that it does not concern as it
was, and acts on the views that it concerns through the view alone, the commands of one view have
the results that they would have if no other command ran. -/
namespace Isolation

variable {S κ V ι ο : Type*}

/-- The commands of a run in order, each with its result. -/
def results (apply : S → ι → ο × S) : S → List ι → List (ι × ο)
  | _, [] => []
  | s, c :: cs => (c, (apply s c).1) :: results apply (apply s c).2 cs

/-- The state that a run leaves. -/
def run (apply : S → ι → ο × S) : S → List ι → S
  | s, [] => s
  | s, c :: cs => run apply (apply s c).2 cs

theorem run_append (apply : S → ι → ο × S) (s : S) (cs cs' : List ι) :
    run apply s (cs ++ cs') = run apply (run apply s cs) cs' := by
  induction cs generalizing s with
  | nil => rfl
  | cons c cs ih => exact ih _

/-- The unwinding conditions, for states that keep an invariant under the allowed commands. -/
structure Unwinding (apply : S → ι → ο × S) (view : κ → S → V) (concerns : κ → ι → Bool)
    (Inv : S → Prop) (Allowed : ι → Prop) : Prop where
  preserves : ∀ s c, Inv s → Allowed c → Inv (apply s c).2
  frame : ∀ k s c, Inv s → Allowed c → concerns k c = false → view k (apply s c).2 = view k s
  consistent : ∀ k s s' c, Inv s → Inv s' → Allowed c → concerns k c = true →
    view k s = view k s' →
    (apply s c).1 = (apply s' c).1 ∧ view k (apply s c).2 = view k (apply s' c).2

namespace Unwinding

variable {apply : S → ι → ο × S} {view : κ → S → V} {concerns : κ → ι → Bool} {Inv : S → Prop}
  {Allowed : ι → Prop}

/-- A view sees its own commands only, in their order, whatever runs in between. -/
theorem isolated (u : Unwinding apply view concerns Inv Allowed) (k : κ) {s s' : S} (hs : Inv s)
    (hs' : Inv s') (hview : view k s = view k s') {cs : List ι} (hcs : ∀ c ∈ cs, Allowed c) :
    (results apply s cs).filter (fun e => concerns k e.1) =
        results apply s' (cs.filter (concerns k)) ∧
      view k (run apply s cs) = view k (run apply s' (cs.filter (concerns k))) := by
  induction cs generalizing s s' with
  | nil => exact ⟨rfl, hview⟩
  | cons c cs ih =>
    obtain ⟨hc, hcs⟩ := List.forall_mem_cons.mp hcs
    cases hconcerns : concerns k c with
    | false =>
      -- the projected run does not move
      have hstay := (u.frame k s c hs hc hconcerns).trans hview
      obtain ⟨hresults, hrun⟩ := ih (u.preserves s c hs hc) hs' hstay hcs
      rw [List.filter_cons_of_neg (by simpa using hconcerns)]
      refine ⟨?_, hrun⟩
      rw [results, List.filter_cons_of_neg (by simpa using hconcerns)]
      exact hresults
    | true =>
      obtain ⟨hresult, hnext⟩ := u.consistent k s s' c hs hs' hc hconcerns hview
      obtain ⟨hresults, hrun⟩ :=
        ih (u.preserves s c hs hc) (u.preserves s' c hs' hc) hnext hcs
      rw [List.filter_cons_of_pos (by simpa using hconcerns)]
      refine ⟨?_, hrun⟩
      rw [results, List.filter_cons_of_pos (by simpa using hconcerns), results, hresult, hresults]

end Unwinding

end Isolation
