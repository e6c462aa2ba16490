import Autoscaler.Controller.ColdStart
import Autoscaler.Library.Isolation

/-! The recommendation histories of different policies do not influence each other. -/
namespace Autoscaler.Controller

namespace HistoryOp

def perform (history : History) (op : HistoryOp) : Option StabilizationResult × History :=
  (match op with
    | .call c => some (c.run history).1
    | .forget _ => none
    | .restart => none, op.apply history)

end HistoryOp

/-- A call or deletion of one key sees and changes the entry of that key only. -/
theorem history_unwinding :
    Isolation.Unwinding HistoryOp.perform (fun key history => history key) HistoryOp.concerns
      (fun _ => True) fun _ => True where
  preserves _ _ _ _ := trivial
  frame key history op _ _ hother := by
    cases op with
    | call c =>
      have hne : key ≠ c.phpa.metadata.key := fun h => of_decide_eq_false hother h.symm
      exact Function.update_of_ne hne ..
    | forget k =>
      have hne : key ≠ k := fun h => of_decide_eq_false hother h.symm
      exact Function.update_of_ne hne ..
    | restart => cases hother
  consistent key history history' op _ _ _ hown hsame := by
    cases op with
    | call c =>
      obtain rfl : c.phpa.metadata.key = key := of_decide_eq_true hown
      simp only [HistoryOp.perform, HistoryOp.apply, StabilizeCall.run,
        stabilizeRecommendation_eq, hsame, Function.update_self, and_self]
    | forget k =>
      obtain rfl : k = key := of_decide_eq_true hown
      simp only [HistoryOp.perform, HistoryOp.apply, Function.update_self, and_self]
    | restart => exact ⟨rfl, rfl⟩

/-- In every interleaving of stabilizations and deletions for any number of policies, and through
restarts, the results of one key and the entry it ends with are those of its own operations. -/
theorem recommendation_isolated (history : History) (ops : List HistoryOp)
    (key : NamespacedName) :
    (Isolation.results HistoryOp.perform history ops).filter (fun e => e.1.concerns key) =
        Isolation.results HistoryOp.perform history (ops.filter (HistoryOp.concerns key)) ∧
      Isolation.run HistoryOp.perform history ops key =
        Isolation.run HistoryOp.perform history (ops.filter (HistoryOp.concerns key)) key :=
  history_unwinding.isolated key trivial trivial rfl fun _ _ => trivial

end Autoscaler.Controller
