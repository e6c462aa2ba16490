import Mathlib.Data.List.Basic
import Mathlib.Logic.Relation

/-! Programs over typed operations, run in a world that others may change between any two
operations. -/
namespace Effects

universe u

/-- A program either returns or calls an operation and continues with its answer. -/
inductive Prog (Op : Type u) (Ret : Op → Type u) (α : Type u) where
  | pure (a : α)
  | call (op : Op) (next : Ret op → Prog Op Ret α)

namespace Prog

variable {Op : Type u} {Ret : Op → Type u} {α β : Type u}

def bind : Prog Op Ret α → (α → Prog Op Ret β) → Prog Op Ret β
  | .pure a, f => f a
  | .call op next, f => .call op fun r => (next r).bind f

instance : Monad (Prog Op Ret) where
  pure := Prog.pure
  bind := Prog.bind

def perform (op : Op) : Prog Op Ret (Ret op) := .call op .pure

/-- Every operation the program can call satisfies `P`, and every value it can return `Q`. -/
def Ensures (P : Op → Prop) (Q : α → Prop) : Prog Op Ret α → Prop
  | .pure a => Q a
  | .call op next => P op ∧ ∀ r, (next r).Ensures P Q

variable {P : Op → Prop} {Q : α → Prop}

@[simp] theorem ensures_perform_bind (op : Op) (f : Ret op → Prog Op Ret α) :
    Ensures P Q (perform op >>= f) ↔ P op ∧ ∀ r, (f r).Ensures P Q := Iff.rfl

theorem ensures_bind {R : β → Prop} {p : Prog Op Ret β} {f : β → Prog Op Ret α}
    (hp : p.Ensures P R) (hf : ∀ b, R b → (f b).Ensures P Q) : (p >>= f).Ensures P Q := by
  induction p with
  | pure b => exact hf b hp
  | call op next ih => exact ⟨hp.1, fun r => ih r (hp.2 r)⟩

theorem Ensures.imp {P' : Op → Prop} {p : Prog Op Ret α} (hp : p.Ensures P Q)
    (himp : ∀ op, P op → P' op) : p.Ensures P' Q := by
  induction p with
  | pure a => exact hp
  | call op next ih => exact ⟨himp op hp.1, fun r => ih r (hp.2 r)⟩

theorem Ensures.imp_result {Q' : α → Prop} {p : Prog Op Ret α} (hp : p.Ensures P Q)
    (himp : ∀ a, Q a → Q' a) : p.Ensures P Q' := by
  induction p with
  | pure a => exact himp a hp
  | call op next ih => exact ⟨hp.1, fun r => ih r (hp.2 r)⟩

theorem Ensures.weaken {p : Prog Op Ret α} (hp : p.Ensures P Q) : p.Ensures P fun _ => True :=
  hp.imp_result fun _ _ => trivial

end Prog

/-- What an operation may do, and what others may do between operations. -/
structure Semantics (W : Type u) (Op : Type u) (Ret : Op → Type u) where
  perform : W → (op : Op) → Ret op → W → Prop
  interfere : W → W → Prop

/-- One operation of an execution, with the worlds around it. -/
structure Event (W : Type u) (Op : Type u) (Ret : Op → Type u) where
  before : W
  op : Op
  result : Ret op
  after : W

section Execution

variable {W Op : Type u} {Ret : Op → Type u} {α β : Type u} (S : Semantics W Op Ret)

/-- Interference by others, any number of times. -/
def Semantics.Drift : W → W → Prop := Relation.ReflTransGen S.interfere

/-- Executions with their events; an execution may end before the program does. -/
inductive Exec : W → Prog Op Ret α → List (Event W Op Ret) → Option α → W → Prop where
  | stop {w w' p} : S.Drift w w' → Exec w p [] none w'
  | done {w w' a} : S.Drift w w' → Exec w (.pure a) [] (some a) w'
  | call {w w₁ w₂ w₃ op r next events result} : S.Drift w w₁ → S.perform w₁ op r w₂ →
      Exec w₂ (next r) events result w₃ →
      Exec w (.call op next) (⟨w₁, op, r, w₂⟩ :: events) result w₃

variable {S} {w w' : W} {events : List (Event W Op Ret)}

theorem exec_pure {a : α} {result : Option α} (h : Exec S w (Pure.pure a) events result w') :
    events = [] ∧ ∀ b, result = some b → b = a := by
  cases h with
  | stop => exact ⟨rfl, fun _ hb => by cases hb⟩
  | done => exact ⟨rfl, fun _ hb => by cases hb; rfl⟩

/-- An execution of an operation and a continuation stops at once, or starts with the
operation. -/
theorem exec_perform {op : Op} {f : Ret op → Prog Op Ret α} {result : Option α}
    (h : Exec S w (Prog.perform op >>= f) events result w') :
    (events = [] ∧ result = none) ∨
      ∃ w₁ r w₂ rest, S.Drift w w₁ ∧ S.perform w₁ op r w₂ ∧
        events = ⟨w₁, op, r, w₂⟩ :: rest ∧ Exec S w₂ (f r) rest result w' := by
  cases h with
  | stop hdrift => exact .inl ⟨rfl, rfl⟩
  | call hdrift hperform hrest => exact .inr ⟨_, _, _, _, hdrift, hperform, rfl, hrest⟩

/-- An execution of a sequence completes its first part, or ends inside it. -/
theorem exec_bind {p : Prog Op Ret α} {f : α → Prog Op Ret β} {result : Option β}
    (h : Exec S w (p >>= f) events result w') :
    (∃ a w₁ first second, Exec S w p first (some a) w₁ ∧ Exec S w₁ (f a) second result w' ∧
      events = first ++ second) ∨
    (Exec S w p events none w' ∧ result = none) := by
  induction p generalizing w events with
  | pure a => exact .inl ⟨a, w, [], events, .done .refl, h, rfl⟩
  | call op next ih =>
    cases h with
    | stop hdrift => exact .inr ⟨.stop hdrift, rfl⟩
    | call hdrift hperform hrest =>
      rcases ih _ hrest with ⟨a, w₁, first, second, hfirst, hsecond, rfl⟩ | ⟨hfirst, hresult⟩
      · exact .inl ⟨a, w₁, _, second, .call hdrift hperform hfirst, hsecond, rfl⟩
      · exact .inr ⟨.call hdrift hperform hfirst, hresult⟩

theorem Exec.ensures {P : Op → Prop} {Q : α → Prop} {p : Prog Op Ret α} {result : Option α}
    (h : Exec S w p events result w') (hp : p.Ensures P Q) :
    (∀ e ∈ events, P e.op) ∧ ∀ a ∈ result, Q a := by
  induction h with
  | stop => simp
  | done => exact ⟨by simp, by rintro _ ⟨⟩; exact hp⟩
  | call _ _ _ ih =>
    have ⟨hops, hresult⟩ := ih (hp.2 _)
    exact ⟨List.forall_mem_cons.mpr ⟨hp.1, hops⟩, hresult⟩

theorem Exec.performed {p : Prog Op Ret α} {result : Option α}
    (h : Exec S w p events result w') : ∀ e ∈ events, S.perform e.before e.op e.result e.after := by
  induction h with
  | stop => simp
  | done => simp
  | call _ hperform _ ih => exact List.forall_mem_cons.mpr ⟨hperform, ih⟩

theorem Semantics.Drift.invariant {I : W → Prop}
    (hinterfere : ∀ w w', S.interfere w w' → I w → I w') (h : S.Drift w w') (hw : I w) : I w' := by
  induction h with
  | refl => exact hw
  | tail _ hstep ih => exact hinterfere _ _ hstep ih

/-- A predicate that every step keeps holds around every event and at the end. -/
theorem Exec.invariant {I : W → Prop} (hinterfere : ∀ w w', S.interfere w w' → I w → I w')
    (hperform : ∀ w op r w', S.perform w op r w' → I w → I w') {p : Prog Op Ret α}
    {result : Option α} (h : Exec S w p events result w') (hw : I w) :
    (∀ e ∈ events, I e.before ∧ I e.after) ∧ I w' := by
  induction h with
  | stop hd => exact ⟨by simp, hd.invariant hinterfere hw⟩
  | done hd => exact ⟨by simp, hd.invariant hinterfere hw⟩
  | call hd hp _ ih =>
    have hbefore := hd.invariant hinterfere hw
    have hafter := hperform _ _ _ _ hp hbefore
    have ⟨hevents, hend⟩ := ih hafter
    exact ⟨List.forall_mem_cons.mpr ⟨⟨hbefore, hafter⟩, hevents⟩, hend⟩

/-- A preorder that every step follows relates earlier worlds of an execution to later ones. -/
theorem Exec.ordered {R : W → W → Prop} (hrefl : ∀ w, R w w)
    (htrans : ∀ a b c, R a b → R b c → R a c) (hinterfere : ∀ w w', S.interfere w w' → R w w')
    (hperform : ∀ w op r w', S.perform w op r w' → R w w') {p : Prog Op Ret α}
    {result : Option α} (h : Exec S w p events result w') :
    (∀ e ∈ events, R w e.before ∧ R e.after w') ∧
      (events.Pairwise fun e e' => R e.after e'.before) ∧ R w w' := by
  have hdrift : ∀ {w w'}, S.Drift w w' → R w w' := fun hd =>
    hd.invariant (fun a b hab h => htrans _ _ _ h (hinterfere a b hab)) (hrefl _)
  induction h with
  | stop hd => exact ⟨by simp, .nil, hdrift hd⟩
  | done hd => exact ⟨by simp, .nil, hdrift hd⟩
  | call hd hp _ ih =>
    obtain ⟨hall, hpairs, hend⟩ := ih
    have hbefore := hdrift hd
    have hstep := htrans _ _ _ hbefore (hperform _ _ _ _ hp)
    refine ⟨List.forall_mem_cons.mpr ⟨⟨hbefore, hend⟩, fun e he => ?_⟩,
      List.pairwise_cons.mpr ⟨fun e he => (hall e he).1, hpairs⟩, htrans _ _ _ hstep hend⟩
    exact ⟨htrans _ _ _ hstep (hall e he).1, (hall e he).2⟩

/-- Some execution of the program gets to the event after the events `pre`. -/
def Reaches (S : Semantics W Op Ret) (w : W) (p : Prog Op Ret α) (pre : List (Event W Op Ret))
    (e : Event W Op Ret) : Prop :=
  ∃ post result w', Exec S w p (pre ++ e :: post) result w'

variable {pre : List (Event W Op Ret)} {e : Event W Op Ret}

theorem Reaches.op_of_ensures {P : Op → Prop} {Q : α → Prop} {p : Prog Op Ret α}
    (h : Reaches S w p pre e) (hp : p.Ensures P Q) : P e.op := by
  obtain ⟨post, result, w', h⟩ := h
  exact (h.ensures hp).1 e (by simp)

theorem not_reaches_pure {a : α} : ¬ Reaches S w (Pure.pure a : Prog Op Ret α) pre e := by
  rintro ⟨post, result, w', h⟩
  have := (exec_pure h).1
  simp at this

/-- The event is the operation itself, or reached after it. -/
theorem reaches_perform {op : Op} {f : Ret op → Prog Op Ret α}
    (h : Reaches S w (Prog.perform op >>= f) pre e) :
    (e.op = op ∧ pre = []) ∨ ∃ w₁ r w₂ rest, S.perform w₁ op r w₂ ∧ pre = ⟨w₁, op, r, w₂⟩ :: rest ∧
      Reaches S w₂ (f r) rest e := by
  obtain ⟨post, result, w', h⟩ := h
  rcases exec_perform h with ⟨hnil, -⟩ | ⟨w₁, r, w₂, rest, -, hperform, heq, hrest⟩
  · simp at hnil
  · cases pre with
    | nil =>
      cases heq
      exact .inl ⟨rfl, rfl⟩
    | cons head pre =>
      cases heq
      exact .inr ⟨w₁, r, w₂, pre, hperform, rfl, post, result, w', hrest⟩

/-- The event is reached inside the first part, or after its completion. -/
theorem reaches_bind {p : Prog Op Ret α} {f : α → Prog Op Ret β}
    (h : Reaches S w (p >>= f) pre e) :
    Reaches S w p pre e ∨ ∃ a w₁ first rest, Exec S w p first (some a) w₁ ∧ pre = first ++ rest ∧
      Reaches S w₁ (f a) rest e := by
  obtain ⟨post, result, w', h⟩ := h
  rcases exec_bind h with ⟨a, w₁, first, second, hfirst, hsecond, heq⟩ | ⟨hfirst, -⟩
  · rcases List.append_eq_append_iff.mp heq with ⟨rest, rfl, hrest⟩ | ⟨rest, rfl, rfl⟩
    · cases rest with
      | nil =>
        rw [List.append_nil] at hfirst
        exact .inr ⟨a, w₁, pre, [], hfirst, (List.append_nil _).symm, post, result, w',
          hrest ▸ hsecond⟩
      | cons head rest =>
        cases hrest
        exact .inl ⟨rest, _, _, hfirst⟩
    · exact .inr ⟨a, w₁, first, rest, hfirst, rfl, post, result, w', hsecond⟩
  · exact .inl ⟨post, _, _, hfirst⟩

end Execution

end Effects
