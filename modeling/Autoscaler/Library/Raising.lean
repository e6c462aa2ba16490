import Autoscaler.Library.Effects

/-! Scripts whose operations may raise an exception, over a state that an exception leaves as it
stood, with rules about the state and the answers so far. -/
namespace Raising

open Effects

variable {Op ε σ α β : Type} {Ret : Op → Type}

/-- An operation, and the value that it returned or the exception that it raised. -/
structure Answer (Op : Type) (Ret : Op → Type) (ε : Type) where
  op : Op
  result : Except ε (Ret op)

abbrev Script (Op : Type) (Ret : Op → Type) (ε σ : Type) :=
  ExceptT ε (StateT σ (Prog Op fun op => Except ε (Ret op)))

def perform (op : Op) : Script Op Ret ε σ (Ret op) :=
  ExceptT.mk (StateT.lift (Prog.perform op))

def raiseIf (condition : Prop) [Decidable condition] (error : ε) : Script Op Ret ε σ Unit :=
  if condition then throw error else pure ()

/-- Runs `cleanup` however `m` ends; an exception of `cleanup` replaces that of `m`. -/
def andFinally (m : Script Op Ret ε σ α) (cleanup : Script Op Ret ε σ Unit) :
    Script Op Ret ε σ α := do
  let result ← observing m
  cleanup
  ofExcept result

/-- Every way to answer the operations of the program ends in a result and answers with `Q`. -/
def Ends (Q : α → List (Answer Op Ret ε) → Prop) (answers : List (Answer Op Ret ε)) :
    Prog Op (fun op => Except ε (Ret op)) α → Prop
  | .pure a => Q a answers
  | .call op next => ∀ r, Ends Q (answers ++ [⟨op, r⟩]) (next r)

theorem ends_bind {Q : β → List (Answer Op Ret ε) → Prop} {answers : List (Answer Op Ret ε)}
    {p : Prog Op (fun op => Except ε (Ret op)) α}
    {f : α → Prog Op (fun op => Except ε (Ret op)) β} :
    Ends Q answers (p >>= f) ↔ Ends (fun a answers' => Ends Q answers' (f a)) answers p := by
  induction p generalizing answers with
  | pure a => rfl
  | call op next ih => exact forall_congr' fun r => ih r

theorem Ends.imp {Q Q' : α → List (Answer Op Ret ε) → Prop} {answers : List (Answer Op Ret ε)}
    {p : Prog Op (fun op => Except ε (Ret op)) α} (h : Ends Q answers p)
    (himp : ∀ a answers', Q a answers' → Q' a answers') : Ends Q' answers p := by
  induction p generalizing answers with
  | pure a => exact himp _ _ h
  | call op next ih => exact fun r => ih r (h r)

def answersOf {W : Type} (events : List (Event W Op fun op => Except ε (Ret op))) :
    List (Answer Op Ret ε) :=
  events.map fun e => ⟨e.op, e.result⟩

theorem Ends.of_exec {W : Type} {S : Semantics W Op fun op => Except ε (Ret op)} {w w' : W}
    {p : Prog Op (fun op => Except ε (Ret op)) α}
    {events : List (Event W Op fun op => Except ε (Ret op))} {result : α}
    {Q : α → List (Answer Op Ret ε) → Prop} {answers : List (Answer Op Ret ε)}
    (hexec : Exec S w p events (some result) w') (h : Ends Q answers p) :
    Q result (answers ++ answersOf events) := by
  induction p generalizing w events answers with
  | pure a =>
    obtain ⟨rfl, hresult⟩ := exec_pure hexec
    rw [hresult result rfl, answersOf, List.map_nil, List.append_nil]
    exact h
  | call op next ih =>
    cases hexec with
    | call _ _ hrest =>
      have := ih _ hrest (h _)
      rwa [List.append_assoc] at this

theorem performed_of_mem {W : Type} {S : Semantics W Op fun op => Except ε (Ret op)} {w w' : W}
    {p : Prog Op (fun op => Except ε (Ret op)) α}
    {events : List (Event W Op fun op => Except ε (Ret op))} {result : Option α} {op : Op}
    {r : Except ε (Ret op)} (hexec : Exec S w p events result w')
    (h : ⟨op, r⟩ ∈ answersOf events) : ∃ w w', S.perform w op r w' := by
  obtain ⟨e, hevent, heq⟩ := List.mem_map.mp h
  have hperformed := hexec.performed e hevent
  cases e
  cases heq
  exact ⟨_, _, hperformed⟩

/-- `Q` of a value that was returned, `E` of an exception that was raised. -/
def Leaves (Q : α → List (Answer Op Ret ε) → σ → Prop) (E : ε → List (Answer Op Ret ε) → σ → Prop) :
    Except ε α → List (Answer Op Ret ε) → σ → Prop
  | .ok a => Q a
  | .error e => E e

/-- From `P`, a script that returns leaves `Q`, and one that raises leaves `E`. -/
def Triple (P : List (Answer Op Ret ε) → σ → Prop) (m : Script Op Ret ε σ α)
    (Q : α → List (Answer Op Ret ε) → σ → Prop) (E : ε → List (Answer Op Ret ε) → σ → Prop) :
    Prop :=
  ∀ answers s, P answers s →
    Ends (fun r answers' => Leaves Q E r.1 answers' r.2) answers (m.run.run s)

/-- The events and the result of a program whose operations are always answered the same. -/
def follow (answer : ∀ op : Op, Except ε (Ret op)) :
    Prog Op (fun op => Except ε (Ret op)) α →
      List (Event Unit Op fun op => Except ε (Ret op)) × α
  | .pure a => ([], a)
  | .call op next =>
    let (events, a) := follow answer (next (answer op))
    (⟨(), op, answer op, ()⟩ :: events, a)

/-- A world in which every operation is always answered the same, and nobody interferes. -/
def answering (answer : ∀ op : Op, Except ε (Ret op)) :
    Semantics Unit Op fun op => Except ε (Ret op) where
  perform _ op r _ := r = answer op
  interfere _ _ := False

theorem exec_follow (answer : ∀ op : Op, Except ε (Ret op))
    (p : Prog Op (fun op => Except ε (Ret op)) α) :
    Exec (answering answer) () p (follow answer p).1 (some (follow answer p).2) () := by
  induction p with
  | pure a => exact .done .refl
  | call op next ih => exact .call .refl rfl (ih _)

section Rules

variable {P P' : List (Answer Op Ret ε) → σ → Prop}
  {Q R : α → List (Answer Op Ret ε) → σ → Prop} {Q' : β → List (Answer Op Ret ε) → σ → Prop}
  {E F : ε → List (Answer Op Ret ε) → σ → Prop} {m : Script Op Ret ε σ α}

theorem Triple.weaken (h : Triple P m Q E) (hP : ∀ answers s, P' answers s → P answers s)
    (hQ : ∀ a answers s, Q a answers s → R a answers s)
    (hE : ∀ e answers s, E e answers s → F e answers s) : Triple P' m R F := by
  intro answers s hs
  refine (h answers s (hP _ _ hs)).imp ?_
  rintro ⟨r, s'⟩ answers' hr
  cases r with
  | error e => exact hE _ _ _ hr
  | ok a => exact hQ _ _ _ hr

theorem Triple.of_imp (h : Triple P m Q E) (hP : ∀ answers s, P' answers s → P answers s) :
    Triple P' m Q E :=
  h.weaken hP (fun _ _ _ => id) fun _ _ _ => id

theorem triple_pure {a : α} (h : ∀ answers s, P answers s → Q a answers s) :
    Triple P (pure a) Q E :=
  fun answers s hs => h answers s hs

theorem triple_throw {e : ε} (h : ∀ answers s, P answers s → E e answers s) :
    Triple P (throw e : Script Op Ret ε σ α) Q E :=
  fun answers s hs => h answers s hs

theorem triple_perform {op : Op} {Q : Ret op → List (Answer Op Ret ε) → σ → Prop}
    (hok : ∀ answers s, P answers s → ∀ r, Q r (answers ++ [⟨op, .ok r⟩]) s)
    (herror : ∀ answers s, P answers s → ∀ e, E e (answers ++ [⟨op, .error e⟩]) s) :
    Triple P (perform op) Q E := by
  intro answers s hs r
  cases r with
  | error e => exact herror answers s hs e
  | ok a => exact hok answers s hs a

theorem triple_bind {f : α → Script Op Ret ε σ β} (hm : Triple P m R E)
    (hf : ∀ a, Triple (R a) (f a) Q' E) : Triple P (m >>= f) Q' E := by
  intro answers s hs
  refine ends_bind.mpr ((hm answers s hs).imp ?_)
  rintro ⟨r, s'⟩ answers' hr
  cases r with
  | error e => exact hr
  | ok a => exact hf a answers' s' hr

theorem triple_get : Triple P (get : Script Op Ret ε σ σ) (fun a answers s => a = s ∧ P answers s)
    E :=
  fun _ _ hs => ⟨rfl, hs⟩

theorem triple_modify {f : σ → σ} {Q : Unit → List (Answer Op Ret ε) → σ → Prop}
    (h : ∀ answers s, P answers s → Q () answers (f s)) :
    Triple P (modify f : Script Op Ret ε σ Unit) Q E :=
  fun answers s hs => h answers s hs

theorem triple_ite {condition : Prop} [Decidable condition] {m m' : Script Op Ret ε σ α}
    (hm : condition → Triple P m Q E) (hm' : ¬ condition → Triple P m' Q E) :
    Triple P (if condition then m else m') Q E := by
  split
  · exact hm ‹_›
  · exact hm' ‹_›

theorem triple_raiseIf {condition : Prop} [Decidable condition] {e : ε}
    {Q : Unit → List (Answer Op Ret ε) → σ → Prop}
    (hraise : ∀ answers s, P answers s → E e answers s)
    (hpass : ∀ answers s, P answers s → Q () answers s) :
    Triple P (raiseIf condition e) Q E :=
  triple_ite (fun _ => triple_throw hraise) fun _ => triple_pure hpass

theorem triple_tryCatch {handler : ε → Script Op Ret ε σ α} (hm : Triple P m Q F)
    (hhandler : ∀ e, Triple (F e) (handler e) Q E) : Triple P (tryCatch m handler) Q E := by
  intro answers s hs
  refine ends_bind.mpr ((hm answers s hs).imp ?_)
  rintro ⟨r, s'⟩ answers' hr
  cases r with
  | error e => exact hhandler e answers' s' hr
  | ok a => exact hr

theorem triple_ofExcept {r : Except ε α}
    (h : ∀ answers s, P answers s → Leaves Q E r answers s) :
    Triple P (ofExcept r : Script Op Ret ε σ α) Q E := by
  cases r with
  | error e => exact triple_throw h
  | ok a => exact triple_pure h

theorem triple_andFinally {cleanup : Script Op Ret ε σ Unit} (hm : Triple P m Q E)
    (hreturn : ∀ a, Triple (Q a) cleanup (fun _ => R a) F)
    (hraise : ∀ e, Triple (E e) cleanup (fun _ => F e) F) :
    Triple P (andFinally m cleanup) R F := by
  have hobserve : Triple P (observing m) (Leaves Q E) F :=
    triple_tryCatch (triple_bind hm fun a => triple_pure fun _ _ => id) fun e =>
      triple_pure fun _ _ => id
  refine triple_bind hobserve fun r => ?_
  cases r with
  | error e => exact triple_bind (hraise e) fun _ => triple_throw fun _ _ => id
  | ok a => exact triple_bind (hreturn a) fun _ => triple_pure fun _ _ => id

end Rules

end Raising
