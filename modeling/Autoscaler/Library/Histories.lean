import Autoscaler.Library.Raising

/-! Scripts judged by the history of their answers: loops, executions that stop early, and
invariants that most operations leave alone. -/
namespace Raising

open Effects

variable {Op ε σ α β : Type} {Ret : Op → Type}

/-- At most `turns` turns of a loop, from `b` on; `beyond` stands for what is left after them. -/
def loop (beyond : Script Op Ret ε σ α) (turn : β → Script Op Ret ε σ (β ⊕ α)) :
    ℕ → β → Script Op Ret ε σ α
  | 0, _ => beyond
  | turns + 1, b => do
    match ← turn b with
    | .inl b => loop beyond turn turns b
    | .inr a => pure a

/-- A program whose execution stopped early can still be answered to its end. -/
theorem Ends.of_exec_prefix {W : Type} [Inhabited ε]
    {S : Semantics W Op fun op => Except ε (Ret op)} {w w' : W}
    {p : Prog Op (fun op => Except ε (Ret op)) α}
    {events : List (Event W Op fun op => Except ε (Ret op))} {result : Option α}
    {Q : α → List (Answer Op Ret ε) → Prop} {answers : List (Answer Op Ret ε)}
    (hexec : Exec S w p events result w') (h : Ends Q answers p) :
    ∃ a more, Q a (answers ++ answersOf events ++ more) := by
  induction p generalizing w events answers with
  | pure a =>
    obtain ⟨rfl, -⟩ := exec_pure hexec
    exact ⟨a, [], by rw [answersOf, List.map_nil, List.append_nil, List.append_nil]; exact h⟩
  | call op next ih =>
    cases hexec with
    | stop =>
      obtain ⟨a, more, hmore⟩ := ih (.error default) (.stop .refl) (h (.error default))
      refine ⟨a, ⟨op, .error default⟩ :: more, ?_⟩
      simpa [answersOf] using hmore
    | call _ _ hrest =>
      obtain ⟨a, more, hmore⟩ := ih _ hrest (h _)
      refine ⟨a, more, ?_⟩
      simpa [answersOf] using hmore

/-- The events of a program in a world that answers by itself, up to an operation that it leaves
unanswered. -/
def simulate {W : Type} (answer : W → (op : Op) → Option (Except ε (Ret op) × W)) :
    W → Prog Op (fun op => Except ε (Ret op)) α →
      List (Event W Op fun op => Except ε (Ret op)) × Option α × W
  | w, .pure a => ([], some a, w)
  | w, .call op next =>
    match answer w op with
    | none => ([], none, w)
    | some (r, w') =>
      let (events, a, last) := simulate answer w' (next r)
      (⟨w, op, r, w'⟩ :: events, a, last)

theorem exec_simulate {W : Type} {answer : W → (op : Op) → Option (Except ε (Ret op) × W)}
    {S : Semantics W Op fun op => Except ε (Ret op)}
    (hanswer : ∀ w op r w', answer w op = some (r, w') → S.perform w op r w') (w : W)
    (p : Prog Op (fun op => Except ε (Ret op)) α) :
    Exec S w p (simulate answer w p).1 (simulate answer w p).2.1 (simulate answer w p).2.2 := by
  induction p generalizing w with
  | pure a => exact .done .refl
  | call op next ih =>
    unfold simulate
    cases h : answer w op with
    | none => exact .stop .refl
    | some reply => exact .call .refl (hanswer w op _ _ h) (ih _ _)

/-- Exactly these answers lead the program to its result. -/
def Answered : Prog Op (fun op => Except ε (Ret op)) α → List (Answer Op Ret ε) → α → Prop
  | .pure a, answers, b => answers = [] ∧ b = a
  | .call op next, answers, b => ∃ r rest, answers = ⟨op, r⟩ :: rest ∧ Answered (next r) rest b

theorem Ends.answered {p : Prog Op (fun op => Except ε (Ret op)) α}
    {Q : α → List (Answer Op Ret ε) → Prop} {answers : List (Answer Op Ret ε)}
    (h : Ends Q answers p) :
    Ends (fun a answers' => Q a answers' ∧ ∃ more, answers' = answers ++ more ∧ Answered p more a)
      answers p := by
  induction p generalizing answers with
  | pure a => exact ⟨h, [], (List.append_nil _).symm, rfl, rfl⟩
  | call op next ih =>
    refine fun r => (ih r (h r)).imp ?_
    rintro a answers' ⟨hQ, more, rfl, hmore⟩
    exact ⟨hQ, ⟨op, r⟩ :: more, by simp, r, more, rfl, hmore⟩

/-- Two splits at the only elements with a property are the same. -/
theorem split_unique {γ : Type} {p : γ → Bool} {x y : γ} {l₁ l₂ r₁ r₂ : List γ}
    (h : l₁ ++ x :: l₂ = r₁ ++ y :: r₂) (hx : p x = true) (hy : p y = true)
    (hr₁ : ∀ z ∈ r₁, p z = false) (hr₂ : ∀ z ∈ r₂, p z = false) :
    l₁ = r₁ ∧ x = y ∧ l₂ = r₂ := by
  rcases List.append_eq_append_iff.mp h with ⟨middle, rfl, hmiddle⟩ | ⟨middle, rfl, hmiddle⟩
  · cases middle with
    | nil =>
      cases hmiddle
      exact ⟨(List.append_nil _).symm, rfl, rfl⟩
    | cons z middle =>
      cases hmiddle
      have := hr₁ x (by simp)
      rw [hx] at this
      cases this
  · cases middle with
    | nil =>
      cases hmiddle
      exact ⟨List.append_nil _, rfl, rfl⟩
    | cons z middle =>
      cases hmiddle
      have := hr₂ x (by simp)
      rw [hx] at this
      cases this

/-- After a history with `past`, the answers were given in this order, with others between them. -/
def Seen (past : List (Answer Op Ret ε) → Prop) (replies answers : List (Answer Op Ret ε)) : Prop :=
  ∃ before recent, answers = before ++ recent ∧ past before ∧ List.Sublist replies recent

/-- After a history with `past`, exactly these answers were given. -/
def Just (past : List (Answer Op Ret ε) → Prop) (replies answers : List (Answer Op Ret ε)) : Prop :=
  ∃ before, answers = before ++ replies ∧ past before

/-- The answers were given in this order at some time. -/
abbrev Ever (replies answers : List (Answer Op Ret ε)) : Prop :=
  Seen (fun _ => True) replies answers

section Events

variable {W : Type} {past : List (Answer Op Ret ε) → Prop} {replies : List (Answer Op Ret ε)}
  {events : List (Event W Op fun op => Except ε (Ret op))}

/-- The events behind the answers that were seen. -/
theorem Seen.split (h : Seen past replies (answersOf events)) :
    ∃ before recent chosen, events = before ++ recent ∧ past (answersOf before) ∧
      List.Sublist chosen recent ∧ answersOf chosen = replies := by
  obtain ⟨before', recent', hsplit, hpast, hrecent⟩ := h
  obtain ⟨before, recent, rfl, rfl, rfl⟩ := List.map_eq_append_iff.mp hsplit
  obtain ⟨chosen, hchosen, hreplies⟩ := List.sublist_map_iff.mp hrecent
  exact ⟨before, recent, chosen, rfl, hpast, hchosen, hreplies.symm⟩

theorem Just.split (h : Just past replies (answersOf events)) :
    ∃ before chosen, events = before ++ chosen ∧ past (answersOf before) ∧
      answersOf chosen = replies := by
  obtain ⟨before', hsplit, hpast⟩ := h
  obtain ⟨before, chosen, rfl, rfl, hreplies⟩ := List.map_eq_append_iff.mp hsplit
  exact ⟨before, chosen, rfl, hpast, hreplies⟩

end Events

section Rules

variable {harmless : Op → Prop} {I J P : List (Answer Op Ret ε) → σ → Prop}
  {Q : α → List (Answer Op Ret ε) → σ → Prop} {E : ε → List (Answer Op Ret ε) → σ → Prop}
  {m : Script Op Ret ε σ α}

theorem triple_loop {I : β → List (Answer Op Ret ε) → σ → Prop} {beyond : Script Op Ret ε σ α}
    {turn : β → Script Op Ret ε σ (β ⊕ α)} (hbeyond : ∀ b, Triple (I b) beyond Q E)
    (hturn : ∀ b, Triple (I b) (turn b) (fun r => Sum.elim I Q r) E) (turns : ℕ) (b : β) :
    Triple (I b) (loop beyond turn turns b) Q E := by
  induction turns generalizing b with
  | zero => exact hbeyond b
  | succ turns ih =>
    refine triple_bind (hturn b) fun r => ?_
    cases r with
    | inl b => exact ih b
    | inr a => exact triple_pure fun _ _ => id

/-- The script was run after a past with `P`, and ended so. -/
def LedTo (P : List (Answer Op Ret ε) → σ → Prop) (m : Script Op Ret ε σ α) (r : Except ε α)
    (answers : List (Answer Op Ret ε)) (s : σ) : Prop :=
  ∃ past s₀ more, P past s₀ ∧ answers = past ++ more ∧ Answered (m.run.run s₀) more (r, s)

theorem Triple.ledTo (h : Triple P m Q E) :
    Triple P m (fun a answers s => Q a answers s ∧ LedTo P m (.ok a) answers s)
      (fun e answers s => E e answers s ∧ LedTo P m (.error e) answers s) := by
  intro answers s hs
  refine (h answers s hs).answered.imp ?_
  rintro ⟨r, s'⟩ answers' ⟨hr, more, hmore, hanswered⟩
  cases r <;> exact ⟨hr, answers, s, more, hs, hmore, hanswered⟩

/-- What stays true of every longer history is not lost by a script. -/
theorem Triple.frame {J : List (Answer Op Ret ε) → Prop} (h : Triple P m Q E)
    (hJ : ∀ answers more, J answers → J (answers ++ more)) :
    Triple (fun answers s => P answers s ∧ J answers) m
      (fun a answers s => Q a answers s ∧ J answers)
      (fun e answers s => E e answers s ∧ J answers) := by
  rintro answers s ⟨hs, hpast⟩
  refine (h answers s hs).answered.imp ?_
  rintro ⟨r, s'⟩ answers' ⟨hr, more, rfl, -⟩
  cases r <;> exact ⟨hr, hJ _ _ hpast⟩

/-- The answers of harmless operations keep `I`. -/
def Kept (harmless : Op → Prop) (I : List (Answer Op Ret ε) → σ → Prop) : Prop :=
  ∀ answers s op r, harmless op → I answers s → I (answers ++ [⟨op, r⟩]) s

/-- The script calls harmless operations only, and leaves the state alone. -/
def Harmless (harmless : Op → Prop) (m : Script Op Ret ε σ α) : Prop :=
  ∀ I : List (Answer Op Ret ε) → σ → Prop, Kept harmless I →
    Triple I m (fun _ => I) (fun _ => I)

theorem Kept.mono {harmless' : Op → Prop} (hI : Kept harmless I)
    (h : ∀ op, harmless' op → harmless op) : Kept harmless' I :=
  fun answers s op r hop => hI answers s op r (h op hop)

theorem Kept.and (hI : Kept harmless I) (hJ : Kept harmless J) :
    Kept harmless fun answers s => I answers s ∧ J answers s :=
  fun answers s op r hop h => ⟨hI answers s op r hop h.1, hJ answers s op r hop h.2⟩

theorem Seen.append {past : List (Answer Op Ret ε) → Prop}
    {replies answers : List (Answer Op Ret ε)} (h : Seen past replies answers)
    (more : List (Answer Op Ret ε)) : Seen past replies (answers ++ more) := by
  obtain ⟨before, recent, rfl, hpast, hsub⟩ := h
  exact ⟨before, recent ++ more, List.append_assoc _ _ _, hpast,
    hsub.trans (List.sublist_append_left _ _)⟩

theorem Seen.concat {past : List (Answer Op Ret ε) → Prop}
    {replies answers : List (Answer Op Ret ε)} (h : Seen past replies answers)
    (reply : Answer Op Ret ε) : Seen past (replies ++ [reply]) (answers ++ [reply]) := by
  obtain ⟨before, recent, rfl, hpast, hsub⟩ := h
  exact ⟨before, recent ++ [reply], List.append_assoc _ _ _, hpast,
    hsub.append (List.Sublist.refl _)⟩

theorem Seen.of_concat {past : List (Answer Op Ret ε) → Prop}
    {replies answers : List (Answer Op Ret ε)} {reply : Answer Op Ret ε}
    (h : Seen past (replies ++ [reply]) answers) : Seen past replies answers := by
  obtain ⟨before, recent, hanswers, hpast, hsub⟩ := h
  exact ⟨before, recent, hanswers, hpast, (List.sublist_append_left _ _).trans hsub⟩

theorem seen_nil {past : List (Answer Op Ret ε) → Prop} {answers : List (Answer Op Ret ε)}
    (h : past answers) : Seen past [] answers :=
  ⟨answers, [], (List.append_nil _).symm, h, List.Sublist.refl _⟩

theorem just_nil {past : List (Answer Op Ret ε) → Prop} {answers : List (Answer Op Ret ε)}
    (h : past answers) : Just past [] answers := ⟨answers, (List.append_nil _).symm, h⟩

theorem kept_seen (past : List (Answer Op Ret ε) → Prop) (replies : List (Answer Op Ret ε)) :
    Kept harmless fun answers (_ : σ) => Seen past replies answers :=
  fun _ _ _ _ _ h => h.append _

theorem kept_state (p : σ → Prop) :
    Kept harmless fun (_ : List (Answer Op Ret ε)) s => p s :=
  fun _ _ _ _ _ h => h

theorem harmless_pure (a : α) : Harmless harmless (pure a : Script Op Ret ε σ α) :=
  fun _ _ => triple_pure fun _ _ => id

theorem harmless_throw (e : ε) : Harmless harmless (throw e : Script Op Ret ε σ α) :=
  fun _ _ => triple_throw fun _ _ => id

theorem harmless_raiseIf {condition : Prop} [Decidable condition] (e : ε) :
    Harmless harmless (raiseIf condition e : Script Op Ret ε σ Unit) :=
  fun _ _ => triple_raiseIf (fun _ _ => id) fun _ _ => id

theorem harmless_ofExcept (r : Except ε α) :
    Harmless harmless (ofExcept r : Script Op Ret ε σ α) := by
  intro I _
  refine triple_ofExcept fun answers s hs => ?_
  cases r <;> exact hs

theorem harmless_perform {op : Op} (h : harmless op) :
    Harmless harmless (perform op : Script Op Ret ε σ (Ret op)) :=
  fun _ hI => triple_perform (fun _ _ hs _ => hI _ _ _ _ h hs) fun _ _ hs _ => hI _ _ _ _ h hs

theorem Harmless.bind {f : α → Script Op Ret ε σ β} (hm : Harmless harmless m)
    (hf : ∀ a, Harmless harmless (f a)) : Harmless harmless (m >>= f) :=
  fun I hI => triple_bind (hm I hI) fun a => hf a I hI

theorem Harmless.tryCatch {handler : ε → Script Op Ret ε σ α} (hm : Harmless harmless m)
    (hhandler : ∀ e, Harmless harmless (handler e)) : Harmless harmless (tryCatch m handler) :=
  fun I hI => triple_tryCatch (hm I hI) fun e => hhandler e I hI

theorem harmless_ite {condition : Prop} [Decidable condition] {m m' : Script Op Ret ε σ α}
    (hm : Harmless harmless m) (hm' : Harmless harmless m') :
    Harmless harmless (if condition then m else m') :=
  fun I hI => triple_ite (fun _ => hm I hI) fun _ => hm' I hI

theorem harmless_loop {beyond : Script Op Ret ε σ α} {turn : β → Script Op Ret ε σ (β ⊕ α)}
    (hbeyond : Harmless harmless beyond) (hturn : ∀ b, Harmless harmless (turn b)) (turns : ℕ)
    (b : β) : Harmless harmless (loop beyond turn turns b) := by
  intro I hI
  refine triple_loop (I := fun _ => I) (fun _ => hbeyond I hI) (fun b => ?_) turns b
  refine (hturn b I hI).weaken (fun _ _ => id) (fun r _ _ h => ?_) fun _ _ _ => id
  cases r <;> exact h

theorem triple_exists {γ : Type} {P : γ → List (Answer Op Ret ε) → σ → Prop}
    (h : ∀ x, Triple (P x) m Q E) : Triple (fun answers s => ∃ x, P x answers s) m Q E :=
  fun answers s ⟨x, hx⟩ => h x answers s hx

theorem triple_given {p : Prop} (h : p → Triple P m Q E) :
    Triple (fun answers s => P answers s ∧ p) m Q E :=
  fun answers s hs => h hs.2 answers s hs.1

theorem triple_parse {r : Except ε α} (hE : ∀ e answers s, P answers s → E e answers s) :
    Triple P (ofExcept r : Script Op Ret ε σ α) (fun a answers s => P answers s ∧ r = .ok a) E := by
  refine triple_ofExcept fun answers s hs => ?_
  cases r with
  | error e => exact hE e answers s hs
  | ok a => exact ⟨hs, rfl⟩

theorem triple_unless {condition : Prop} [Decidable condition] {e : ε}
    (hE : ∀ e answers s, P answers s → E e answers s) :
    Triple P (raiseIf condition e) (fun _ answers s => P answers s ∧ ¬ condition) E :=
  triple_ite (fun _ => triple_throw fun answers s hs => hE e answers s hs) fun hnot =>
    triple_pure fun _ _ hs => ⟨hs, hnot⟩

section Seen

variable {past : List (Answer Op Ret ε) → Prop} {replies : List (Answer Op Ret ε)} {op : Op}
  {f : Ret op → Script Op Ret ε σ α}

/-- A harmless operation in front of the rest is added to what was seen. -/
theorem triple_see (hI : Kept harmless I) (hop : harmless op)
    (hE : ∀ e answers s, I answers s → E e answers s)
    (hf : ∀ r, Triple (fun answers s => I answers s ∧
      Seen past (replies ++ [⟨op, .ok r⟩]) answers) (f r) Q E) :
    Triple (fun answers s => I answers s ∧ Seen past replies answers) (perform op >>= f) Q E := by
  refine triple_bind (triple_perform (fun answers s h r => ?_) fun answers s h e => ?_) hf
  · exact ⟨hI answers s op _ hop h.1, h.2.concat _⟩
  · exact hE e _ _ (hI answers s op _ hop h.1)

/-- The first operation that is looked at. -/
theorem triple_seeFirst (hI : Kept harmless I) (hop : harmless op)
    (hE : ∀ e answers s, I answers s → E e answers s)
    (hf : ∀ r, Triple (fun answers s => I answers s ∧ Ever [⟨op, .ok r⟩] answers) (f r) Q E) :
    Triple I (perform op >>= f) Q E :=
  Triple.of_imp (triple_see hI hop hE hf) fun _ _ h => ⟨h, seen_nil trivial⟩

/-- The same, without another operation in between. -/
theorem triple_just (hI : Kept harmless I) (hop : harmless op)
    (hE : ∀ e answers s, I answers s → E e answers s)
    (hf : ∀ r, Triple (fun answers s => I answers s ∧
      Just past (replies ++ [⟨op, .ok r⟩]) answers) (f r) Q E) :
    Triple (fun answers s => I answers s ∧ Just past replies answers) (perform op >>= f) Q E := by
  refine triple_bind (triple_perform (fun answers s h r => ?_) fun answers s h e => ?_) hf
  · obtain ⟨before, rfl, hpast⟩ := h.2
    exact ⟨hI _ s op _ hop h.1, before, List.append_assoc _ _ _, hpast⟩
  · exact hE e _ _ (hI answers s op _ hop h.1)

end Seen

theorem Harmless.then {f : α → Script Op Ret ε σ β} {Q : β → List (Answer Op Ret ε) → σ → Prop}
    (hm : Harmless harmless m) (hI : Kept harmless I)
    (hE : ∀ e answers s, I answers s → E e answers s) (hf : ∀ a, Triple I (f a) Q E) :
    Triple I (m >>= f) Q E :=
  triple_bind ((hm I hI).weaken (fun _ _ => id) (fun _ _ _ => id) hE) hf

end Rules

end Raising
