import Mathlib.Data.List.Forall2
import Mathlib.Data.List.Perm.Basic

/-! Traversals that stop at their first failure, and what they keep of the traversal order. -/
namespace FirstFailure

variable {α β ε : Type*}

theorem bind_eq_ok_iff.{u, v} {ε : Type u} {α β : Type v} {x : Except ε α} {f : α → Except ε β}
    {b : β} : (x >>= f) = .ok b ↔ ∃ a, x = .ok a ∧ f a = .ok b := by
  cases x with
  | error e =>
    refine iff_of_false (fun h => ?_) fun ⟨_, h, _⟩ => ?_
    · cases h
    · cases h
  | ok a =>
    constructor
    · intro h
      exact ⟨a, rfl, h⟩
    · rintro ⟨_, ⟨⟩, h⟩
      exact h

/-- Run a check over a list, collecting the results up to the first error. -/
def collect (check : α → Except ε β) : List α → Except ε (List β)
  | [] => .ok []
  | a :: rest =>
    match check a with
    | .error e => .error e
    | .ok b =>
      match collect check rest with
      | .error e => .error e
      | .ok bs => .ok (b :: bs)

variable (check : α → Except ε β)

theorem collect_ok_iff (l : List α) (bs : List β) :
    collect check l = .ok bs ↔ List.Forall₂ (fun a b => check a = .ok b) l bs := by
  induction l generalizing bs with
  | nil =>
    rw [List.forall₂_nil_left_iff]
    exact ⟨fun h => (Except.ok.inj h).symm, fun h => h ▸ rfl⟩
  | cons a rest ih =>
    rw [List.forall₂_cons_left_iff]
    unfold collect
    cases ha : check a with
    | error e => simp
    | ok b =>
      cases hr : collect check rest with
      | error e =>
        have hno : ∀ bs, ¬ List.Forall₂ (fun a b => check a = .ok b) rest bs := by
          intro bs hbs
          rw [(ih bs).mpr hbs] at hr
          cases hr
        simp [hno]
      | ok tail =>
        have htail := (ih tail).mp hr
        constructor
        · intro h
          cases h
          exact ⟨b, tail, rfl, htail, rfl⟩
        · rintro ⟨b', tail', hb, htail', rfl⟩
          cases hb
          rw [(ih tail').mpr htail'] at hr
          cases hr
          rfl

theorem exists_of_collect_ok {l : List α} {bs : List β} (h : collect check l = .ok bs) :
    ∀ a ∈ l, ∃ b ∈ bs, check a = .ok b := by
  have hall := (collect_ok_iff check l bs).mp h
  induction hall with
  | nil => exact fun a ha => absurd ha List.not_mem_nil
  | cons hb htail ih =>
    intro a ha
    rcases List.mem_cons.mp ha with rfl | ha
    · exact ⟨_, List.mem_cons_self, hb⟩
    · obtain ⟨b, hmem, hok⟩ := ih ((collect_ok_iff check _ _).mpr htail) a ha
      exact ⟨b, List.mem_cons_of_mem _ hmem, hok⟩

theorem exists_collect_ok_iff (l : List α) :
    (∃ bs, collect check l = .ok bs) ↔ ∀ a ∈ l, ∃ b, check a = .ok b := by
  constructor
  · rintro ⟨bs, h⟩ a ha
    obtain ⟨b, -, hb⟩ := exists_of_collect_ok check h a ha
    exact ⟨b, hb⟩
  · intro h
    induction l with
    | nil => exact ⟨[], rfl⟩
    | cons a rest ih =>
      obtain ⟨⟨b, hb⟩, hrest⟩ := List.forall_mem_cons.mp h
      obtain ⟨bs, hbs⟩ := ih hrest
      exact ⟨b :: bs, by rw [collect, hb, hbs]⟩

/-- The results of a success are those of its elements. -/
theorem mem_of_collect_ok {l : List α} {bs : List β} (h : collect check l = .ok bs) {b : β} :
    b ∈ bs ↔ ∃ a ∈ l, check a = .ok b := by
  constructor
  · have hall := (collect_ok_iff check l bs).mp h
    clear h
    intro hb
    induction hall with
    | nil => exact absurd hb List.not_mem_nil
    | cons hok _ ih =>
      rcases List.mem_cons.mp hb with rfl | hb
      · exact ⟨_, List.mem_cons_self, hok⟩
      · obtain ⟨a, ha, hok⟩ := ih hb
        exact ⟨a, List.mem_cons_of_mem _ ha, hok⟩
  · rintro ⟨a, ha, hok⟩
    obtain ⟨b', hb', hok'⟩ := exists_of_collect_ok check h a ha
    rw [hok] at hok'
    cases hok'
    exact hb'

/-- The reported error is raised by an element of the list. -/
theorem exists_of_collect_error {l : List α} {e : ε} (h : collect check l = .error e) :
    ∃ a ∈ l, check a = .error e := by
  induction l with
  | nil => cases h
  | cons a rest ih =>
    unfold collect at h
    cases ha : check a with
    | error e' =>
      rw [ha] at h
      cases h
      exact ⟨a, List.mem_cons_self, ha⟩
    | ok b =>
      cases hr : collect check rest with
      | error e' =>
        rw [ha, hr] at h
        cases h
        obtain ⟨a', ha', he⟩ := ih hr
        exact ⟨a', List.mem_cons_of_mem _ ha', he⟩
      | ok bs =>
        rw [ha, hr] at h
        cases h

theorem collect_cons_error {a : α} {e : ε} (he : check a = .error e) (rest : List α) :
    collect check (a :: rest) = .error e := by
  rw [collect, he]

theorem collect_cons_ok {a : α} {b : β} (hb : check a = .ok b) (rest : List α) :
    collect check (a :: rest) = (collect check rest).map (b :: ·) := by
  rw [collect, hb]
  cases collect check rest <;> rfl

/-- Elements without a result of their own can be left out. -/
theorem collect_filter {check : α → Except ε (List β)} (keep : α → Bool) (l : List α)
    (hskip : ∀ a ∈ l, keep a = false → check a = .ok []) :
    (collect check (l.filter keep)).map List.flatten = (collect check l).map List.flatten := by
  induction l with
  | nil => rfl
  | cons a rest ih =>
    obtain ⟨ha, hrest⟩ := List.forall_mem_cons.mp hskip
    have ih := ih hrest
    cases hkeep : keep a with
    | false =>
      rw [List.filter_cons_of_neg (by simpa using hkeep), collect_cons_ok check (ha hkeep), ih]
      cases collect check rest <;> rfl
    | true =>
      rw [List.filter_cons_of_pos (by simpa using hkeep)]
      cases hresult : check a with
      | error e => rw [collect_cons_error check hresult, collect_cons_error check hresult]
      | ok bs =>
        rw [collect_cons_ok check hresult, collect_cons_ok check hresult]
        cases hfilter : collect check (rest.filter keep) with
        | error e =>
          rw [hfilter] at ih
          cases hrest : collect check rest with
          | error e' =>
            rw [hrest] at ih
            cases ih
            rfl
          | ok bss => rw [hrest] at ih; cases ih
        | ok bss =>
          rw [hfilter] at ih
          cases hrest : collect check rest with
          | error e' => rw [hrest] at ih; cases ih
          | ok bss' =>
            rw [hrest] at ih
            have hflatten : bss.flatten = bss'.flatten := Except.ok.inj ih
            exact congrArg Except.ok (congrArg (bs ++ ·) hflatten)

theorem collect_perm {l l' : List α} (hl : l.Perm l') {bs : List β}
    (h : collect check l = .ok bs) : ∃ bs', collect check l' = .ok bs' ∧ bs.Perm bs' := by
  have hall := (collect_ok_iff check l bs).mp h
  obtain ⟨bs', hall', hperm⟩ := List.perm_comp_forall₂ hl.symm hall
  exact ⟨bs', (collect_ok_iff check l' bs').mpr hall', hperm.symm⟩

variable {κ : Type*} (kind : ε → κ)

/-- All failures of the list have one kind. -/
def Uniform (l : List α) : Prop :=
  ∀ a ∈ l, ∀ b ∈ l, ∀ e e', check a = .error e → check b = .error e' → kind e = kind e'

/-- The kind of the reported failure depends on the order exactly when kinds are mixed. -/
theorem orderIndependent_iff (l : List α) :
    (∀ l₁ l₂, l₁.Perm l → l₂.Perm l → ∀ e₁ e₂, collect check l₁ = .error e₁ →
      collect check l₂ = .error e₂ → kind e₁ = kind e₂) ↔ Uniform check kind l := by
  constructor
  · intro h a ha b hb e e' he he'
    obtain ⟨pre, post, rfl⟩ := List.append_of_mem ha
    obtain ⟨pre', post', hsplit⟩ := List.append_of_mem hb
    refine h (a :: (pre ++ post)) (b :: (pre' ++ post')) List.perm_middle.symm ?_ e e'
      (collect_cons_error check he _) (collect_cons_error check he' _)
    rw [hsplit]
    exact List.perm_middle.symm
  · intro h l₁ l₂ h₁ h₂ e₁ e₂ he₁ he₂
    obtain ⟨a, ha, hea⟩ := exists_of_collect_error check he₁
    obtain ⟨b, hb, heb⟩ := exists_of_collect_error check he₂
    exact h a (h₁.subset ha) b (h₂.subset hb) e₁ e₂ hea heb

end FirstFailure
