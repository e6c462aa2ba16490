import Mathlib.Algebra.Order.Monoid.Defs
import Mathlib.Logic.Function.Basic

/-! A delaying work queue: every key waits at most once, until the earliest instant it was added
for. -/
namespace DelayQueue

/-- The instant at which each waiting key becomes ready. -/
abbrev Queue (κ T : Type*) := κ → Option T

variable {κ T : Type*} [LinearOrder T]

/-- The key waits, and not beyond `t`. -/
def By (q : Queue κ T) (k : κ) (t : T) : Prop := ∃ t' ∈ q k, t' ≤ t

/-- The key waits, and no longer than one of the allowed delays from now. -/
def Within [Add T] (delay : T → Prop) (now : T) (q : Queue κ T) (k : κ) : Prop :=
  ∃ d, delay d ∧ By q k (now + d)

theorem By.mono {q : Queue κ T} {k : κ} {t t' : T} (h : By q k t) (hle : t ≤ t') : By q k t' := by
  obtain ⟨t₀, hwaits, hby⟩ := h
  exact ⟨t₀, hwaits, hby.trans hle⟩

section Delays

variable {delay : T → Prop} {q : Queue κ T} {k : κ} {now now' : T}

theorem Within.later [AddCommMonoid T] [IsOrderedAddMonoid T] (h : Within delay now q k)
    (hle : now ≤ now') : Within delay now' q k := by
  obtain ⟨d, hd, hby⟩ := h
  exact ⟨d, hd, hby.mono (add_le_add_left hle d)⟩

theorem Within.isSome [Add T] (h : Within delay now q k) : (q k).isSome = true := by
  obtain ⟨d, -, t, ht, -⟩ := h
  exact Option.isSome_of_mem ht

end Delays

variable [DecidableEq κ]

def empty : Queue κ T := fun _ => none

/-- A key that already waits keeps the earlier instant. -/
def add (q : Queue κ T) (k : κ) (t : T) : Queue κ T :=
  Function.update q k (some (match q k with
    | none => t
    | some t' => min t' t))

def addAll (q : Queue κ T) (keys : List κ) (t : T) : Queue κ T :=
  keys.foldl (fun q k => add q k t) q

/-- A key leaves the queue when it is handed to a worker. -/
def take (q : Queue κ T) (k : κ) : Queue κ T := Function.update q k none

section By

variable {q : Queue κ T} {k k' : κ} {t : T}

theorem by_add (q : Queue κ T) (k : κ) (t : T) : By (add q k t) k t := by
  refine ⟨_, Function.update_self .., ?_⟩
  cases q k with
  | none => exact le_refl t
  | some t' => exact min_le_right t' t

theorem By.add (h : By q k t) (k' : κ) (t' : T) : By (DelayQueue.add q k' t') k t := by
  obtain ⟨t₀, hwaits, hby⟩ := h
  by_cases hk : k = k'
  · subst hk
    refine ⟨_, Function.update_self .., ?_⟩
    rw [hwaits]
    exact (min_le_left t₀ t').trans hby
  · exact ⟨t₀, (Function.update_of_ne hk ..).trans hwaits, hby⟩

theorem By.addAll (h : By q k t) (keys : List κ) (t' : T) :
    By (DelayQueue.addAll q keys t') k t := by
  induction keys generalizing q with
  | nil => exact h
  | cons key keys ih => exact ih (h.add key t')

theorem by_addAll {keys : List κ} (hk : k ∈ keys) (q : Queue κ T) (t : T) :
    By (addAll q keys t) k t := by
  induction keys generalizing q with
  | nil => cases hk
  | cons key keys ih =>
    cases hk with
    | head => exact (by_add q k t).addAll keys t
    | tail _ hk => exact ih hk (add q key t)

theorem addAll_of_not_mem {keys : List κ} (hk : k ∉ keys) (q : Queue κ T) (t : T) :
    addAll q keys t k = q k := by
  induction keys generalizing q with
  | nil => rfl
  | cons key keys ih =>
    rw [List.mem_cons, not_or] at hk
    exact (ih hk.2 (add q key t)).trans (Function.update_of_ne hk.1 ..)

theorem By.take (h : By q k t) (hk : k ≠ k') : By (DelayQueue.take q k') k t := by
  obtain ⟨t₀, hwaits, hby⟩ := h
  exact ⟨t₀, (Function.update_of_ne hk ..).trans hwaits, hby⟩

end By

section Within

variable [Add T] {delay : T → Prop} {q : Queue κ T} {k k' : κ} {now : T}

theorem within_add {d : T} (hd : delay d) (q : Queue κ T) (k : κ) (now : T) :
    Within delay now (add q k (now + d)) k := ⟨d, hd, by_add ..⟩

theorem Within.add (h : Within delay now q k) (k' : κ) (t : T) :
    Within delay now (DelayQueue.add q k' t) k := by
  obtain ⟨d, hd, hby⟩ := h
  exact ⟨d, hd, hby.add k' t⟩

theorem Within.addAll (h : Within delay now q k) (keys : List κ) (t : T) :
    Within delay now (DelayQueue.addAll q keys t) k := by
  obtain ⟨d, hd, hby⟩ := h
  exact ⟨d, hd, hby.addAll keys t⟩

theorem Within.take (h : Within delay now q k) (hk : k ≠ k') :
    Within delay now (DelayQueue.take q k') k := by
  obtain ⟨d, hd, hby⟩ := h
  exact ⟨d, hd, hby.take hk⟩

end Within

end DelayQueue
