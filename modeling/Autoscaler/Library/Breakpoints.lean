import Autoscaler.Library.Adjacent
import Mathlib.Data.List.Nodup
import Mathlib.Order.Hom.Basic

/-! Values that hold from their time on, each of them until the next one starts. -/
namespace Breakpoints

variable {K P V : Type*} [LinearOrder K] [LinearOrder P] (e : K ↪o P)

def Increasing (l : List (K × V)) : Prop := l.Pairwise fun b c => b.1 < c.1

/-- The entry in force at `t`: the last one that starts by then. -/
def InForce (l : List (K × V)) (t : P) (b : K × V) : Prop :=
  b ∈ l ∧ e b.1 ≤ t ∧ ∀ c ∈ l, e c.1 ≤ t → c.1 ≤ b.1

/-- Every entry with the end of the time it is held for. -/
def held (stop : K) : List (K × V) → List ((K × V) × K)
  | [] => []
  | [b] => [(b, stop)]
  | b :: next :: rest => (b, next.1) :: held stop (next :: rest)

variable {e} {l : List (K × V)} {t : P} {b c : K × V} {stop : K}

omit [LinearOrder K] in
theorem held_cons (stop : K) (b : K × V) (rest : List (K × V)) :
    held stop (b :: rest) = (b, ((rest.map Prod.fst).head?).getD stop) :: held stop rest := by
  cases rest <;> rfl

theorem Increasing.eq_of_fst_eq (h : Increasing l) (hb : b ∈ l) (hc : c ∈ l) (heq : b.1 = c.1) :
    b = c := by
  have hdistinct : (l.map Prod.fst).Nodup := List.pairwise_map.mpr (h.imp fun hlt => hlt.ne)
  exact List.inj_on_of_nodup_map hdistinct hb hc heq

theorem InForce.unique (h : Increasing l) (hb : InForce e l t b) (hc : InForce e l t c) : b = c :=
  h.eq_of_fst_eq hb.1 hc.1 (le_antisymm (hc.2.2 b hb.1 hb.2.1) (hb.2.2 c hc.1 hc.2.1))

theorem inForce_self (e : K ↪o P) (hb : b ∈ l) : InForce e l (e b.1) b :=
  ⟨hb, le_rfl, fun _ _ hle => e.le_iff_le.mp hle⟩

theorem inForce_iff_split (h : Increasing l) : InForce e l t b ↔
    ∃ pre post, l = pre ++ b :: post ∧ e b.1 ≤ t ∧ ∀ c ∈ post, t < e c.1 := by
  constructor
  · rintro ⟨hmem, hle, hlast⟩
    obtain ⟨pre, post, rfl⟩ := List.append_of_mem hmem
    refine ⟨pre, post, rfl, hle, fun c hc => lt_of_not_ge fun hct => ?_⟩
    have hlater := (List.pairwise_cons.mp (List.pairwise_append.mp h).2.1).1 c hc
    have hcl : c ∈ pre ++ b :: post := List.mem_append_right pre (List.mem_cons_of_mem b hc)
    exact hlater.not_ge (hlast c hcl hct)
  · rintro ⟨pre, post, rfl, hle, hpost⟩
    have hpre := (List.pairwise_append.mp h).2.2
    refine ⟨List.mem_append_right pre List.mem_cons_self, hle, fun c hc hct => ?_⟩
    rcases List.mem_append.mp hc with hmem | hmem
    · exact (hpre c hmem b List.mem_cons_self).le
    · rcases List.mem_cons.mp hmem with rfl | hmem
      · exact le_rfl
      · exact absurd hct (hpost c hmem).not_ge

theorem exists_inForce {first : K × V} {rest : List (K × V)} (h : Increasing (first :: rest))
    (hstart : e first.1 ≤ t) : ∃ b, InForce e (first :: rest) t b := by
  induction rest generalizing first with
  | nil => exact ⟨first, List.mem_cons_self, hstart, by simp⟩
  | cons second rest ih =>
    obtain ⟨hfirst, hrest⟩ := List.pairwise_cons.mp h
    by_cases hsecond : e second.1 ≤ t
    · obtain ⟨b, hmem, hle, hlast⟩ := ih hrest hsecond
      refine ⟨b, List.mem_cons_of_mem first hmem, hle, ?_⟩
      exact List.forall_mem_cons.mpr ⟨fun _ => (hfirst b hmem).le, hlast⟩
    · refine ⟨first, (inForce_iff_split h).mpr ⟨[], second :: rest, rfl, hstart, ?_⟩⟩
      intro c hc
      have hle : second.1 ≤ c.1 := by
        rcases List.mem_cons.mp hc with rfl | hmem
        · exact le_rfl
        · exact ((List.pairwise_cons.mp hrest).1 c hmem).le
      exact (lt_of_not_ge hsecond).trans_le (e.monotone hle)

section Held

variable (hstop : ∀ b ∈ l, b.1 ≤ stop)

omit [LinearOrder K] in
theorem exists_held {s : (K × V) × K} (hs : s ∈ held stop l) :
    ∃ pre post, l = pre ++ s.1 :: post ∧ s.2 = ((post.map Prod.fst).head?).getD stop := by
  fun_induction held stop l with
  | case1 => cases hs
  | case2 b =>
    rw [List.mem_singleton.mp hs]
    exact ⟨[], [], rfl, rfl⟩
  | case3 b next rest ih =>
    rcases List.mem_cons.mp hs with rfl | hmem
    · exact ⟨[], next :: rest, rfl, rfl⟩
    · obtain ⟨pre, post, hsplit, hend⟩ := ih hmem
      exact ⟨b :: pre, post, by rw [hsplit, List.cons_append], hend⟩

theorem inForce_of_mem_held (h : Increasing l) {s : (K × V) × K} (hs : s ∈ held stop l)
    (hlow : e s.1.1 ≤ t) (hhigh : t < e s.2) : InForce e l t s.1 := by
  obtain ⟨pre, post, rfl, hend⟩ := exists_held hs
  refine (inForce_iff_split h).mpr ⟨pre, post, rfl, hlow, fun c hc => hhigh.trans_le ?_⟩
  cases post with
  | nil => cases hc
  | cons next post =>
    have hpost := (List.pairwise_cons.mp (List.pairwise_append.mp h).2.1).2
    refine e.monotone (hend.trans_le ?_)
    rcases List.mem_cons.mp hc with rfl | hmem
    · exact le_rfl
    · exact ((List.pairwise_cons.mp hpost).1 c hmem).le

include hstop

/-- Every entry is held for a time that ends by the stop. -/
theorem held_within (h : Increasing l) : ∀ s ∈ held stop l, s.1.1 ≤ s.2 ∧ s.2 ≤ stop := by
  intro s hs
  obtain ⟨pre, post, rfl, hend⟩ := exists_held hs
  cases post with
  | nil =>
    rw [hend]
    exact ⟨hstop _ (List.mem_append_right pre List.mem_cons_self), le_rfl⟩
  | cons next post =>
    have hnext : next ∈ pre ++ s.1 :: next :: post :=
      List.mem_append_right pre (List.mem_cons_of_mem _ List.mem_cons_self)
    have hlt := (List.pairwise_cons.mp (List.pairwise_append.mp h).2.1).1 next List.mem_cons_self
    rw [hend]
    exact ⟨hlt.le, hstop next hnext⟩

theorem held_pairwise (h : Increasing l) :
    (held stop l).Pairwise fun s later => s.2 ≤ later.1.1 := by
  fun_induction held stop l with
  | case1 => exact .nil
  | case2 b => exact List.pairwise_singleton _ _
  | case3 b next rest ih =>
    obtain ⟨-, hrest⟩ := List.pairwise_cons.mp h
    have htail := ih (fun c hc => hstop c (.tail _ hc)) hrest
    refine List.pairwise_cons.mpr ⟨fun later hlater => ?_, htail⟩
    obtain ⟨pre, post, hsplit, -⟩ := exists_held hlater
    have hmem : later.1 ∈ next :: rest := hsplit ▸ List.mem_append_right pre List.mem_cons_self
    rcases List.mem_cons.mp hmem with heq | hmem
    · rw [heq]
    · exact ((List.pairwise_cons.mp hrest).1 _ hmem).le

/-- Between the first time and the stop some entry is held. -/
theorem exists_mem_held_iff {first : K × V} {rest : List (K × V)} (hl : l = first :: rest)
    (h : Increasing l) : (∃ s ∈ held stop l, e s.1.1 ≤ t ∧ t < e s.2) ↔
      e first.1 ≤ t ∧ t < e stop := by
  constructor
  · rintro ⟨s, hs, hlow, hhigh⟩
    obtain ⟨pre, post, hsplit, -⟩ := exists_held hs
    have hmem : s.1 ∈ first :: rest := hl ▸ hsplit ▸ List.mem_append_right pre List.mem_cons_self
    have hfirst : first.1 ≤ s.1.1 := by
      rcases List.mem_cons.mp hmem with heq | hmem
      · rw [heq]
      · exact ((List.pairwise_cons.mp (hl ▸ h)).1 _ hmem).le
    exact ⟨(e.monotone hfirst).trans hlow, hhigh.trans_le (e.monotone (held_within hstop h s hs).2)⟩
  · rintro ⟨hlow, hhigh⟩
    fun_induction held stop l generalizing first rest with
    | case1 => cases hl
    | case2 b =>
      cases hl
      exact ⟨_, List.mem_cons_self, hlow, hhigh⟩
    | case3 b next tail ih =>
      cases hl
      by_cases hnext : e next.1 ≤ t
      · obtain ⟨s, hs, hheld⟩ := ih (fun c hc => hstop c (.tail _ hc)) rfl
          (List.pairwise_cons.mp h).2 hnext
        exact ⟨s, .tail _ hs, hheld⟩
      · exact ⟨_, List.mem_cons_self, hlow, lt_of_not_ge hnext⟩

end Held

section Changes

theorem Increasing.lt_of_mem_zip (h : Increasing l) {pair : (K × V) × (K × V)}
    (hpair : pair ∈ l.zip l.tail) : pair.1.1 < pair.2.1 := by
  obtain ⟨pre, post, rfl⟩ := Adjacent.mem_zip_tail_iff.mp hpair
  exact (List.pairwise_cons.mp (List.pairwise_append.mp h).2.1).1 pair.2 List.mem_cons_self

theorem Increasing.zip_pairwise (h : Increasing l) :
    (l.zip l.tail).Pairwise fun pair later => pair.2.1 ≤ later.2.1 := by
  refine (Adjacent.zip_tail_pairwise h).imp_of_mem fun {pair later} _ hlater hnext => ?_
  have hlt := h.lt_of_mem_zip hlater
  rcases hnext with heq | hbefore
  · rw [heq]
    exact hlt.le
  · exact (hbefore.trans hlt).le

/-- Before a change the old value is in force. -/
theorem inForce_before_change (h : Increasing l) {pair : (K × V) × (K × V)}
    (hpair : pair ∈ l.zip l.tail) (hlow : e pair.1.1 ≤ t) (hhigh : t < e pair.2.1) :
    InForce e l t pair.1 := by
  obtain ⟨pre, post, hsplit⟩ := Adjacent.mem_zip_tail_iff.mp hpair
  refine (inForce_iff_split h).mpr ⟨pre, pair.2 :: post, hsplit, hlow, fun c hc => ?_⟩
  rw [hsplit] at h
  have htail := (List.pairwise_cons.mp (List.pairwise_append.mp h).2.1).2
  rcases List.mem_cons.mp hc with rfl | hmem
  · exact hhigh
  · exact hhigh.trans (e.strictMono ((List.pairwise_cons.mp htail).1 c hmem))

variable [DecidableEq V]

/-- The last value holds from its last change on. -/
theorem settled_after_changes (h : Increasing l) {value : V}
    (hlast : ∀ last ∈ l.getLast?, last.2 = value)
    (hchanges : ∀ pair ∈ Adjacent.changes Prod.snd l, pair.2.2 = value → e pair.2.1 ≤ t)
    (hb : InForce e l t b) : b.2 = value := by
  by_contra hne
  obtain ⟨pre, post, rfl, -, hpost⟩ := (inForce_iff_split h).mp hb
  rcases List.eq_nil_or_concat post with rfl | ⟨init, last, rfl⟩
  · exact hne (hlast b (by simp))
  · rw [List.concat_eq_append] at h hlast hchanges hpost
    have hend : (pre ++ b :: (init ++ [last])).getLast? = some last := by
      rw [← List.cons_append, ← List.append_assoc, List.getLast?_concat]
    have hvalue : last.2 = value := hlast last hend
    have hdiffers : ∃ a ∈ b :: init, a.2 ≠ last.2 := ⟨b, List.mem_cons_self, hvalue ▸ hne⟩
    obtain ⟨pair, hpair, hchange⟩ := Adjacent.exists_change_to_last Prod.snd hdiffers
    have hmem := (List.of_mem_zip ((Adjacent.mem_changes_iff _).mp hpair).1).2
    have hlater := hpost pair.2 hmem
    have hall := Adjacent.changes_subset_append Prod.snd pre (b :: (init ++ [last])) hpair
    exact hlater.not_ge (hchanges pair hall (hchange.trans hvalue))

end Changes

end Breakpoints
