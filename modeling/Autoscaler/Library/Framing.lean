import Mathlib.Data.List.Basic
import Mathlib.Data.List.Infix

/-! Items written one after another, each ended by a delimiter that occurs in no item, and what a
reader finds who comes while they are being written. -/
namespace Framing

variable {α β : Type*} (body : α → List β) (stop : β)

def frame (item : α) : List β := body item ++ [stop]

def text (items : List α) : List β := items.flatMap (frame body stop)

variable {body stop} {items : List α} {content : List β}

theorem text_cons (item : α) (rest : List α) :
    text body stop (item :: rest) = body item ++ stop :: text body stop rest := by
  simp [text, frame]

/-- A list starts either within the first part of a concatenation or with all of it. -/
theorem part_or_whole {l first rest : List β} (h : l <+: first ++ rest) :
    l <+: first ∨ ∃ tail, l = first ++ tail ∧ tail <+: rest := by
  rcases List.prefix_or_prefix_of_prefix h (List.prefix_append first rest) with hshort | ⟨tail, rfl⟩
  · exact .inl hshort
  · exact .inr ⟨tail, rfl, (List.prefix_append_right_inj first).mp h⟩

variable [DecidableEq β]

/-- The reader finds the items whose delimiter is there, and then at most a part of the next one. -/
theorem prefix_text (hstop : ∀ item ∈ items, stop ∉ body item)
    (h : content <+: text body stop items) :
    ∃ tail, content = text body stop (items.take (content.count stop)) ++ tail ∧
      (tail = [] ∨ ∃ item ∈ items, tail <+: body item) := by
  induction items generalizing content with
  | nil =>
    obtain rfl := List.prefix_nil.mp h
    exact ⟨[], rfl, .inl rfl⟩
  | cons item rest ih =>
    obtain ⟨hitem, hrest⟩ := List.forall_mem_cons.mp hstop
    rw [text_cons] at h
    rcases part_or_whole h with hpart | ⟨more, rfl, hmore⟩
    · have hcount : content.count stop = 0 :=
        List.count_eq_zero.mpr fun hmem => hitem (hpart.subset hmem)
      rw [hcount]
      exact ⟨content, rfl, .inr ⟨item, List.mem_cons_self, hpart⟩⟩
    · cases more with
      | nil =>
        rw [List.append_nil, List.count_eq_zero.mpr hitem]
        exact ⟨body item, rfl, .inr ⟨item, List.mem_cons_self, List.prefix_rfl⟩⟩
      | cons c more =>
        obtain ⟨rfl, hmore⟩ := List.cons_prefix_cons.mp hmore
        obtain ⟨tail, hcontent, htail⟩ := ih hrest hmore
        have hcount : (body item ++ c :: more).count c = more.count c + 1 := by
          rw [List.count_append, List.count_eq_zero.mpr hitem, List.count_cons_self, Nat.zero_add]
        refine ⟨tail, ?_, htail.imp_right fun ⟨next, hnext, hpart⟩ =>
          ⟨next, List.mem_cons_of_mem _ hnext, hpart⟩⟩
        rw [hcount, List.take_succ_cons, text_cons, List.append_assoc, List.cons_append,
          ← hcontent]

theorem count_text (hstop : ∀ item ∈ items, stop ∉ body item) :
    (text body stop items).count stop = items.length := by
  induction items with
  | nil => rfl
  | cons item rest ih =>
    obtain ⟨hitem, hrest⟩ := List.forall_mem_cons.mp hstop
    rw [text_cons, List.count_append, List.count_eq_zero.mpr hitem, List.count_cons_self, ih hrest,
      Nat.zero_add, List.length_cons]

end Framing
