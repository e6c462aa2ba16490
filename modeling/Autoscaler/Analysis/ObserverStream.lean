import Autoscaler.Analysis.LaunchAnchor
import Autoscaler.Library.Framing
import Autoscaler.Library.TextFile
import Autoscaler.LiveCampaign
import Autoscaler.ObserveCPU

/-! The stream of observe-cpu, which the launch gate polls while it is written. -/
namespace Autoscaler.Analysis

open MetricsProvider ObserveCPU

/-- `splitlines(keepends=True)`. -/
def splitlinesKeepends : List Char → List (List Char)
  | [] => []
  | [c] => [[c]]
  | c :: d :: rest =>
    if c = '\r' ∧ d = '\n' then [c, d] :: splitlinesKeepends rest
    else if LiveCampaign.isLineBreak c then [c] :: splitlinesKeepends (d :: rest)
    else
      match splitlinesKeepends (d :: rest) with
      | [] => [[c]]
      | line :: more => (c :: line) :: more

section Read

variable {encode : Line → List Char} {loads : List Char → Except String CapturedRow}
  {lines : List Line} {content : List Char}

theorem splitlinesKeepends_append {line : List Char}
    (h : ∀ c ∈ line, LiveCampaign.isLineBreak c = false) (rest : List Char) :
    splitlinesKeepends (line ++ '\n' :: rest) = (line ++ ['\n']) :: splitlinesKeepends rest := by
  induction line with
  | nil => cases rest <;> rfl
  | cons c line ih =>
    obtain ⟨hc, hline⟩ := List.forall_mem_cons.mp h
    have hreturn : c ≠ '\r' := by
      rintro rfl
      cases hc
    have ih := ih hline
    cases hmore : line ++ '\n' :: rest with
    | nil => simp at hmore
    | cons d more =>
      rw [hmore] at ih
      rw [List.cons_append, hmore, splitlinesKeepends, if_neg (fun hcr => hreturn hcr.1), hc,
        if_neg Bool.false_ne_true, ih]
      rfl

theorem splitlinesKeepends_tail {tail : List Char}
    (h : ∀ c ∈ tail, LiveCampaign.isLineBreak c = false) :
    splitlinesKeepends tail = if tail = [] then [] else [tail] := by
  induction tail with
  | nil => rfl
  | cons c tail ih =>
    obtain ⟨hc, htail⟩ := List.forall_mem_cons.mp h
    have hreturn : c ≠ '\r' := by
      rintro rfl
      cases hc
    cases tail with
    | nil => rfl
    | cons d more =>
      rw [splitlinesKeepends, if_neg (fun hcr => hreturn hcr.1), hc, if_neg Bool.false_ne_true,
        ih htail]
      rfl

theorem newline_not_mem {text : List Char} (h : ∀ c ∈ text, LiveCampaign.isLineBreak c = false) :
    '\n' ∉ text := by
  intro hmem
  have hbreak : LiveCampaign.isLineBreak '\n' = true := by decide
  rw [h _ hmem] at hbreak
  cases hbreak

theorem return_not_mem_text {α : Type*} {body : α → List Char} {items : List α}
    (h : ∀ item ∈ items, ∀ c ∈ body item, LiveCampaign.isLineBreak c = false) :
    '\r' ∉ Framing.text body '\n' items := by
  intro hmem
  obtain ⟨item, hitem, hmem⟩ := List.mem_flatMap.mp hmem
  rcases List.mem_append.mp hmem with hmem | hmem
  · have hbreak : LiveCampaign.isLineBreak '\r' = true := by decide
    rw [h item hitem _ hmem] at hbreak
    cases hbreak
  · exact absurd (List.mem_singleton.mp hmem) (by decide)

end Read

/-! What the gate and the analysis need of the observations. -/

/-- The observations continue a stream after `n` of them, the last of which finished at `last`. -/
inductive Continues (targetUID : UID) : ℤ → Option ℤ → List StreamRow → Prop where
  | nil (n : ℤ) (last : Option ℤ) : Continues targetUID n last []
  | cons {n : ℤ} {last : Option ℤ} {row : StreamRow} {rest : List StreamRow}
      (kind : row.kind = some "cpu_observation") (target : row.observation.targetUID = targetUID)
      (sequence : row.sequence = some (n + 1))
      (ordered : ∀ finished ∈ last, finished ≤ epoch row.observation.observationStartedAt)
      (valid : epoch row.observation.observationStartedAt ≤
        epoch row.observation.observationFinishedAt)
      (rest_continues : Continues targetUID (n + 1)
        (some (epoch row.observation.observationFinishedAt)) rest) :
      Continues targetUID n last (row :: rest)

/-- An accepted observation passes the gate unless a source is too old when it finishes. -/
def Judged (targetUID : UID) (row : Row) : Prop :=
  row.status = "success" → sourceSet row targetUID =
    if FreshAtFinish row then .ok (row.containers.map sourceEntry) else .error staleSource

section Gate

variable {targetUID : UID} {after offset n : ℤ} {last : Option ℤ} {rows : List StreamRow}

theorem Continues.take (h : Continues targetUID n last rows) (k : ℕ) :
    Continues targetUID n last (rows.take k) := by
  induction h generalizing k with
  | nil n last => simpa using .nil n last
  | cons kind target sequence ordered valid _ ih =>
    cases k with
    | zero => exact .nil _ _
    | succ k => exact .cons kind target sequence ordered valid (ih k)

/-- The gate fails on such observations for the age of a source only. -/
theorem Continues.loop (h : Continues targetUID n last rows)
    (hjudged : ∀ row ∈ rows, Judged targetUID row.observation) (previous : Previous) :
    (∃ selected, selectAnchor.loop targetUID after offset rows previous n last = .ok selected) ∨
      (selectAnchor.loop targetUID after offset rows previous n last = .error staleSource ∧
        ∃ row ∈ rows, row.observation.status = "success" ∧ ¬ FreshAtFinish row.observation) := by
  induction h generalizing previous with
  | nil n last => exact .inl ⟨none, rfl⟩
  | @cons n last row rest kind target sequence ordered valid _ ih =>
    obtain ⟨hrow, hrest⟩ := List.forall_mem_cons.mp hjudged
    have hkind : isObservation row = true := by
      rw [isObservation, kind]
      decide
    have hinorder : ¬ (row.sequence ≠ some (n + 1) ∨
        (∃ before ∈ last, epoch row.observation.observationStartedAt < before) ∨
        epoch row.observation.observationFinishedAt <
          epoch row.observation.observationStartedAt) := by
      rintro (hne | ⟨before, hbefore, hlt⟩ | hlt)
      · exact hne sequence
      · exact hlt.not_ge (ordered before hbefore)
      · exact hlt.not_ge valid
    have hlater : ∀ previous, (∃ selected, selectAnchor.loop targetUID after offset rest previous
        (n + 1) (some (epoch row.observation.observationFinishedAt)) = .ok selected) ∨
        (selectAnchor.loop targetUID after offset rest previous (n + 1)
            (some (epoch row.observation.observationFinishedAt)) = .error staleSource ∧
          ∃ later ∈ row :: rest, later.observation.status = "success" ∧
            ¬ FreshAtFinish later.observation) := fun previous =>
      (ih hrest previous).imp_right fun ⟨herror, later, hmem, hstale⟩ =>
        ⟨herror, later, List.mem_cons_of_mem _ hmem, hstale⟩
    rw [selectAnchor.loop, hkind, if_neg (by simp), if_neg (not_not.mpr target)]
    dsimp only
    rw [if_neg hinorder]
    by_cases hstatus : row.observation.status = "success"
    · rw [if_neg (not_not.mpr hstatus), hrow hstatus]
      by_cases hfresh : FreshAtFinish row.observation
      · rw [if_pos hfresh]
        dsimp only
        cases selectAnchor.accepts previous (epoch row.observation.observationStartedAt) after
          (row.observation.containers.map sourceEntry) with
        | some before => exact .inl ⟨_, rfl⟩
        | none => exact hlater _
      · rw [if_neg hfresh]
        exact .inr ⟨rfl, row, List.mem_cons_self, hstatus, hfresh⟩
    · rw [if_pos hstatus]
      exact hlater _

theorem Continues.mem (h : Continues targetUID n last rows) {row : StreamRow} (hrow : row ∈ rows) :
    row.observation.targetUID = targetUID ∧
      epoch row.observation.observationStartedAt ≤
        epoch row.observation.observationFinishedAt := by
  induction h with
  | nil n last => cases hrow
  | cons _ target _ _ valid _ ih =>
    rcases List.mem_cons.mp hrow with rfl | hmem
    · exact ⟨target, valid⟩
    · exact ih hmem

end Gate

/-! The observations of a run. -/

/-- The clock of a run is past 1970 and never goes back, and its rosters are those of the API. -/
structure Orderly (labelSelectorAsSelector : LabelSelector → Except Err Selector)
    (target : Deployment) (passes : List Pass) : Prop where
  readsRoster : ∀ pass ∈ passes, (pass.call target).ReadsRoster labelSelectorAsSelector
  past : ∀ pass ∈ passes, pass.Observes →
    Time.unixEpoch + defaultMaxSampleAge + millisecond ≤ pass.startedAt
  timed : ∀ pass ∈ passes, pass.Observes → pass.startedAt ≤ pass.readings.now ∧
    pass.readings.now ≤ pass.readings.nowAfter ∧ pass.readings.nowAfter ≤ pass.finishedAt
  ordered : passes.IsChain fun pass later => pass.Observes →
    (later.Observes → pass.finishedAt ≤ later.startedAt) ∧
      (¬ later.Observes → pass.finishedAt ≤ later.endedAt)

section Records

variable {labelSelectorAsSelector : LabelSelector → Except Err Selector} {target : Deployment}
  {p : PrometheusProvider} {n : ℕ} {passes observed : List Pass} {pass : Pass}

theorem Orderly.tail (h : Orderly labelSelectorAsSelector target (pass :: passes)) :
    Orderly labelSelectorAsSelector target passes where
  readsRoster := (List.forall_mem_cons.mp h.readsRoster).2
  past := (List.forall_mem_cons.mp h.past).2
  timed := (List.forall_mem_cons.mp h.timed).2
  ordered := h.ordered.tail

theorem Orderly.within (h : Orderly labelSelectorAsSelector target passes)
    (hwithin : observed <+: passes) : Orderly labelSelectorAsSelector target observed where
  readsRoster pass hpass := h.readsRoster pass (hwithin.subset hpass)
  past pass hpass := h.past pass (hwithin.subset hpass)
  timed pass hpass := h.timed pass (hwithin.subset hpass)
  ordered := h.ordered.prefix hwithin

end Records

/-! A run of one observation and the stop file. -/

section Poll

variable {labelSelectorAsSelector : LabelSelector → Except Err Selector} {target : Deployment}
  {p : PrometheusProvider} {passes observed : List Pass}

end Poll

end Autoscaler.Analysis
