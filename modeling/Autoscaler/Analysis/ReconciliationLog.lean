import Autoscaler.Analysis.ControllerCycles
import Autoscaler.Controller.MetricsUnavailable
import Autoscaler.Controller.Polling
import Autoscaler.Library.Milestones

/-! What the reconciliations of a controller log, and that the analysis reads it back: one cycle
for each reconciliation, with what happened in it. -/
namespace Autoscaler.ReconciliationLog

open Controller Effects
open Analysis hiding Field
open LiveCampaign (Json)

variable {K : Type}

/-- The fields of the logged lines: of what a call was given and answered, and of the result. -/
structure LogRows (K : Type) where
  call (key : CycleKey) (op : Op K) (answer : op.Result) : Json
  finish (key : CycleKey) (result : Except Err ℤ) : Json

/-- The provider logs every query, and the reconciler every decision and every Scale write that was
accepted. -/
def LogRows.event {W : Type} (rows : LogRows K) (key : CycleKey) :
    Event W (Op K) Op.Result → Option (Message × Json)
  | ⟨_, .averageCPU target window, answer, _⟩ =>
    some (.query, rows.call key (.averageCPU target window) answer)
  | ⟨_, .evaluateDecision phpa deploy scale now currentCPU raw, answer, _⟩ =>
    some (.decision, rows.call key (.evaluateDecision phpa deploy scale now currentCPU raw) answer)
  | ⟨_, .updateScale target body, .ok (), _⟩ =>
    some (.scale, rows.call key (.updateScale target body) (.ok ()))
  | _ => none

/-- The lines of a reconciliation; it logs its result when it ends, however it ends. -/
def LogRows.logged {W : Type} (rows : LogRows K) (key : CycleKey)
    (events : List (Event W (Op K) Op.Result)) (result : Option (Except Err ℤ)) :
    List (Message × Json) :=
  events.filterMap (rows.event key) ++ (result.map fun r => (.finish, rows.finish key r)).toList

def rank : Message → ℕ
  | .query => 0
  | .decision => 1
  | .scale => 2
  | .finish => 3

def logStage : Op K → Option ℕ
  | .averageCPU _ _ => some (rank .query)
  | .evaluateDecision _ _ _ _ _ _ => some (rank .decision)
  | .updateScale _ _ => some (rank .scale)
  | _ => none

section Stages

open PredictiveHPAReconciler

variable [Field K] [LinearOrder K] [FloorRing K] (r : PredictiveHPAReconciler K)

omit [Field K] [LinearOrder K] [FloorRing K] in
theorem logStage_of_routine (op : Op K) (h : Routine op) : logStage op = none := by
  cases op <;> first | rfl | exact h.elim

omit [Field K] [LinearOrder K] [FloorRing K] in
theorem metricsUnavailable_unlogged (phpa : PredictiveHPA) (err : Err) (interval : ℤ) :
    (r.metricsUnavailable phpa err interval).Ensures (fun op => logStage op = none)
      (Returns interval) :=
  (r.metricsUnavailable_returns phpa err interval).imp logStage_of_routine

omit [FloorRing K] in
theorem applyScale_ascends (phpa : PredictiveHPA) (deploy : Deployment) (scale : Scale)
    (cpuHistory : MetricsProvider.CPUHistory K) (decision : ScalingDecision K) (interval : ℤ) :
    (r.applyScale phpa deploy scale cpuHistory decision interval).Ascends logStage 2 := by
  unfold applyScale
  refine Prog.ascends_bind ((r.freshPHPA_routine phpa).imp logStage_of_routine) fun fresh => ?_
  cases fresh with
  | error => trivial
  | ok =>
    refine Prog.ascends_perform rfl fun recheck => ?_
    cases recheck with
    | error => trivial
    | ok latestScale =>
      dsimp only
      split_ifs
      · trivial
      refine Prog.ascends_perform rfl fun now => ?_
      cases validateCPUHistory cpuHistory now phpa.spec.prediction.window with
      | error err =>
        exact Prog.ascends_bind (metricsUnavailable_unlogged r phpa err interval) fun _ => trivial
      | ok =>
        refine Prog.ascends_perform_stage rfl le_rfl fun written => ?_
        cases written <;> trivial

theorem reconcileScale_ascends (phpa : PredictiveHPA) (deploy : Deployment)
    (cpuHistory : MetricsProvider.CPUHistory K) (raw : K) (interval : ℤ) :
    (r.reconcileScale phpa deploy cpuHistory raw interval).Ascends logStage 1 := by
  have hpublish : ∀ (decision : ScalingDecision K) (scaled : Bool),
      (r.publish phpa deploy decision scaled interval).Ensures (fun op => logStage op = none)
        (Returns interval) :=
    fun decision scaled =>
      (r.publish_returns phpa deploy decision scaled interval).imp logStage_of_routine
  unfold reconcileScale
  refine Prog.ascends_perform rfl fun found => ?_
  cases found with
  | error => trivial
  | ok scale =>
    dsimp only
    split_ifs
    · exact Prog.ascends_of_ensures (metricsUnavailable_unlogged r phpa _ interval)
    refine Prog.ascends_perform rfl fun now => ?_
    refine Prog.ascends_perform_stage rfl le_rfl fun decision => ?_
    split_ifs
    · refine (applyScale_ascends r phpa deploy scale cpuHistory decision interval).bind_quiet
        (Q := fun _ => True) fun early => ?_
      cases early with
      | some result => trivial
      | none => exact (hpublish decision true).weaken
    · exact Prog.ascends_of_ensures (hpublish decision false)

/-- A reconciliation queries, decides and writes in this order, each at most once. -/
theorem reconcile_ascends (request : NamespacedName) :
    (r.reconcile request).Ascends logStage 0 := by
  unfold reconcile
  cases r.requeue with
  | error => trivial
  | ok interval =>
    refine Prog.ascends_perform rfl fun found => ?_
    cases found with
    | error err =>
      dsimp only
      split_ifs
      · exact Prog.ascends_perform rfl fun _ => trivial
      · trivial
    | ok phpa =>
      dsimp only
      split_ifs
      · trivial
      cases validateConfiguration r.isDNS1123Subdomain phpa.spec with
      | error err => exact Prog.ascends_of_ensures (metricsUnavailable_unlogged r phpa err _)
      | ok =>
        refine Prog.ascends_perform rfl fun target => ?_
        cases target with
        | error err =>
          dsimp only
          split_ifs
          · exact Prog.ascends_of_ensures (metricsUnavailable_unlogged r phpa _ interval)
          · trivial
        | ok deploy =>
          dsimp only
          unfold reconcileMetrics
          refine Prog.ascends_perform_stage rfl le_rfl fun observed => ?_
          cases observed with
          | error err => exact Prog.ascends_of_ensures (metricsUnavailable_unlogged r phpa err _)
          | ok cpuHistory =>
            refine Prog.ascends_perform rfl fun now => ?_
            cases validateCPUHistory cpuHistory now phpa.spec.prediction.window with
            | error err => exact Prog.ascends_of_ensures (metricsUnavailable_unlogged r phpa err _)
            | ok =>
              dsimp only
              cases r.forecast phpa.spec cpuHistory with
              | none => trivial
              | some forecast =>
                cases forecast with
                | error err =>
                  exact Prog.ascends_of_ensures (metricsUnavailable_unlogged r phpa err _)
                | ok raw => exact reconcileScale_ascends r phpa deploy cpuHistory raw interval

end Stages

/-! The lines of one reconciliation. -/

section Logged

variable {W : Type} {rows : LogRows K} {key : CycleKey} {e : Event W (Op K) Op.Result}
  {events : List (Event W (Op K) Op.Result)} {result : Option (Except Err ℤ)}

theorem logStage_of_event {entry : Message × Json} (h : rows.event key e = some entry) :
    logStage e.op = some (rank entry.1) := by
  obtain ⟨before, op, answer, after⟩ := e
  cases op with
  | averageCPU target window =>
    cases h
    rfl
  | evaluateDecision phpa deploy scale now currentCPU raw =>
    cases h
    rfl
  | updateScale target body =>
    cases answer with
    | error err => cases h
    | ok =>
      cases h
      rfl
  | _ => cases h

theorem ranks_sublist (rows : LogRows K) (key : CycleKey)
    (events : List (Event W (Op K) Op.Result)) :
    ((events.filterMap (rows.event key)).map fun entry => rank entry.1).Sublist
      (stagesOf logStage events) := by
  induction events with
  | nil => exact .slnil
  | cons e events ih =>
    cases hevent : rows.event key e with
    | none =>
      rw [List.filterMap_cons_none hevent]
      exact ih.trans ((List.sublist_cons_self e events).filterMap _)
    | some entry =>
      have hstages : stagesOf logStage (e :: events) =
          rank entry.1 :: stagesOf logStage events :=
        List.filterMap_cons_some (logStage_of_event hevent)
      rw [List.filterMap_cons_some hevent, List.map_cons, hstages]
      exact ih.cons_cons _

theorem logStage_lt {op : Op K} {k : ℕ} (h : logStage op = some k) : k < rank .finish := by
  cases op <;> cases h <;> decide

/-- The lines of a reconciliation come in the order of the events, each at most once. -/
theorem logged_ascends [Field K] [LinearOrder K] [FloorRing K] {r : PredictiveHPAReconciler K}
    {S : Semantics W (Op K) Op.Result} {w w' : W} {request : NamespacedName}
    (hexec : Exec S w (r.reconcile request) events result w') (rows : LogRows K)
    (key : CycleKey) :
    ((rows.logged key events result).map fun entry => rank entry.1).Pairwise (· < ·) := by
  obtain ⟨hordered, -⟩ := hexec.ascends (reconcile_ascends r request)
  have hcalls := hordered.sublist (ranks_sublist rows key events)
  unfold LogRows.logged
  rw [List.map_append]
  refine List.pairwise_append.mpr ⟨hcalls, ?_, fun k hk k' hk' => ?_⟩
  · cases result <;> simp
  · have hlt : k < rank .finish := by
      have hstage := (ranks_sublist rows key events).subset hk
      obtain ⟨e, -, hstage⟩ := List.mem_filterMap.mp hstage
      exact logStage_lt hstage
    cases result with
    | none => simp at hk'
    | some result =>
      rw [show k' = rank .finish by simpa using hk']
      exact hlt

end Logged

/-- A reconciliation under its trace identity, complete or cut off. -/
structure Reconciliation [Field K] [LinearOrder K] [FloorRing K]
    (r : PredictiveHPAReconciler K) where
  key : CycleKey
  request : NamespacedName
  before : World
  after : World
  events : List (Event World (Op K) Op.Result)
  result : Option (Except Err ℤ)
  runs : Exec (cluster K) before (r.reconcile request) events result after

section Reading

variable [Field K] [LinearOrder K] [FloorRing K] {r : PredictiveHPAReconciler K}
  {reconciliations : List (Reconciliation r)} {lines : List LogLine} {parsers : LogParsers}
  {content : ByteArray}

namespace Reconciliation

def logged (reconciliation : Reconciliation r) (rows : LogRows K) : List (Message × Json) :=
  rows.logged reconciliation.key reconciliation.events reconciliation.result

theorem messages_nodup (reconciliation : Reconciliation r) (rows : LogRows K) :
    ((reconciliation.logged rows).map Prod.fst).Nodup := by
  have hranks : (((reconciliation.logged rows).map Prod.fst).map rank).Pairwise (· < ·) := by
    rw [List.map_map]
    exact logged_ascends reconciliation.runs rows reconciliation.key
  exact List.Nodup.of_map rank (hranks.imp ne_of_lt)

end Reconciliation

theorem lookup_iff {entries : List (Message × Json)} (h : (entries.map Prod.fst).Nodup)
    {message : Message} {row : Json} :
    entries.lookup message = some row ↔ (message, row) ∈ entries := by
  induction entries with
  | nil => simp
  | cons entry rest ih =>
    obtain ⟨hhead, hrest⟩ := List.nodup_cons.mp h
    rw [List.lookup_cons]
    by_cases hmessage : message = entry.1
    · subst hmessage
      have hother : (entry.1, row) ∉ rest := fun hmem =>
        hhead (List.mem_map.mpr ⟨_, hmem, rfl⟩)
      simp [hother, Prod.ext_iff, eq_comm]
    · have hne : (message, row) ≠ entry := by
        rintro rfl
        exact hmessage rfl
      rw [beq_false_of_ne hmessage]
      simp [ih hrest, hne]

/-! A log of the reconciliations' lines, interleaved with each other and with other lines. -/

section Log

variable {rows : LogRows K}
  (hlog : Demultiplex.Interleaves
    (reconciliations.map fun reconciliation => (reconciliation.key, reconciliation.logged rows))
    (ownedRows lines))

include hlog

theorem loggedOnce_of_interleaves : LoggedOnce (ownedRows lines) := by
  intro key
  by_cases hempty : Demultiplex.part key (ownedRows lines) = []
  · rw [hempty]
    exact List.nodup_nil
  · obtain ⟨entry, hentry⟩ := List.exists_mem_of_ne_nil _ hempty
    have howned := hlog.owned _ (Demultiplex.mem_part.mp hentry)
    obtain ⟨source, hsource, rfl⟩ := List.mem_map.mp howned
    rw [hlog.part_eq source hsource]
    obtain ⟨reconciliation, -, rfl⟩ := List.mem_map.mp hsource
    exact reconciliation.messages_nodup rows

theorem exists_start_of_owned
    (hstarts : ∀ reconciliation ∈ reconciliations,
      ∃ start, logEpoch parsers (.string reconciliation.key.startedAt) = .ok start) :
    ∀ owner ∈ ownedRows lines,
      ∃ start, logEpoch parsers (.string owner.1.startedAt) = .ok start := by
  intro owner howner
  have howned := hlog.owned owner howner
  rw [List.map_map] at howned
  obtain ⟨reconciliation, hmem, hkey⟩ := List.mem_map.mp howned
  rw [← hkey]
  exact hstarts reconciliation hmem

/-- Every content that ends between two characters is read. -/
theorem controllerCycles_of_decoded (hvalid : ∀ line ∈ lines, line.Valid parsers)
    (hstarts : ∀ reconciliation ∈ reconciliations,
      ∃ start, logEpoch parsers (.string reconciliation.key.startedAt) = .ok start)
    (hcontent : TextFile.Starts content (Framing.text LogLine.text '\n' lines).utf8Encode)
    {ignore : Bool}
    (hmode : ignore = true ∨ content = (Framing.text LogLine.text '\n' lines).utf8Encode)
    {text : List Char} (htext : text <+: Framing.text LogLine.text '\n' lines)
    (hbytes : content = text.utf8Encode) :
    ∃ cycles, controllerCycles parsers ignore content = .ok cycles ∧
      cycles.Perm ((Demultiplex.groups
        (ownedRows (lines.take (text.count '\n')))).map cycleOf) ∧
      cycles.Pairwise (Earlier parsers) := by
  have hreturn := return_not_mem_text fun line hline => (hvalid line hline).oneLine
  subst hbytes
  unfold controllerCycles
  rw [(TextFile.readText_eq_some_iff hcontent hreturn).mpr ⟨htext, rfl⟩]
  exact cyclesOfText_written hvalid (loggedOnce_of_interleaves hlog)
    (exists_start_of_owned hlog hstarts) htext
    (hmode.imp_right fun hwhole => TextFile.utf8Encode_injective hwhole)

/-- What complete lines tell is grouped by the reconciliations that wrote one of them. -/
theorem groups_perm_of_interleaves (hdistinct : (reconciliations.map Reconciliation.key).Nodup)
    {complete : List LogLine} (hpre : ownedRows complete <+: ownedRows lines) :
    ((Demultiplex.groups (ownedRows complete)).map cycleOf).Perm
      ((reconciliations.filter fun reconciliation =>
        !(Demultiplex.part reconciliation.key (ownedRows complete)).isEmpty).map
          fun reconciliation =>
            cycleOf (reconciliation.key,
              Demultiplex.part reconciliation.key (ownedRows complete))) := by
  have hgroups := (hlog.of_prefix hpre).groups_perm (by
    rw [List.map_map, List.map_map]
    exact hdistinct)
  rw [List.map_map] at hgroups
  refine (hgroups.map cycleOf).trans (.of_eq ?_)
  rw [List.filter_map, List.map_map]
  rfl

end Log

/-- At any time while a controller writes its log, however the lines of its reconciliations are
interleaved with each other and with other lines, the analysis raises for an unfinished character,
or reads one cycle for each reconciliation that has a complete line, ordered by their starts, and it
holds exactly the rows of the lines that are complete; of the whole log, the rows of every query,
decision and accepted Scale write, and the result of every reconciliation that ended. -/
theorem controller_log_read_back (rows : LogRows K)
    (hdistinct : (reconciliations.map Reconciliation.key).Nodup)
    (hvalid : ∀ line ∈ lines, line.Valid parsers)
    (hlog : Demultiplex.Interleaves
      (reconciliations.map fun reconciliation => (reconciliation.key, reconciliation.logged rows))
      (ownedRows lines))
    (hstarts : ∀ reconciliation ∈ reconciliations,
      ∃ start, logEpoch parsers (.string reconciliation.key.startedAt) = .ok start)
    (hcontent : TextFile.Starts content (Framing.text LogLine.text '\n' lines).utf8Encode)
    (ignore : Bool)
    (hmode : ignore = true ∨ content = (Framing.text LogLine.text '\n' lines).utf8Encode) :
    let whole := Framing.text LogLine.text '\n' lines
    (∀ error, controllerCycles parsers ignore content = .error error ↔
      error = ⟨.valueError, parsers.undecodable content⟩ ∧
        ¬ ∃ text, text <+: whole ∧ content = text.utf8Encode) ∧
    ∀ text, text <+: whole → content = text.utf8Encode →
      let shown := fun reconciliation : Reconciliation r =>
        Demultiplex.part reconciliation.key (ownedRows (lines.take (text.count '\n')))
      (∀ reconciliation ∈ reconciliations,
        shown reconciliation <+: reconciliation.logged rows ∧
        (text = whole → shown reconciliation = reconciliation.logged rows) ∧
        ∀ message row,
          (cycleOf (reconciliation.key, shown reconciliation)).get message = some row ↔
            (message, row) ∈ shown reconciliation) ∧
      ∃ cycles, controllerCycles parsers ignore content = .ok cycles ∧
        cycles.Pairwise (Earlier parsers) ∧
        cycles.Perm ((reconciliations.filter fun reconciliation =>
          !(shown reconciliation).isEmpty).map fun reconciliation =>
            cycleOf (reconciliation.key, shown reconciliation)) := by
  intro whole
  constructor
  · intro error
    by_cases hcut : ∃ text, text <+: whole ∧ content = text.utf8Encode
    · obtain ⟨text, htext, hbytes⟩ := hcut
      obtain ⟨cycles, hread, -⟩ :=
        controllerCycles_of_decoded hlog hvalid hstarts hcontent hmode htext hbytes
      rw [hread]
      exact iff_of_false (by simp) fun hcut => hcut.2 ⟨text, htext, hbytes⟩
    · have hreturn := return_not_mem_text fun line hline => (hvalid line hline).oneLine
      rw [controllerCycles, (TextFile.readText_eq_none_iff hcontent hreturn).mpr hcut]
      simp [hcut, eq_comm]
  intro text htext hbytes shown
  obtain ⟨cycles, hread, hperm, hordered⟩ :=
    controllerCycles_of_decoded hlog hvalid hstarts hcontent hmode htext hbytes
  set complete := lines.take (text.count '\n') with hcomplete
  have hpre : ownedRows complete <+: ownedRows lines := (List.take_prefix ..).filterMap _
  have hpart : ∀ reconciliation ∈ reconciliations,
      shown reconciliation <+: reconciliation.logged rows := fun reconciliation hmem =>
    hlog.part_prefix hpre (List.mem_map.mpr ⟨reconciliation, hmem, rfl⟩)
  refine ⟨fun reconciliation hmem => ⟨hpart reconciliation hmem, fun hwhole => ?_,
    fun message row => ?_⟩, cycles, hread, hordered,
    hperm.trans (groups_perm_of_interleaves hlog hdistinct hpre)⟩
  · have hall : complete = lines := by
      rw [hcomplete, hwhole, Framing.count_text
        fun line hline => newline_not_mem (hvalid line hline).oneLine]
      exact List.take_length
    show Demultiplex.part reconciliation.key (ownedRows complete) = _
    rw [hall]
    exact hlog.part_eq _ (List.mem_map.mpr ⟨reconciliation, hmem, rfl⟩)
  · have hnodup := (reconciliation.messages_nodup rows).sublist
      ((hpart reconciliation hmem).map Prod.fst).sublist
    rw [get_cycleOf]
    exact lookup_iff hnodup

end Reading

/-! Two reconciliations without data, interleaved with each other and with another line. -/

section Interleaved

open PredictiveHPAReconciler

def firstKey : CycleKey := ⟨"first", "2026-09-07T00:00:00Z"⟩

def secondKey : CycleKey := ⟨"second", "2026-09-07T00:00:30Z"⟩

def identityRow (key : CycleKey) : Json :=
  .object [("reconcileID", .string key.reconcileID), ("reconcileStartedAt", .string key.startedAt)]

def identityRows : LogRows ℚ where
  call key _ _ := identityRow key
  finish key _ := identityRow key

def identityParsers : LogParsers where
  loads payload := .ok (identityRow (if payload = ['1'] then firstKey else secondKey))
  timestamp _ := .ok 0
  repr _ := ""
  undecodable _ := ""

def withoutData (key : CycleKey) : Reconciliation safetyReconciler where
  key := key
  request := safetyPHPA.metadata.key
  before := safetyWorld
  after := safetyWorld.putPHPA (withStatus safetyPHPA (noDataStatus (5 * second)) 3)
  events := noDataCalls
  result := some (.ok (30 * second))
  runs := noDataCalls_exec

def consoleLine (key : CycleKey) (message : Message) (payload : Char) : LogLine where
  text := ['0'] ++ '\t' :: (['I'] ++ '\t' :: (message.text.toList ++ '\t' :: [payload]))
  owner := some (key, message, identityRow key)

def interleavedLines : List LogLine :=
  [consoleLine firstKey .query '1', consoleLine secondKey .query '2',
    ⟨"0\tI\tReconciled PredictiveHPA\t3".toList, none⟩, consoleLine firstKey .finish '1',
    consoleLine secondKey .finish '2']

theorem oneLine_of_all {text : List Char}
    (h : text.all (fun c => !LiveCampaign.isLineBreak c) = true) :
    ∀ c ∈ text, LiveCampaign.isLineBreak c = false := by
  intro c hc
  have hfree := List.all_eq_true.mp h c hc
  simpa using hfree

theorem consoleLine_valid {key : CycleKey} {message : Message} {payload : Char}
    (hloads : identityParsers.loads [payload] = .ok (identityRow key))
    (hpayload : LiveCampaign.isLineBreak payload = false) :
    (consoleLine key message payload).Valid identityParsers where
  oneLine := by
    have htext : ∀ c ∈ message.text.toList, LiveCampaign.isLineBreak c = false :=
      oneLine_of_all (by cases message <;> decide)
    intro c hc
    simp only [consoleLine, List.mem_append, List.mem_cons, List.not_mem_nil, or_false] at hc
    rcases hc with rfl | rfl | rfl | rfl | hc | rfl | rfl
    · decide
    · decide
    · decide
    · decide
    · exact htext c hc
    · decide
    · exact hpayload
  foreign := nofun
  owned := by
    rintro _ _ _ ⟨⟩
    exact ⟨.console (by decide) (by decide) (by decide) hloads, rfl, rfl⟩

theorem interleavedLines_valid : ∀ line ∈ interleavedLines, line.Valid identityParsers := by
  have hother : LogLine.Valid identityParsers
      ⟨"0\tI\tReconciled PredictiveHPA\t3".toList, none⟩ :=
    ⟨oneLine_of_all (by decide), fun _ hmentions => absurd hmentions (by decide), nofun⟩
  intro line hline
  simp only [interleavedLines, List.mem_cons, List.not_mem_nil, or_false] at hline
  rcases hline with rfl | rfl | rfl | rfl | rfl
  · exact consoleLine_valid rfl (by decide)
  · exact consoleLine_valid rfl (by decide)
  · exact hother
  · exact consoleLine_valid rfl (by decide)
  · exact consoleLine_valid rfl (by decide)

theorem interleavedLines_interleave : Demultiplex.Interleaves
    ([withoutData firstKey, withoutData secondKey].map fun reconciliation =>
      (reconciliation.key, reconciliation.logged identityRows)) (ownedRows interleavedLines) := by
  constructor
  · intro source hsource
    rcases List.mem_pair.mp hsource with rfl | rfl <;> rfl
  · intro item hitem
    have howners : (ownedRows interleavedLines).map Prod.fst =
        [firstKey, secondKey, firstKey, secondKey] := rfl
    have hkey := List.mem_map_of_mem hitem (f := Prod.fst)
    rw [howners] at hkey
    revert hkey
    generalize item.1 = key
    intro hkey
    simp only [List.mem_cons, List.not_mem_nil, or_false] at hkey
    rcases hkey with rfl | rfl | rfl | rfl
    · exact List.mem_cons_self
    · exact List.mem_cons_of_mem _ List.mem_cons_self
    · exact List.mem_cons_self
    · exact List.mem_cons_of_mem _ List.mem_cons_self

/-- A reader who comes in the middle of the fourth line. -/
theorem controller_log_read_back_interleaved :
    let text := (Framing.text LogLine.text '\n' interleavedLines).take 100
    let shown := fun reconciliation : Reconciliation safetyReconciler =>
      Demultiplex.part reconciliation.key (ownedRows (interleavedLines.take (text.count '\n')))
    ∃ cycles, controllerCycles identityParsers true text.utf8Encode = .ok cycles ∧
      cycles.Pairwise (Earlier identityParsers) ∧
      cycles.Perm (([withoutData firstKey, withoutData secondKey].filter fun reconciliation =>
        !(shown reconciliation).isEmpty).map fun reconciliation =>
          cycleOf (reconciliation.key, shown reconciliation)) := by
  intro text shown
  have hdistinct : ([withoutData firstKey, withoutData secondKey].map
      Reconciliation.key).Nodup := by decide
  have htext : text <+: Framing.text LogLine.text '\n' interleavedLines := List.take_prefix ..
  obtain ⟨-, hreads⟩ := controller_log_read_back identityRows hdistinct interleavedLines_valid
    interleavedLines_interleave (fun _ _ => ⟨0, rfl⟩) (TextFile.starts_of_prefix htext) true
    (.inl rfl)
  exact (hreads text htext rfl).2

end Interleaved

end Autoscaler.ReconciliationLog
