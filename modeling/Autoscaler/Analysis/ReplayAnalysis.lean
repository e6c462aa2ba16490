import Autoscaler.Analysis.RecordedRun
import Autoscaler.Library.Histories
import Autoscaler.LiveCampaign
import Autoscaler.ReplayCommand

/-! The command of `decision_replay.py`, which prepares a recording from a run, has it replayed and
publishes the results. A file access and the replay are one operation each, which may raise. -/
namespace Autoscaler.ReplayAnalysis

open Effects Raising LiveCampaign Analysis
open Controller (Agrees ReplayCycleResult ReplayDecoder ReplayInput ReplayLibrary ReplayModeResult
  ReplayReport)

/-- What the directory of a run holds, after the checks of its identity and its schedule. -/
structure RecordedFiles where
  plan : RecordedPlan
  policy : PolicyRecord
  starts : ℕ
  cycles : List CycleRows
  states : List (StateRow ℤ)
  onset : ℚ
  initial : ℤ

structure Report where
  verification : String
  computed : ℕ
  recorded : ℕ
  unknownCPUObservations : ℕ
  requestedReplicaChecks : ReplicaChecks
  cycles : List TimelineRecord

/-- `prepare`, once the files are read. -/
def prepare (files : RecordedFiles) : Except String (ReplayInput ℚ × Report) := do
  let (recording, prepared) ← prepareCycles files.plan files.policy files.starts files.onset
    files.initial files.cycles
  let checks ← checkRequestedObservations files.states prepared.writes files.initial
  return (recording, ⟨"prepared-only", prepared.computed, prepared.recorded,
    prepared.unknownCPUObservations, checks, prepared.timeline⟩)

inductive OutputFile where
  | replayInput
  | report
  | replayResult
  deriving DecidableEq

inductive Document where
  | recording (recording : ReplayInput ℚ)
  | report (report : Report)
  | result (result : ReplayReport ℚ)

structure Process where
  returncode : ℤ
  stdout : Except PyError (ReplayReport ℚ)
  stderr : String

/-- A row of the timeline: a record, and the modes whose replicas and skip reasons are shown. -/
abbrev TimelineRow := TimelineRecord × List (DecisionMode × ReplayModeResult ℚ)

inductive Op where
  | outputExists
  | readRun
  | replay (recording : ReplayInput ℚ)
  | readBinary
  | mkdir
  | write (file : OutputFile) (document : Document)
  | openTimeline
  | writeRows (rows : List TimelineRow)
  | print

@[reducible] def Op.Result : Op → Type
  | outputExists => Bool
  | readRun => RecordedFiles
  | replay _ => Process
  | readBinary => String
  | mkdir | write _ _ | openTimeline | writeRows _ | print => Unit

abbrev AnalysisM := Script Op Op.Result PyError Unit

/-- A failed preparation raises `ValueError`, and on a missing member `KeyError`; both are handled
alike. -/
def valueError (text : String) : PyError := ⟨.valueError, text⟩

def matched : String := "recorded-decisions-matched"

def verify (recording : ReplayInput ℚ) (report : Report) :
    AnalysisM (Report × Option (ReplayReport ℚ)) := do
  let process ← perform (Op.replay recording)
  raiseIf (process.returncode ≠ 0)
    (valueError s!"Replay failed ({process.returncode}): {strip process.stderr}")
  let result ← ofExcept process.stdout
  raiseIf (result.verified ≠ true ∨ result.schemaVersion ≠ 1 ∨
      result.replicaInput ≠ "fixed-observed-and-requested" ∨
      result.cycles.length ≠ recording.cycles.length)
    (valueError "Replay did not verify recorded decisions")
  let _ ← perform Op.readBinary
  pure ({ report with verification := matched }, some result)

def timelineRows (report : Report) (result : Option (ReplayReport ℚ)) :
    Except PyError (List TimelineRow) :=
  match result with
  | none => .ok (report.cycles.map fun record => (record, []))
  | some result =>
    match report.cycles.mapM (timelineRow result.cycles) with
    | none => .error ⟨.indexError, "list index out of range"⟩
    | some rows => .ok rows

def writeResult (result : Option (ReplayReport ℚ)) : AnalysisM Unit :=
  match result with
  | none => pure ()
  | some result => perform (Op.write .replayResult (.result result))

def publish (recording : ReplayInput ℚ) (report : Report) (result : Option (ReplayReport ℚ)) :
    AnalysisM ℕ := do
  perform (Op.write .replayInput (.recording recording))
  perform (Op.write .report (.report report))
  writeResult result
  -- the columns are those of the first record
  raiseIf (report.cycles = []) ⟨.indexError, "list index out of range"⟩
  perform Op.openTimeline
  let rows ← ofExcept (timelineRows report result)
  perform (Op.writeRows rows)
  perform Op.print
  pure 0

/-- The replay, when there is a binary for it. -/
def verified (replayBinary : Bool) (recording : ReplayInput ℚ) (report : Report) :
    AnalysisM (Report × Option (ReplayReport ℚ)) :=
  if replayBinary then verify recording report else pure (report, none)

/-- The `try` body of `main`; `replayBinary` tells whether the option was given. -/
def mainBody (replayBinary : Bool) : AnalysisM ℕ := do
  let existed ← perform Op.outputExists
  raiseIf (existed = true)
    (valueError "Output already exists; preserve previous results and choose a new directory")
  let files ← perform Op.readRun
  let (recording, report) ← ofExcept ((prepare files).mapError valueError)
  let (report, result) ← verified replayBinary recording report
  perform Op.mkdir
  publish recording report result

/-- The handler of `main` names its class. A replay raises no `SubprocessError` but
`TimeoutExpired`. -/
def isReported (error : PyError) : Bool :=
  match error.cls with
  | .osError | .valueError | .keyError | .typeError | .subprocessError => true
  | _ => false

def main (replayBinary : Bool) : AnalysisM ℕ :=
  tryCatch (mainBody replayBinary) fun error =>
    if isReported error then pure 2 else throw error

/-! Earlier results are left alone. -/

abbrev Reply := Answer Op Op.Result PyError

def Op.changes : Op → Bool
  | write _ _ | openTimeline | writeRows _ => true
  | _ => false

def Op.IsQuiet (op : Op) : Prop := op.changes = false

def Made (history : List Reply) : Prop :=
  Ever [⟨.outputExists, .ok false⟩, ⟨.mkdir, .ok ()⟩] history

def Careful (history : List Reply) : Prop :=
  ∀ before op r after, history = before ++ ⟨op, r⟩ :: after → op.changes = true → Made before

theorem Careful.concat {history : List Reply} (h : Careful history) {op : Op}
    (r : Except PyError op.Result) (hop : op.changes = true → Made history) :
    Careful (history ++ [⟨op, r⟩]) := by
  intro before op' r' after heq hchanges
  rcases List.eq_nil_or_concat after with rfl | ⟨after, last, rfl⟩
  · obtain ⟨rfl, hlast⟩ := List.append_inj' heq rfl
    cases hlast
    exact hop hchanges
  · have hsplit : history ++ [⟨op, r⟩] = (before ++ ⟨op', r'⟩ :: after) ++ [last] := by
      simpa using heq
    obtain ⟨hhistory, -⟩ := List.append_inj' hsplit rfl
    exact h before op' r' after hhistory hchanges

theorem kept_careful : Kept Op.IsQuiet
    fun (answers : List Reply) (_ : Unit) => Careful answers := by
  intro answers s op r hop h
  apply h.concat
  intro hchanges
  rw [hop] at hchanges
  cases hchanges

theorem kept_made : Kept (fun _ : Op => True)
    fun (answers : List Reply) (_ : Unit) => Careful answers ∧ Made answers := by
  intro answers s op r _ h
  exact ⟨h.1.concat r fun _ => h.2, h.2.append _⟩

theorem harmless_verify (recording : ReplayInput ℚ) (report : Report) :
    Harmless Op.IsQuiet (verify recording report) := by
  unfold verify
  apply Harmless.bind (harmless_perform (show Op.IsQuiet (.replay recording) from rfl))
  intro process
  apply Harmless.bind (harmless_raiseIf _)
  intro _
  apply Harmless.bind (harmless_ofExcept _)
  intro result
  apply Harmless.bind (harmless_raiseIf _)
  intro _
  apply Harmless.bind (harmless_perform (show Op.IsQuiet .readBinary from rfl))
  intro _
  exact harmless_pure _

theorem harmless_verified (replayBinary : Bool) (recording : ReplayInput ℚ) (report : Report) :
    Harmless Op.IsQuiet (verified replayBinary recording report) :=
  harmless_ite (harmless_verify recording report) (harmless_pure _)

theorem harmless_writeResult (result : Option (ReplayReport ℚ)) :
    Harmless (fun _ => True) (writeResult result) := by
  cases result with
  | none => exact harmless_pure _
  | some result => exact harmless_perform trivial

theorem harmless_publish (recording : ReplayInput ℚ) (report : Report)
    (result : Option (ReplayReport ℚ)) :
    Harmless (fun _ => True) (publish recording report result) := by
  unfold publish
  apply Harmless.bind (harmless_perform trivial)
  intro _
  apply Harmless.bind (harmless_perform trivial)
  intro _
  apply Harmless.bind (harmless_writeResult result)
  intro _
  apply Harmless.bind (harmless_raiseIf _)
  intro _
  apply Harmless.bind (harmless_perform trivial)
  intro _
  apply Harmless.bind (harmless_ofExcept _)
  intro rows
  apply Harmless.bind (harmless_perform trivial)
  intro _
  apply Harmless.bind (harmless_perform trivial)
  intro _
  exact harmless_pure _

theorem triple_main_careful (replayBinary : Bool) :
    Triple (fun answers _ => Careful answers) (main replayBinary)
      (fun _ answers _ => Careful answers) (fun _ answers _ => Careful answers) := by
  have habsent : Kept Op.IsQuiet fun (answers : List Reply) (_ : Unit) =>
      Careful answers ∧ Ever [⟨.outputExists, .ok false⟩] answers :=
    kept_careful.and (kept_seen _ _)
  have hbody : Triple (fun answers _ => Careful answers) (mainBody replayBinary)
      (fun _ answers _ => Careful answers) (fun _ answers _ => Careful answers) := by
    unfold mainBody
    refine triple_seeFirst kept_careful rfl (fun _ _ _ => id) fun existed => ?_
    refine triple_bind (triple_unless fun _ _ _ h => h.1) fun _ => triple_given fun hnew => ?_
    obtain rfl : existed = false := by simpa using hnew
    refine (harmless_perform (show Op.IsQuiet .readRun from rfl)).then habsent (fun _ _ _ h => h.1)
      fun files => ?_
    refine (harmless_ofExcept _).then habsent (fun _ _ _ h => h.1) fun prepared => ?_
    refine (harmless_verified replayBinary _ _).then habsent (fun _ _ _ h => h.1)
      fun verified => ?_
    refine triple_see kept_careful rfl (fun _ _ _ => id) fun _ => ?_
    exact (harmless_publish _ _ _ _ kept_made).weaken (fun _ _ h => h) (fun _ _ _ h => h.1)
      fun _ _ _ h => h.1
  unfold main
  refine triple_tryCatch hbody fun error => ?_
  exact triple_ite (fun _ => triple_pure fun _ _ => id) fun _ => triple_throw fun _ _ => id

/-! What was published when the exit code is zero. -/

def resultWrites (recording : ReplayInput ℚ) (report : Report) (result : Option (ReplayReport ℚ))
    (rows : List TimelineRow) : List Reply :=
  [⟨.write .replayInput (.recording recording), .ok ()⟩,
      ⟨.write .report (.report report), .ok ()⟩] ++
    (result.map fun result => ⟨.write .replayResult (.result result), .ok ()⟩).toList ++
    [⟨.openTimeline, .ok ()⟩, ⟨.writeRows rows, .ok ()⟩]

structure Verified (recording : ReplayInput ℚ) (process : Process) (result : ReplayReport ℚ) :
    Prop where
  returncode : process.returncode = 0
  stdout : process.stdout = .ok result
  verified : result.verified = true
  length : result.cycles.length = recording.cycles.length

/-- The results were published in a new directory, after the replay if there was a binary. -/
structure Published (replayBinary : Bool) (files : RecordedFiles) (recording : ReplayInput ℚ)
    (report : Report) (replay : Option (Process × ReplayReport ℚ)) (rows : List TimelineRow)
    (history : List Reply) : Prop where
  prepared : prepare files = .ok (recording, report)
  replayed : replay.isSome = replayBinary
  verified : ∀ v ∈ replay, Verified recording v.1 v.2
  timeline : timelineRows report (replay.map Prod.snd) = .ok rows
  written : Ever ([⟨.outputExists, .ok false⟩, ⟨.readRun, .ok files⟩] ++
    (replay.map fun v => ⟨.replay recording, .ok v.1⟩).toList ++ [⟨.mkdir, .ok ()⟩] ++
    resultWrites recording
      { report with verification := if replayBinary then matched else "prepared-only" }
      (replay.map Prod.snd) rows) history

theorem Published.mem {replayBinary : Bool} {files : RecordedFiles} {recording : ReplayInput ℚ}
    {report : Report} {replay : Option (Process × ReplayReport ℚ)} {rows : List TimelineRow}
    {history : List Reply} (h : Published replayBinary files recording report replay rows history)
    {reply : Reply} (hreply : reply ∈ [⟨.outputExists, .ok false⟩, ⟨.readRun, .ok files⟩] ++
      (replay.map fun v => ⟨.replay recording, .ok v.1⟩).toList ++ [⟨.mkdir, .ok ()⟩] ++
      resultWrites recording
        { report with verification := if replayBinary then matched else "prepared-only" }
        (replay.map Prod.snd) rows) : reply ∈ history := by
  obtain ⟨before, recent, rfl, -, hsub⟩ := h.written
  exact List.mem_append_right _ (hsub.subset hreply)

section Publication

variable {past : List Reply → Prop} {replies : List Reply}

theorem kept_true : Kept (fun _ : Op => True) fun (_ : List Reply) (_ : Unit) => True :=
  fun _ _ _ _ _ => id

theorem triple_writeResult (result : Option (ReplayReport ℚ)) :
    Triple (fun answers (_ : Unit) => True ∧ Seen past replies answers) (writeResult result)
      (fun _ answers _ => True ∧ Seen past (replies ++ (result.map fun result =>
        ⟨.write .replayResult (.result result), .ok ()⟩).toList) answers) fun _ _ _ => True := by
  cases result with
  | none =>
    refine triple_pure fun answers _ h => ?_
    rw [Option.map_none, Option.toList_none, List.append_nil]
    exact h
  | some result =>
    refine triple_perform (fun answers _ h _ => ?_) fun _ _ _ _ => trivial
    exact ⟨trivial, h.2.concat _⟩

theorem triple_publish (recording : ReplayInput ℚ) (report : Report)
    (result : Option (ReplayReport ℚ)) :
    Triple (fun answers (_ : Unit) => True ∧ Seen past replies answers)
      (publish recording report result)
      (fun _ answers _ => ∃ rows, timelineRows report result = .ok rows ∧
        Seen past (replies ++ resultWrites recording report result rows) answers)
      fun _ _ _ => True := by
  unfold publish
  refine triple_see kept_true trivial (fun _ _ _ => id) fun _ => ?_
  refine triple_see kept_true trivial (fun _ _ _ => id) fun _ => ?_
  refine triple_bind (triple_writeResult result) fun _ => ?_
  refine triple_bind (triple_unless fun _ _ _ _ => trivial) fun _ => triple_given fun _ => ?_
  refine triple_see kept_true trivial (fun _ _ _ => id) fun _ => ?_
  refine triple_bind (triple_parse fun _ _ _ _ => trivial) fun rows => triple_given fun hrows => ?_
  refine triple_see kept_true trivial (fun _ _ _ => id) fun _ => ?_
  refine triple_see kept_true trivial (fun _ _ _ => id) fun _ => triple_pure ?_
  intro answers _ h
  refine ⟨rows, hrows, ?_⟩
  simpa [resultWrites] using h.2.of_concat

theorem triple_verify (recording : ReplayInput ℚ) (report : Report) :
    Triple (fun answers (_ : Unit) => True ∧ Seen past replies answers) (verify recording report)
      (fun v answers _ => ∃ process result,
        v = ({ report with verification := matched }, some result) ∧
          Verified recording process result ∧
            Seen past (replies ++ [⟨.replay recording, .ok process⟩]) answers)
      fun _ _ _ => True := by
  unfold verify
  refine triple_see kept_true trivial (fun _ _ _ => id) fun process => ?_
  refine triple_bind (triple_unless fun _ _ _ _ => trivial) fun _ => triple_given fun hcode => ?_
  refine triple_bind (triple_parse fun _ _ _ _ => trivial) fun result =>
    triple_given fun hresult => ?_
  refine triple_bind (triple_unless fun _ _ _ _ => trivial) fun _ => triple_given fun hchecked => ?_
  refine triple_see kept_true trivial (fun _ _ _ => id) fun _ => triple_pure ?_
  intro answers _ h
  push Not at hcode hchecked
  obtain ⟨hverified, -, -, hlength⟩ := hchecked
  exact ⟨process, result, rfl, ⟨hcode, hresult, hverified, hlength⟩, h.2.of_concat⟩

theorem triple_verified (replayBinary : Bool) (recording : ReplayInput ℚ) (report : Report) :
    Triple (fun answers (_ : Unit) => True ∧ Seen past replies answers)
      (verified replayBinary recording report)
      (fun v answers _ => ∃ replay : Option (Process × ReplayReport ℚ),
        replay.isSome = replayBinary ∧ (∀ r ∈ replay, Verified recording r.1 r.2) ∧
          v = ({ report with
            verification := if replayBinary then matched else report.verification },
            replay.map Prod.snd) ∧
          Seen past (replies ++ (replay.map fun r => ⟨.replay recording, .ok r.1⟩).toList) answers)
      fun _ _ _ => True := by
  cases replayBinary with
  | false =>
    refine triple_pure fun answers _ h => ⟨none, rfl, by simp, rfl, ?_⟩
    rw [Option.map_none, Option.toList_none, List.append_nil]
    exact h.2
  | true =>
    refine (triple_verify recording report).weaken (fun _ _ => id) ?_ fun _ _ _ => id
    rintro v answers _ ⟨process, result, rfl, hverified, hseen⟩
    refine ⟨some (process, result), rfl, ?_, rfl, hseen⟩
    rintro r ⟨⟩
    exact hverified

theorem prepare_ok {files : RecordedFiles} {recording : ReplayInput ℚ} {report : Report}
    (h : prepare files = .ok (recording, report)) :
    report.verification = "prepared-only" ∧ ∃ prepared, report.cycles = prepared.timeline ∧
      prepareCycles files.plan files.policy files.starts files.onset files.initial files.cycles =
        .ok (recording, prepared) := by
  unfold prepare at h
  cases hprepared : prepareCycles files.plan files.policy files.starts files.onset files.initial
      files.cycles with
  | error err =>
    rw [hprepared] at h
    cases h
  | ok result =>
    rw [hprepared] at h
    obtain ⟨recording', prepared⟩ := result
    cases hchecks : checkRequestedObservations files.states prepared.writes files.initial with
    | error err =>
      simp [bind, Except.bind, hchecks] at h
    | ok checks =>
      simp only [bind, Except.bind, hchecks] at h
      cases h
      exact ⟨rfl, prepared, rfl, rfl⟩

theorem triple_main_published (replayBinary : Bool) :
    Triple (fun _ (_ : Unit) => True) (main replayBinary)
      (fun code answers _ => code = 0 → ∃ files recording report replay rows,
        Published replayBinary files recording report replay rows answers) fun _ _ _ => True := by
  have hbody : Triple (fun _ (_ : Unit) => True) (mainBody replayBinary)
      (fun _ answers _ => ∃ files recording report replay rows,
        Published replayBinary files recording report replay rows answers) fun _ _ _ => True := by
    unfold mainBody
    refine triple_seeFirst kept_true trivial (fun _ _ _ => id) fun existed => ?_
    refine triple_bind (triple_unless fun _ _ _ _ => trivial) fun _ => triple_given fun hnew => ?_
    obtain rfl : existed = false := by simpa using hnew
    refine triple_see kept_true trivial (fun _ _ _ => id) fun files => ?_
    refine triple_bind (triple_parse fun _ _ _ _ => trivial) fun prepared =>
      triple_given fun hprepared => ?_
    obtain ⟨recording, report⟩ := prepared
    have hprepare : prepare files = .ok (recording, report) := by
      cases h : prepare files with
      | error err =>
        rw [h] at hprepared
        cases hprepared
      | ok result =>
        rw [h] at hprepared
        exact congrArg Except.ok (Except.ok.inj hprepared)
    refine triple_bind (triple_verified replayBinary recording report) fun v => ?_
    rintro answers s ⟨replay, hsome, hverified, rfl, hseen⟩
    refine triple_see kept_true trivial (fun _ _ _ => id) (fun _ => ?_) answers s ⟨trivial, hseen⟩
    refine (triple_publish recording _ _).weaken (fun _ _ => id) ?_ fun _ _ _ => id
    rintro _ answers _ ⟨rows, hrows, hwritten⟩
    refine ⟨files, recording, report, replay, rows, hprepare, hsome, hverified, hrows, ?_⟩
    rw [(prepare_ok hprepare).1] at hwritten
    simpa using hwritten
  unfold main
  refine triple_tryCatch (hbody.weaken (fun _ _ => id) (fun _ _ _ h _ => h) fun _ _ _ => id)
    fun error => ?_
  refine triple_ite (fun _ => triple_pure fun _ _ _ hcode => ?_) fun _ => triple_throw fun _ _ => id
  cases hcode

end Publication

/-! What a replay by the command means. -/

section Replay

variable {lib : ReplayLibrary ℚ} {Input : Type} {decoder : ReplayDecoder Input ℚ}

/-- The process is the replay command, with the recording on its standard input; only a report
that it printed is read back. -/
def RunsReplay (lib : ReplayLibrary ℚ) (decoder : ReplayDecoder Input ℚ)
    (recording : ReplayInput ℚ) (process : Process) : Prop :=
  ∃ around outcome, decoder.decode around.stdin = .ok recording ∧
    ReplayCommand.run lib decoder (.parsed "-" 0) around = some outcome ∧
    process.returncode = outcome.exitCode ∧
    ∀ result, process.stdout = .ok result → outcome.report = some result

/-- The replay of the logged mode agrees with all that was logged of the decision. -/
def Reproduced (decision : LoggedDecision) (result : ReplayCycleResult ℚ) : Prop :=
  ∃ actual, result.modes.lookup decision.decisionMode = some actual ∧
    Agrees result.rawPrediction actual decision.expected

theorem reproduced_of_replay {recording : ReplayInput ℚ} {process : Process}
    {result : ReplayReport ℚ} {decisions : List LoggedDecision}
    (hruns : RunsReplay lib decoder recording process) (hstdout : process.stdout = .ok result)
    (htells : List.Forall₂ Tells decisions recording.cycles) :
    List.Forall₂ Reproduced decisions result.cycles := by
  obtain ⟨around, outcome, hdecode, hrun, -, hprinted⟩ := hruns
  have hreplay := ReplayCommand.run_report hrun (hprinted result hstdout)
  obtain ⟨outcome', houtcome, hreports⟩ :=
    Controller.replay_all_or_nothing decoder lib around.stdin
  obtain rfl : outcome' = .ok result := Option.some.inj (houtcome.symm.trans hreplay)
  obtain ⟨recording', hdecode', hcycles, -⟩ := hreports result rfl
  obtain rfl : recording' = recording := Except.ok.inj (hdecode'.symm.trans hdecode)
  generalize result.cycles = results at hcycles
  generalize recording'.cycles = items at hcycles htells
  induction htells generalizing results with
  | nil =>
    cases hcycles
    exact .nil
  | cons hfirst _ ih =>
    cases hcycles with
    | cons hreported hrest =>
      obtain ⟨actual, hlookup, hagrees⟩ := hreported.agrees
      refine .cons ⟨actual, ?_, ?_⟩ (ih _ hrest)
      · rw [← hfirst.mode]
        exact hlookup
      · rw [← hfirst.expected]
        exact hagrees

/-- The timeline has a row for every reconciliation. -/
theorem rows_reconcileIDs {files : RecordedFiles} {recording : ReplayInput ℚ} {report : Report}
    {result : Option (ReplayReport ℚ)} {rows : List TimelineRow}
    (hprepared : prepare files = .ok (recording, report))
    (hrows : timelineRows report result = .ok rows) :
    rows.map (fun row => row.1.reconcileID) = files.cycles.map CycleRows.reconcileID := by
  obtain ⟨-, prepared, hcycles, hprepare⟩ := prepare_ok hprepared
  obtain ⟨hids, -, -⟩ := prepareCycles_tells hprepare
  have hrecords : rows.map Prod.fst = report.cycles := by
    cases result with
    | none =>
      cases hrows
      simp [Function.comp_def]
    | some result =>
      cases hmapped : report.cycles.mapM (timelineRow result.cycles) with
      | none => simp [timelineRows, hmapped] at hrows
      | some mapped =>
        obtain rfl : mapped = rows := by simpa [timelineRows, hmapped] using hrows
        exact mapM_timelineRow_fst hmapped
  rw [← hids, ← hcycles, ← hrecords, List.map_map]
  rfl

theorem rows_reproduced {files : RecordedFiles} {recording : ReplayInput ℚ} {report : Report}
    {process : Process} {result : ReplayReport ℚ} {rows : List TimelineRow}
    (hprepared : prepare files = .ok (recording, report))
    (hruns : RunsReplay lib decoder recording process) (hstdout : process.stdout = .ok result)
    (hrows : timelineRows report (some result) = .ok rows) :
    List.Forall₂ (Beside Reproduced) (files.cycles.map CycleRows.decision) rows := by
  obtain ⟨-, prepared, hcycles, hprepare⟩ := prepare_ok hprepared
  obtain ⟨-, hindices, htells⟩ := prepareCycles_tells hprepare
  have hreproduced := reproduced_of_replay hruns hstdout htells
  obtain ⟨rows', hmapped, -, hbeside⟩ :
      ∃ rows', prepared.timeline.mapM (timelineRow ([] ++ result.cycles)) = some rows' ∧ _ ∧ _ :=
    timelineRows_of_indices hindices hreproduced
  rw [List.nil_append, ← hcycles] at hmapped
  obtain rfl : rows' = rows := by simpa [timelineRows, hmapped] using hrows
  exact hbeside

end Replay

/-- Whatever the world answers and wherever the command stops, it writes only into a directory that
was absent and that it made itself. An exit code of zero means that the results of the run were
published; with a replay by the command, that every logged decision was reproduced and stands in the
timeline beside the replay that reproduced it. -/
theorem main_publishes_reproduced {W : Type} {S : Semantics W Op fun op => Except PyError op.Result}
    {lib : ReplayLibrary ℚ} {Input : Type} {decoder : ReplayDecoder Input ℚ}
    (hreplay : ∀ w recording process w', S.perform w (.replay recording) (.ok process) w' →
      RunsReplay lib decoder recording process)
    {replayBinary : Bool} {w w' : W} {events : List (Event W Op fun op => Except PyError op.Result)}
    {result : Option (Except PyError ℕ × Unit)}
    (hexec : Exec S w ((main replayBinary).run.run ()) events result w') :
    (∀ before e after, events = before ++ e :: after → e.op.changes = true →
      Made (answersOf before)) ∧
    (result = some (.ok 0, ()) → ∃ files recording report replay rows,
      Published replayBinary files recording report replay rows (answersOf events) ∧
      rows.map (fun row => row.1.reconcileID) = files.cycles.map CycleRows.reconcileID ∧
      (replayBinary = true →
        List.Forall₂ (Beside Reproduced) (files.cycles.map CycleRows.decision) rows)) := by
  constructor
  · have : Inhabited PyError := ⟨valueError ""⟩
    have hends := triple_main_careful replayBinary [] () (by simp [Careful])
    obtain ⟨⟨r, s⟩, more, hcareful⟩ := Ends.of_exec_prefix hexec hends
    have hcareful : Careful (answersOf events ++ more) := by
      cases r <;> exact hcareful
    rintro before e after rfl hchanges
    apply hcareful (answersOf before) e.op e.result (answersOf after ++ more) _ hchanges
    simp [answersOf]
  · rintro rfl
    have hends := triple_main_published replayBinary [] () trivial
    obtain ⟨files, recording, report, replay, rows, hpublished⟩ := (hends.of_exec hexec) rfl
    refine ⟨files, recording, report, replay, rows, hpublished,
      rows_reconcileIDs hpublished.prepared hpublished.timeline, fun hbinary => ?_⟩
    obtain ⟨⟨process, replayed⟩, rfl⟩ := Option.isSome_iff_exists.mp
      (hpublished.replayed.trans hbinary)
    have hverified := hpublished.verified _ rfl
    have hmem : (⟨.replay recording, .ok process⟩ : Reply) ∈ answersOf events :=
      hpublished.mem (by simp)
    obtain ⟨_, _, hperformed⟩ := performed_of_mem hexec hmem
    exact rows_reproduced hpublished.prepared (hreplay _ _ _ _ hperformed) hverified.stdout
      hpublished.timeline

/-! The analysis of the run of two reconciliations, with a replay by the command. -/

section Steady

open MetricsProvider RecordedRun

noncomputable def steadyFiles : RecordedFiles where
  plan := safetyPlan
  policy := safetyRecord
  starts := 1
  cycles := [warmingPass.cycle ⟨firstHistory, none, newPrometheus 0⟩,
    steadyPass.cycle ⟨secondHistory, none, newPrometheus 0⟩]
  states := []
  onset := 1000
  initial := 5

def replayProcess (recording : ReplayInput ℚ) : Except PyError Process :=
  match ReplayCommand.run Controller.exactLibrary plainDecoder (.parsed "-" 0)
      ⟨recording, fun _ => .error "", none⟩ with
  | none => .error ⟨.osError, ""⟩
  | some outcome => .ok ⟨outcome.exitCode, outcome.report.elim
      (.error (valueError "Expecting value")) .ok, outcome.stderr⟩

theorem replayProcess_runs {recording : ReplayInput ℚ} {process : Process}
    (h : replayProcess recording = .ok process) :
    RunsReplay Controller.exactLibrary plainDecoder recording process := by
  unfold replayProcess at h
  split at h
  next => cases h
  next outcome hrun =>
    cases h
    refine ⟨_, outcome, rfl, hrun, rfl, fun result hresult => ?_⟩
    cases hreport : outcome.report with
    | none => simp [hreport] at hresult
    | some report => simpa [hreport] using hresult

noncomputable def steadyAnswer : (op : Op) → Except PyError op.Result
  | .outputExists => .ok false
  | .readRun => .ok steadyFiles
  | .replay recording => replayProcess recording
  | .readBinary => .ok ""
  | .mkdir => .ok ()
  | .write _ _ => .ok ()
  | .openTimeline => .ok ()
  | .writeRows _ => .ok ()
  | .print => .ok ()

theorem steadyAnswer_exit : (follow steadyAnswer ((main true).run.run ())).2.1 = .ok 0 := by
  decide +kernel

theorem main_publishes_reproduced_steady :
    ∃ files recording report replay rows,
      Published true files recording report replay rows
        (answersOf (follow steadyAnswer ((main true).run.run ())).1) ∧
      rows.map (fun row => row.1.reconcileID) = files.cycles.map CycleRows.reconcileID ∧
      List.Forall₂ (Beside Reproduced) (files.cycles.map CycleRows.decision) rows := by
  have hexec := exec_follow steadyAnswer ((main true).run.run ())
  have hreplay : ∀ w recording process w', (answering steadyAnswer).perform w (.replay recording)
      (.ok process) w' → RunsReplay Controller.exactLibrary plainDecoder recording process :=
    fun _ _ _ _ h => replayProcess_runs h.symm
  obtain ⟨-, hpublished⟩ := main_publishes_reproduced hreplay hexec
  obtain ⟨files, recording, report, replay, rows, hpublished, hids, hreproduced⟩ :=
    hpublished (congrArg some (Prod.ext steadyAnswer_exit rfl))
  exact ⟨files, recording, report, replay, rows, hpublished, hids, hreproduced rfl⟩

end Steady

end Autoscaler.ReplayAnalysis
