import Autoscaler.MetricsProvider.Observation

/-! The observer of `cmd/observe-cpu`: one verified observation in each pass of its loop, until its
context ends or its stop file appears. What a pass reads from outside is part of the pass. -/
namespace Autoscaler.ObserveCPU

open MetricsProvider

/-- What `os.Lstat` tells of the stop file. -/
inductive StopFile where
  | missing
  | regular
  | irregular
  | failed (err : String)
  deriving DecidableEq

structure URL where
  scheme : String
  host : String

structure Options where
  context : String
  ns : String
  deployment : String
  targetUID : UID
  prometheusAddress : String
  stopFile : String
  interval : ℤ
  timeout : ℤ
  deriving DecidableEq

def isSpace (c : Char) : Bool :=
  let n := c.toNat
  (9 ≤ n && n ≤ 13) || n == 32 || (0x2000 ≤ n && n ≤ 0x200a) ||
    n ∈ [0x85, 0xa0, 0x1680, 0x2028, 0x2029, 0x202f, 0x205f, 0x3000]

/-- `strings.TrimSpace(text) == ""`. -/
def blank (text : String) : Bool := text.toList.all isSpace

def checkAddress (parse : String → Except String URL) (address : String) : Except String Unit :=
  match parse address with
  | .error _ => .error "--prometheus-address must be an HTTP(S) address"
  | .ok url =>
    if url.host = "" ∨ (url.scheme ≠ "http" ∧ url.scheme ≠ "https") then
      .error "--prometheus-address must be an HTTP(S) address"
    else .ok ()

def checkStopFile : StopFile → Except String Unit
  | .missing => .ok ()
  | .regular | .irregular => .error "--stop-file must not exist at startup"
  | .failed err => .error ("inspect --stop-file: " ++ err)

/-- The checks of `parseOptions` on what the flags were set to, with the positional arguments. -/
def parseOptions (parse : String → Except String URL)
    (flags : Except String (Options × List String)) (stopFile : StopFile) : Except String Options :=
  match flags with
  | .error err => .error err
  | .ok (opts, positional) =>
    if positional ≠ [] then .error "unexpected positional arguments"
    else if !"kind-".toList.isPrefixOf opts.context.toList || opts.context.length == 5 then
      .error "--context must explicitly name a Kind context (kind-<cluster>)"
    else if blank opts.targetUID || blank opts.ns || blank opts.deployment then
      .error "--target-uid, --namespace and --deployment must be nonempty"
    else
      match checkAddress parse opts.prometheusAddress with
      | .error err => .error err
      | .ok () =>
        if opts.interval ≠ second then
          .error "--interval must remain 1s for the cadence protocol"
        else if opts.timeout ≤ 0 ∨ 1500 * second < opts.timeout then
          .error "--timeout must be positive and at most 1500s"
        else if opts.stopFile = "" then .error "--stop-file is required"
        else (checkStopFile stopFile).map fun () => opts

inductive ContextErr where
  | canceled
  | deadlineExceeded
  deriving DecidableEq

def ContextErr.text : ContextErr → String
  | .canceled => "context canceled"
  | .deadlineExceeded => "context deadline exceeded"

/-- The status that the loop reports when its context has ended. -/
def ContextErr.status : ContextErr → String
  | .canceled => "interrupted"
  | .deadlineExceeded => "timeout"

/-- What one pass of the loop reads, in the order of the reads; `writeErr` is what writing its line
returns, and `endedAt` the time at which a summary is made. -/
structure Pass where
  contextErr : Option ContextErr
  stopFile : StopFile
  readings : Readings
  order : MapOrder
  startedAt : ℤ
  finishedAt : ℤ
  writeErr : Option String
  endedAt : ℤ

def Pass.call (target : Deployment) (pass : Pass) : Call :=
  ⟨some target, observationSpacing, pass.readings, pass.order⟩

structure ObservationRecord where
  sequence : ℕ
  observation : CPUObservation
  deriving DecidableEq

structure SummaryRecord where
  status : String
  targetUID : UID
  observations : ℕ
  successfulObservations : ℕ
  rejectedObservations : ℕ
  finishedAt : ℤ
  error : String
  deriving DecidableEq

inductive Line where
  | observation (record : ObservationRecord)
  | summary (record : SummaryRecord)
  deriving DecidableEq

/-- Whether the run still goes on, or what it returned. -/
inductive Exit where
  | running
  | returned (err : Option String)
  deriving DecidableEq

def SummaryRecord.count (summary : SummaryRecord) (err : Option Err) : SummaryRecord :=
  let summary := { summary with observations := summary.observations + 1 }
  match err with
  | none => { summary with successfulObservations := summary.successfulObservations + 1 }
  | some _ => { summary with rejectedObservations := summary.rejectedObservations + 1 }

def finish (summary : SummaryRecord) (pass : Pass) (status : String) (cause : Option String) :
    List Line × Exit :=
  ([.summary { summary with
      status, finishedAt := pass.endedAt, error := cause.getD summary.error }],
    match pass.writeErr with
    | some err => .returned (some ("write observer summary: " ++ err))
    | none => .returned cause)

/-- The loop of `run`: the lines it writes, of which only the last one can fail to be written. -/
def loop (target : Deployment) : PrometheusProvider → SummaryRecord → List Pass → List Line × Exit
  | _, _, [] => ([], .running)
  | p, summary, pass :: rest =>
    match pass.contextErr with
    | some err => finish summary pass err.status (some err.text)
    | none =>
      match pass.stopFile with
      | .regular => finish summary pass "completed" none
      | .irregular => finish summary pass "error" (some "--stop-file must be a regular file")
      | .failed err => finish summary pass "error" (some ("inspect --stop-file: " ++ err))
      | .missing =>
        let call := pass.call target
        let result := averageCPUUtilizationPercentage p call
        let summary := summary.count result.err
        let line := Line.observation
          ⟨summary.observations, observeCPU p call pass.startedAt pass.finishedAt⟩
        match pass.writeErr with
        | some err => ([line], .returned (some ("write CPU observation: " ++ err)))
        | none =>
          let (lines, exit) := loop target result.provider summary rest
          (line :: lines, exit)

def Options.target (opts : Options) : Deployment where
  metadata := ⟨opts.ns, opts.deployment, opts.targetUID, 0, 0, none⟩
  specReplicas := 0
  statusReplicas := 0

def newSummary (targetUID : UID) : SummaryRecord := ⟨"", targetUID, 0, 0, 0, 0, ""⟩

/-- `run`, with the options it parsed and what building its provider returned. -/
def run (opts : Except String Options) (providerErr : Option String) (passes : List Pass) :
    List Line × Exit :=
  match opts, providerErr with
  | .error err, _ => ([], .returned (some err))
  | .ok _, some err => ([], .returned (some err))
  | .ok opts, none =>
    loop opts.target (newPrometheus defaultMaxSampleAge) (newSummary opts.targetUID) passes

/-! What the lines of a run tell of its passes. -/

def Pass.Observes (pass : Pass) : Prop := pass.contextErr = none ∧ pass.stopFile = .missing

def Pass.Completes (pass : Pass) : Prop :=
  pass.contextErr = none ∧ pass.stopFile = .regular ∧ pass.writeErr = none

/-- The status and the cause with which a pass ends the loop. -/
def Pass.ending (pass : Pass) : Option (String × Option String) :=
  match pass.contextErr with
  | some err => some (err.status, some err.text)
  | none =>
    match pass.stopFile with
    | .regular => some ("completed", none)
    | .irregular => some ("error", some "--stop-file must be a regular file")
    | .failed err => some ("error", some ("inspect --stop-file: " ++ err))
    | .missing => none

/-- The records of the passes, after the first `n` of them. -/
def recorded (target : Deployment) : PrometheusProvider → ℕ → List Pass → List ObservationRecord
  | _, _, [] => []
  | p, n, pass :: rest =>
    ⟨n + 1, observeCPU p (pass.call target) pass.startedAt pass.finishedAt⟩ ::
      recorded target (averageCPUUtilizationPercentage p (pass.call target)).provider (n + 1) rest

def accepted (record : ObservationRecord) : Bool := record.observation.status == "success"

/-- What a run returns once writing its summary was tried. -/
def Pass.returned (pass : Pass) (cause : Option String) : Option String :=
  match pass.writeErr with
  | some err => some ("write observer summary: " ++ err)
  | none => cause

/-- The run observed in the passes `observed`, then tried to write `ending` if it came to that.
Every line was written but perhaps the last one, whose write error the run then returns. -/
structure Accounts (target : Deployment) (p : PrometheusProvider) (before : SummaryRecord)
    (passes : List Pass) (result : List Line × Exit) (observed : List Pass)
    (ending : Option SummaryRecord) : Prop where
  within : observed <+: passes
  observes : ∀ pass ∈ observed, pass.Observes
  lines : result.1 = (recorded target p before.observations observed).map .observation ++
    ending.toList.map .summary
  observations : ∀ summary ∈ ending, summary.observations = before.observations + observed.length
  successful : ∀ summary ∈ ending, summary.successfulObservations =
    before.successfulObservations +
      (recorded target p before.observations observed).countP accepted
  rejected : ∀ summary ∈ ending, summary.rejectedObservations =
    before.rejectedObservations +
      (recorded target p before.observations observed).countP fun record => !accepted record
  targetUID : ∀ summary ∈ ending, summary.targetUID = before.targetUID
  ended : ∀ summary ∈ ending, ∃ pass cause, observed ++ [pass] <+: passes ∧
    pass.ending = some (summary.status, cause) ∧ summary.error = cause.getD before.error ∧
    summary.finishedAt = pass.endedAt
  written : ∀ summary ∈ ending, (∀ pass ∈ observed, pass.writeErr = none) ∧
    ∃ pass cause, observed ++ [pass] <+: passes ∧ pass.ending = some (summary.status, cause) ∧
      result.2 = .returned (pass.returned cause)
  unended : ending = none →
    (observed = passes ∧ (∀ pass ∈ observed, pass.writeErr = none) ∧ result.2 = .running) ∨
    ∃ before pass err, observed = before ++ [pass] ∧ (∀ pass ∈ before, pass.writeErr = none) ∧
      pass.writeErr = some err ∧ result.2 = .returned (some ("write CPU observation: " ++ err))
  running : result.2 = .running ↔
    observed = passes ∧ ∀ pass ∈ observed, pass.writeErr = none
  completed : result.2 = .returned none ↔ (∀ pass ∈ observed, pass.writeErr = none) ∧
    ∃ pass, observed ++ [pass] <+: passes ∧ pass.Completes

section Loop

variable {target : Deployment} {p : PrometheusProvider} {summary : SummaryRecord} {pass : Pass}
  {rest : List Pass}

theorem Pass.ending_eq_none_iff : pass.ending = none ↔ pass.Observes := by
  unfold Pass.ending Pass.Observes
  cases pass.contextErr with
  | some err => simp
  | none => cases pass.stopFile <;> simp

theorem observeCPU_status (p : PrometheusProvider) (call : Call) (started finished : ℤ) :
    (observeCPU p call started finished).status =
      match (averageCPUUtilizationPercentage p call).err with
      | none => "success"
      | some _ => "rejected" := rfl

@[simp] theorem count_observations (err : Option Err) :
    (summary.count err).observations = summary.observations + 1 := by
  cases err <;> rfl

@[simp] theorem count_targetUID (err : Option Err) :
    (summary.count err).targetUID = summary.targetUID := by
  cases err <;> rfl

@[simp] theorem count_error (err : Option Err) : (summary.count err).error = summary.error := by
  cases err <;> rfl

theorem accepted_observeCPU (n : ℕ) (p : PrometheusProvider) (call : Call) (started finished : ℤ) :
    accepted ⟨n, observeCPU p call started finished⟩ =
      (averageCPUUtilizationPercentage p call).err.isNone := by
  unfold accepted
  dsimp only
  rw [observeCPU_status]
  cases (averageCPUUtilizationPercentage p call).err <;> rfl

theorem count_successful (record : ObservationRecord) (err : Option Err)
    (h : accepted record = err.isNone) (records : List ObservationRecord) :
    (summary.count err).successfulObservations + records.countP accepted =
      summary.successfulObservations + (record :: records).countP accepted := by
  rw [List.countP_cons, h]
  cases err with
  | none => simp only [SummaryRecord.count, Option.isNone_none, if_true]; omega
  | some err => simp [SummaryRecord.count]

theorem count_rejected (record : ObservationRecord) (err : Option Err)
    (h : accepted record = err.isNone) (records : List ObservationRecord) :
    (summary.count err).rejectedObservations + records.countP (fun record => !accepted record) =
      summary.rejectedObservations +
        (record :: records).countP fun record => !accepted record := by
  rw [List.countP_cons, h]
  cases err with
  | none => simp [SummaryRecord.count]
  | some err => simp only [SummaryRecord.count, Option.isNone_some, Bool.not_false, if_true]; omega

/-- A pass that does not observe ends the loop. -/
theorem loop_of_ending {status : String} {cause : Option String}
    (h : pass.ending = some (status, cause)) :
    loop target p summary (pass :: rest) = finish summary pass status cause := by
  unfold Pass.ending at h
  rw [loop]
  cases hctx : pass.contextErr with
  | some err =>
    rw [hctx] at h
    cases h
    rfl
  | none =>
    rw [hctx] at h
    cases hstop : pass.stopFile with
    | missing => rw [hstop] at h; cases h
    | regular => rw [hstop] at h; cases h; rfl
    | irregular => rw [hstop] at h; cases h; rfl
    | failed err => rw [hstop] at h; cases h; rfl

theorem loop_of_observes (h : pass.Observes) :
    loop target p summary (pass :: rest) =
      let result := averageCPUUtilizationPercentage p (pass.call target)
      let line := Line.observation ⟨summary.observations + 1,
        observeCPU p (pass.call target) pass.startedAt pass.finishedAt⟩
      match pass.writeErr with
      | some err => ([line], .returned (some ("write CPU observation: " ++ err)))
      | none =>
        let (lines, exit) := loop target result.provider (summary.count result.err) rest
        (line :: lines, exit) := by
  rw [loop, h.1, h.2]
  dsimp only
  rw [count_observations]

theorem finish_exit_iff {status : String} {cause : Option String}
    (h : pass.ending = some (status, cause)) :
    (finish summary pass status cause).2 = .returned none ↔ pass.Completes := by
  have hcause : cause = none ↔ pass.contextErr = none ∧ pass.stopFile = .regular := by
    unfold Pass.ending at h
    cases hctx : pass.contextErr with
    | some err => rw [hctx] at h; cases h; simp
    | none =>
      rw [hctx] at h
      cases hstop : pass.stopFile with
      | missing => rw [hstop] at h; cases h
      | regular => rw [hstop] at h; cases h; simp
      | irregular => rw [hstop] at h; cases h; simp
      | failed err => rw [hstop] at h; cases h; simp
  unfold finish Pass.Completes
  rw [← and_assoc, ← hcause]
  cases pass.writeErr <;> simp

/-- The next pass ends the loop. -/
theorem Accounts.finished {status : String} {cause : Option String}
    (h : pass.ending = some (status, cause)) :
    Accounts target p summary (pass :: rest) (loop target p summary (pass :: rest)) []
      (some { summary with
        status, finishedAt := pass.endedAt, error := cause.getD summary.error }) := by
  have hprefix : [pass] <+: pass :: rest := List.prefix_append [pass] rest
  rw [loop_of_ending h]
  refine
    { within := List.nil_prefix
      observes := by simp
      lines := rfl
      observations := by simp
      successful := by simp [recorded]
      rejected := by simp [recorded]
      targetUID := by simp
      ended := ?_
      written := ?_
      unended := by simp
      running := ?_
      completed := ?_ }
  · rintro _ ⟨⟩
    exact ⟨pass, cause, hprefix, h, rfl, rfl⟩
  · rintro _ ⟨⟩
    refine ⟨by simp, pass, cause, hprefix, h, ?_⟩
    unfold finish Pass.returned
    cases pass.writeErr <;> rfl
  · unfold finish
    cases pass.writeErr <;> simp
  · rw [finish_exit_iff h]
    constructor
    · exact fun hcompletes => ⟨by simp, pass, hprefix, hcompletes⟩
    · rintro ⟨-, pass', ⟨more, hmore⟩, hcompletes⟩
      obtain ⟨rfl, -⟩ := List.cons_eq_cons.mp hmore
      exact hcompletes

/-- The observation of the next pass cannot be written. -/
theorem Accounts.broken {err : String} (h : pass.Observes) (hwrite : pass.writeErr = some err) :
    Accounts target p summary (pass :: rest) (loop target p summary (pass :: rest)) [pass]
      none := by
  rw [loop_of_observes h, hwrite]
  refine
    { within := List.prefix_append [pass] rest
      observes := by simpa using h
      lines := rfl
      observations := by simp
      successful := by simp
      rejected := by simp
      targetUID := by simp
      ended := by simp
      written := by simp
      unended := fun _ => .inr ⟨[], pass, err, rfl, by simp, hwrite, rfl⟩
      running := by simp [hwrite]
      completed := by simp [hwrite] }

/-- One more pass before the ones that the rest of the run accounts for. -/
theorem Accounts.observed {observed : List Pass} {ending : Option SummaryRecord}
    (h : pass.Observes) (hwrite : pass.writeErr = none)
    (hrest : Accounts target (averageCPUUtilizationPercentage p (pass.call target)).provider
      (summary.count (averageCPUUtilizationPercentage p (pass.call target)).err) rest
      (loop target (averageCPUUtilizationPercentage p (pass.call target)).provider
        (summary.count (averageCPUUtilizationPercentage p (pass.call target)).err) rest)
      observed ending) :
    Accounts target p summary (pass :: rest) (loop target p summary (pass :: rest))
      (pass :: observed) ending := by
  rw [loop_of_observes h, hwrite]
  have haccepted := accepted_observeCPU (summary.observations + 1) p (pass.call target)
    pass.startedAt pass.finishedAt
  refine
    { within := (List.prefix_cons_inj pass).mpr hrest.within
      observes := List.forall_mem_cons.mpr ⟨h, hrest.observes⟩
      lines := ?_
      observations := fun ending hending => ?_
      successful := fun ending hending => ?_
      rejected := fun ending hending => ?_
      targetUID := fun ending hending => ?_
      ended := fun ending hending => ?_
      written := fun ending hending => ?_
      unended := fun hending => ?_
      running := ?_
      completed := ?_ }
  · simp only [hrest.lines, recorded, count_observations, List.map_cons, List.cons_append]
  · rw [hrest.observations ending hending, count_observations, List.length_cons]
    omega
  · rw [hrest.successful ending hending, count_observations]
    exact count_successful _ _ haccepted _
  · rw [hrest.rejected ending hending, count_observations]
    exact count_rejected _ _ haccepted _
  · rw [hrest.targetUID ending hending, count_targetUID]
  · obtain ⟨last, cause, hwithin, hlast, herror, hended⟩ := hrest.ended ending hending
    exact ⟨last, cause, (List.prefix_cons_inj pass).mpr hwithin, hlast,
      by rw [herror, count_error], hended⟩
  · obtain ⟨hwritten, last, cause, hwithin, hlast, hreturned⟩ := hrest.written ending hending
    exact ⟨List.forall_mem_cons.mpr ⟨hwrite, hwritten⟩, last, cause,
      (List.prefix_cons_inj pass).mpr hwithin, hlast, hreturned⟩
  · rcases hrest.unended hending with
      ⟨hall, hwritten, hrunning⟩ | ⟨before, last, err, hobserved, hwritten, hfailed, hreturned⟩
    · exact .inl ⟨by rw [hall], List.forall_mem_cons.mpr ⟨hwrite, hwritten⟩, hrunning⟩
    · exact .inr ⟨pass :: before, last, err, by rw [hobserved]; rfl,
        List.forall_mem_cons.mpr ⟨hwrite, hwritten⟩, hfailed, hreturned⟩
  · change (loop _ _ _ _).2 = _ ↔ _
    rw [hrest.running, List.cons_inj_right, List.forall_mem_cons, and_iff_right hwrite]
  · change (loop _ _ _ _).2 = _ ↔ _
    rw [hrest.completed, List.forall_mem_cons, and_iff_right hwrite]
    simp only [List.cons_append, List.prefix_cons_inj]

end Loop

/-- Every run accounts for its passes. -/
theorem loop_accounts (target : Deployment) (p : PrometheusProvider) (summary : SummaryRecord)
    (passes : List Pass) : ∃ observed ending,
      Accounts target p summary passes (loop target p summary passes) observed ending := by
  induction passes generalizing p summary with
  | nil =>
    refine ⟨[], none, List.nil_prefix, ?_, rfl, ?_, ?_, ?_, ?_, ?_, ?_, ?_, ?_, ?_⟩ <;> simp [loop]
  | cons pass rest ih =>
    cases hending : pass.ending with
    | some ending => exact ⟨_, _, Accounts.finished hending⟩
    | none =>
      have hobserves := Pass.ending_eq_none_iff.mp hending
      cases hwrite : pass.writeErr with
      | some err => exact ⟨_, _, Accounts.broken hobserves hwrite⟩
      | none =>
        obtain ⟨observed, ending, hrest⟩ := ih
          (averageCPUUtilizationPercentage p (pass.call target)).provider
          (summary.count (averageCPUUtilizationPercentage p (pass.call target)).err)
        exact ⟨_, _, hrest.observed hobserves hwrite⟩

theorem recorded_getElem? (target : Deployment) (p : PrometheusProvider) (n i : ℕ)
    (passes : List Pass) : (recorded target p n passes)[i]? = passes[i]?.map fun pass =>
      ⟨n + i + 1, observeCPU (runCalls p ((passes.take i).map (Pass.call target)))
        (pass.call target) pass.startedAt pass.finishedAt⟩ := by
  induction passes generalizing p n i with
  | nil => rfl
  | cons pass rest ih =>
    cases i with
    | zero => rfl
    | succ i =>
      rw [recorded, List.getElem?_cons_succ, ih, List.getElem?_cons_succ]
      congr 1
      funext later
      rw [add_right_comm n 1 i]
      rfl

structure ValidOptions (parse : String → Except String URL) (opts : Options) : Prop where
  context : "kind-".toList <+: opts.context.toList ∧ opts.context.length ≠ 5
  named : blank opts.targetUID = false ∧ blank opts.ns = false ∧ blank opts.deployment = false
  address : ∃ url, parse opts.prometheusAddress = .ok url ∧ url.host ≠ "" ∧
    (url.scheme = "http" ∨ url.scheme = "https")
  interval : opts.interval = second
  timeout : 0 < opts.timeout ∧ opts.timeout ≤ 1500 * second
  stopFile : opts.stopFile ≠ ""

theorem checkAddress_ok {parse : String → Except String URL} {address : String}
    (h : checkAddress parse address = .ok ()) : ∃ url, parse address = .ok url ∧ url.host ≠ "" ∧
      (url.scheme = "http" ∨ url.scheme = "https") := by
  unfold checkAddress at h
  cases hparse : parse address with
  | error err => rw [hparse] at h; cases h
  | ok url =>
    rw [hparse] at h
    dsimp only at h
    split_ifs at h with hurl
    push Not at hurl
    exact ⟨url, rfl, hurl.1, or_iff_not_imp_left.mpr hurl.2⟩

theorem parseOptions_ok {parse : String → Except String URL}
    {flags : Except String (Options × List String)} {stopFile : StopFile} {opts : Options}
    (h : parseOptions parse flags stopFile = .ok opts) :
    flags = .ok (opts, []) ∧ stopFile = .missing ∧ ValidOptions parse opts := by
  unfold parseOptions at h
  cases flags with
  | error err => cases h
  | ok parsed =>
    obtain ⟨opts', positional⟩ := parsed
    dsimp only at h
    cases haddress : checkAddress parse opts'.prometheusAddress with
    | error err => rw [haddress] at h; split_ifs at h
    | ok =>
      rw [haddress] at h
      dsimp only at h
      split_ifs at h with hpositional hcontext hnamed hinterval htimeout hstop
      cases stopFile with
      | regular | irregular | failed => cases h
      | missing =>
        obtain rfl : opts' = opts := Except.ok.inj h
        have hcontext : "kind-".toList <+: opts'.context.toList ∧ opts'.context.length ≠ 5 := by
          simpa using hcontext
        refine ⟨by rw [not_not.mp hpositional], rfl, hcontext, ?_, checkAddress_ok haddress,
          not_not.mp hinterval, by omega, hstop⟩
        simpa [and_assoc] using hnamed

/-- A run with bad options or without a provider writes nothing. Any other run numbers the
observations of its passes, each made after exactly the ones before it, and may end with one summary
that counts them; it succeeds only on a pass that finds the stop file. -/
theorem observer_run_accounts (parse : String → Except String URL)
    (flags : Except String (Options × List String)) (stopFile : StopFile)
    (providerErr : Option String) (passes : List Pass) :
    let result := run (parseOptions parse flags stopFile) providerErr passes
    match parseOptions parse flags stopFile, providerErr with
    | .error err, _ => result = ([], .returned (some err))
    | .ok opts, some err => ValidOptions parse opts ∧ result = ([], .returned (some err))
    | .ok opts, none => ValidOptions parse opts ∧
      let p := newPrometheus defaultMaxSampleAge
      ∃ observed ending, Accounts opts.target p (newSummary opts.targetUID) passes result observed
          ending ∧
        ∀ (i : ℕ) (record : ObservationRecord),
          (recorded opts.target p 0 observed)[i]? = some record ↔ ∃ pass, observed[i]? = some pass ∧
            record = ⟨i + 1, observeCPU (runCalls p ((observed.take i).map (Pass.call opts.target)))
              (pass.call opts.target) pass.startedAt pass.finishedAt⟩ := by
  cases hparse : parseOptions parse flags stopFile with
  | error err => rfl
  | ok opts =>
    have hvalid := (parseOptions_ok hparse).2.2
    cases providerErr with
    | some err => exact ⟨hvalid, rfl⟩
    | none =>
      obtain ⟨observed, ending, h⟩ := loop_accounts opts.target (newPrometheus defaultMaxSampleAge)
        (newSummary opts.targetUID) passes
      refine ⟨hvalid, observed, ending, h, fun i record => ?_⟩
      rw [recorded_getElem?, Option.map_eq_some_iff, Nat.zero_add]
      simp only [eq_comm]

end Autoscaler.ObserveCPU
