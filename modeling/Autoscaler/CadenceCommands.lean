import Autoscaler.CadenceSupervisor

/-! The commands of the launcher: what may be released, and what an exit code of zero means. -/
namespace Autoscaler.CadenceLaunch

open Effects Raising LiveCampaign MetricsProvider Analysis

def Command.targetUID : Command → UID
  | checkAnchor targetUID _ _ | release targetUID _ _ _ _ => targetUID
  | observe args => args.targetUID

def Command.offset : Command → ℤ
  | checkAnchor _ _ offset | release _ _ offset _ _ => offset
  | observe args => args.offsetSeconds

def Command.timeout : Command → ℤ
  | checkAnchor _ _ _ => 0
  | release _ _ _ _ timeout => timeout
  | observe _ => 120000000

def Command.attemptPath : Command → Option File
  | checkAnchor _ _ _ | release _ _ _ _ _ => none
  | observe _ => some .gateAttempt

def Command.assignment (arguments : Command) (after : ℤ) : Assignment :=
  ⟨arguments.targetUID, after, arguments.offset, arguments.timeout⟩

/-- The earliest start that a command was given; `observe` finds its own. -/
def Command.StartsFrom (parsers : Parsers) : Command → ℤ → Prop
  | checkAnchor _ after _, earliest | release _ after _ _ _, earliest =>
    epochOf parsers (.string after) = .ok earliest
  | observe _, _ => True

/-- At most one release, for the assignment of the command. -/
def Once (parsers : Parsers) (arguments : Command) (history : List Reply) : Prop :=
  Unpatched history ∨ ∃ earliest anchor response, arguments.StartsFrom parsers earliest ∧
    Patched (arguments.assignment earliest) arguments.attemptPath anchor response history

/-- What a status receipt tells is so when it is written. Its errors are the exception that the
handler took from the `try` body, and then the complaint about the observer. -/
structure Truthful (parsers : Parsers) (turns : ℕ) (args : Args) (status : Status)
    (before : List Reply) : Prop where
  exited : ∀ process ∈ started before, Exited process before
  told : status.gateReleased = true → ∃ after, GateTold args after before
  untold : status.gateReleased = false → ¬ Gated before
  errors : ∃ ending, Ended parsers args turns status.startedAt ending before ∧
    status.errors = noted ending ++ before.filterMap complaint ∧
    (status.errors = [] ↔ (∀ error, ending = .error error → isHandled error = false) ∧
      ∀ reply ∈ before, complaint reply = none)
  stopped : status.ownedProcessesStopped = true ↔ ∀ reply ∈ before, reply.op.isKill = false
  success : status.status = "success" ↔
    status.errors = [] ∧ status.gateReleased = true ∧ status.ownedProcessesStopped = true

/-- Only `observe` writes a status receipt: a true one, and as its last operation. -/
def Receipts (parsers : Parsers) (turns : ℕ) (arguments : Command) (history : List Reply) : Prop :=
  ∀ before status result after,
    history = before ++ ⟨.exclusiveJson .status (.status status), result⟩ :: after →
      after = [] ∧ ∃ args, arguments = .observe args ∧ Truthful parsers turns args status before

def Succeeded (parsers : Parsers) : Command → List Reply → Prop
  | .checkAnchor targetUID after offset, history =>
    Unpatched history ∧ ∃ rows earliest anchor, epochOf parsers (.string after) = .ok earliest ∧
      selectAnchor rows targetUID earliest offset = .ok (some anchor) ∧
        Ever [⟨.readObservations, .ok rows⟩,
          ⟨.exclusiveJson .output (.gate (.ofAnchor anchor)), .ok ()⟩] history
  | .release targetUID after offset _ timeout, history =>
    ∃ earliest gate, epochOf parsers (.string after) = .ok earliest ∧
      Released ⟨targetUID, earliest, offset, timeout⟩ none gate history ∧
      ⟨.exclusiveJson .output (.gate gate), .ok ()⟩ ∈ history
  | .observe args, history =>
    ∃ before status after, history =
        before ++ [⟨.exclusiveJson .status (.status status), .ok ()⟩] ∧
      status.status = "success" ∧ GateTold args after before ∧
      ∀ process ∈ started before, Exited process before

section Commands

variable {parsers : Parsers} {turns : ℕ} {arguments : Command} {args : Args}
  {history : List Reply} {self : Supervisor}

theorem receipts_of_unreceipted (h : ∀ reply ∈ history, reply.op.isReceipt = false) :
    Receipts parsers turns arguments history := by
  rintro before status result after rfl
  cases h _ (List.mem_append_right before List.mem_cons_self)

theorem noted_eq_nil {ending : Except PyError Unit} :
    noted ending = [] ↔ ∀ error, ending = .error error → isHandled error = false := by
  cases ending with
  | ok a => simp [noted]
  | error error => simp [noted]

theorem Closed.truthful {result : Except PyError Unit}
    (h : Closed parsers args turns result history self) :
    ∃ before status, history = before ++ [⟨.exclusiveJson .status (.status status), result⟩] ∧
      Account args before self ∧ Truthful parsers turns args status before ∧
      (status.status = "success" ↔ self.succeeded = true) := by
  obtain ⟨before, startedAt, finishedAt, ending, hhistory, hstopped, hended⟩ := h
  have haccount := hstopped.settled.account
  refine ⟨before, self.receipt startedAt finishedAt, hhistory, haccount,
    ⟨?_, ?_, haccount.ungated, ?_, hstopped.settled.stopped, ?_⟩, ?_⟩
  · rw [haccount.processes]
    exact hstopped.exited
  · intro hreleased
    obtain ⟨after, -, htold⟩ := haccount.released
    exact ⟨after, htold hreleased⟩
  · refine ⟨ending, hended, hstopped.settled.errors, ?_⟩
    rw [Supervisor.receipt, hstopped.settled.errors, List.append_eq_nil_iff, noted_eq_nil,
      List.filterMap_eq_nil_iff]
  · simp [Supervisor.receipt, Supervisor.succeeded, and_assoc]
  · simp [Supervisor.receipt]

theorem Closed.receipts {result : Except PyError Unit}
    (h : Closed parsers args turns result history self) :
    Receipts parsers turns (.observe args) history := by
  obtain ⟨before, status, rfl, haccount, htruthful, -⟩ := h.truthful
  intro before' status' result' after hsplit
  obtain ⟨rfl, heq, rfl⟩ := split_unique (p := fun reply : Reply => reply.op.isReceipt)
    hsplit.symm rfl rfl haccount.unreceipted fun _ hmem => nomatch hmem
  cases heq
  exact ⟨rfl, args, rfl, htruthful⟩

variable (arguments) in
theorem ReleasedOnce.once {earliest : ℤ}
    (h : ReleasedOnce (arguments.assignment earliest) arguments.attemptPath history)
    (hstarts : arguments.StartsFrom parsers earliest) : Once parsers arguments history := by
  rcases h with hunpatched | ⟨anchor, response, hpatched⟩
  · exact .inl hunpatched
  · exact .inr ⟨earliest, anchor, response, hstarts, hpatched⟩

theorem Closed.once {result : Except PyError Unit}
    (h : Closed parsers args turns result history self) :
    Once parsers (.observe args) history := by
  obtain ⟨before, status, rfl, haccount, -⟩ := h.truthful
  obtain ⟨after, honce, -⟩ := haccount.released
  exact (honce.concat rfl).once (.observe args) trivial

theorem Failed.law (h : Failed parsers args turns history self) :
    Once parsers (.observe args) history ∧ Receipts parsers turns (.observe args) history := by
  rcases h with haccount | ⟨result, hclosed⟩
  · obtain ⟨after, honce, -⟩ := haccount.released
    exact ⟨honce.once (.observe args) trivial,
      receipts_of_unreceipted haccount.unreceipted⟩
  · exact ⟨hclosed.once, hclosed.receipts⟩

theorem Closed.succeeded (h : Closed parsers args turns (.ok ()) history self)
    (hsucceeded : self.succeeded = true) : Succeeded parsers (.observe args) history := by
  obtain ⟨before, status, hhistory, haccount, htruthful, hstatus⟩ := h.truthful
  have hsuccess := hstatus.mpr hsucceeded
  obtain ⟨after, htold⟩ := htruthful.told (htruthful.success.mp hsuccess).2.1
  exact ⟨before, status, after, hhistory, hsuccess, htold, htruthful.exited⟩

def Law (parsers : Parsers) (turns : ℕ) (arguments : Command) (history : List Reply) : Prop :=
  Once parsers arguments history ∧ Receipts parsers turns arguments history

def Returned (parsers : Parsers) (turns : ℕ) (arguments : Command) (code : ℕ)
    (history : List Reply) (_ : Supervisor) : Prop :=
  Law parsers turns arguments history ∧ (code = 0 → Succeeded parsers arguments history)

theorem Calm.law (_ : PyError) (history : List Reply) (self : Supervisor)
    (h : Calm history self) : Law parsers turns arguments history :=
  ⟨.inl h.2, receipts_of_unreceipted h.1.unreceipted⟩

def Plain (parsers : Parsers) (arguments : Command) (history : List Reply) (self : Supervisor) :
    Prop :=
  Early history self ∧ Once parsers arguments history

theorem Once.concat (h : Once parsers arguments history) {reply : Reply}
    (hreply : reply.op.isPatch = false) : Once parsers arguments (history ++ [reply]) := by
  rcases h with hunpatched | ⟨earliest, anchor, response, hstarts, hpatched⟩
  · exact .inl (hunpatched.concat hreply)
  · exact .inr ⟨earliest, anchor, response, hstarts, hpatched.concat hreply⟩

theorem kept_plain : Kept Op.Discreet (Plain parsers arguments) :=
  fun _ _ _ _ hop h => ⟨kept_early _ _ _ _ (.inr hop) h.1, h.2.concat hop.not_patch⟩

theorem Plain.law (_ : PyError) (history : List Reply) (self : Supervisor)
    (h : Plain parsers arguments history self) : Law parsers turns arguments history :=
  ⟨h.2, receipts_of_unreceipted h.1.unreceipted⟩

variable (parsers turns) (targetUID : UID) (after : String) (offset : ℤ) (url : String)
  (timeout : ℤ)

theorem discreet_checkOutput : Harmless Op.Discreet checkOutput :=
  (harmless_perform id).bind fun _ => harmless_raiseIf _

theorem triple_runCheckAnchor :
    Triple Calm (runCheckAnchor parsers targetUID after offset)
      (Returned parsers turns (.checkAnchor targetUID after offset))
      (fun _ history _ => Law parsers turns (.checkAnchor targetUID after offset) history) := by
  have hcalm := kept_calm kept_early
  refine discreet_checkOutput.then hcalm Calm.law fun _ => ?_
  refine triple_seeFirst hcalm id Calm.law fun rows => ?_
  refine triple_bind (triple_parse fun error history self h => Calm.law error history self h.1)
    fun earliest => triple_given fun hearliest => ?_
  refine triple_bind (triple_parse fun error history self h => Calm.law error history self h.1)
    fun selected => triple_given fun hselected => ?_
  cases selected with
  | none => exact triple_pure fun _ _ h => ⟨Calm.law default _ _ h.1, fun hcode => nomatch hcode⟩
  | some anchor =>
    refine triple_see hcalm id Calm.law fun _ => triple_pure fun history self h => ?_
    exact ⟨Calm.law default _ _ h.1, fun _ => ⟨h.1.2, rows, earliest, anchor, hearliest,
      valueError_ok hselected, h.2⟩⟩

theorem triple_releaseFrom :
    Triple Calm
      (do
        let earliest ← ofExcept (epochOf parsers (.string after))
        releaseGate parsers ⟨targetUID, earliest, offset, timeout⟩ url (fun _ => pure ()) none
          turns)
      (fun gate history self => ∃ earliest, (Early history self ∧
        Released ⟨targetUID, earliest, offset, timeout⟩ none gate history) ∧
          epochOf parsers (.string after) = .ok earliest)
      (fun _ => Plain parsers (.release targetUID after offset url timeout)) := by
  have hpath : ∀ path ∈ (none : Option File), ∀ document,
      (Op.exclusiveJson path document).Discreet := fun _ hmem => nomatch hmem
  refine triple_bind (triple_parse fun _ _ _ h => ⟨h.1, .inl h.2⟩)
    fun earliest => triple_given fun hearliest => ?_
  refine (triple_releaseGate parsers url turns kept_early hpath fun _ => harmless_pure _).weaken
    (fun _ _ => id) (fun _ _ _ h => ⟨earliest, h, hearliest⟩) fun _ _ _ h => ⟨h.1, ?_⟩
  exact h.2.once (.release targetUID after offset url timeout) hearliest

theorem triple_runRelease :
    Triple Calm (runRelease parsers targetUID after offset url timeout turns)
      (Returned parsers turns (.release targetUID after offset url timeout))
      (fun _ history _ =>
        Law parsers turns (.release targetUID after offset url timeout) history) := by
  have hcalm := kept_calm kept_early
  refine discreet_checkOutput.then hcalm Calm.law fun _ => ?_
  refine (harmless_raiseIf _).then hcalm Calm.law fun _ => ?_
  refine triple_bind (triple_tryCatch
    (triple_releaseFrom parsers turns targetUID after offset url timeout) fun error => ?_)
    fun gate => triple_exists fun earliest => triple_given fun hearliest => ?_
  · refine triple_ite (fun _ => ?_) fun _ => triple_throw (Plain.law error)
    refine (harmless_perform id).then kept_plain Plain.law fun finishedAt => ?_
    exact (harmless_perform id).then kept_plain Plain.law fun _ => triple_throw (Plain.law error)
  · have hplain : ∀ {history self}, Early history self →
        Released ⟨targetUID, earliest, offset, timeout⟩ none gate history →
          Plain parsers (.release targetUID after offset url timeout) history self :=
      fun hearly hreleased => ⟨hearly, hreleased.once.once
        (.release targetUID after offset url timeout) hearliest⟩
    refine triple_bind (triple_perform (fun history self h r => ?_) fun history self h error => ?_)
      fun _ => triple_pure fun _ _ => id
    · have hreleased := h.2.concat ⟨.exclusiveJson .output (.gate gate), .ok r⟩ rfl
      have hlaw : Law parsers turns _ _ := Plain.law default _ _
        (hplain (kept_early _ _ _ (.ok r) (.inr id) h.1) hreleased)
      refine ⟨hlaw, fun _ => ⟨earliest, gate, hearliest, hreleased, ?_⟩⟩
      exact List.mem_append_right _ List.mem_cons_self
    · exact Plain.law error _ _ (hplain (kept_early _ _ _ _ (.inr id) h.1) (h.2.concat _ rfl))

/-- What holds of every command, from a fresh start. -/
theorem triple_main (arguments : Command) :
    Triple (fun history self => history = [] ∧ self = .initial) (main parsers turns arguments)
      (Returned parsers turns arguments)
      (fun _ history _ => Law parsers turns arguments history) := by
  have hcommand : Triple (fun history self => history = [] ∧ self = .initial)
      (command parsers turns arguments) (Returned parsers turns arguments)
      (fun _ history _ => Law parsers turns arguments history) := by
    cases arguments with
    | checkAnchor targetUID after offset =>
      exact (triple_runCheckAnchor parsers turns targetUID after offset).of_imp calm_initial
    | release targetUID after offset url timeout =>
      exact (triple_runRelease parsers turns targetUID after offset url timeout).of_imp
        calm_initial
    | observe args =>
      refine triple_bind (triple_unless fun error history self h =>
        Calm.law error history self (calm_initial history self h)) fun _ => triple_given fun _ => ?_
      refine (triple_observe parsers args turns).weaken (fun _ _ => id) (fun code history self h =>
        ⟨⟨h.1.once, h.1.receipts⟩, fun hcode => ?_⟩) fun _ _ _ h => h.law
      refine h.1.succeeded (by_contra fun hfailed => ?_)
      rw [h.2, if_neg hfailed] at hcode
      cases hcode
  refine triple_tryCatch hcommand fun error => triple_ite (fun _ => ?_) fun _ => triple_throw ?_
  · exact triple_pure fun _ _ h => ⟨h, fun hcode => nomatch hcode⟩
  · exact fun _ _ => id

end Commands

/-- Every execution of a command, finished or not, obeys its law; its exit code tells more. -/
theorem law_of_exec {W : Type} {S : Semantics W Op fun op => Except PyError op.Result}
    {parsers : Parsers} {turns : ℕ} {arguments : Command} {w w' : W}
    {events : List (Event W Op fun op => Except PyError op.Result)}
    {result : Option (Except PyError ℕ × Supervisor)}
    (hexec : Exec S w ((main parsers turns arguments).run.run .initial) events result w') :
    ∃ more, Law parsers turns arguments (answersOf events ++ more) := by
  have hends := triple_main parsers turns arguments [] .initial ⟨rfl, rfl⟩
  obtain ⟨⟨r, self⟩, more, h⟩ := Ends.of_exec_prefix hexec hends
  refine ⟨more, ?_⟩
  rw [List.nil_append] at h
  cases r with
  | error error => exact h
  | ok code => exact h.1

/-! ### The world of a launch -/

structure Bench where
  monotonic : ℤ
  written : List StreamRow
  stopped : Bool

/-- Time does not go back, rows are appended, and a stop request stays. -/
structure Bench.Later (b b' : Bench) : Prop where
  monotonic : b.monotonic ≤ b'.monotonic
  written : b.written <+: b'.written
  stopped : b.stopped = true → b'.stopped = true

theorem Bench.Later.refl (b : Bench) : b.Later b := ⟨le_rfl, List.prefix_refl _, id⟩

theorem Bench.Later.trans {a b c : Bench} (hab : a.Later b) (hbc : b.Later c) : a.Later c :=
  ⟨hab.monotonic.trans hbc.monotonic, hab.written.trans hbc.written,
    fun h => hbc.stopped (hab.stopped h)⟩

/-- What an answer tells of the bench while the operation took place. -/
def Tells (offset : ℤ) (b b' : Bench) : Reply → Prop
  | ⟨.monotonic, .ok now⟩ => b.monotonic ≤ now ∧ now ≤ b'.monotonic
  | ⟨.time, .ok now⟩ => b.monotonic + offset ≤ now ∧ now ≤ b'.monotonic + offset
  | ⟨.stopIsSet, .ok stopped⟩ =>
    (b.stopped = true → stopped = true) ∧ (stopped = true → b'.stopped = true)
  | ⟨.readObservations, .ok rows⟩ => rows <+: b'.written
  | ⟨.goOn, _⟩ => False
  | _ => True

section Bench

variable {offset : ℤ} {parsers : Parsers} {turns : ℕ} {arguments : Command} {b b' : Bench}
  {events : List (Event Bench Op fun op => Except PyError op.Result)}
  {result : Option (Except PyError ℕ × Supervisor)}

end Bench

/-! A release that waits for its phase. -/

def k6Status (status : ℤ) (paused : Bool) : Json :=
  .object [("data", .object [("attributes", .object
    [("status", .int status), ("paused", .bool paused), ("running", .bool false),
      ("stopped", .bool false)])])]

/-- Everything answers at once, but a wait takes 600 ms. The wall clock starts at 104 s. -/
def answerRelease (b : Bench) : (op : Op) → Option (Except PyError op.Result × Bench)
  | .monotonic => some (.ok b.monotonic, b)
  | .time => some (.ok (b.monotonic + 104000000), b)
  | .stopIsSet => some (.ok b.stopped, b)
  | .stopWait _ => some (.ok (), { b with monotonic := b.monotonic + 600000 })
  | .fileExists _ => some (.ok false, b)
  | .exclusiveJson _ _ => some (.ok (), b)
  | .utc => some (.ok "now", b)
  | .k6 .get _ => some (.ok (k6Status 4 true), b)
  | .k6 .patch _ => some (.ok (k6Status 7 false), b)
  | .readObservations => some (.ok b.written, b)
  | _ => none

/-- An instant is late or warm, and every address that of k6. -/
def launchParsers : Parsers where
  fromisoformat text := .ok (some (if text = "late" then 104000000 else 70000000))
  urlsplit _ := .ok ⟨"http", some "127.0.0.1", none, none, ""⟩

/-- Every status receipt that a command writes is its last operation and tells the truth: which
processes are gone and whether one was killed, which errors there were, and whether a release was
acknowledged and its gate document written. An exit code of zero means that the command did what it
is for. -/
theorem main_receipts_truthful {W : Type} {S : Semantics W Op fun op => Except PyError op.Result}
    {parsers : Parsers} {turns : ℕ} {arguments : Command} {w w' : W}
    {events : List (Event W Op fun op => Except PyError op.Result)}
    {result : Option (Except PyError ℕ × Supervisor)}
    (hexec : Exec S w ((main parsers turns arguments).run.run .initial) events result w') :
    Receipts parsers turns arguments (answersOf events) ∧
      ∀ self, result = some (.ok 0, self) → Succeeded parsers arguments (answersOf events) := by
  constructor
  · obtain ⟨more, -, hreceipts⟩ := law_of_exec hexec
    intro before status r after hsplit
    have hhistory : answersOf events ++ more = before ++
        ⟨.exclusiveJson .status (.status status), r⟩ :: (after ++ more) := by
      rw [hsplit, List.append_assoc, List.cons_append]
    obtain ⟨hnil, htruthful⟩ := hreceipts _ _ _ _ hhistory
    exact ⟨(List.append_eq_nil_iff.mp hnil).1, htruthful⟩
  · rintro self rfl
    have hends := triple_main parsers turns arguments [] .initial ⟨rfl, rfl⟩
    exact (hends.of_exec hexec).2 rfl

/-! A supervisor whose observer and port forward have to be stopped, and stop cleanly. -/

def supervisorArgs : Args where
  targetUID := "target"
  phpaUID := "policy"
  requeueSeconds := 30
  offsetSeconds := 2
  pair := 1
  slot := 1
  context := "kind-phpa-cadence-a"
  prometheusAddress := "http://127.0.0.1:9090"
  cpuBinary := "observe-cpu"
  cpuSHA256 := .ofList (.replicate 64 'a')
  stopFile := "cadence-cpu-stop"
  kubectl := "kubectl"

def supervisorDocument : File → Json
  | .baselinePlan => .object
    [("protocol_version", .string "cadence-pilot-v1"), ("requeue_seconds", .int 30),
      ("controller_binary_sha256", .string "b"), ("target_uid", .string "target"),
      ("phpa_uid", .string "policy")]
  | .controllerCommand => .object
    [("requeue_seconds", .int 30), ("args", .array [.string "--requeue-interval=30s"]),
      ("binary_sha256", .string "b")]
  | _ => .object [("released_at", .string "warm")]

def runnerPod : Json :=
  .object [("items", .array [.object
    [("metadata", .object [("name", .string "phpa-k6-a"), ("namespace", .string "default"),
        ("uid", .string "pod"), ("labels", .object [("benchmark-run", .string "phpa-k6-a")])]),
      ("status", .object [("conditions", .array [.object
        [("type", .string "Ready"), ("status", .string "True")]])])]])]

/-- The bench is told to stop once the release was requested. -/
def answerSupervisor (b : Bench) : (op : Op) → Option (Except PyError op.Result × Bench)
  | .isDirectory => some (.ok true, b)
  | .fileExists file => some (.ok (file == .runner || (file == .stop && b.stopped)), b)
  | .stopIsSet => some (.ok false, b)
  | .readJson file => some (.ok (supervisorDocument file), b)
  | .readRunner => some (.ok (some (.object
      [("pod", .string "phpa-k6-a"), ("script", .string "cadence.js")])), b)
  | .sha256 => some (.ok supervisorArgs.cpuSHA256, b)
  | .openNew _ => some (.ok (), b)
  | .closeStreams => some (.ok (), b)
  | .popen _ _ => some (.ok (), b)
  | .poll _ => some (.ok none, b)
  | .waitFor _ _ => some (.ok (.ok 0), b)
  | .terminate _ => some (.ok (), b)
  | .getPod _ => some (.ok ⟨0, "", .ok runnerPod⟩, b)
  | .writeControl _ => some (.ok (), b)
  | .readForwardLog => some (.ok "Forwarding from 127.0.0.1:40000 -> 6565", b)
  | .readState => some (.ok [.object [("status", .string "success"),
      ("request_finished_at", .string "late"), ("response", .null)]], b)
  | .readyReceipt _ => some (.ok true, b)
  | .k6 .patch _ => some (.ok (k6Status 7 false), { b with stopped := true })
  | op => answerRelease b op

def supervisorRun :=
  simulate answerSupervisor ⟨0, partialRows, false⟩
    ((main launchParsers 5 (.observe supervisorArgs)).run.run .initial)

/-- It exits with zero, after its one release was acknowledged and both processes were stopped. -/
theorem main_receipts_truthful_stopped :
    Receipts launchParsers 5 (.observe supervisorArgs) (answersOf supervisorRun.1) ∧
      Succeeded launchParsers (.observe supervisorArgs) (answersOf supervisorRun.1) := by
  let world : Semantics Bench Op fun op => Except PyError op.Result :=
    { perform := fun b op r b' => answerSupervisor b op = some (r, b')
      interfere := fun _ _ => False }
  have hexec := exec_simulate (S := world) (fun _ _ _ _ => id) ⟨0, partialRows, false⟩
    ((main launchParsers 5 (.observe supervisorArgs)).run.run .initial)
  have hcode : (supervisorRun.2.1.any fun r => match r.1 with
      | .ok code => code == 0
      | .error _ => false) = true := by decide +kernel
  obtain ⟨hreceipts, hsucceeded⟩ := main_receipts_truthful hexec
  refine ⟨hreceipts, ?_⟩
  obtain ⟨⟨r, self⟩, hresult, hr⟩ := (Option.any_eq_true _ _).mp hcode
  cases r with
  | error error => cases hr
  | ok code =>
    obtain rfl : code = 0 := by simpa using hr
    exact hsucceeded self hresult

end Autoscaler.CadenceLaunch
