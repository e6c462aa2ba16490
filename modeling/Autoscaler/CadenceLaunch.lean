import Autoscaler.Analysis.LaunchAnchor
import Autoscaler.Library.Histories
import Autoscaler.LiveCampaign

/-! The launcher of `hack/observe_cadence.py`, which releases a paused load generator at its
assigned phase, and the supervisor around it. Times are in microseconds. -/
namespace Autoscaler.CadenceLaunch

open Effects Raising LiveCampaign MetricsProvider Analysis

instance : Inhabited PyError := ⟨⟨.otherException "", ""⟩⟩

/-- `status` and `stop` are `cadence-status.json` and `cadence-stop`; `output` is the file that
`check-anchor` and `release` write. -/
inductive File where
  | plan
  | status
  | gate
  | cpuRows
  | cpuLog
  | observerReady
  | stop
  | cpuStop
  | forwardLog
  | control
  | gateAttempt
  | baselinePlan
  | controllerCommand
  | baselineGate
  | runner
  | output
  deriving DecidableEq

inductive Process where
  | cpu
  | forward
  deriving DecidableEq

inductive Method where
  | get
  | patch
  deriving DecidableEq

/-- The gate document, whose later members are absent at first. -/
structure Gate where
  anchor : Anchor
  releaseRequestStartedAt : Option String
  releaseResponse : Option Json
  releaseRequestFinishedAt : Option String
  status : Option String
  warmReadyAt : Option Json
  runnerReadyAt : Option String

def Gate.ofAnchor (anchor : Anchor) : Gate := ⟨anchor, none, none, none, none, none, none⟩

structure Args where
  targetUID : UID
  phpaUID : UID
  requeueSeconds : ℕ
  offsetSeconds : ℤ
  pair : ℕ
  slot : ℕ
  context : String
  prometheusAddress : String
  cpuBinary : String
  cpuSHA256 : String
  stopFile : String
  kubectl : String

structure Status where
  status : String
  errors : List String
  gateReleased : Bool
  ownedProcessesStopped : Bool
  startedAt : String
  finishedAt : String

inductive Document where
  | plan (args : Args) (startedAt : String)
  | started (at_ : String)
  | stopped (at_ : String)
  | gate (gate : Gate)
  | status (status : Status)
  | failed (error finishedAt : String)

structure Completed where
  returncode : ℤ
  stderr : String
  response : Except PyError Json

inductive Control where
  | runnerPod (startedAt finishedAt : String) (returncode : ℤ) (stderr : String)
      (response : Option Json)
  | response (startedAt finishedAt : String) (response : Json)
  | error (startedAt finishedAt text : String)

/-- `goOn` is what a loop does after the turns that are looked at. -/
inductive Op where
  | utc
  | monotonic
  | time
  | stopIsSet
  | stopWait (duration : ℤ)
  | isDirectory
  | fileExists (file : File)
  | exclusiveJson (file : File) (document : Document)
  | readJson (file : File)
  | readRunner
  | sha256
  | openNew (file : File)
  | closeStreams
  | popen (process : Process) (arguments : List String)
  | poll (process : Process)
  | waitFor (process : Process) (timeout : ℕ)
  | terminate (process : Process)
  | kill (process : Process)
  | getPod (arguments : List String)
  | writeControl (entry : Control)
  | readForwardLog
  | k6 (method : Method) (url : String)
  | readObservations
  | readState
  | readyReceipt (response : Json)
  | goOn

/-- `readRunner` returns nothing for a text that is not JSON, `waitFor` the text of its
`TimeoutExpired`, `readyReceipt` whether there is a receipt. -/
@[reducible] def Op.Result : Op → Type
  | utc => String
  | monotonic | time => ℤ
  | stopIsSet | isDirectory | fileExists _ => Bool
  | stopWait _ | exclusiveJson _ _ | openNew _ | closeStreams | popen _ _ => Unit
  | readJson _ => Json
  | readRunner => Option Json
  | sha256 => String
  | poll _ => Option ℤ
  | waitFor _ _ => Except String ℤ
  | terminate _ | kill _ | writeControl _ => Unit
  | getPod _ => Completed
  | readForwardLog => String
  | k6 _ _ => Json
  | readObservations => List StreamRow
  | readState => List Json
  | readyReceipt _ => Bool
  | goOn => Empty

/-- The variables of `observe` that its `finally` block reads. -/
structure Supervisor where
  errors : List String
  processes : List Process
  gateReleased : Bool
  cleaned : Bool

abbrev LaunchM := Script Op Op.Result PyError Supervisor

/-- `urlsplit`, without the parts that nobody reads. -/
structure SplitResult where
  scheme : String
  hostname : Option String
  username : Option String
  password : Option String
  path : String

/-- Functions of the standard library; an instant without a zone is `none`. -/
structure Parsers where
  fromisoformat : String → Except PyError (Option ℤ)
  urlsplit : String → Except PyError SplitResult

/-! ### Documents -/

def truthy : Json → Bool
  | .null => false
  | .bool value => value
  | .int value => value != 0
  | .float value => value != 0
  | .string value => value != ""
  | .array items => !items.isEmpty
  | .object members => !members.isEmpty

/-- `document.get(key, default)` -/
def getOr (key : String) (default : Json) : Json → Except PyError Json
  | .object members => .ok ((members.lookup key).getD default)
  | document => document.get key

/-- What `for value in document` runs over. -/
def iterate : Json → Except PyError (List Json)
  | .array items => .ok items
  | .object members => .ok (members.map fun entry => .string entry.1)
  | .string text => .ok (text.toList.map fun c => .string (.singleton c))
  | document => .error ⟨.typeError, s!"'{document.typeName}' object is not iterable"⟩

/-- `pods[0]`, when there is one. -/
def only (pods : Json) : Except PyError Json :=
  let ambiguous : PyError := ⟨.valueError, "Ambiguous k6 Pod identity"⟩
  match pods with
  | .array [pod] => .ok pod
  | .object [_] => .error ⟨.keyError, "0"⟩
  | .string text =>
    match text.toList with
    | [c] => .ok (.string (.singleton c))
    | _ => .error ambiguous
  | .array _ | .object _ => .error ambiguous
  | document => .error ⟨.typeError, s!"object of type '{document.typeName}' has no len()"⟩

/-- `or` over tests that may raise. -/
def anyOf : List (Except PyError Bool) → Except PyError Bool
  | [] => .ok false
  | test :: rest => do if ← test then return true else anyOf rest

def isBool (value : Bool) : Json → Bool
  | .bool b => b == value
  | _ => false

def startsWith (leading : String) : Json → Except PyError Bool
  | .string text => .ok (leading.toList.isPrefixOf text.toList)
  | document =>
    .error ⟨.attributeError, s!"'{document.typeName}' object has no attribute 'startswith'"⟩

def differs (document : Json) (key : String) (expected : Json) : Except PyError Bool := do
  return (← document.getItem key) != expected

def runnerIsReady (response : Json) : Except PyError Bool := do
  let data ← response.getItem "data"
  let attributes ← data.getItem "attributes"
  let status ← attributes.get "status"
  let paused ← attributes.get "paused"
  let running ← attributes.get "running"
  let stopped ← attributes.get "stopped"
  return status == .int 4 && isBool true paused && isBool false running && isBool false stopped

/-- k6 runs after a release: neither paused nor stopped. -/
def acknowledged (response : Json) : Except PyError Bool := do
  let data ← response.getItem "data"
  let attributes ← data.getItem "attributes"
  let paused ← attributes.get "paused"
  let stopped ← attributes.get "stopped"
  return isBool false paused && isBool false stopped

/-- The declared cadence or an identity is not that of the running controller. -/
def differsFromController (args : Args) (base command : Json) : Except PyError Bool :=
  anyOf
    [differs base "protocol_version" (.string "cadence-pilot-v1"),
      differs base "requeue_seconds" (.int args.requeueSeconds),
      differs command "requeue_seconds" (.int args.requeueSeconds),
      (do
        let arguments ← iterate (← command.getItem "args")
        let intervals ← arguments.filterM (startsWith "--requeue-interval=")
        return Json.array intervals !=
          .array [.string s!"--requeue-interval={args.requeueSeconds}s"]),
      (do
        let binary ← command.getItem "binary_sha256"
        let declared ← base.getItem "controller_binary_sha256"
        return binary != declared),
      differs base "target_uid" (.string args.targetUID),
      differs base "phpa_uid" (.string args.phpaUID)]

/-- `[a-f0-9]{64}` -/
def isDigest (text : String) : Bool :=
  text.length == 64 && text.toList.all fun c => ('a' ≤ c && c ≤ 'f') || ('0' ≤ c && c ≤ '9')

/-- `phpa-k6-[a-z0-9-]+` -/
def isPodName (text : String) : Bool :=
  let leading := "phpa-k6-"
  leading.toList.isPrefixOf text.toList && leading.length < text.length &&
    (text.toList.drop leading.length).all fun c =>
      ('a' ≤ c && c ≤ 'z') || ('0' ≤ c && c ≤ '9') || c == '-'

def assignedRunner (runner : Json) : Except PyError String := do
  match ← runner.getItem "pod" with
  | .string name =>
    if !isPodName name then .error ⟨.valueError, "Unexpected cadence k6 runner identity"⟩
    else
      let script ← runner.get "script"
      if script != .string "cadence.js" then
        .error ⟨.valueError, "Unexpected cadence k6 runner identity"⟩
      else return name
  | pod =>
    .error ⟨.typeError, s!"expected string or bytes-like object, got '{pod.typeName}'"⟩

/-- The one pod that was read is the assigned one and ready; `false` is not yet. -/
def podIsReady (runner : String) (response : Json) : Except PyError Bool := do
  let pods ← response.getItem "items"
  if !truthy pods then return false
  else
    let pod ← only pods
    let metadata ← pod.getItem "metadata"
    let changed ← anyOf
      [differs metadata "name" (.string runner),
        differs metadata "namespace" (.string "default"),
        (do return !truthy (← metadata.get "uid")),
        (do return truthy (← metadata.get "deletionTimestamp")),
        (do
          let labels ← getOr "labels" (.object []) metadata
          return (← labels.get "benchmark-run") != .string runner)]
    if changed then .error ⟨.valueError, "Assigned k6 Pod identity changed"⟩
    else
      let status ← getOr "status" (.object []) pod
      let phase ← status.get "phase"
      if phase == .string "Failed" || phase == .string "Succeeded" then
        .error ⟨.runtimeError, "Assigned k6 Pod finished before its launch gate"⟩
      else
        let conditions ← iterate (← getOr "conditions" (.array []) status)
        anyOf (conditions.map fun c => do
          if (← c.get "type") == .string "Ready" then return (← c.get "status") == .string "True"
          else return false)

/-- The port of the first "Forwarding from 127.0.0.1:(\d+) -> 6565" in a text. -/
def forwardedPort : List Char → Option String
  | [] => none
  | c :: rest =>
    let leading := "Forwarding from 127.0.0.1:".toList
    let digits := ((c :: rest).drop leading.length).takeWhile Char.isDigit
    let after := (c :: rest).drop (leading.length + digits.length)
    if leading.isPrefixOf (c :: rest) && !digits.isEmpty && " -> 6565".toList.isPrefixOf after then
      some (.ofList digits)
    else forwardedPort rest

section Launch

variable (parsers : Parsers)

def epochOf : Json → Except PyError ℤ
  | .string text => do
    let zoned := text.toList.flatMap fun c => if c = 'Z' then "+00:00".toList else [c]
    match ← parsers.fromisoformat (.ofList zoned) with
    | some instant => return instant
    | none => .error ⟨.valueError, "Timestamps require a timezone"⟩
  | _ => .error ⟨.valueError, "Timestamp must be an explicit string"⟩

/-- The checks of the gate raise `ValueError`. -/
def valueError {α : Type} : Except String α → Except PyError α
  | .ok a => .ok a
  | .error text => .error ⟨.valueError, text⟩

def k6Request (url : String) (method : Method) : LaunchM Json := do
  let parts ← ofExcept (parsers.urlsplit url)
  raiseIf (parts.scheme ≠ "http" ∨ parts.hostname ≠ some "127.0.0.1" ∨
      parts.username.any (· != "") ∨ parts.password.any (· != "") ∨ parts.path ≠ "")
    ⟨.valueError, "k6 control must use the owned localhost port-forward"⟩
  perform (Op.k6 method url)

def goOn {α : Type} : LaunchM α := do
  let never ← perform Op.goOn
  nomatch never

/-- `not stop.is_set() and time.monotonic() < deadline` -/
def runningUntil (deadline : ℤ) : LaunchM Bool := do
  if ← perform Op.stopIsSet then return false
  else return decide ((← perform Op.monotonic) < deadline)

/-! ### The launch gate -/

/-- What a gate is for: the target, the earliest start and the offset of its anchor, and the time
it may take. -/
structure Assignment where
  targetUID : UID
  after : ℤ
  offset : ℤ
  timeout : ℤ

def awaitPhase (target deadline : ℤ) (turns : ℕ) : LaunchM Unit :=
  loop goOn (fun _ => do
    if ← runningUntil (min target deadline) then
      let now ← perform Op.monotonic
      perform (Op.stopWait (min 50000 (max 0 (target - now))))
      return .inl ()
    else return .inr ()) turns ()

/-- What follows the loop of `release_gate`. -/
def gateExpired {α : Type} : LaunchM α := do
  let stopped ← perform Op.stopIsSet
  raiseIf stopped ⟨.runtimeError, "Cadence source gate was interrupted"⟩
  throw ⟨.osError, "Cadence source gate exceeded its deadline"⟩

def writeAttempt (gate : Gate) : Option File → LaunchM Unit
  | none => pure ()
  | some path => perform (Op.exclusiveJson path (.gate gate))

/-- The release, which is never tried again. -/
def requestRelease (url : String) (attemptPath : Option File) (gate : Gate) : LaunchM Gate := do
  let startedAt ← perform Op.utc
  let gate := { gate with releaseRequestStartedAt := some startedAt }
  writeAttempt gate attemptPath
  let response ← k6Request parsers url .patch
  let finishedAt ← perform Op.utc
  let running ← ofExcept (acknowledged response)
  raiseIf (running = false) ⟨.valueError, "k6 did not acknowledge its assigned release"⟩
  return { gate with
    releaseResponse := some response
    releaseRequestFinishedAt := some finishedAt
    status := some "released" }

/-- The rest of a turn that found an anchor. -/
def releaseAt (url : String) (deadline : ℤ) (check : Gate → LaunchM Unit)
    (attemptPath : Option File) (turns : ℕ) (anchor : Anchor) : LaunchM Gate := do
  let now ← perform Op.time
  raiseIf (anchor.plannedOnsetUnix ≤ now)
    ⟨.valueError, "Assigned source anchor is too old to meet its frozen phase"⟩
  let monotonic ← perform Op.monotonic
  let wall ← perform Op.time
  awaitPhase (monotonic + anchor.plannedOnsetUnix - wall) deadline turns
  if ← perform Op.stopIsSet then gateExpired
  else
    let now ← perform Op.monotonic
    raiseIf (deadline ≤ now)
      ⟨.osError, "Cadence source gate exceeded its deadline before release"⟩
    check (.ofAnchor anchor)
    requestRelease parsers url attemptPath (.ofAnchor anchor)

def gateTurn (assignment : Assignment) (url : String) (deadline : ℤ)
    (check : Option Gate → LaunchM Unit) (attemptPath : Option File) (turns : ℕ) :
    LaunchM (Unit ⊕ Gate) := do
  if ← runningUntil deadline then
    check none
    let rows ← perform Op.readObservations
    let selected ← ofExcept (valueError
      (selectAnchor rows assignment.targetUID assignment.after assignment.offset))
    match selected with
    | none =>
      perform (Op.stopWait 50000)
      return .inl ()
    | some anchor =>
      .inr <$> releaseAt parsers url deadline (fun gate => check (some gate)) attemptPath turns
        anchor
  else gateExpired

def releaseGate (assignment : Assignment) (url : String) (check : Option Gate → LaunchM Unit)
    (attemptPath : Option File) (turns : ℕ) : LaunchM Gate := do
  let started ← perform Op.monotonic
  let response ← k6Request parsers url .get
  let ready ← ofExcept (runnerIsReady response)
  raiseIf (ready = false)
    ⟨.valueError, "k6 has not completed initialization in its paused state"⟩
  loop goOn
    (fun _ => gateTurn parsers assignment url (started + assignment.timeout) check attemptPath
      turns) turns ()

/-! ### The supervisor -/

section Observe

variable (args : Args)

/-- The rows after the anchor, which must stay accepted, complete and idle. -/
def checkLater (anchor : StreamRow) (expected : Sources) : List StreamRow → Except PyError Unit
  | [] => .ok ()
  | row :: rest =>
    if !isObservation row then checkLater anchor expected rest
    else
      match row.sequence, anchor.sequence with
      | some sequence, some last =>
        if sequence ≤ last then checkLater anchor expected rest
        else
          let changed : PyError := ⟨.valueError, "Verified CPU coverage or idle condition " ++
            "changed while waiting for the assigned phase"⟩
          if row.observation.status ≠ "success" then .error changed
          else
            match sourceSet row.observation args.targetUID with
            | .error text => .error ⟨.valueError, text⟩
            | .ok current =>
              if !sameKeys current expected || notIdle row.observation then .error changed
              else checkLater anchor expected rest
      | _, _ => .error ⟨.typeError, "'<=' not supported between instances"⟩

def checkAnchor (anchor : StreamRow) : LaunchM Unit := do
  let expected ← ofExcept (valueError (sourceSet anchor.observation args.targetUID))
  raiseIf (notIdle anchor.observation)
    ⟨.valueError, "Verified CPU source anchor is no longer idle"⟩
  let rows ← perform Op.readObservations
  ofExcept (checkLater args anchor expected rows)

/-- The last Kubernetes state is recent, and the warm target still ready in it. -/
def checkState : LaunchM Unit := do
  let rows ← perform Op.readState
  match rows.getLast? with
  | none => throw ⟨.valueError, "No current Kubernetes state evidence"⟩
  | some state =>
    let changed : PyError := ⟨.valueError, "Warm target readiness changed before release"⟩
    raiseIf (← ofExcept (differs state "status" (.string "success"))) changed
    let now ← perform Op.time
    let finishedAt ← ofExcept (do epochOf parsers (← state.getItem "request_finished_at"))
    raiseIf (4000000 < now - finishedAt) changed
    let response ← ofExcept (state.getItem "response")
    raiseIf (!(← perform (Op.readyReceipt response))) changed

def check (gate : Option Gate) : LaunchM Unit := do
  let exited : PyError := ⟨.runtimeError, "An owned observer or control process exited"⟩
  raiseIf ((← perform (Op.poll .cpu)).isSome) exited
  raiseIf ((← perform (Op.poll .forward)).isSome) exited
  checkState parsers
  match gate with
  | none => pure ()
  | some gate => checkAnchor args gate.anchor.anchor

def startProcess (process : Process) (arguments : List String) : LaunchM Unit := do
  perform (Op.popen process arguments)
  modify fun self => { self with processes := self.processes ++ [process] }

structure Startup where
  runner : Option String
  forward : Bool

def findRunner (startup : Startup) : LaunchM (Option Startup) := do
  match startup.runner with
  | some _ => return some startup
  | none =>
    if ← perform (Op.fileExists .runner) then
      match ← perform Op.readRunner with
      | none => return none
      | some document =>
        let name ← ofExcept (assignedRunner document)
        return some { startup with runner := some name }
    else return some startup

def Args.kube (args : Args) : List String :=
  [args.kubectl, "--context", args.context, "--namespace", "default"]

/-- Starts the port forward once the pod is ready; `false` is not yet. -/
def startForward (runner : String) : LaunchM Bool := do
  let startedAt ← perform Op.utc
  let pod ← perform (Op.getPod (args.kube ++ ["--request-timeout=10s", "get", "pods",
    "--field-selector", "metadata.name=" ++ runner, "-o", "json"]))
  let finishedAt ← perform Op.utc
  let receipt := Control.runnerPod startedAt finishedAt pod.returncode pod.stderr
  if pod.returncode ≠ 0 then
    perform (Op.writeControl (receipt none))
    throw ⟨.runtimeError, "Could not observe the assigned k6 Pod"⟩
  else
    let response ← ofExcept pod.response
    perform (Op.writeControl (receipt (some response)))
    if ← ofExcept (podIsReady runner response) then
      startProcess .forward (args.kube ++ ["--request-timeout=0", "port-forward",
        "pod/" ++ runner, ":6565", "--address=127.0.0.1", "--pod-running-timeout=120s"])
      return true
    else return false

/-- The forward of a runner, which may have to be started; `false` is not yet. -/
def findForward (startup : Startup) : LaunchM Bool :=
  match startup.runner, startup.forward with
  | some runner, false => startForward args runner
  | _, _ => pure true

/-- Asks k6 whether it is ready, and returns the address and the time when it is. -/
def askRunner (port : String) : LaunchM (Option (String × String)) := do
  let url := "http://127.0.0.1:" ++ port
  let startedAt ← perform Op.utc
  tryCatch
    (do
      let response ← k6Request parsers url .get
      let finishedAt ← perform Op.utc
      perform (Op.writeControl (.response startedAt finishedAt response))
      if ← ofExcept (runnerIsReady response) then return some (url, ← perform Op.utc)
      else return none)
    fun error => do
      if error.cls = .osError then
        let finishedAt ← perform Op.utc
        perform (Op.writeControl (.error startedAt finishedAt error.text))
        return none
      else throw error

def findReady (startup : Startup) : LaunchM (Option (String × String)) := do
  if startup.forward then
    raiseIf ((← perform (Op.poll .forward)).isSome)
      ⟨.runtimeError, "Owned k6 control port-forward exited"⟩
    let log ← perform Op.readForwardLog
    match forwardedPort log.toList with
    | none => return none
    | some port => askRunner parsers port
  else return none

/-- A turn of the startup loop, which leaves with the address of k6 and the time it was ready. -/
def startTurn (deadline : ℤ) (startup : Startup) :
    LaunchM (Startup ⊕ Option (String × String)) := do
  if ← runningUntil deadline then
    raiseIf ((← perform (Op.poll .cpu)).isSome)
      ⟨.runtimeError, "Verified CPU observer exited before the launch gate"⟩
    match ← findRunner startup with
    | none =>
      perform (Op.stopWait 50000)
      return .inl startup
    | some startup =>
      if ← findForward args startup then
        let startup := { startup with forward := startup.runner.isSome }
        match ← findReady parsers startup with
        | some ready => return .inr (some ready)
        | none =>
          perform (Op.stopWait 200000)
          return .inl startup
      else
        perform (Op.stopWait 200000)
        return .inl startup
  else return .inr none

def awaitWarm (after : ℤ) (turns : ℕ) : LaunchM Unit :=
  loop goOn (fun _ => do
    if (← perform Op.time) < after then
      if ← perform Op.stopIsSet then return .inr ()
      else
        check parsers args none
        perform (Op.stopWait 100000)
        return .inl ()
    else return .inr ()) turns ()

def awaitStop (turns : ℕ) : LaunchM Unit :=
  loop goOn (fun _ => do
    if ← perform Op.stopIsSet then return .inr ()
    else if ← perform (Op.fileExists .stop) then return .inr ()
    else
      raiseIf ((← perform (Op.poll .cpu)).isSome)
        ⟨.runtimeError, "CPU observer exited before collection completed"⟩
      perform (Op.stopWait 100000)
      return .inl ()) turns ()

def startAll (turns : ℕ) : LaunchM (String × String) := do
  perform (Op.openNew .cpuRows)
  perform (Op.openNew .cpuLog)
  perform (Op.openNew .forwardLog)
  perform (Op.openNew .control)
  startProcess .cpu [args.cpuBinary, "--context", args.context, "--target-uid", args.targetUID,
    "--prometheus-address", args.prometheusAddress, "--stop-file", args.stopFile]
  let startedAt ← perform Op.utc
  perform (Op.exclusiveJson .observerReady (.started startedAt))
  let started ← perform Op.monotonic
  let ready ← loop goOn (startTurn parsers args (started + 180000000)) turns ⟨none, false⟩
  match ready with
  | none => throw ⟨.runtimeError, "k6 did not initialize within the bounded startup period"⟩
  | some ready => return ready

def launch (warmReadyAt : Json) (warmTime : ℤ) (turns : ℕ) : LaunchM Unit := do
  let (url, readyAt) ← startAll parsers args turns
  let readyTime ← ofExcept (epochOf parsers (.string readyAt))
  let after := max (warmTime + 30000000) readyTime
  awaitWarm parsers args after turns
  let gate ← releaseGate parsers ⟨args.targetUID, after, args.offsetSeconds, 120000000⟩ url
    (check parsers args) (some .gateAttempt) turns
  perform (Op.exclusiveJson .gate (.gate { gate with
    warmReadyAt := some warmReadyAt
    runnerReadyAt := some readyAt }))
  modify fun self => { self with gateReleased := true }
  awaitStop turns
  raiseIf (← perform Op.stopIsSet) ⟨.runtimeError, "Cadence observer was interrupted"⟩

/-- The `try` body of `observe`. -/
def observeBody (turns : ℕ) : LaunchM Unit := do
  let frozen : PyError :=
    ⟨.valueError, "Frozen CPU observer binary identity is missing or changed"⟩
  raiseIf (isDigest args.cpuSHA256 = false) frozen
  let sha256 ← perform Op.sha256
  raiseIf (sha256 ≠ args.cpuSHA256) frozen
  let base ← perform (Op.readJson .baselinePlan)
  let command ← perform (Op.readJson .controllerCommand)
  let differs ← ofExcept (differsFromController args base command)
  raiseIf differs
    ⟨.valueError, "Declared cadence or identity differs from the running controller"⟩
  let warm ← perform (Op.readJson .baselineGate)
  let releasedAt ← ofExcept (warm.getItem "released_at")
  let warmTime ← ofExcept (epochOf parsers releasedAt)
  andFinally (launch parsers args releasedAt warmTime turns) (perform Op.closeStreams)

def addError (text : String) : LaunchM Unit :=
  modify fun self => { self with errors := self.errors ++ [text] }

def isHandled (error : PyError) : Bool :=
  match error.cls with
  | .osError | .valueError | .keyError | .typeError | .runtimeError | .subprocessError => true
  | _ => false

def observeHandled (turns : ℕ) : LaunchM Unit :=
  tryCatch (observeBody parsers args turns) fun error =>
    if isHandled error then addError error.text else throw error

def askToStop : LaunchM Unit := do
  match ← perform (Op.poll .cpu) with
  | some _ => pure ()
  | none =>
    let stoppedAt ← perform Op.utc
    perform (Op.exclusiveJson .cpuStop (.stopped stoppedAt))
    match ← perform (Op.waitFor .cpu 12) with
    | .ok code => if code ≠ 0 then addError "CPU observer did not stop cleanly" else pure ()
    | .error _ => addError "CPU observer exceeded cleanup deadline"

def stopObserver (processes : List Process) : LaunchM Unit :=
  if .cpu ∈ processes then askToStop else pure ()

def stopProcess (process : Process) : LaunchM Unit := do
  match ← perform (Op.poll process) with
  | some _ => pure ()
  | none =>
    perform (Op.terminate process)
    match ← perform (Op.waitFor process 3) with
    | .ok _ => pure ()
    | .error _ =>
      perform (Op.kill process)
      match ← perform (Op.waitFor process 3) with
      | .error text => throw ⟨.subprocessError, text⟩
      | .ok _ => modify fun self => { self with cleaned := false }

def stopProcesses : List Process → LaunchM Unit
  | [] => pure ()
  | process :: rest => do
    stopProcess process
    stopProcesses rest

def Supervisor.succeeded (self : Supervisor) : Bool :=
  self.errors.isEmpty && self.gateReleased && self.cleaned

def Supervisor.receipt (self : Supervisor) (startedAt finishedAt : String) : Status where
  status := if self.succeeded then "success" else "failed"
  errors := self.errors
  gateReleased := self.gateReleased
  ownedProcessesStopped := self.cleaned
  startedAt := startedAt
  finishedAt := finishedAt

/-- The `finally` block of `observe`. -/
def finish (startedAt : String) : LaunchM Unit := do
  let self ← get
  stopObserver self.processes
  stopProcesses self.processes.reverse
  let self ← get
  let finishedAt ← perform Op.utc
  perform (Op.exclusiveJson .status (.status (self.receipt startedAt finishedAt)))

def evidence : List File :=
  [.plan, .status, .gate, .cpuRows, .cpuLog, .observerReady, .stop, .cpuStop, .forwardLog,
    .control, .gateAttempt]

def anyExists : List File → LaunchM Bool
  | [] => pure false
  | file :: rest => do if ← perform (Op.fileExists file) then return true else anyExists rest

def observe (turns : ℕ) : LaunchM ℕ := do
  let unusable : PyError :=
    ⟨.valueError, "Cadence observer requires a run directory without old cadence evidence"⟩
  raiseIf (!(← perform Op.isDirectory)) unusable
  raiseIf (← anyExists evidence) unusable
  let startedAt ← perform Op.utc
  perform (Op.exclusiveJson .plan (.plan args startedAt))
  andFinally (observeHandled parsers args turns) (finish startedAt)
  let self ← get
  return if self.succeeded then 0 else 3

end Observe

/-! ### The commands -/

/-- The arguments of a command; `release` has the address of k6 and the timeout besides. -/
inductive Command where
  | checkAnchor (targetUID : UID) (after : String) (offset : ℤ)
  | release (targetUID : UID) (after : String) (offset : ℤ) (url : String) (timeout : ℤ)
  | observe (args : Args)

/-- `kind-phpa-cadence-[a-z0-9][a-z0-9-]*` -/
def isDedicated (context : String) : Bool :=
  let leading := "kind-phpa-cadence-"
  let name := context.toList.drop leading.length
  let plain := fun c : Char => ('a' ≤ c && c ≤ 'z') || ('0' ≤ c && c ≤ '9')
  leading.toList.isPrefixOf context.toList && name.head?.any plain &&
    name.all fun c => plain c || c == '-'

def checkOutput : LaunchM Unit := do
  raiseIf (← perform (Op.fileExists .output))
    ⟨.valueError, "Refusing to overwrite gate evidence"⟩

def runCheckAnchor (targetUID : UID) (after : String) (offset : ℤ) : LaunchM ℕ := do
  checkOutput
  let rows ← perform Op.readObservations
  let earliest ← ofExcept (epochOf parsers (.string after))
  match ← ofExcept (valueError (selectAnchor rows targetUID earliest offset)) with
  | none => return 4
  | some anchor =>
    perform (Op.exclusiveJson .output (.gate (.ofAnchor anchor)))
    return 0

/-- The handlers of `main` name its class. -/
def isReported (error : PyError) : Bool :=
  match error.cls with
  | .osError | .valueError | .keyError | .typeError | .runtimeError => true
  | _ => false

def runRelease (targetUID : UID) (after : String) (offset : ℤ) (url : String) (timeout : ℤ)
    (turns : ℕ) : LaunchM ℕ := do
  checkOutput
  raiseIf (¬ (0 < timeout ∧ timeout ≤ 120000000))
    ⟨.valueError, "Gate timeout must be positive and at most 120 seconds"⟩
  let gate ← tryCatch
    (do
      let earliest ← ofExcept (epochOf parsers (.string after))
      releaseGate parsers ⟨targetUID, earliest, offset, timeout⟩ url (fun _ => pure ()) none turns)
    fun error => do
      if isReported error then
        let finishedAt ← perform Op.utc
        perform (Op.exclusiveJson .output (.failed error.text finishedAt))
        throw error
      else throw error
  perform (Op.exclusiveJson .output (.gate gate))
  return 0

def command (turns : ℕ) : Command → LaunchM ℕ
  | .checkAnchor targetUID after offset => runCheckAnchor parsers targetUID after offset
  | .release targetUID after offset url timeout =>
    runRelease parsers targetUID after offset url timeout turns
  | .observe args => do
    raiseIf (isDedicated args.context = false)
      ⟨.valueError, "Use an explicit kind-phpa-cadence-* dedicated context"⟩
    observe parsers args turns

def main (turns : ℕ) (arguments : Command) : LaunchM ℕ :=
  tryCatch (command parsers turns arguments) fun error =>
    if isReported error then pure 3 else throw error

def Supervisor.initial : Supervisor := ⟨[], [], false, true⟩

end Launch

end Autoscaler.CadenceLaunch
