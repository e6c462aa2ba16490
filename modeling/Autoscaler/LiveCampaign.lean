import Mathlib.Data.List.Dedup
import Mathlib.Data.Rat.Defs
import Autoscaler.Library.Raising

/-! The campaign runner of `hack/run_live_campaign.py`, and what its status receipt tells. A
command with its process group, a snapshot and a file access are one operation each, and each of
them may raise. -/
namespace Autoscaler.LiveCampaign

open Effects Raising

inductive ExceptionClass where
  | osError
  | runtimeError
  | subprocessError
  | valueError
  | keyError
  | typeError
  | keyboardInterrupt
  | attributeError
  | indexError
  | otherException (name : String)
  | otherBaseException (name : String)
  deriving DecidableEq

/-- An exception, by the first of the classes above that it is an instance of, with its text. -/
structure PyError where
  cls : ExceptionClass
  text : String
  deriving DecidableEq

/-- `except Exception` takes it. -/
def PyError.isException (error : PyError) : Bool :=
  match error.cls with
  | .keyboardInterrupt | .otherBaseException _ => false
  | _ => true

/-- The handler around the campaign names its class. -/
def PyError.isNamed (error : PyError) : Bool :=
  match error.cls with
  | .osError | .valueError | .runtimeError | .keyError | .typeError | .subprocessError
  | .keyboardInterrupt => true
  | _ => false

/-- The handler around process cleanup names its class. -/
def PyError.isCleanup (error : PyError) : Bool :=
  match error.cls with
  | .osError | .runtimeError | .subprocessError => true
  | _ => false

/-- A parsed JSON document, the members of an object in the order of their keys. -/
inductive Json where
  | null
  | bool (value : Bool)
  | int (value : ℤ)
  | float (value : ℚ)
  | string (value : String)
  | array (items : List Json)
  | object (members : List (String × Json))

namespace Json

def number? : Json → Option ℚ
  | bool value => some (if value then 1 else 0)
  | int value => some value
  | float value => some value
  | _ => none

mutual

/-- `==`, which compares numbers and truth values by their value. -/
def equals : Json → Json → Bool
  | null, null => true
  | string a, string b => a == b
  | array a, array b => itemsEqual a b
  | object a, object b => membersEqual a b
  | a, b =>
    match a.number?, b.number? with
    | some a, some b => a == b
    | _, _ => false

def itemsEqual : List Json → List Json → Bool
  | [], [] => true
  | a :: as, b :: bs => equals a b && itemsEqual as bs
  | [], _ :: _ | _ :: _, [] => false

def membersEqual : List (String × Json) → List (String × Json) → Bool
  | [], [] => true
  | (key, a) :: as, (key', b) :: bs => key == key' && equals a b && membersEqual as bs
  | [], _ :: _ | _ :: _, [] => false

end

instance : BEq Json := ⟨equals⟩

def typeName : Json → String
  | null => "NoneType"
  | bool _ => "bool"
  | int _ => "int"
  | float _ => "float"
  | string _ => "str"
  | array _ => "list"
  | object _ => "dict"

/-- `document.get(key)` -/
def get (key : String) : Json → Except PyError Json
  | object members => .ok ((members.lookup key).getD null)
  | document => .error
      ⟨.attributeError, s!"'{document.typeName}' object has no attribute 'get'"⟩

/-- `document[key]` -/
def getItem (key : String) : Json → Except PyError Json
  | object members =>
    match members.lookup key with
    | some value => .ok value
    | none => .error ⟨.keyError, s!"'{key}'"⟩
  | array _ => .error ⟨.typeError, "list indices must be integers or slices, not str"⟩
  | string _ => .error ⟨.typeError, "string indices must be integers, not 'str'"⟩
  | document => .error ⟨.typeError, s!"'{document.typeName}' object is not subscriptable"⟩

end Json

/-- What a snapshot returns; `cluster` is all but the members that are looked at one by one. -/
structure ClusterState where
  namespaceUid : Json
  deploymentUid : Json
  cluster : List (String × Json)
  phpa : Json
  deriving BEq

/-- The members of an earlier terminal state that a campaign compares its fixture with. -/
structure PreviousFixture where
  deploymentUid : Json
  namespaceUid : Json
  phpa : Json

def previousFixture (document : Json) : Except PyError PreviousFixture := do
  let deploymentUid ← document.get "deployment_uid"
  let namespaceUid ← document.get "namespace_uid"
  let phpa ← document.get "phpa"
  return ⟨deploymentUid, namespaceUid, phpa⟩

/-- The identity and the spec of an applied policy, as a snapshot tells them. -/
def appliedFixture (document : Json) : Except PyError Json := do
  let metadata ← document.getItem "metadata"
  let uid ← metadata.getItem "uid"
  let spec ← document.getItem "spec"
  return .object [("spec", spec), ("uid", uid)]

inductive SlotStatus where
  | notRun
  | running
  | success
  | failed
  deriving DecidableEq

structure Treatment where
  pair : ℕ
  requeueSeconds : ℕ
  offsetSeconds : ℕ

structure Slot where
  slot : ℕ
  repetition : ℕ
  decisionMode : String
  controller : String
  treatment : Option Treatment
  status : SlotStatus
  startedAt : Option String
  finishedAt : Option String
  runDir : Option String
  analysis : Option String
  partialRunDirs : Option (List String)

def Slot.planned (slot repetition : ℕ) (mode : String × String) (treatment : Option Treatment) :
    Slot :=
  ⟨slot, repetition, mode.1, mode.2, treatment, .notRun, none, none, none, none, none⟩

inductive Status where
  | inProgress
  | success
  | failed
  deriving DecidableEq

structure CampaignStatus where
  slots : List Slot
  context : String
  startedAt : String
  status : Status
  error : Option String
  cleanupError : Option String
  finishedAt : Option String

inductive Protocol where
  | liveBaseline
  | cadencePilot
  deriving DecidableEq

structure Args where
  protocol : Protocol
  context : String
  kubeconfig : String
  output : String
  name : String
  pattern : String
  rps : ℕ
  expectedPhpaReceipt : Option String
  environ : List (String × String)
  which : String → String
  python : String
  windows : Bool

/-- The cadence pilot sets its pattern itself. -/
def Args.benchmarkPattern (args : Args) : String :=
  match args.protocol with
  | .liveBaseline => args.pattern
  | .cadencePilot => "step"

def modes : Fin 3 → String × String
  | 0 => ("Current", "phpa_current")
  | 1 => ("Predictive", "phpa")
  | 2 => ("Hybrid", "phpa_hybrid")

/-- `plan` of the live baseline: nine slots, each mode in every position. -/
def livePlan : List Slot :=
  (List.range 3).flatMap fun rep => (List.range 3).map fun offset =>
    .planned (rep * 3 + offset + 1) (rep + 1) (modes (Fin.ofNat 3 (rep + offset))) none

/-- `plan` of the cadence pilot: six slots of the current mode. -/
def cadencePlan : List Slot :=
  let assignments : List Treatment :=
    [⟨1, 30, 2⟩, ⟨1, 15, 2⟩, ⟨2, 15, 7⟩, ⟨2, 30, 7⟩, ⟨3, 30, 12⟩, ⟨3, 15, 12⟩]
  assignments.mapIdx fun i treatment =>
    .planned (i + 1) (i + 1) ("Current", "phpa_current") (some treatment)

def assignmentPlan (args : Args) : List Slot :=
  match args.protocol with
  | .liveBaseline => livePlan
  | .cadencePilot => cadencePlan

/-- The JSON files of a campaign by their names, so `slotBefore 3` is `slot-03-before.json`. -/
inductive OutputFile where
  | plan
  | initialState
  | sourceSha256
  | controllerBinary
  | cpuObserverBinary
  | slotBefore (slot : ℕ)
  | slotAfter (slot : ℕ)
  | terminalState
  | campaignStatus
  deriving DecidableEq

inductive Document where
  | status (status : CampaignStatus)
  | state (state : ClusterState)
  | sources (digests : List (String × String))
  | binary (sha256 : String)

inductive Op where
  | mkdir (directory : String)
  | writeJson (file : OutputFile) (document : Document)
  | command (label : String) (arguments : List String) (environment : List (String × String))
      (timeout : ℕ)
  | snapshot
  | readReceipt (path : String)
  | readApplied (run : String)
  | sourceIdentity
  | digest (path : String)
  | iterdirRuns
  | enterTemporary
  | exitTemporary (directory : String)
  | now
  | stopActive

/-- A command returns its output, and a reader the document it parsed. -/
@[reducible] def Op.Result : Op → Type
  | mkdir _ => Unit
  | writeJson _ _ => Unit
  | command _ _ _ _ => String
  | snapshot => ClusterState
  | readReceipt _ => Json
  | readApplied _ => Json
  | sourceIdentity => List (String × String)
  | digest _ => String
  | iterdirRuns => List String
  | enterTemporary => String
  | exitTemporary _ => Unit
  | now => String
  | stopActive => Unit

/-- The attributes of a campaign that change while it runs. -/
structure Campaign where
  status : CampaignStatus
  environment : List (String × String)

abbrev CampaignM := Script Op Op.Result PyError Campaign

def updateEnvironment (changes environment : List (String × String)) : List (String × String) :=
  changes ++ environment.filter fun entry => entry.1 ∉ changes.map Prod.fst

/-- `Campaign.__init__`, and that of the cadence pilot over it. -/
def init (args : Args) (startedAt : String) : Campaign :=
  { status := ⟨assignmentPlan args, args.context, startedAt, .inProgress, none, none, none⟩
    environment :=
      let environment := updateEnvironment
        [("KUBECONFIG", args.kubeconfig), ("BENCHMARK_CONTEXT", args.context),
          ("LIVE_BASELINE", "true"), ("LIVE_BASELINE_STARTUP_MODE", "warm"),
          ("CADENCE_PILOT", "false"), ("LIVE_BASELINE_REQUEUE_SECONDS", "30"),
          ("LATENCY_DIAGNOSTIC", "false"), ("METRIC_PIPELINE_DIAGNOSTIC", "false"),
          ("METRIC_PIPELINE_SOURCE_NODE", ""), ("BENCHMARK_PATTERNS", args.benchmarkPattern),
          ("BENCHMARK_CONTROLLERS", "phpa_current phpa phpa_hybrid"), ("BENCHMARK_REPEATS", "3"),
          ("BENCHMARK_PYTHON", args.python), ("RPS", toString args.rps),
          ("EXPERIMENTS_ROOT", args.output ++ "/runs"), ("CAMPAIGN", args.name)] args.environ
      match args.protocol with
      | .liveBaseline => environment
      | .cadencePilot => updateEnvironment
          [("CADENCE_PILOT", "true"), ("BENCHMARK_CONTROLLERS", "phpa_current")] environment }

def command (label : String) (arguments : List String) (timeout : ℕ) : CampaignM String := do
  let self ← get
  perform (Op.command label arguments self.environment timeout)

def setEnvironment (changes : List (String × String)) : CampaignM Unit :=
  modify fun self => { self with environment := updateEnvironment changes self.environment }

/-- `self.environment[name]` -/
def environmentItem (name : String) : CampaignM String := do
  let self ← get
  match self.environment.lookup name with
  | some value => pure value
  | none => throw ⟨.keyError, s!"'{name}'"⟩

def updateStatus (change : CampaignStatus → CampaignStatus) : CampaignM Unit :=
  modify fun self => { self with status := change self.status }

def setSlot (i : ℕ) (change : Slot → Slot) : CampaignM Unit :=
  updateStatus fun status => { status with slots := status.slots.modify i change }

def isSpace (c : Char) : Bool :=
  let n := c.toNat
  (9 ≤ n && n ≤ 13) || (28 ≤ n && n ≤ 32) || (0x2000 ≤ n && n ≤ 0x200a) ||
    n ∈ [0x85, 0xa0, 0x1680, 0x2028, 0x2029, 0x202f, 0x205f, 0x3000]

def strip (text : String) : String :=
  .ofList (((text.toList.dropWhile isSpace).reverse.dropWhile isSpace).reverse)

def isLineBreak (c : Char) : Bool :=
  let n := c.toNat
  (10 ≤ n && n ≤ 13) || (28 ≤ n && n ≤ 30) || n ∈ [0x85, 0x2028, 0x2029]

/-- The lines of a text; a line feed after a carriage return ends the same line. -/
def splitlines.lines (afterReturn : Bool) : List Char → List (List Char)
  | [] => []
  | c :: rest =>
    if afterReturn && c == '\n' then lines false rest
    else if isLineBreak c then [] :: lines (c == '\r') rest
    else
      match lines false rest with
      | [] => [[c]]
      | line :: more => (c :: line) :: more

def splitlines (text : String) : List String :=
  (splitlines.lines false text.toList).map .ofList

def removePrefix (leading text : String) : String :=
  if leading.toList.isPrefixOf text.toList then .ofList (text.toList.drop leading.length) else text

def Args.kube (args : Args) : List String :=
  [args.which "kubectl", "--context", args.context, "--request-timeout=20s"]

def Args.controllerBinary (args : Args) (directory : String) : String :=
  directory ++ if args.windows then "/controller.exe" else "/controller"

def Args.cpuBinary (args : Args) (directory : String) : String :=
  directory ++ if args.windows then "/observe-cpu.exe" else "/observe-cpu"

def buildExtraBinaries (args : Args) (directory : String) : CampaignM Unit :=
  match args.protocol with
  | .liveBaseline => pure ()
  | .cadencePilot => do
    let binary := args.cpuBinary directory
    let _ ← command "build-cpu-observer"
      [args.which "go", "build", "-trimpath", "-o", binary, "./cmd/observe-cpu"] 600
    let sha256 ← perform (Op.digest binary)
    setEnvironment [("CADENCE_CPU_BINARY", binary), ("CADENCE_CPU_SHA256", sha256)]
    let written ← perform (Op.digest binary)
    perform (Op.writeJson .cpuObserverBinary (.binary written))

def configureSlot (args : Args) (slot : Slot) : CampaignM Unit :=
  match args.protocol with
  | .liveBaseline => pure ()
  | .cadencePilot => do
    let binary ← environmentItem "CADENCE_CPU_BINARY"
    let sha256 ← perform (Op.digest binary)
    let pinned ← environmentItem "CADENCE_CPU_SHA256"
    raiseIf (sha256 ≠ pinned)
      ⟨.valueError, "Frozen CPU observation binary changed between slots"⟩
    match slot.treatment with
    | none => throw ⟨.keyError, "'requeue_seconds'"⟩
    | some treatment =>
      setEnvironment [("LIVE_BASELINE_REQUEUE_SECONDS", toString treatment.requeueSeconds),
        ("CADENCE_OFFSET_SECONDS", toString treatment.offsetSeconds),
        ("CADENCE_SLOT", toString slot.slot), ("CADENCE_PAIR", toString treatment.pair)]

def twoDigits (n : ℕ) : String := if n < 10 then "0" ++ toString n else toString n

def analysisPath (slot : Slot) : String := "analysis/slot-" ++ twoDigits slot.slot ++ ".json"

def analyzeSlot (args : Args) (slot : Slot) (run : String) : CampaignM Unit := do
  let runPath := args.output ++ "/runs/" ++ run
  let analysis := args.output ++ "/" ++ analysisPath slot
  let arguments := match args.protocol with
    | .liveBaseline =>
      [args.python, "hack/analyze/live_baseline.py", runPath, "--output", analysis]
    | .cadencePilot =>
      [args.python, "hack/analyze/cadence.py", "--run-dir", runPath, "--output", analysis]
  let _ ← command ("slot-" ++ twoDigits slot.slot ++ "-analysis") arguments 60

def checkContext (args : Args) : CampaignM Unit := do
  let activeContext ← command "context" (args.kube ++ ["config", "current-context"]) 60
  raiseIf (strip activeContext ≠ args.context)
    ⟨.valueError, "Isolated kubeconfig active context differs from the assigned cluster"⟩
  let names ← command "kind-clusters" [args.which "kind", "get", "clusters"] 60
  raiseIf (removePrefix "kind-" args.context ∉ splitlines names)
    ⟨.valueError, "Context does not identify a local Kind cluster"⟩

def readReceipt (path : String) : CampaignM PreviousFixture := do
  let document ← perform (Op.readReceipt path)
  ofExcept (previousFixture document)

def readApplied (run : String) : CampaignM Json := do
  let document ← perform (Op.readApplied run)
  ofExcept (appliedFixture document)

/-- The fixture that an earlier receipt authorizes. -/
def expectedFixture (initial : ClusterState) : Option String → CampaignM Json
  | none => pure .null
  | some path => do
    let previous ← readReceipt path
    raiseIf (previous.deploymentUid != initial.deploymentUid ||
        previous.namespaceUid != initial.namespaceUid)
      ⟨.valueError, "Previous fixture receipt belongs to a different cluster or target"⟩
    return previous.phpa

/-- The frozen source or the controller binary is no longer what the campaign started with. -/
def frozenChanged (binary : String) (frozenSource : List (String × String)) :
    CampaignM Bool := do
  let source ← perform Op.sourceIdentity
  if source ≠ frozenSource then pure true
  else do
    let sha256 ← perform (Op.digest binary)
    let pinned ← environmentItem "LIVE_BASELINE_CONTROLLER_SHA256"
    return sha256 != pinned

def newRun (before after : List String) : Except PyError String :=
  match (after.filter (· ∉ before)).dedup with
  | [run] => .ok run
  | [] | _ :: _ :: _ =>
    .error ⟨.valueError, "Expected exactly one new benchmark run directory"⟩

/-- The steps of a slot whose exceptions its handler sees, from its configuration on. -/
def slotSteps (args : Args) (initial : ClusterState) (frozenSource : List (String × String))
    (i : ℕ) (slot : Slot) (before : List String) : CampaignM ClusterState := do
  configureSlot args slot
  let _ ← command ("slot-" ++ twoDigits slot.slot ++ "-benchmark")
    [args.which "bash", "hack/run_benchmark.sh", args.benchmarkPattern, slot.controller,
      toString slot.repetition] 1200
  let after ← perform Op.iterdirRuns
  let run ← ofExcept (newRun before after)
  setSlot i fun slot => { slot with runDir := some ("runs/" ++ run) }
  let source ← perform Op.sourceIdentity
  raiseIf (source ≠ frozenSource) ⟨.valueError, "Frozen source changed during a slot"⟩
  analyzeSlot args slot run
  setSlot i fun slot => { slot with analysis := some (analysisPath slot) }
  let terminal ← perform Op.snapshot
  raiseIf ({ terminal with phpa := .null } != { initial with phpa := .null })
    ⟨.valueError, "Frozen cluster or workload identity changed during a slot"⟩
  let applied ← readApplied run
  raiseIf (terminal.phpa != applied)
    ⟨.valueError, "Terminal PHPA differs from the fixture owned by this slot"⟩
  perform (Op.writeJson (.slotAfter slot.slot) (.state terminal))
  let finishedAt ← perform Op.now
  setSlot i fun slot => { slot with status := .success, finishedAt := some finishedAt }
  return terminal

/-- The handler of a slot, which raises the exception again unless it raises another one. -/
def slotFailed (i : ℕ) (before : List String) (error : PyError) : CampaignM ClusterState := do
  let finishedAt ← perform Op.now
  setSlot i fun slot => { slot with status := .failed, finishedAt := some finishedAt }
  let after ← perform Op.iterdirRuns
  setSlot i fun slot => { slot with
    partialRunDirs := some ((after.filter (· ∉ before)).dedup.map ("runs/" ++ ·)) }
  throw error

def runSlot (args : Args) (binary : String) (initial : ClusterState)
    (frozenSource : List (String × String)) (i : ℕ) (slot : Slot) (previous : ClusterState) :
    CampaignM ClusterState := do
  let changed ← frozenChanged binary frozenSource
  raiseIf changed
    ⟨.valueError, "Frozen source or controller binary changed between slots"⟩
  let current ← perform Op.snapshot
  raiseIf (current != previous)
    ⟨.valueError, "Cluster, monitoring, workload or expected fixture changed between slots"⟩
  let startedAt ← perform Op.now
  setSlot i fun slot => { slot with status := .running, startedAt := some startedAt }
  perform (Op.writeJson (.slotBefore slot.slot) (.state current))
  let before ← perform Op.iterdirRuns
  tryCatch (slotSteps args initial frozenSource i slot before) fun error =>
    if error.isException then slotFailed i before error else throw error

/-- The loop over the slots, from position `i` on; it returns the state of the last snapshot. -/
def runSlots (args : Args) (binary : String) (initial : ClusterState)
    (frozenSource : List (String × String)) :
    ℕ → List Slot → ClusterState → CampaignM ClusterState
  | _, [], previous => pure previous
  | i, slot :: rest, previous => do
    let terminal ← runSlot args binary initial frozenSource i slot previous
    runSlots args binary initial frozenSource (i + 1) rest terminal

/-- What runs while the temporary directory exists. -/
def runBuilt (args : Args) (initial : ClusterState) (frozenSource : List (String × String))
    (directory : String) : CampaignM Unit := do
  let binary := args.controllerBinary directory
  let _ ← command "build-controller"
    [args.which "go", "build", "-trimpath", "-o", binary, "./cmd"] 600
  setEnvironment [("LIVE_BASELINE_CONTROLLER_BINARY", binary)]
  let sha256 ← perform (Op.digest binary)
  setEnvironment [("LIVE_BASELINE_CONTROLLER_SHA256", sha256)]
  let written ← perform (Op.digest binary)
  perform (Op.writeJson .controllerBinary (.binary written))
  buildExtraBinaries args directory
  let self ← get
  let terminal ← runSlots args binary initial frozenSource 0 self.status.slots initial
  perform (Op.writeJson .terminalState (.state terminal))

/-- The `try` body of `run`. -/
def runBody (args : Args) : CampaignM Unit := do
  checkContext args
  let initial ← perform Op.snapshot
  perform (Op.writeJson .initialState (.state initial))
  let expected ← expectedFixture initial args.expectedPhpaReceipt
  raiseIf (initial.phpa != expected)
    ⟨.valueError,
      "Unexpected initial PHPA fixture; supply its exact previous terminal-state receipt"⟩
  let frozenSource ← perform Op.sourceIdentity
  perform (Op.writeJson .sourceSha256 (.sources frozenSource))
  let directory ← perform Op.enterTemporary
  andFinally (runBuilt args initial frozenSource directory) (perform (Op.exitTemporary directory))
  updateStatus fun status => { status with status := .success }

def stopRunning (slot : Slot) : Slot :=
  if slot.status = .running then { slot with status := .failed } else slot

def cleanUp : CampaignM Unit :=
  tryCatch (perform Op.stopActive) fun error =>
    if error.isCleanup then
      updateStatus fun status =>
        { status with status := .failed, cleanupError := some error.text }
    else throw error

def finish : CampaignM Unit := do
  cleanUp
  updateStatus fun status => { status with slots := status.slots.map stopRunning }
  let finishedAt ← perform Op.now
  updateStatus fun status => { status with finishedAt := some finishedAt }
  let self ← get
  perform (Op.writeJson .campaignStatus (.status self.status))

def runHandled (args : Args) : CampaignM Unit :=
  tryCatch (runBody args) fun error =>
    if error.isNamed then
      updateStatus fun status => { status with
        status := .failed
        error := some (if error.text = "" then "Interrupted" else error.text) }
    else throw error

def run (args : Args) : CampaignM ℕ := do
  perform (Op.mkdir args.output)
  perform (Op.mkdir (args.output ++ "/commands"))
  perform (Op.mkdir (args.output ++ "/runs"))
  perform (Op.mkdir (args.output ++ "/analysis"))
  let planned ← get
  perform (Op.writeJson .plan (.status planned.status))
  andFinally (runHandled args) finish
  let self ← get
  return if self.status.status = .success then 0 else 3

/-! ### Exceptions -/

abbrev Reply := Answer Op Op.Result PyError

def errorOf {α : Type} : Except PyError α → Option PyError
  | .ok _ => none
  | .error error => some error

/-- The exception that an answer raises: its own, or the one that reading its document raises. -/
def raised : Reply → Option PyError
  | ⟨_, .error error⟩ => some error
  | ⟨.readReceipt _, .ok document⟩ => errorOf (previousFixture document)
  | ⟨.readApplied _, .ok document⟩ => errorOf (appliedFixture document)
  | ⟨_, .ok _⟩ => none

def lastRaise (replies : List Reply) : Option PyError :=
  (replies.filterMap raised).getLast?

theorem lastRaise_concat (replies : List Reply) (reply : Reply) :
    lastRaise (replies ++ [reply]) = (raised reply).or (lastRaise replies) := by
  unfold lastRaise
  rw [List.filterMap_append, List.getLast?_append]
  cases h : raised reply with
  | none => simp [h]
  | some error => simp [h]

theorem raised_error (op : Op) (error : PyError) : raised ⟨op, .error error⟩ = some error := by
  cases op <;> rfl

/-- The exception that is under way was raised last, or else a check of the campaign raised it. -/
def Ended (error : PyError) (replies : List Reply) : Prop :=
  lastRaise replies = some error ∨ (lastRaise replies = none ∧ error.isNamed)

def Calm (I : CampaignStatus → Prop) (replies : List Reply) (self : Campaign) : Prop :=
  lastRaise replies = none ∧ I self.status

def Raised (I : CampaignStatus → Prop) (error : PyError) (replies : List Reply)
    (self : Campaign) : Prop :=
  Ended error replies ∧ I self.status

/-- The script leaves the status alone, whether it returns or raises. -/
def Quiet {α : Type} (m : CampaignM α) : Prop :=
  ∀ I : CampaignStatus → Prop, Triple (Calm I) m (fun _ => Calm I) (Raised I)

section Quiet

variable {α β : Type} {I J : CampaignStatus → Prop}

theorem Calm.concat {replies : List Reply} {self : Campaign} (h : Calm I replies self)
    {reply : Reply} (hreply : raised reply = none) : Calm I (replies ++ [reply]) self := by
  refine ⟨?_, h.2⟩
  rw [lastRaise_concat, hreply, h.1]
  rfl

/-- A check that fails raises a class that the handler names. -/
theorem Calm.raised {replies : List Reply} {self : Campaign} (h : Calm I replies self)
    {error : PyError} (hnamed : error.isNamed) : Raised I error replies self :=
  ⟨.inr ⟨h.1, hnamed⟩, h.2⟩

theorem Raised.concat {error : PyError} {replies : List Reply} {self : Campaign}
    (h : Raised I error replies self) {reply : Reply} (hreply : raised reply = none) :
    Raised I error (replies ++ [reply]) self := by
  have hlast : lastRaise (replies ++ [reply]) = lastRaise replies := by
    rw [lastRaise_concat, hreply]
    rfl
  refine ⟨?_, h.2⟩
  rw [Ended, hlast]
  exact h.1

theorem raised_concat {replies : List Reply} {self : Campaign} {reply : Reply} {error : PyError}
    (hreply : raised reply = some error) (h : I self.status) :
    Raised I error (replies ++ [reply]) self := by
  refine ⟨.inl ?_, h⟩
  rw [lastRaise_concat, hreply]
  rfl

theorem Raised.imp {error : PyError} {replies : List Reply} {self : Campaign}
    (h : Raised I error replies self) (himp : ∀ status, I status → J status) :
    Raised J error replies self :=
  ⟨h.1, himp _ h.2⟩

theorem quiet_pure (a : α) : Quiet (pure a) := fun _ => triple_pure fun _ _ => id

theorem quiet_throw {error : PyError} (h : error.isNamed) : Quiet (throw error : CampaignM α) :=
  fun _ => triple_throw fun _ _ hcalm => hcalm.raised h

theorem quiet_raiseIf {condition : Prop} [Decidable condition] {error : PyError}
    (h : error.isNamed) : Quiet (raiseIf condition error) :=
  fun _ => triple_raiseIf (fun _ _ hcalm => hcalm.raised h) fun _ _ => id

theorem quiet_ofExcept {r : Except PyError α} (h : ∀ error, r = .error error → error.isNamed) :
    Quiet (ofExcept r) := by
  intro I
  refine triple_ofExcept fun replies self hcalm => ?_
  cases r with
  | ok a => exact hcalm
  | error error => exact hcalm.raised (h error rfl)

theorem newRun_error {before after : List String} {error : PyError}
    (h : newRun before after = .error error) : error.isNamed := by
  unfold newRun at h
  split at h
  · cases h
  · cases h
    rfl
  · cases h
    rfl

theorem quiet_get : Quiet get := fun _ => triple_get.weaken (fun _ _ => id) (fun _ _ _ h => h.2)
  fun _ _ _ => id

theorem Quiet.bind {m : CampaignM α} {f : α → CampaignM β} (hm : Quiet m)
    (hf : ∀ a, Quiet (f a)) : Quiet (m >>= f) :=
  fun I => triple_bind (hm I) fun a => hf a I

theorem quiet_perform {op : Op} (h : ∀ r, raised ⟨op, .ok r⟩ = none) : Quiet (perform op) :=
  fun _ => triple_perform (fun _ _ hcalm r => hcalm.concat (h r))
    fun _ _ hcalm error => raised_concat (raised_error op error) hcalm.2

/-- Reading a document raises what `raised` says of the answer. -/
theorem quiet_read {op : Op} {parse : op.Result → Except PyError α}
    (h : ∀ r, raised ⟨op, .ok r⟩ = errorOf (parse r)) :
    Quiet (do let document ← perform op; ofExcept (parse document)) := by
  intro I
  have hperform : Triple (Calm I) (perform op) (fun r => Leaves (fun _ => Calm I) (Raised I)
      (parse r)) (Raised I) := by
    refine triple_perform (fun replies self hcalm r => ?_)
      fun _ _ hcalm error => raised_concat (raised_error op error) hcalm.2
    have hr := h r
    cases hparse : parse r with
    | ok a => exact hcalm.concat (by rw [hr, hparse]; rfl)
    | error error => exact raised_concat (by rw [hr, hparse]; rfl) hcalm.2
  exact triple_bind hperform fun r => triple_ofExcept fun _ _ => id

theorem Quiet.triple {m : CampaignM α} (hm : Quiet m) (himp : ∀ status, I status → J status) :
    Triple (Calm I) m (fun _ => Calm I) (Raised J) :=
  (hm I).weaken (fun _ _ => id) (fun _ _ _ => id) fun _ _ _ h => h.imp himp

theorem Quiet.then {m : CampaignM α} {f : α → CampaignM β}
    {Q : β → List Reply → Campaign → Prop} (hm : Quiet m) (himp : ∀ status, I status → J status)
    (hf : ∀ a, Triple (Calm I) (f a) Q (Raised J)) : Triple (Calm I) (m >>= f) Q (Raised J) :=
  triple_bind (hm.triple himp) hf

theorem triple_perform_raised {op : Op} {error : PyError} (h : ∀ r, raised ⟨op, .ok r⟩ = none) :
    Triple (Raised I error) (perform op) (fun _ => Raised I error) (Raised I) :=
  triple_perform (fun _ _ hraised r => hraised.concat (h r))
    fun _ _ hraised error => raised_concat (raised_error op error) hraised.2

theorem quiet_command (label : String) (arguments : List String) (timeout : ℕ) :
    Quiet (command label arguments timeout) :=
  quiet_get.bind fun _ => quiet_perform fun _ => rfl

theorem quiet_setEnvironment (changes : List (String × String)) :
    Quiet (setEnvironment changes) :=
  fun _ => triple_modify fun _ _ h => h

theorem quiet_environmentItem (name : String) : Quiet (environmentItem name) := by
  refine quiet_get.bind fun self => ?_
  split
  · exact quiet_pure _
  · exact quiet_throw rfl

theorem quiet_buildExtraBinaries (args : Args) (directory : String) :
    Quiet (buildExtraBinaries args directory) := by
  unfold buildExtraBinaries
  split
  · exact quiet_pure _
  · refine (quiet_command _ _ _).bind fun _ => ?_
    refine (quiet_perform fun _ => rfl).bind fun _ => ?_
    refine (quiet_setEnvironment _).bind fun _ => ?_
    refine (quiet_perform fun _ => rfl).bind fun _ => ?_
    exact quiet_perform fun _ => rfl

theorem quiet_configureSlot (args : Args) (slot : Slot) : Quiet (configureSlot args slot) := by
  unfold configureSlot
  split
  · exact quiet_pure _
  · refine (quiet_environmentItem _).bind fun _ => ?_
    refine (quiet_perform fun _ => rfl).bind fun _ => ?_
    refine (quiet_environmentItem _).bind fun _ => ?_
    refine (quiet_raiseIf rfl).bind fun _ => ?_
    split
    · exact quiet_throw rfl
    · exact quiet_setEnvironment _

theorem quiet_analyzeSlot (args : Args) (slot : Slot) (run : String) :
    Quiet (analyzeSlot args slot run) :=
  (quiet_command _ _ _).bind fun _ => quiet_pure _

theorem quiet_checkContext (args : Args) : Quiet (checkContext args) := by
  refine (quiet_command _ _ _).bind fun _ => ?_
  refine (quiet_raiseIf rfl).bind fun _ => ?_
  refine (quiet_command _ _ _).bind fun _ => ?_
  exact quiet_raiseIf rfl

theorem quiet_expectedFixture (initial : ClusterState) (path : Option String) :
    Quiet (expectedFixture initial path) := by
  unfold expectedFixture
  split
  · exact quiet_pure _
  · refine (quiet_read fun _ => rfl).bind fun _ => ?_
    refine (quiet_raiseIf rfl).bind fun _ => ?_
    exact quiet_pure _

theorem quiet_frozenChanged (binary : String) (frozenSource : List (String × String)) :
    Quiet (frozenChanged binary frozenSource) := by
  refine (quiet_perform fun _ => rfl).bind fun source => ?_
  split
  · exact quiet_pure _
  · refine (quiet_perform fun _ => rfl).bind fun _ => ?_
    refine (quiet_environmentItem _).bind fun _ => ?_
    exact quiet_pure _

end Quiet

/-! ### Slots -/

/-- Slots that succeeded, at most one that a run is at or stopped at, and slots not run. -/
def Laid (done : ℕ) (current : Option SlotStatus) (pending : ℕ) (slots : List Slot) : Prop :=
  slots.map Slot.status =
    .replicate done .success ++ current.toList ++ .replicate pending .notRun

def Progress (done : ℕ) (current : Option SlotStatus) (pending : ℕ) (status : CampaignStatus) :
    Prop :=
  status.status = .inProgress ∧ Laid done current pending status.slots

def Halted (status : CampaignStatus) : Prop :=
  ∃ done current pending, Progress done current pending status

theorem Progress.halted {done pending : ℕ} {current : Option SlotStatus} {status : CampaignStatus}
    (h : Progress done current pending status) : Halted status := ⟨_, _, _, h⟩

theorem Laid.length_eq {done pending : ℕ} {slots : List Slot} (h : Laid done none pending slots) :
    slots.length = done + pending := by
  have := congrArg List.length h
  simpa using this

theorem laid_next {done pending : ℕ} {slots : List Slot} :
    Laid done none (pending + 1) slots ↔ Laid done (some .notRun) pending slots := by
  simp only [Laid, Option.toList_none, Option.toList_some, List.append_nil, List.append_assoc,
    List.replicate_succ, List.cons_append, List.nil_append]

theorem laid_success {done pending : ℕ} {slots : List Slot} :
    Laid done (some .success) pending slots ↔ Laid (done + 1) none pending slots := by
  simp only [Laid, Option.toList_none, Option.toList_some, List.append_nil,
    List.replicate_succ']

theorem modify_length_append {α : Type} (l : List α) (a : α) (r : List α) (f : α → α) :
    (l ++ a :: r).modify l.length f = l ++ f a :: r := by
  induction l with
  | nil => rfl
  | cons b l ih => simp [ih]

/-- A change of the current slot, which takes its status from `a` to `b`. -/
theorem Laid.modify {done pending : ℕ} {a b : SlotStatus} {slots : List Slot}
    (h : Laid done (some a) pending slots) {change : Slot → Slot}
    (hchange : ∀ slot, slot.status = a → (change slot).status = b) :
    Laid done (some b) pending (slots.modify done change) := by
  rw [Laid, Option.toList_some, List.append_assoc] at h
  obtain ⟨first, tail, rfl, hfirst, htail⟩ := List.map_eq_append_iff.mp h
  obtain ⟨slot, rest, rfl, hslot, hrest⟩ := List.map_eq_cons_iff.mp htail
  have hlength : done = first.length := by simpa using (congrArg List.length hfirst).symm
  subst hlength
  rw [modify_length_append, Laid, List.map_append, List.map_cons, hfirst, hchange slot hslot, hrest]
  simp

section Run

variable {done pending : ℕ} {a b : SlotStatus} {change : Slot → Slot}

theorem Progress.modify {status : CampaignStatus} (h : Progress done (some a) pending status)
    (hchange : ∀ slot, slot.status = a → (change slot).status = b) :
    Progress done (some b) pending { status with slots := status.slots.modify done change } :=
  ⟨h.1, h.2.modify hchange⟩

theorem triple_setSlot {E : PyError → List Reply → Campaign → Prop}
    (hchange : ∀ slot, slot.status = a → (change slot).status = b) :
    Triple (Calm (Progress done (some a) pending)) (setSlot done change)
      (fun _ => Calm (Progress done (some b) pending)) E :=
  triple_modify fun _ _ h => ⟨h.1, h.2.modify hchange⟩

theorem triple_setSlot_raised {error : PyError} {E : PyError → List Reply → Campaign → Prop}
    (hchange : ∀ slot, slot.status = a → (change slot).status = b) :
    Triple (Raised (Progress done (some a) pending) error) (setSlot done change)
      (fun _ => Raised (Progress done (some b) pending) error) E :=
  triple_modify fun _ _ h => ⟨h.1, h.2.modify hchange⟩

variable (args : Args) (binary : String) (initial : ClusterState)
  (frozenSource : List (String × String)) (slot : Slot) (before : List String)

theorem triple_slotSteps :
    Triple (Calm (Progress done (some .running) pending))
      (slotSteps args initial frozenSource done slot before)
      (fun _ => Calm (Progress (done + 1) none pending))
      (Raised (Progress done (some .running) pending)) := by
  have himp : ∀ status, Progress done (some .running) pending status →
      Progress done (some .running) pending status := fun _ => id
  refine (quiet_configureSlot _ _).then himp fun _ => ?_
  refine (quiet_command _ _ _).then himp fun _ => ?_
  refine (quiet_perform fun _ => rfl).then himp fun after => ?_
  refine (quiet_ofExcept fun _ => newRun_error).then himp fun run => ?_
  refine triple_bind (triple_setSlot fun _ => id) fun _ => ?_
  refine (quiet_perform fun _ => rfl).then himp fun _ => ?_
  refine (quiet_raiseIf rfl).then himp fun _ => ?_
  refine (quiet_analyzeSlot _ _ _).then himp fun _ => ?_
  refine triple_bind (triple_setSlot fun _ => id) fun _ => ?_
  refine (quiet_perform fun _ => rfl).then himp fun _ => ?_
  refine (quiet_raiseIf rfl).then himp fun _ => ?_
  refine (quiet_read fun _ => rfl).then himp fun _ => ?_
  refine (quiet_raiseIf rfl).then himp fun _ => ?_
  refine (quiet_perform fun _ => rfl).then himp fun _ => ?_
  refine (quiet_perform fun _ => rfl).then himp fun _ => ?_
  refine triple_bind (triple_setSlot fun _ _ => rfl) fun _ => ?_
  exact triple_pure fun _ _ h => ⟨h.1, h.2.1, laid_success.mp h.2.2⟩

theorem triple_slotFailed (error : PyError) :
    Triple (Raised (Progress done (some .running) pending) error) (slotFailed done before error)
      (fun _ => Calm (Progress (done + 1) none pending)) (Raised Halted) := by
  have hhalted : ∀ {current}, ∀ e replies self,
      Raised (Progress done current pending) e replies self → Raised Halted e replies self :=
    fun _ _ _ h => h.imp fun _ => Progress.halted
  refine triple_bind ((triple_perform_raised fun _ => rfl).weaken (fun _ _ => id)
    (fun _ _ _ => id) hhalted) fun _ => ?_
  refine triple_bind (triple_setSlot_raised (b := .failed) fun _ _ => rfl) fun _ => ?_
  refine triple_bind ((triple_perform_raised fun _ => rfl).weaken (fun _ _ => id)
    (fun _ _ _ => id) hhalted) fun _ => ?_
  refine triple_bind (triple_setSlot_raised fun _ => id) fun _ => ?_
  exact triple_throw fun _ _ h => h.imp fun _ => Progress.halted

theorem triple_runSlot (previous : ClusterState) :
    Triple (Calm (Progress done none (pending + 1)))
      (runSlot args binary initial frozenSource done slot previous)
      (fun _ => Calm (Progress (done + 1) none pending)) (Raised Halted) := by
  have hplanned : ∀ status, Progress done none (pending + 1) status → Halted status :=
    fun _ => Progress.halted
  have hrunning : ∀ status, Progress done (some .running) pending status → Halted status :=
    fun _ => Progress.halted
  refine (quiet_frozenChanged _ _).then hplanned fun _ => ?_
  refine (quiet_raiseIf rfl).then hplanned fun _ => ?_
  refine (quiet_perform fun _ => rfl).then hplanned fun _ => ?_
  refine (quiet_raiseIf rfl).then hplanned fun _ => ?_
  refine (quiet_perform fun _ => rfl).then hplanned fun _ => ?_
  refine triple_bind (R := fun _ => Calm (Progress done (some .running) pending)) ?_ fun _ => ?_
  · refine Triple.of_imp (P := Calm (Progress done (some .notRun) pending))
      (triple_setSlot fun _ _ => rfl) ?_
    rintro replies self ⟨hcalm, hstatus, hlaid⟩
    exact ⟨hcalm, hstatus, laid_next.mp hlaid⟩
  refine (quiet_perform fun _ => rfl).then hrunning fun _ => ?_
  refine (quiet_perform fun _ => rfl).then hrunning fun before => ?_
  refine triple_tryCatch (triple_slotSteps _ _ _ _ _) fun error => ?_
  refine triple_ite (fun _ => triple_slotFailed _ _) fun _ => ?_
  exact triple_throw fun _ _ h => h.imp hrunning

theorem triple_runSlots (rest : List Slot) (done : ℕ) (previous : ClusterState) :
    Triple (Calm (Progress done none rest.length))
      (runSlots args binary initial frozenSource done rest previous)
      (fun _ => Calm (Progress (done + rest.length) none 0)) (Raised Halted) := by
  induction rest generalizing done previous with
  | nil => exact triple_pure fun _ _ => id
  | cons slot rest ih =>
    have hlength : done + (slot :: rest).length = done + 1 + rest.length := by
      rw [List.length_cons]
      omega
    rw [hlength]
    exact triple_bind (triple_runSlot _ _ _ _ _ _) fun terminal => ih _ _

end Run

/-! ### The receipt -/

/-- Every exception that ended the body is of a class that the handler names. -/
def Told (replies : List Reply) : Prop :=
  ∀ error, lastRaise replies = some error → error.isNamed

/-- A receipt tells how the campaign ended, with `stop` the outcome of process cleanup. -/
structure TellsOutcome (stop : Except PyError Unit) (status : CampaignStatus) : Prop where
  slots : ∃ done failed pending, failed ≤ 1 ∧ status.slots.map Slot.status =
    .replicate done .success ++ .replicate failed .failed ++ .replicate pending .notRun
  decided : status.status = .success ∨ status.status = .failed
  success : status.status = .success →
    (∀ slot ∈ status.slots, slot.status = .success) ∧ stop = .ok ()

def Op.isOpening : Op → Bool
  | mkdir _ | writeJson .plan _ => true
  | _ => false

def Op.isCleanup : Op → Bool
  | stopActive => true
  | _ => false

/-- Outside the body only process cleanup raises, and only what its handler names. -/
structure FailsInBody (replies : List Reply) : Prop where
  opened : ∀ reply ∈ replies, reply.op.isOpening → raised reply = none
  cleanup : ∀ reply ∈ replies, reply.op.isCleanup → ∀ error ∈ raised reply, error.isCleanup
  closed : replies.Pairwise fun earlier later => earlier.op.isCleanup → raised later = none

instance (replies : List Reply) : Decidable (FailsInBody replies) :=
  decidable_of_iff ((∀ reply ∈ replies, reply.op.isOpening → raised reply = none) ∧
    (∀ reply ∈ replies, reply.op.isCleanup → ∀ error ∈ raised reply, error.isCleanup) ∧
    replies.Pairwise fun earlier later => earlier.op.isCleanup → raised later = none)
    ⟨fun ⟨h₁, h₂, h₃⟩ => ⟨h₁, h₂, h₃⟩, fun ⟨h₁, h₂, h₃⟩ => ⟨h₁, h₂, h₃⟩⟩

theorem not_closed_of_raise {before : List Reply} {stop reply : Reply} {error : PyError}
    (hmem : stop ∈ before) (hstop : stop.op.isCleanup) (hraise : raised reply = some error) :
    ¬ FailsInBody (before ++ [reply]) := by
  intro hfails
  have hnone := (List.pairwise_append.mp hfails.closed).2.2 stop hmem reply (by simp) hstop
  cases hraise.symm.trans hnone

/-- The last steps of a campaign write its receipt. -/
def Written (replies : List Reply) : Prop :=
  FailsInBody replies → ∃ before stop finishedAt status,
    replies = before ++ [⟨.stopActive, stop⟩, ⟨.now, .ok finishedAt⟩,
      ⟨.writeJson .campaignStatus (.status status), .ok ()⟩] ∧
    (TellsOutcome stop status ↔ Told before ∨ ∃ error, stop = .error error)

/-- How the handler leaves the campaign, when `told` says whether it took the exception. -/
structure Concluded (told : Prop) (status : CampaignStatus) : Prop where
  laid : ∃ done current pending, Laid done current pending status.slots
  success : status.status = .success → ∀ slot ∈ status.slots, slot.status = .success
  decided : status.status ≠ .inProgress ↔ told

theorem stopRunning_status (slot : Slot) :
    (stopRunning slot).status = if slot.status = .running then .failed else slot.status := by
  unfold stopRunning
  split <;> rfl

theorem Laid.settled {done pending : ℕ} {current : Option SlotStatus} {slots : List Slot}
    (h : Laid done current pending slots) :
    ∃ done failed pending, failed ≤ 1 ∧ (slots.map stopRunning).map Slot.status =
      .replicate done .success ++ .replicate failed .failed ++ .replicate pending .notRun := by
  have hmap : (slots.map stopRunning).map Slot.status =
      (slots.map Slot.status).map fun status => if status = .running then .failed else status := by
    rw [List.map_map, List.map_map]
    exact List.map_congr_left fun slot _ => stopRunning_status slot
  rw [hmap, h]
  cases current with
  | none => exact ⟨done, 0, pending, by omega, by simp⟩
  | some current =>
    cases current with
    | notRun => exact ⟨done, 0, pending + 1, by omega, by simp [List.replicate_succ]⟩
    | running => exact ⟨done, 1, pending, by omega, by simp⟩
    | success => exact ⟨done + 1, 0, pending, by omega, by simp [List.replicate_succ']⟩
    | failed => exact ⟨done, 1, pending, by omega, by simp⟩

theorem Laid.all_success {n : ℕ} {slots : List Slot} (h : Laid n none 0 slots) :
    ∀ slot ∈ slots, slot.status = .success := by
  intro slot hslot
  have hmem : slot.status ∈ slots.map Slot.status := List.mem_map_of_mem hslot
  rw [h] at hmem
  have ⟨_, hsuccess⟩ : n ≠ 0 ∧ slot.status = .success := by simpa using hmem
  exact hsuccess

/-- Marking what still runs as failed makes a receipt that tells the outcome, if it was decided. -/
theorem Concluded.tellsOutcome_iff {told : Prop} {stop : Except PyError Unit}
    {status : CampaignStatus} (h : Concluded told status)
    (hstop : status.status = .success → stop = .ok ()) :
    TellsOutcome stop { status with slots := status.slots.map stopRunning } ↔ told := by
  rw [← h.decided]
  constructor
  · intro ⟨_, hdecided, _⟩ hprogress
    rcases hdecided with hsuccess | hfailed
    · exact nomatch hprogress.symm.trans hsuccess
    · exact nomatch hprogress.symm.trans hfailed
  · intro hdecided
    obtain ⟨done, current, pending, hlaid⟩ := h.laid
    refine ⟨hlaid.settled, ?_, fun hsuccess => ⟨fun slot hslot => ?_, hstop hsuccess⟩⟩
    · cases hstatus : status.status with
      | inProgress => exact absurd hstatus hdecided
      | success => exact .inl rfl
      | failed => exact .inr rfl
    · obtain ⟨found, hfound, rfl⟩ := List.mem_map.mp hslot
      rw [stopRunning_status, h.success hsuccess found hfound]
      rfl

theorem triple_runBuilt (args : Args) (initial : ClusterState)
    (frozenSource : List (String × String)) (directory : String) {n : ℕ} :
    Triple (Calm (Progress 0 none n)) (runBuilt args initial frozenSource directory)
      (fun _ => Calm (Progress n none 0)) (Raised Halted) := by
  have hplanned : ∀ status, Progress 0 none n status → Halted status := fun _ => Progress.halted
  refine (quiet_command _ _ _).then hplanned fun _ => ?_
  refine (quiet_setEnvironment _).then hplanned fun _ => ?_
  refine (quiet_perform fun _ => rfl).then hplanned fun _ => ?_
  refine (quiet_setEnvironment _).then hplanned fun _ => ?_
  refine (quiet_perform fun _ => rfl).then hplanned fun _ => ?_
  refine (quiet_perform fun _ => rfl).then hplanned fun _ => ?_
  refine (quiet_buildExtraBinaries _ _).then hplanned fun _ => ?_
  refine triple_bind triple_get fun self => ?_
  have hslots : Triple (fun replies s => self = s ∧ Calm (Progress 0 none n) replies s)
      (runSlots args (args.controllerBinary directory) initial frozenSource 0 self.status.slots
        initial) (fun _ => Calm (Progress n none 0)) (Raised Halted) := by
    by_cases hlength : self.status.slots.length = n
    · subst hlength
      refine (triple_runSlots _ _ _ _ _ 0 _).weaken (fun _ _ h => h.2) ?_ fun _ _ _ => id
      rw [Nat.zero_add]
      exact fun _ _ _ => id
    · rintro replies _ ⟨rfl, -, -, hlaid⟩
      exact absurd (hlaid.length_eq.trans (Nat.zero_add n)) hlength
  refine triple_bind hslots fun terminal => ?_
  exact (quiet_perform fun _ => rfl).triple fun _ => Progress.halted

theorem triple_runBody (args : Args) {n : ℕ} :
    Triple (Calm (Progress 0 none n)) (runBody args)
      (fun _ replies self => Concluded (Told replies) self.status) (Raised Halted) := by
  have hplanned : ∀ status, Progress 0 none n status → Halted status := fun _ => Progress.halted
  refine (quiet_checkContext _).then hplanned fun _ => ?_
  refine (quiet_perform fun _ => rfl).then hplanned fun _ => ?_
  refine (quiet_perform fun _ => rfl).then hplanned fun _ => ?_
  refine (quiet_expectedFixture _ _).then hplanned fun _ => ?_
  refine (quiet_raiseIf rfl).then hplanned fun _ => ?_
  refine (quiet_perform fun _ => rfl).then hplanned fun _ => ?_
  refine (quiet_perform fun _ => rfl).then hplanned fun _ => ?_
  refine (quiet_perform fun _ => rfl).then hplanned fun directory => ?_
  refine triple_bind (R := fun _ => Calm (Progress n none 0)) (triple_andFinally
    (triple_runBuilt _ _ _ _) (fun _ => ?_) fun _ => triple_perform_raised fun _ => rfl) fun _ => ?_
  · exact (quiet_perform fun _ => rfl).triple fun _ => Progress.halted
  · refine triple_modify fun replies self ⟨hcalm, _, hlaid⟩ => ⟨⟨_, _, _, hlaid⟩, ?_, ?_⟩
    · exact fun _ => hlaid.all_success
    · refine iff_of_true (by simp) fun error herror => ?_
      cases hcalm.symm.trans herror

theorem triple_runHandled (args : Args) {n : ℕ} :
    Triple (Calm (Progress 0 none n)) (runHandled args)
      (fun _ replies self => Concluded (Told replies) self.status)
      (fun _ replies self => Concluded (Told replies) self.status) := by
  refine triple_tryCatch (triple_runBody args) fun error => triple_ite (fun hnamed => ?_)
    fun hunnamed => ?_
  · refine triple_modify fun replies self ⟨hended, done, current, pending, hstatus, hlaid⟩ =>
      ⟨⟨done, current, pending, hlaid⟩, nofun, iff_of_true nofun fun last hlast => ?_⟩
    rcases hended with hraised | ⟨hcalm, -⟩
    · cases hraised.symm.trans hlast
      exact hnamed
    · cases hcalm.symm.trans hlast
  · refine triple_throw fun replies self ⟨hended, done, current, pending, hstatus, hlaid⟩ =>
      ⟨⟨done, current, pending, hlaid⟩, fun hsuccess => ?_, iff_of_false (fun h => h hstatus) ?_⟩
    · cases hstatus.symm.trans hsuccess
    · rcases hended with hraised | ⟨-, hnamed⟩
      · exact fun htold => hunnamed (htold error hraised)
      · exact absurd hnamed hunnamed

/-- Process cleanup was tried, and the receipt is to be made. -/
def Stopped (replies : List Reply) (self : Campaign) : Prop :=
  ∃ before stop, replies = before ++ [⟨Op.stopActive, stop⟩] ∧
    Concluded (Told before ∨ ∃ error, stop = .error error) self.status ∧
    (self.status.status = .success → stop = .ok ())

/-- The receipt is settled up to its time. -/
def Closing (replies : List Reply) (self : Campaign) : Prop :=
  ∃ before stop, replies = before ++ [⟨Op.stopActive, stop⟩] ∧
    (TellsOutcome stop self.status ↔ Told before ∨ ∃ error, stop = .error error)

def Timed (finishedAt : String) (replies : List Reply) (self : Campaign) : Prop :=
  ∃ before, Closing before self ∧ replies = before ++ [⟨Op.now, .ok finishedAt⟩]

theorem triple_cleanUp :
    Triple (fun replies self => Concluded (Told replies) self.status) cleanUp (fun _ => Stopped)
      (fun _ replies _ => Written replies) := by
  refine triple_tryCatch (F := fun error replies self => ∃ before,
    replies = before ++ [⟨Op.stopActive, .error error⟩] ∧ Concluded (Told before) self.status)
    ?_ fun error => triple_ite (fun _ => ?_) fun hcleanup => ?_
  · refine triple_perform (fun before self h stop => ⟨before, .ok (), rfl, ?_, fun _ => rfl⟩)
      fun before self h error => ⟨before, rfl, h⟩
    exact ⟨h.laid, h.success, h.decided.trans (by simp)⟩
  · refine triple_modify ?_
    rintro _ self ⟨before, rfl, h⟩
    exact ⟨before, .error error, rfl, ⟨h.laid, nofun, iff_of_true nofun (.inr ⟨error, rfl⟩)⟩, nofun⟩
  · refine triple_throw ?_
    rintro _ self ⟨before, rfl, -⟩ hfails
    exact absurd (hfails.cleanup ⟨Op.stopActive, .error error⟩ (by simp) rfl error rfl) hcleanup

theorem triple_finish :
    Triple (fun replies self => Concluded (Told replies) self.status) finish
      (fun _ replies _ => Written replies) (fun _ replies _ => Written replies) := by
  refine triple_bind triple_cleanUp fun _ => ?_
  refine triple_bind (R := fun _ => Closing) (triple_modify ?_) fun _ => ?_
  · rintro _ self ⟨before, stop, rfl, hconcluded, hsuccess⟩
    exact ⟨before, stop, rfl, hconcluded.tellsOutcome_iff hsuccess⟩
  refine triple_bind (R := Timed) (triple_perform ?_ ?_) fun finishedAt => ?_
  · exact fun replies self h finishedAt => ⟨replies, h, rfl⟩
  · rintro _ self ⟨before, stop, rfl, -⟩ error hfails
    have hmem := List.mem_append_right before (List.mem_singleton_self ⟨Op.stopActive, stop⟩)
    exact absurd hfails (not_closed_of_raise hmem rfl (raised_error _ error))
  refine triple_bind (R := fun _ => Timed finishedAt) (triple_modify ?_) fun _ => ?_
  · rintro _ self ⟨_, ⟨before, stop, hstop, hiff⟩, rfl⟩
    refine ⟨_, ⟨before, stop, hstop, Iff.trans ⟨fun h => ?_, fun h => ?_⟩ hiff⟩, rfl⟩
    · exact ⟨h.slots, h.decided, h.success⟩
    · exact ⟨h.slots, h.decided, h.success⟩
  refine triple_bind triple_get fun self => triple_perform ?_ ?_
  · rintro _ _ ⟨rfl, _, ⟨before, stop, rfl, hiff⟩, rfl⟩ _ _
    exact ⟨before, stop, finishedAt, self.status, by simp, hiff⟩
  · rintro _ _ ⟨rfl, _, ⟨before, stop, rfl, -⟩, rfl⟩ error hfails
    have hmem := List.mem_append_right before (List.mem_singleton_self ⟨Op.stopActive, stop⟩)
    exact absurd hfails
      (not_closed_of_raise (List.mem_append_left _ hmem) rfl (raised_error _ error))

/-- A step before the body: if it raises, the receipt is not due. -/
theorem triple_opening {I : CampaignStatus → Prop} {op : Op} (hopening : op.isOpening)
    (hok : ∀ r, raised ⟨op, .ok r⟩ = none) :
    Triple (Calm I) (perform op) (fun _ => Calm I) (fun _ replies _ => Written replies) := by
  refine triple_perform (fun _ _ hcalm r => hcalm.concat (hok r)) fun replies self _ error hfails =>
    ?_
  have hnone := hfails.opened ⟨op, .error error⟩ (by simp) hopening
  exact nomatch (raised_error op error).symm.trans hnone

theorem triple_run (args : Args) {n : ℕ} :
    Triple (Calm (Progress 0 none n)) (run args) (fun _ replies _ => Written replies)
      (fun _ replies _ => Written replies) := by
  refine triple_bind (triple_opening rfl fun _ => rfl) fun _ => ?_
  refine triple_bind (triple_opening rfl fun _ => rfl) fun _ => ?_
  refine triple_bind (triple_opening rfl fun _ => rfl) fun _ => ?_
  refine triple_bind (triple_opening rfl fun _ => rfl) fun _ => ?_
  refine triple_bind (triple_get.weaken (fun _ _ => id) (fun _ _ _ h => h.2) fun _ _ _ => id)
    fun _ => ?_
  refine triple_bind (triple_opening rfl fun _ => rfl) fun _ => ?_
  refine triple_bind (triple_andFinally (triple_runHandled args) (fun _ => triple_finish)
    fun _ => triple_finish) fun _ => ?_
  refine triple_bind triple_get fun self => ?_
  exact triple_pure fun _ _ h => h.2

theorem init_progress (args : Args) (startedAt : String) :
    Progress 0 none (assignmentPlan args).length (init args startedAt).status := by
  refine ⟨rfl, ?_⟩
  unfold init assignmentPlan
  cases args.protocol with
  | liveBaseline => rfl
  | cadencePilot => rfl

/-- A campaign whose exceptions come from its body, and from process cleanup as handled, writes a
receipt. It tells the outcome exactly if the last exception of the body, if any, is of a class
that the handler names, or process cleanup raised. -/
theorem campaign_receipt_tells_outcome_iff {W : Type}
    {S : Semantics W Op fun op => Except PyError op.Result} {w w' : W}
    {args : Args} {startedAt : String} {result : Except PyError ℕ × Campaign}
    {events : List (Event W Op fun op => Except PyError op.Result)}
    (hexec : Exec S w ((run args).run.run (init args startedAt)) events (some result) w')
    (hfails : FailsInBody (answersOf events)) :
    ∃ before stop finishedAt status,
      answersOf events = before ++ [⟨.stopActive, stop⟩, ⟨.now, .ok finishedAt⟩,
        ⟨.writeJson .campaignStatus (.status status), .ok ()⟩] ∧
      (TellsOutcome stop status ↔
        (∀ error, lastRaise before = some error → error.isNamed) ∨
          ∃ error, stop = .error error) := by
  have hends := triple_run args [] (init args startedAt) ⟨rfl, init_progress args startedAt⟩
  have hleaves := Ends.of_exec hexec hends
  rw [List.nil_append] at hleaves
  obtain ⟨value | error, self⟩ := result
  · exact hleaves hfails
  · exact hleaves hfails

/-- Every step succeeds, but the earlier receipt is a list and no run directory appears. -/
def steady : ∀ op : Op, Except PyError op.Result
  | .mkdir _ => .ok ()
  | .writeJson _ _ => .ok ()
  | .command label _ _ _ => .ok (if label = "context" then "kind-c\n" else "c\n")
  | .snapshot => .ok ⟨.string "namespace", .string "deployment", [], .null⟩
  | .readReceipt _ => .ok (.array [])
  | .readApplied _ => .ok .null
  | .sourceIdentity => .ok []
  | .digest _ => .ok "digest"
  | .iterdirRuns => .ok []
  | .enterTemporary => .ok "/tmp/c"
  | .exitTemporary _ => .ok ()
  | .now => .ok "now"
  | .stopActive => .ok ()

def liveArgs (expectedPhpaReceipt : Option String) : Args where
  protocol := .liveBaseline
  context := "kind-c"
  kubeconfig := "/kubeconfig"
  output := "/out"
  name := "out"
  pattern := "step"
  rps := 25
  expectedPhpaReceipt := expectedPhpaReceipt
  environ := []
  which := id
  python := "python3"
  windows := false

def steadyRun (expectedPhpaReceipt : Option String) :
    List (Event Unit Op fun op => Except PyError op.Result) × Except PyError ℕ × Campaign :=
  follow steady ((run (liveArgs expectedPhpaReceipt)).run.run
    (init (liveArgs expectedPhpaReceipt) "start"))

theorem exec_steadyRun (expectedPhpaReceipt : Option String) :
    Exec (answering steady) () ((run (liveArgs expectedPhpaReceipt)).run.run
        (init (liveArgs expectedPhpaReceipt) "start"))
      (steadyRun expectedPhpaReceipt).1 (some (steadyRun expectedPhpaReceipt).2) () :=
  exec_follow steady _

theorem campaign_receipt_tells_outcome_no_run :
    FailsInBody (answersOf (steadyRun none).1) ∧ ∃ before stop finishedAt status,
      answersOf (steadyRun none).1 = before ++ [⟨.stopActive, stop⟩, ⟨.now, .ok finishedAt⟩,
        ⟨.writeJson .campaignStatus (.status status), .ok ()⟩] ∧
      (TellsOutcome stop status ↔
        (∀ error, lastRaise before = some error → error.isNamed) ∨
          ∃ error, stop = .error error) := by
  have hfails : FailsInBody (answersOf (steadyRun none).1) := by decide
  exact ⟨hfails, campaign_receipt_tells_outcome_iff (exec_steadyRun none) hfails⟩

/-- An earlier receipt that is a list has no `get`: the campaign stays in progress. -/
theorem campaign_receipt_untold :
    ∃ before stop finishedAt status,
      Exec (answering steady) ()
        ((run (liveArgs (some "receipt"))).run.run (init (liveArgs (some "receipt")) "start"))
        (steadyRun (some "receipt")).1 (some (steadyRun (some "receipt")).2) () ∧
      FailsInBody (answersOf (steadyRun (some "receipt")).1) ∧
      answersOf (steadyRun (some "receipt")).1 =
        before ++ [⟨.stopActive, stop⟩, ⟨.now, .ok finishedAt⟩,
          ⟨.writeJson .campaignStatus (.status status), .ok ()⟩] ∧
      status.status = .inProgress ∧ ¬ TellsOutcome stop status := by
  have hfails : FailsInBody (answersOf (steadyRun (some "receipt")).1) := by decide
  have hlast : (answersOf (steadyRun (some "receipt")).1).drop 10 =
      [⟨.stopActive, .ok ()⟩, ⟨.now, .ok "now"⟩, ⟨.writeJson .campaignStatus (.status
        { (init (liveArgs (some "receipt")) "start").status with finishedAt := some "now" }),
        .ok ()⟩] := rfl
  have hreplies := (List.take_append_drop 10 (answersOf (steadyRun (some "receipt")).1)).symm
  rw [hlast] at hreplies
  refine ⟨_, _, _, _, exec_steadyRun _, hfails, hreplies, rfl, fun htells => ?_⟩
  have hprogress : ¬ (Status.inProgress = .success ∨ Status.inProgress = .failed) := by decide
  exact hprogress htells.decided

end Autoscaler.LiveCampaign
