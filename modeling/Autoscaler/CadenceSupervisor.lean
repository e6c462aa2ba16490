import Autoscaler.CadenceRelease

/-! The supervisor around a launch, whose status receipt is written last. -/
namespace Autoscaler.CadenceLaunch

open Effects Raising LiveCampaign MetricsProvider Analysis

/-! ### The history of a supervisor -/

def startedBy : Reply → Option Process
  | ⟨.popen process _, .ok _⟩ => some process
  | _ => none

def started (history : List Reply) : List Process := history.filterMap startedBy

def SawExit (process : Process) : Reply → Prop
  | ⟨.poll other, .ok (some _)⟩ => other = process
  | ⟨.waitFor other _, .ok (.ok _)⟩ => other = process
  | _ => False

def Exited (process : Process) (history : List Reply) : Prop :=
  ∃ reply ∈ history, SawExit process reply

def Op.isReceipt : Op → Bool
  | exclusiveJson .status _ => true
  | _ => false

def Op.isPlan : Op → Bool
  | exclusiveJson .plan _ => true
  | _ => false

def Op.isKill : Op → Bool
  | kill _ => true
  | _ => false

/-- What is said of an observer that was told to stop and did not exit in time, or not with zero. -/
def complaint : Reply → Option String
  | ⟨.waitFor .cpu 12, .ok (.ok code)⟩ =>
    if code = 0 then none else some "CPU observer did not stop cleanly"
  | ⟨.waitFor .cpu 12, .ok (.error _)⟩ => some "CPU observer exceeded cleanup deadline"
  | _ => none

/-- What the handler around the `try` body notes of its ending. -/
def noted : Except PyError Unit → List String
  | .ok () => []
  | .error error => if isHandled error then [error.text] else []

/-- The `try` body of `observe`, which starts once the plan is written, ended so. -/
def Ended (parsers : Parsers) (args : Args) (turns : ℕ) (startedAt : String)
    (ending : Except PyError Unit) (history : List Reply) : Prop :=
  ∃ opening body rest self, history =
      opening ++ ⟨.exclusiveJson .plan (.plan args startedAt), .ok ()⟩ :: (body ++ rest) ∧
    (∀ reply ∈ opening, reply.op.isPlan = false) ∧
    Answered ((observeBody parsers args turns).run.run .initial) body (ending, self)

def Gated (history : List Reply) : Prop :=
  ∃ document, ⟨.exclusiveJson .gate document, .ok ()⟩ ∈ history

def assignmentOf (args : Args) (after : ℤ) : Assignment :=
  ⟨args.targetUID, after, args.offsetSeconds, 120000000⟩

/-- The gate document that was written tells of an acknowledged release. -/
def GateTold (args : Args) (after : ℤ) (history : List Reply) : Prop :=
  ∃ gate, ⟨.exclusiveJson .gate (.gate gate), .ok ()⟩ ∈ history ∧
    Released (assignmentOf args after) (some .gateAttempt) gate history

/-- Nothing went wrong so far, and nothing was cleaned up. -/
structure Clear (history : List Reply) (supervisor : Supervisor) : Prop where
  errors : supervisor.errors = []
  cleaned : supervisor.cleaned = true
  unkilled : ∀ reply ∈ history, reply.op.isKill = false
  uncomplaining : history.filterMap complaint = []

/-- Before the gate document: the supervisor knows its processes and wrote no receipt. -/
structure Early (history : List Reply) (supervisor : Supervisor) : Prop where
  processes : started history = supervisor.processes
  unreceipted : ∀ reply ∈ history, reply.op.isReceipt = false
  unreleased : supervisor.gateReleased = false
  ungated : ¬ Gated history
  clear : Clear history supervisor

/-- What holds from the start of a supervisor up to its receipt. -/
structure Account (args : Args) (history : List Reply) (supervisor : Supervisor) : Prop where
  processes : started history = supervisor.processes
  unreceipted : ∀ reply ∈ history, reply.op.isReceipt = false
  released : ∃ after, ReleasedOnce (assignmentOf args after) (some .gateAttempt) history ∧
    (supervisor.gateReleased = true → GateTold args after history)
  ungated : supervisor.gateReleased = false → ¬ Gated history

/-- What holds while the `try` body runs. -/
structure Running (args : Args) (history : List Reply) (supervisor : Supervisor) : Prop where
  account : Account args history supervisor
  clear : Clear history supervisor

section History

variable {args : Args} {history : List Reply} {self : Supervisor} {reply : Reply}

theorem Op.Releasing.not_receipt {op : Op} (h : op.Releasing) : op.isReceipt = false := by
  cases hreceipt : op.isReceipt with
  | false => rfl
  | true =>
    unfold Op.isReceipt at hreceipt
    split at hreceipt
    · rcases h with hpatch | hdiscreet
      · cases hpatch
      · exact absurd trivial hdiscreet
    · cases hreceipt

theorem startedBy_eq_none (h : ∀ process arguments, reply.op ≠ .popen process arguments) :
    startedBy reply = none := by
  unfold startedBy
  split
  · exact absurd rfl (h _ _)
  · rfl

theorem started_concat (h : startedBy reply = none) :
    started (history ++ [reply]) = started history := by
  simp [started, h]

theorem Op.Releasing.not_popen {op : Op} (h : op.Releasing) (process : Process)
    (arguments : List String) : op ≠ .popen process arguments := by
  rintro rfl
  rcases h with hpatch | hdiscreet
  · cases hpatch
  · exact hdiscreet trivial

theorem without_concat {mark : Op → Bool} (h : ∀ other ∈ history, mark other.op = false)
    (hreply : mark reply.op = false) : ∀ other ∈ history ++ [reply], mark other.op = false := by
  intro other hother
  rcases List.mem_append.mp hother with hmem | hmem
  · exact h other hmem
  · rwa [List.mem_singleton.mp hmem]

theorem Op.Discreet.not_kill {op : Op} (h : op.Discreet) : op.isKill = false := by
  cases op with
  | kill process => exact absurd trivial h
  | _ => rfl

theorem Op.Discreet.not_plan {op : Op} (h : op.Discreet) : op.isPlan = false := by
  cases hplan : op.isPlan with
  | false => rfl
  | true =>
    unfold Op.isPlan at hplan
    split at hplan
    · exact absurd trivial h
    · cases hplan

theorem complaint_eq_none (h : ∀ process, reply.op ≠ .waitFor process 12) :
    complaint reply = none := by
  unfold complaint
  split
  · exact absurd rfl (h _)
  · exact absurd rfl (h _)
  · rfl

theorem Op.Discreet.no_complaint {op : Op} {r : Except PyError op.Result} (h : op.Discreet) :
    complaint ⟨op, r⟩ = none := by
  refine complaint_eq_none fun process hop => ?_
  cases hop
  exact h trivial

theorem Clear.concat (h : Clear history self) (hkill : reply.op.isKill = false)
    (hcomplaint : complaint reply = none) : Clear (history ++ [reply]) self := by
  refine ⟨h.errors, h.cleaned, without_concat h.unkilled hkill, ?_⟩
  rw [List.filterMap_append, h.uncomplaining]
  simp [hcomplaint]

theorem Clear.update (h : Clear history self) (processes : List Process) (gateReleased : Bool) :
    Clear history { self with processes, gateReleased } :=
  ⟨h.errors, h.cleaned, h.unkilled, h.uncomplaining⟩

theorem kept_clear : Kept Op.Releasing Clear := by
  intro history self op r hop h
  rcases hop with hpatch | hdiscreet
  · refine h.concat ?_ (complaint_eq_none fun process hwait => ?_)
    · cases op with
      | kill process => cases hpatch
      | _ => rfl
    · cases hwait
      cases hpatch
  · exact h.concat hdiscreet.not_kill hdiscreet.no_complaint

theorem not_gated_concat (h : ¬ Gated history)
    (hreply : ∀ document, reply ≠ ⟨.exclusiveJson .gate document, .ok ()⟩) :
    ¬ Gated (history ++ [reply]) := by
  rintro ⟨document, hmem⟩
  rcases List.mem_append.mp hmem with hmem | hmem
  · exact h ⟨document, hmem⟩
  · exact hreply document (List.mem_singleton.mp hmem).symm

theorem Op.Releasing.not_gate {op : Op} {r : Except PyError op.Result} (h : op.Releasing)
    (document : Document) :
    (⟨op, r⟩ : Reply) ≠ ⟨.exclusiveJson .gate document, .ok ()⟩ := by
  intro heq
  cases heq
  rcases h with hpatch | hdiscreet
  · cases hpatch
  · exact hdiscreet trivial

theorem Early.concat (h : Early history self) (hstart : startedBy reply = none)
    (hreceipt : reply.op.isReceipt = false)
    (hgate : ∀ document, reply ≠ ⟨.exclusiveJson .gate document, .ok ()⟩)
    (hclear : Clear (history ++ [reply]) self) : Early (history ++ [reply]) self :=
  ⟨(started_concat hstart).trans h.processes, without_concat h.unreceipted hreceipt, h.unreleased,
    not_gated_concat h.ungated hgate, hclear⟩

theorem kept_early : Kept Op.Releasing Early := fun _ _ _ _ hop h =>
  h.concat (startedBy_eq_none hop.not_popen) hop.not_receipt hop.not_gate
    (kept_clear _ _ _ _ hop h.clear)

theorem ReleasedOnce.concat {assignment : Assignment} {attemptPath : Option File}
    (h : ReleasedOnce assignment attemptPath history) (hreply : reply.op.isPatch = false) :
    ReleasedOnce assignment attemptPath (history ++ [reply]) := by
  rcases h with hunpatched | ⟨anchor, response, hpatched⟩
  · exact .inl (hunpatched.concat hreply)
  · exact .inr ⟨anchor, response, hpatched.concat hreply⟩

theorem Released.concat {assignment : Assignment} {attemptPath : Option File} {gate : Gate}
    (h : Released assignment attemptPath gate history) (reply : Reply)
    (hreply : reply.op.isPatch = false) :
    Released assignment attemptPath gate (history ++ [reply]) := by
  obtain ⟨response, hresponse, hacknowledged, hpatched⟩ := h
  exact ⟨response, hresponse, hacknowledged, hpatched.concat hreply⟩

theorem Released.once {assignment : Assignment} {attemptPath : Option File} {gate : Gate}
    (h : Released assignment attemptPath gate history) :
    ReleasedOnce assignment attemptPath history := by
  obtain ⟨response, -, -, hpatched⟩ := h
  exact .inr ⟨_, _, hpatched⟩

theorem Account.concat (h : Account args history self) (hstart : startedBy reply = none)
    (hreceipt : reply.op.isReceipt = false) (hpatch : reply.op.isPatch = false)
    (hgate : ∀ document, reply ≠ ⟨.exclusiveJson .gate document, .ok ()⟩) :
    Account args (history ++ [reply]) self := by
  obtain ⟨after, honce, htold⟩ := h.released
  refine ⟨(started_concat hstart).trans h.processes, without_concat h.unreceipted hreceipt,
    ⟨after, honce.concat hpatch, fun hreleased => ?_⟩,
    fun hreleased => not_gated_concat (h.ungated hreleased) hgate⟩
  obtain ⟨gate, hmem, htells⟩ := htold hreleased
  exact ⟨gate, List.mem_append_left _ hmem, htells.concat _ hpatch⟩

theorem kept_account : Kept Op.Discreet (Account args) := by
  intro history self op r hop h
  have hreleasing : op.Releasing := .inr hop
  exact h.concat (startedBy_eq_none hreleasing.not_popen) hreleasing.not_receipt hop.not_patch
    hreleasing.not_gate

theorem kept_running : Kept Op.Discreet (Running args) := fun _ _ _ _ hop h =>
  ⟨kept_account _ _ _ _ hop h.account, kept_clear _ _ _ _ (.inr hop) h.clear⟩

variable (args) in
theorem Early.account (h : Early history self) (after : ℤ)
    (honce : ReleasedOnce (assignmentOf args after) (some .gateAttempt) history) :
    Account args history self where
  processes := h.processes
  unreceipted := h.unreceipted
  released := ⟨after, honce, fun hreleased => by
    rw [h.unreleased] at hreleased
    cases hreleased⟩
  ungated := fun _ => h.ungated

end History

/-! ### Up to the gate document -/

def Calm (history : List Reply) (supervisor : Supervisor) : Prop :=
  Early history supervisor ∧ Unpatched history

/-- The script leaves the books in order, whether it returns or raises. -/
def Cautious {α : Type} (m : LaunchM α) : Prop := Triple Calm m (fun _ => Calm) fun _ => Calm

theorem calm_initial (history : List Reply) (self : Supervisor)
    (h : history = [] ∧ self = .initial) : Calm history self := by
  obtain ⟨rfl, rfl⟩ := h
  have hnone : ∀ {mark : Op → Bool}, ∀ reply ∈ ([] : List Reply), mark reply.op = false :=
    fun _ hmem => nomatch hmem
  exact ⟨⟨rfl, hnone, rfl, fun ⟨_, hmem⟩ => (nomatch hmem), ⟨rfl, rfl, hnone, rfl⟩⟩, hnone⟩

section Cautious

variable {α β : Type} {m : LaunchM α} (parsers : Parsers) (args : Args) (turns : ℕ)

theorem cautious_of_harmless (hm : Harmless Op.Discreet m) : Cautious m :=
  hm Calm (kept_calm kept_early)

theorem Cautious.bind {f : α → LaunchM β} (hm : Cautious m) (hf : ∀ a, Cautious (f a)) :
    Cautious (m >>= f) :=
  triple_bind hm hf

theorem cautious_call {op : Op} {f : op.Result → LaunchM β} (h : op.Discreet)
    (hf : ∀ r, Cautious (f r)) : Cautious (perform op >>= f) :=
  (cautious_of_harmless (harmless_perform h)).bind hf

theorem cautious_pure (a : α) : Cautious (pure a) := cautious_of_harmless (harmless_pure a)

theorem cautious_throw (error : PyError) : Cautious (throw error : LaunchM α) :=
  cautious_of_harmless (harmless_throw error)

theorem Cautious.ite {condition : Prop} [Decidable condition] {m' : LaunchM α} (hm : Cautious m)
    (hm' : Cautious m') : Cautious (if condition then m else m') :=
  triple_ite (fun _ => hm) fun _ => hm'

/-- A process is written down as soon as it was started. -/
theorem cautious_startProcess (process : Process) (arguments : List String) :
    Cautious (startProcess process arguments) := by
  have hgate : ∀ {r : Except PyError Unit} document,
      (⟨.popen process arguments, r⟩ : Reply) ≠ ⟨.exclusiveJson .gate document, .ok ()⟩ :=
    fun _ heq => nomatch heq
  have hstart : Triple Calm (perform (Op.popen process arguments))
      (fun _ history self => Calm history
        { self with processes := self.processes ++ [process] }) fun _ => Calm := by
    refine triple_perform (fun history self h r => ?_) fun history self h error => ?_
    · refine ⟨⟨?_, without_concat h.1.unreceipted rfl, h.1.unreleased,
        not_gated_concat h.1.ungated hgate, (h.1.clear.concat rfl rfl).update _ _⟩, h.2.concat rfl⟩
      rw [← h.1.processes, started, List.filterMap_append]
      rfl
    · exact ⟨h.1.concat rfl rfl hgate (h.1.clear.concat rfl rfl), h.2.concat rfl⟩
  exact triple_bind hstart fun _ => triple_modify fun _ _ => id

theorem discreet_findRunner (startup : Startup) : Harmless Op.Discreet (findRunner startup) := by
  unfold findRunner
  cases startup.runner with
  | some _ => exact harmless_pure _
  | none =>
    refine (harmless_perform id).bind fun _ => harmless_ite ?_ (harmless_pure _)
    refine (harmless_perform id).bind fun document => ?_
    cases document with
    | none => exact harmless_pure _
    | some document => exact (harmless_ofExcept _).bind fun _ => harmless_pure _

theorem discreet_askRunner (port : String) : Harmless Op.Discreet (askRunner parsers port) := by
  refine (harmless_perform id).bind fun _ => Harmless.tryCatch ?_ fun error => ?_
  · refine (discreet_get parsers _).bind fun _ => (harmless_perform id).bind fun _ => ?_
    refine (harmless_perform id).bind fun _ => (harmless_ofExcept _).bind fun _ => ?_
    exact harmless_ite ((harmless_perform id).bind fun _ => harmless_pure _) (harmless_pure _)
  · refine harmless_ite ?_ (harmless_throw _)
    exact (harmless_perform id).bind fun _ => (harmless_perform id).bind fun _ => harmless_pure _

theorem discreet_findReady (startup : Startup) :
    Harmless Op.Discreet (findReady parsers startup) := by
  refine harmless_ite ?_ (harmless_pure _)
  refine (harmless_perform id).bind fun _ => (harmless_raiseIf _).bind fun _ => ?_
  refine (harmless_perform id).bind fun log => ?_
  cases forwardedPort log.toList with
  | none => exact harmless_pure _
  | some port => exact discreet_askRunner parsers port

theorem cautious_startForward (runner : String) : Cautious (startForward args runner) := by
  refine cautious_call id fun _ => cautious_call id fun pod => cautious_call id fun _ => ?_
  refine Cautious.ite (cautious_call id fun _ => cautious_throw _) ?_
  refine (cautious_of_harmless (harmless_ofExcept _)).bind fun _ => cautious_call id fun _ => ?_
  refine (cautious_of_harmless (harmless_ofExcept _)).bind fun _ => ?_
  exact ((cautious_startProcess _ _).bind fun _ => cautious_pure _).ite (cautious_pure _)

theorem cautious_startTurn (deadline : ℤ) (startup : Startup) :
    Cautious (startTurn parsers args deadline startup) := by
  refine (cautious_of_harmless (discreet_runningUntil _)).bind fun _ =>
    Cautious.ite ?_ (cautious_pure _)
  refine cautious_call id fun _ => (cautious_of_harmless (harmless_raiseIf _)).bind fun _ => ?_
  refine (cautious_of_harmless (discreet_findRunner _)).bind fun found => ?_
  cases found with
  | none => exact cautious_call id fun _ => cautious_pure _
  | some found =>
    have hforward : Cautious (findForward args found) := by
      unfold findForward
      split
      · exact cautious_startForward args _
      · exact cautious_pure _
    refine hforward.bind fun _ => Cautious.ite ?_ (cautious_call id fun _ => cautious_pure _)
    refine (cautious_of_harmless (discreet_findReady parsers _)).bind fun ready => ?_
    cases ready with
    | none => exact cautious_call id fun _ => cautious_pure _
    | some ready => exact cautious_pure _

theorem cautious_startAll : Cautious (startAll parsers args turns) := by
  refine cautious_call id fun _ => cautious_call id fun _ => cautious_call id fun _ => ?_
  refine cautious_call id fun _ => (cautious_startProcess _ _).bind fun _ => ?_
  refine cautious_call id fun _ => cautious_call id fun _ => cautious_call id fun started => ?_
  have hloop : Cautious (loop goOn (startTurn parsers args (started + 180000000)) turns
      ⟨none, false⟩) := by
    refine triple_loop (I := fun _ => Calm)
      (fun _ => triple_goOn (kept_calm kept_early) fun _ _ _ => id) (fun startup => ?_) turns _
    refine (cautious_startTurn parsers args _ startup).weaken (fun _ _ => id)
      (fun r _ _ h => ?_) fun _ _ _ => id
    cases r <;> exact h
  refine hloop.bind fun ready => ?_
  cases ready with
  | none => exact cautious_throw _
  | some ready => exact cautious_pure _

theorem discreet_awaitWarm (after : ℤ) :
    Harmless Op.Discreet (awaitWarm parsers args after turns) := by
  refine harmless_loop discreet_goOn (fun _ => ?_) turns ()
  refine (harmless_perform id).bind fun _ => harmless_ite ?_ (harmless_pure _)
  refine (harmless_perform id).bind fun _ => harmless_ite (harmless_pure _) ?_
  refine (discreet_check parsers args none).bind fun _ => ?_
  exact (harmless_perform id).bind fun _ => harmless_pure _

theorem discreet_awaitStop : Harmless Op.Discreet (awaitStop turns) := by
  refine harmless_loop discreet_goOn (fun _ => ?_) turns ()
  refine (harmless_perform id).bind fun _ => harmless_ite (harmless_pure _) ?_
  refine (harmless_perform id).bind fun _ => harmless_ite (harmless_pure _) ?_
  refine (harmless_perform id).bind fun _ => (harmless_raiseIf _).bind fun _ => ?_
  exact (harmless_perform id).bind fun _ => harmless_pure _

end Cautious

/-! ### From the gate document to the receipt -/

section Launch

variable (parsers : Parsers) (args : Args) (turns : ℕ)

theorem Calm.running (_ : PyError) (history : List Reply) (self : Supervisor)
    (h : Calm history self) : Running args history self :=
  ⟨h.1.account args 0 (.inl h.2), h.1.clear⟩

/-- The gate document is written after its release, and the supervisor is about to know. -/
theorem triple_told (after : ℤ) {gate document : Gate} (hanchor : document.anchor = gate.anchor)
    (hresponse : document.releaseResponse = gate.releaseResponse) :
    Triple (fun history self => Early history self ∧
        Released (assignmentOf args after) (some .gateAttempt) gate history)
      (perform (Op.exclusiveJson .gate (.gate document)))
      (fun _ history self => Running args history { self with gateReleased := true })
      (fun _ => Running args) := by
  refine triple_perform (fun history self h r => ?_) fun history self h error => ?_
  · have hreleased := h.2.concat ⟨.exclusiveJson .gate (.gate document), .ok r⟩ rfl
    refine ⟨⟨(started_concat rfl).trans h.1.processes, without_concat h.1.unreceipted rfl,
      ⟨after, hreleased.once, fun _ => ?_⟩, fun hunreleased => nomatch hunreleased⟩,
      (h.1.clear.concat rfl rfl).update _ _⟩
    refine ⟨document, List.mem_append_right _ List.mem_cons_self, ?_⟩
    unfold Released
    rwa [hanchor, hresponse]
  · refine ⟨⟨(started_concat rfl).trans h.1.processes, without_concat h.1.unreceipted rfl,
      ⟨after, h.2.once.concat rfl, fun hreleased => ?_⟩,
      fun _ => not_gated_concat h.1.ungated fun _ heq => nomatch heq⟩, h.1.clear.concat rfl rfl⟩
    rw [h.1.unreleased] at hreleased
    cases hreleased

theorem triple_launch (warmReadyAt : Json) (warmTime : ℤ) :
    Triple Calm (launch parsers args warmReadyAt warmTime turns) (fun _ => Running args)
      (fun _ => Running args) := by
  have hpath : ∀ path ∈ some File.gateAttempt, ∀ document,
      (Op.exclusiveJson path document).Discreet := by
    rintro path ⟨⟩ document
    exact id
  have hstart := (cautious_startAll parsers args turns).weaken (fun _ _ => id) (fun _ _ _ => id)
    (Calm.running args)
  refine triple_bind hstart fun (url, readyAt) => ?_
  refine (harmless_ofExcept _).then (kept_calm kept_early) (Calm.running args) fun readyTime => ?_
  refine (discreet_awaitWarm parsers args turns _).then (kept_calm kept_early)
    (Calm.running args) fun _ => ?_
  refine triple_bind ((triple_releaseGate parsers url turns kept_early hpath
    (discreet_check parsers args)).weaken (fun _ _ => id) (fun _ _ _ => id)
    fun _ _ _ h => ⟨h.1.account args _ h.2, h.1.clear⟩) fun gate => ?_
  refine triple_bind (triple_told args _ rfl rfl) fun _ => ?_
  refine triple_bind (triple_modify (Q := fun _ => Running args) fun _ _ => id) fun _ => ?_
  refine (discreet_awaitStop turns).then kept_running (fun _ _ _ => id) fun _ => ?_
  exact ((harmless_perform id).bind fun _ => harmless_raiseIf _) _ kept_running

theorem triple_observeBody :
    Triple Calm (observeBody parsers args turns) (fun _ => Running args)
      (fun _ => Running args) := by
  have hcalm := kept_calm kept_early
  refine (harmless_raiseIf _).then hcalm (Calm.running args) fun _ => ?_
  refine (harmless_perform id).then hcalm (Calm.running args) fun _ => ?_
  refine (harmless_raiseIf _).then hcalm (Calm.running args) fun _ => ?_
  refine (harmless_perform id).then hcalm (Calm.running args) fun base => ?_
  refine (harmless_perform id).then hcalm (Calm.running args) fun command => ?_
  refine (harmless_ofExcept _).then hcalm (Calm.running args) fun _ => ?_
  refine (harmless_raiseIf _).then hcalm (Calm.running args) fun _ => ?_
  refine (harmless_perform id).then hcalm (Calm.running args) fun warm => ?_
  refine (harmless_ofExcept _).then hcalm (Calm.running args) fun releasedAt => ?_
  refine (harmless_ofExcept _).then hcalm (Calm.running args) fun warmTime => ?_
  have hdiscreet : Harmless Op.Discreet (perform Op.closeStreams : LaunchM Unit) :=
    harmless_perform id
  have hclose := hdiscreet (Running args) kept_running
  exact triple_andFinally (triple_launch parsers args turns releasedAt warmTime)
    (fun _ => hclose) fun _ => hclose

/-- The plan was just written, by a supervisor that has done nothing else. -/
structure Planned (startedAt : String) (history : List Reply) (supervisor : Supervisor) :
    Prop where
  calm : Calm history supervisor
  initial : supervisor = .initial
  plan : ∃ opening,
    history = opening ++ [⟨.exclusiveJson .plan (.plan args startedAt), .ok ()⟩] ∧
      ∀ reply ∈ opening, reply.op.isPlan = false

/-- The books once the `try` body is left: `texts` are the errors that it gave rise to, and each
complaint of the cleanup is added to them. -/
structure Settled (texts : List String) (history : List Reply) (supervisor : Supervisor) :
    Prop where
  account : Account args history supervisor
  errors : supervisor.errors = texts ++ history.filterMap complaint
  stopped : supervisor.cleaned = true ↔ ∀ reply ∈ history, reply.op.isKill = false

variable {args} in
theorem Running.settled {history : List Reply} {self : Supervisor} (h : Running args history self)
    {texts errors : List String} (htexts : errors = texts) :
    Settled args texts history { self with errors } where
  account := ⟨h.account.processes, h.account.unreceipted, h.account.released, h.account.ungated⟩
  errors := by rw [h.clear.uncomplaining, List.append_nil, htexts]
  stopped := ⟨fun _ => h.clear.unkilled, fun _ => h.clear.cleaned⟩

def Left (startedAt : String) (ending : Except PyError Unit) (history : List Reply)
    (self : Supervisor) : Prop :=
  Settled args (noted ending) history self ∧ Ended parsers args turns startedAt ending history

theorem ended_of_ledTo {startedAt : String} {ending : Except PyError Unit} {history : List Reply}
    {self : Supervisor}
    (h : LedTo (Planned args startedAt) (observeBody parsers args turns) ending history self) :
    Ended parsers args turns startedAt ending history := by
  obtain ⟨_, _, body, ⟨-, rfl, opening, rfl, hopening⟩, rfl, hbody⟩ := h
  exact ⟨opening, body, [], self, by simp, hopening, hbody⟩

theorem Ended.append {startedAt : String} {ending : Except PyError Unit} (history more : List Reply)
    (h : Ended parsers args turns startedAt ending history) :
    Ended parsers args turns startedAt ending (history ++ more) := by
  obtain ⟨opening, body, rest, self, rfl, hopening, hbody⟩ := h
  exact ⟨opening, body, rest ++ more, self, by simp, hopening, hbody⟩

/-- However the `try` body ends, the handler has noted it or lets it pass. -/
theorem triple_observeHandled (startedAt : String) :
    Triple (Planned args startedAt) (observeHandled parsers args turns)
      (fun _ history self => ∃ ending, Left parsers args turns startedAt ending history self)
      (fun _ history self => ∃ ending, Left parsers args turns startedAt ending history self) := by
  have hbody := ((triple_observeBody parsers args turns).of_imp
    fun _ _ (h : Planned args startedAt _ _) => h.calm).ledTo
  refine triple_tryCatch (hbody.weaken (fun _ _ => id) ?_ fun _ _ _ => id) fun error =>
    triple_ite (fun hhandled => ?_) fun hunhandled => ?_
  · rintro ⟨⟩ history self ⟨hrunning, hled⟩
    exact ⟨.ok (), hrunning.settled hrunning.clear.errors, ended_of_ledTo parsers args turns hled⟩
  · refine triple_modify ?_
    rintro history self ⟨hrunning, hled⟩
    have htexts : self.errors ++ [error.text] = noted (.error error) := by
      rw [hrunning.clear.errors, noted, if_pos hhandled, List.nil_append]
    exact ⟨.error error, hrunning.settled htexts, ended_of_ledTo parsers args turns hled⟩
  · refine triple_throw ?_
    rintro history self ⟨hrunning, hled⟩
    have htexts : self.errors = noted (.error error) := by
      rw [hrunning.clear.errors, noted, if_neg hunhandled]
    exact ⟨.error error, hrunning.settled htexts, ended_of_ledTo parsers args turns hled⟩

/-- The processes are `owned`, and those of `done` were seen to have exited. -/
structure Stopped (texts : List String) (owned done : List Process) (history : List Reply)
    (supervisor : Supervisor) : Prop where
  settled : Settled args texts history supervisor
  owned : supervisor.processes = owned
  exited : ∀ process ∈ done, Exited process history

section Stopped

variable {texts : List String} {owned done : List Process}

theorem kept_settled : Kept Op.Discreet (Settled args texts) := by
  refine fun history self op r hop h => ⟨kept_account _ _ _ _ hop h.account, ?_, ?_⟩
  · rw [List.filterMap_append, h.errors]
    simp [hop.no_complaint]
  · rw [h.stopped]
    exact ⟨fun hunkilled => without_concat hunkilled hop.not_kill,
      fun hunkilled reply hmem => hunkilled reply (List.mem_append_left _ hmem)⟩

theorem Exited.append {process : Process} {history : List Reply} (h : Exited process history)
    (more : List Reply) : Exited process (history ++ more) := by
  obtain ⟨reply, hmem, hexit⟩ := h
  exact ⟨reply, List.mem_append_left _ hmem, hexit⟩

theorem kept_stopped : Kept Op.Discreet (Stopped args texts owned done) :=
  fun _ _ _ _ hop h => ⟨kept_settled args _ _ _ _ hop h.settled, h.owned,
    fun process hprocess => (h.exited process hprocess).append _⟩

variable {history : List Reply} {self : Supervisor}

variable {args} in
theorem Account.update (h : Account args history self) (errors : List String) (cleaned : Bool) :
    Account args history { self with errors, cleaned } :=
  ⟨h.processes, h.unreceipted, h.released, h.ungated⟩

variable {args} in
/-- After a wait for the observer, its complaint is still to be noted. -/
theorem Stopped.awaited (h : Stopped args texts owned done history self)
    (result : Except String ℤ) :
    Stopped args texts owned done (history ++ [⟨.waitFor .cpu 12, .ok result⟩])
      { self with errors := self.errors ++ (complaint ⟨.waitFor .cpu 12, .ok result⟩).toList } := by
  have haccount : Account args (history ++ [⟨.waitFor .cpu 12, .ok result⟩]) self :=
    h.settled.account.concat rfl rfl rfl fun _ heq => nomatch heq
  refine ⟨⟨haccount.update _ _, ?_, h.settled.stopped.trans ?_⟩, h.owned,
    fun process hprocess => (h.exited process hprocess).append _⟩
  · rw [h.settled.errors, List.filterMap_append, List.append_assoc]
    rfl
  · exact ⟨fun hunkilled => without_concat hunkilled rfl,
      fun hunkilled reply hmem => hunkilled reply (List.mem_append_left _ hmem)⟩

variable {args} in
/-- After a kill, it is still to be noted. -/
theorem Stopped.killed (h : Stopped args texts owned done history self) (process : Process) :
    Stopped args texts owned done (history ++ [⟨.kill process, .ok ()⟩])
      { self with cleaned := false } := by
  have haccount : Account args (history ++ [⟨.kill process, .ok ()⟩]) self :=
    h.settled.account.concat rfl rfl rfl fun _ heq => nomatch heq
  refine ⟨⟨haccount.update _ _, ?_, ⟨fun hcleaned => (nomatch hcleaned), fun hunkilled => ?_⟩⟩,
    h.owned, fun process hprocess => (h.exited process hprocess).append _⟩
  · rw [h.settled.errors, List.filterMap_append]
    simp [complaint]
  · cases hunkilled _ (List.mem_append_right history List.mem_cons_self)

theorem triple_stopObserver (processes : List Process) :
    Triple (Stopped args texts owned done) (stopObserver processes)
      (fun _ => Stopped args texts owned done) (fun _ => Account args) := by
  have hraise : ∀ (_ : PyError) history self, Stopped args texts owned done history self →
      Account args history self := fun _ _ _ h => h.settled.account
  refine triple_ite (fun _ => ?_) fun _ => triple_pure fun _ _ => id
  refine (harmless_perform id).then (kept_stopped args) hraise fun exited => ?_
  cases exited with
  | some _ => exact triple_pure fun _ _ => id
  | none =>
    refine (harmless_perform id).then (kept_stopped args) hraise fun stoppedAt => ?_
    refine (harmless_perform id).then (kept_stopped args) hraise fun _ => ?_
    have hwait : Triple (Stopped args texts owned done) (perform (Op.waitFor .cpu 12))
        (fun result history self => Stopped args texts owned done history { self with
          errors := self.errors ++ (complaint ⟨.waitFor .cpu 12, .ok result⟩).toList })
        (fun _ => Account args) :=
      triple_perform (fun _ _ h => h.awaited) fun _ _ h _ =>
        h.settled.account.concat rfl rfl rfl fun _ heq => nomatch heq
    refine triple_bind hwait fun result => ?_
    cases result with
    | error _ => exact triple_modify fun _ _ => id
    | ok code =>
      refine triple_ite (fun hcode => triple_modify fun history self h => ?_) fun hcode =>
        triple_pure fun history self h => ?_
      · simpa [complaint, hcode] using h
      · simpa [complaint, not_not.mp hcode] using h

variable {args} in
theorem Stopped.watched {process : Process} {reply : Reply}
    (h : Stopped args texts owned done (history ++ [reply]) self) (hexit : SawExit process reply) :
    Stopped args texts owned (process :: done) (history ++ [reply]) self :=
  ⟨h.settled, h.owned, List.forall_mem_cons.mpr
    ⟨⟨reply, List.mem_append_right _ List.mem_cons_self, hexit⟩, h.exited⟩⟩

theorem triple_watch {α : Type} {op : Op} {f : op.Result → LaunchM α}
    {Q : α → List Reply → Supervisor → Prop} (process : Process) (hop : op.Discreet)
    (hf : ∀ r, Triple (fun history self => Stopped args texts owned done history self ∧
        (SawExit process ⟨op, .ok r⟩ → Stopped args texts owned (process :: done) history self))
        (f r) Q (fun _ => Account args)) :
    Triple (Stopped args texts owned done) (perform op >>= f) Q (fun _ => Account args) := by
  refine triple_bind (triple_perform (fun history self h r => ?_) fun history self h _ =>
    (kept_stopped args _ _ _ _ hop h).settled.account) hf
  have hstopped := kept_stopped args history self op (.ok r) hop h
  exact ⟨hstopped, hstopped.watched⟩

theorem triple_killProcess (process : Process) :
    Triple (Stopped args texts owned done)
      (do
        perform (Op.kill process)
        match ← perform (Op.waitFor process 3) with
        | .error text => throw ⟨.subprocessError, text⟩
        | .ok _ => modify fun self => { self with cleaned := false })
      (fun _ => Stopped args texts owned (process :: done)) (fun _ => Account args) := by
  -- The kill is done and not yet noted.
  let Killed := fun (done : List Process) history (self : Supervisor) =>
    Stopped args texts owned done history { self with cleaned := false }
  have hraise : ∀ (_ : PyError) history self, Killed done history self →
      Account args history self :=
    fun _ history self h => h.settled.account.update self.errors self.cleaned
  have hkept : Kept Op.Discreet (Killed done) := fun _ _ => kept_stopped args _ _
  have hkill : Triple (Stopped args texts owned done) (perform (Op.kill process))
      (fun _ => Killed done) (fun _ => Account args) :=
    triple_perform (fun _ _ h _ => h.killed process) fun _ _ h _ =>
      h.settled.account.concat rfl rfl rfl fun _ heq => nomatch heq
  have hwait : Triple (Killed done) (perform (Op.waitFor process 3))
      (fun result history self => Killed done history self ∧
        (SawExit process ⟨.waitFor process 3, .ok result⟩ → Killed (process :: done) history self))
      (fun _ => Account args) := by
    refine triple_perform (fun history self h r => ?_) fun history self h error =>
      hraise error _ _ (hkept _ _ _ _ id h)
    have hkilled := hkept history self (.waitFor process 3) (.ok r) id h
    exact ⟨hkilled, hkilled.watched⟩
  refine triple_bind hkill fun _ => triple_bind hwait fun result => ?_
  cases result with
  | error _ => exact triple_throw fun _ _ h => hraise default _ _ h.1
  | ok _ => exact triple_modify fun _ _ h => h.2 rfl

theorem triple_stopProcess (process : Process) :
    Triple (Stopped args texts owned done) (stopProcess process)
      (fun _ => Stopped args texts owned (process :: done)) (fun _ => Account args) := by
  have hraise : ∀ (_ : PyError) history self, Stopped args texts owned done history self →
      Account args history self := fun _ _ _ h => h.settled.account
  refine triple_watch args process id fun exited => ?_
  cases exited with
  | some _ => exact triple_pure fun _ _ h => h.2 rfl
  | none =>
    refine Triple.of_imp ?_ fun _ _ h => h.1
    refine (harmless_perform id).then (kept_stopped args) hraise fun _ => ?_
    refine triple_watch args process id fun result => ?_
    cases result with
    | ok _ => exact triple_pure fun _ _ h => h.2 rfl
    | error _ => exact (triple_killProcess args process).of_imp fun _ _ h => h.1

theorem triple_stopProcesses (processes : List Process) :
    Triple (Stopped args texts owned done) (stopProcesses processes)
      (fun _ => Stopped args texts owned (processes.reverse ++ done)) (fun _ => Account args) := by
  induction processes generalizing done with
  | nil => exact triple_pure fun _ _ => id
  | cons process rest ih =>
    refine triple_bind (triple_stopProcess args process) fun _ => ?_
    rw [List.reverse_cons, List.append_assoc]
    exact ih

end Stopped

/-- The receipt of the supervisor was written last, after everything that it tells. -/
def Closed (result : Except PyError Unit) (history : List Reply) (supervisor : Supervisor) :
    Prop :=
  ∃ before startedAt finishedAt ending, history = before ++
      [⟨.exclusiveJson .status (.status (supervisor.receipt startedAt finishedAt)), result⟩] ∧
    Stopped args (noted ending) supervisor.processes supervisor.processes before supervisor ∧
    Ended parsers args turns startedAt ending before

def Failed (history : List Reply) (supervisor : Supervisor) : Prop :=
  Account args history supervisor ∨ ∃ result, Closed parsers args turns result history supervisor

theorem triple_finish (startedAt : String) (ending : Except PyError Unit) :
    Triple (Left parsers args turns startedAt ending) (finish startedAt)
      (fun _ => Closed parsers args turns (.ok ())) (fun _ => Failed parsers args turns) := by
  refine triple_bind triple_get fun self => ?_
  let Ending := Ended parsers args turns startedAt ending
  have hraise : ∀ (_ : PyError) history self, Account args history self ∧ Ending history →
      Failed parsers args turns history self := fun _ _ _ h => .inl h.1
  have hstop : Triple
      (fun history s => self = s ∧ Left parsers args turns startedAt ending history s)
      (stopObserver self.processes)
      (fun _ history s => Stopped args (noted ending) self.processes [] history s ∧ Ending history)
      (fun _ => Failed parsers args turns) := by
    refine ((triple_stopObserver args _).frame (Ended.append parsers args turns)).weaken ?_
      (fun _ _ _ => id) hraise
    rintro history s ⟨rfl, hsettled, hended⟩
    exact ⟨⟨hsettled, rfl, fun _ hmem => nomatch hmem⟩, hended⟩
  refine triple_bind hstop fun _ => ?_
  refine triple_bind (((triple_stopProcesses args _).frame (Ended.append parsers args turns)).weaken
    (fun _ _ => id) (fun _ _ _ => id) hraise) fun _ => ?_
  rw [List.reverse_reverse, List.append_nil]
  refine triple_bind triple_get fun final => ?_
  have hkept : Kept Op.Discreet fun history s => final = s ∧
      Stopped args (noted ending) self.processes self.processes history s ∧ Ending history :=
    (kept_state fun s => final = s).and ((kept_stopped args).and
      fun history _ _ _ _ => Ended.append parsers args turns history _)
  refine (harmless_perform id).then hkept (fun _ _ _ h => .inl h.2.1.settled.account)
    fun finishedAt => ?_
  refine triple_perform ?_ ?_
  · rintro history s ⟨rfl, hstopped, hended⟩ r
    refine ⟨history, startedAt, finishedAt, ending, rfl, ?_, hended⟩
    rwa [hstopped.owned]
  · rintro history s ⟨rfl, hstopped, hended⟩ error
    refine .inr ⟨.error error, history, startedAt, finishedAt, ending, rfl, ?_, hended⟩
    rwa [hstopped.owned]

theorem discreet_anyExists (files : List File) : Harmless Op.Discreet (anyExists files) := by
  induction files with
  | nil => exact harmless_pure _
  | cons file rest ih => exact (harmless_perform id).bind fun _ => harmless_ite (harmless_pure _) ih

/-- What a supervisor leaves, from a fresh start. -/
theorem triple_observe :
    Triple (fun history self => history = [] ∧ self = .initial) (observe parsers args turns)
      (fun code history self => Closed parsers args turns (.ok ()) history self ∧
        code = if self.succeeded then 0 else 3) (fun _ => Failed parsers args turns) := by
  let Opening := fun history self => Calm history self ∧
    (∀ reply ∈ history, reply.op.isPlan = false) ∧ self = .initial
  have hopening : Kept Op.Discreet Opening := (kept_calm kept_early).and
    (Kept.and (fun _ _ _ _ hop h => without_concat h hop.not_plan)
      (kept_state fun s => s = Supervisor.initial))
  have hraise : ∀ (error : PyError) history self, Opening history self →
      Failed parsers args turns history self :=
    fun error history self h => .inl (Calm.running args error history self h.1).account
  refine Triple.of_imp ?_ fun history self h =>
    (⟨calm_initial history self h, ?_, h.2⟩ : Opening _ _)
  · refine (harmless_perform id).then hopening hraise fun _ => ?_
    refine (harmless_raiseIf _).then hopening hraise fun _ => ?_
    refine (discreet_anyExists _).then hopening hraise fun _ => ?_
    refine (harmless_raiseIf _).then hopening hraise fun _ => ?_
    refine (harmless_perform id).then hopening hraise fun startedAt => ?_
    have hplan : Triple Opening (perform (Op.exclusiveJson .plan (.plan args startedAt)))
        (fun _ => Planned args startedAt) (fun _ => Failed parsers args turns) := by
      have hgate : ∀ {r : Except PyError Unit} document,
          (⟨.exclusiveJson .plan (.plan args startedAt), r⟩ : Reply) ≠
            ⟨.exclusiveJson .gate document, .ok ()⟩ := fun _ heq => nomatch heq
      refine triple_perform (fun history self h r => ?_) fun history self h error => ?_
      · exact ⟨⟨h.1.1.concat rfl rfl hgate (h.1.1.clear.concat rfl rfl), h.1.2.concat rfl⟩, h.2.2,
          history, rfl, h.2.1⟩
      · exact .inl ((Calm.running args error _ _ h.1).account.concat rfl rfl rfl hgate)
    refine triple_bind hplan fun _ => ?_
    have hfinish := triple_exists (triple_finish parsers args turns startedAt)
    refine triple_bind (triple_andFinally (triple_observeHandled parsers args turns startedAt)
      (fun _ => hfinish) fun _ => hfinish.weaken (fun _ _ => id) (fun _ _ _ h => .inr ⟨_, h⟩)
        fun _ _ _ => id) fun _ => ?_
    refine triple_bind triple_get fun self => triple_pure ?_
    rintro history s ⟨rfl, hclosed⟩
    exact ⟨hclosed, rfl⟩
  · rw [h.1]
    exact fun _ hmem => nomatch hmem

end Launch

end Autoscaler.CadenceLaunch
