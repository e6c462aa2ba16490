import Autoscaler.CadenceLaunch

/-! A launch releases its load generator at most once, at the phase of the first anchor of the
finished stream. -/
namespace Autoscaler.CadenceLaunch

open Effects Raising LiveCampaign MetricsProvider Analysis

abbrev Reply := Answer Op Op.Result PyError

def Op.isPatch : Op → Bool
  | k6 .patch _ => true
  | _ => false

/-- The operations that leave a mark: the release, the start and the kill of a process, the wait
for the observer that was told to stop, and three of the documents. -/
def Op.Marks : Op → Prop
  | k6 .patch _ | popen _ _ | kill _ | waitFor _ 12 => True
  | exclusiveJson .plan _ | exclusiveJson .gate _ | exclusiveJson .status _ => True
  | _ => False

def Op.Discreet (op : Op) : Prop := ¬ op.Marks

def Op.Releasing (op : Op) : Prop := op.isPatch = true ∨ op.Discreet

theorem Op.Discreet.not_patch {op : Op} (h : op.Discreet) : op.isPatch = false := by
  cases hpatch : op.isPatch with
  | false => rfl
  | true =>
    unfold Op.isPatch at hpatch
    split at hpatch
    · exact absurd trivial h
    · cases hpatch

def Unpatched (history : List Reply) : Prop := ∀ reply ∈ history, reply.op.isPatch = false

theorem Unpatched.concat {history : List Reply} (h : Unpatched history) {reply : Reply}
    (hreply : reply.op.isPatch = false) : Unpatched (history ++ [reply]) := by
  intro other hother
  rcases List.mem_append.mp hother with hmem | hmem
  · exact h other hmem
  · rwa [List.mem_singleton.mp hmem]

theorem kept_unpatched {σ : Type} :
    Kept Op.Discreet fun history (_ : σ) => Unpatched history :=
  fun _ _ _ _ hop h => h.concat hop.not_patch

/-! ### Scripts that leave no mark -/

section Discreet

variable (parsers : Parsers) (args : Args) (turns : ℕ)

theorem discreet_get (url : String) : Harmless Op.Discreet (k6Request parsers url .get) :=
  (harmless_ofExcept _).bind fun _ => (harmless_raiseIf _).bind fun _ => harmless_perform id

theorem discreet_goOn {α : Type} : Harmless Op.Discreet (goOn : LaunchM α) :=
  (harmless_perform id).bind fun never => nomatch never

theorem discreet_runningUntil (deadline : ℤ) : Harmless Op.Discreet (runningUntil deadline) :=
  (harmless_perform id).bind fun _ => harmless_ite (harmless_pure _) <|
    (harmless_perform id).bind fun _ => harmless_pure _

theorem discreet_checkAnchor (anchor : StreamRow) :
    Harmless Op.Discreet (checkAnchor args anchor) :=
  (harmless_ofExcept _).bind fun _ => (harmless_raiseIf _).bind fun _ =>
    (harmless_perform id).bind fun _ => harmless_ofExcept _

theorem discreet_checkState : Harmless Op.Discreet (checkState parsers) := by
  refine (harmless_perform id).bind fun rows => ?_
  cases rows.getLast? with
  | none => exact harmless_throw _
  | some state =>
    refine (harmless_ofExcept _).bind fun _ => (harmless_raiseIf _).bind fun _ => ?_
    refine (harmless_perform id).bind fun _ => (harmless_ofExcept _).bind fun _ => ?_
    refine (harmless_raiseIf _).bind fun _ => (harmless_ofExcept _).bind fun _ => ?_
    exact (harmless_perform id).bind fun _ => harmless_raiseIf _

theorem discreet_check (gate : Option Gate) : Harmless Op.Discreet (check parsers args gate) := by
  refine (harmless_perform id).bind fun _ => (harmless_raiseIf _).bind fun _ => ?_
  refine (harmless_perform id).bind fun _ => (harmless_raiseIf _).bind fun _ => ?_
  refine (discreet_checkState parsers).bind fun _ => ?_
  cases gate with
  | none => exact harmless_pure _
  | some gate => exact discreet_checkAnchor args _

end Discreet

/-! ### What a release rests on -/

/-- The wait for a deadline ended: the clock got there, or a stop was seen. -/
def Paused (deadline : ℤ) : Reply → Prop
  | ⟨.monotonic, .ok now⟩ => deadline ≤ now
  | ⟨.stopIsSet, .ok stopped⟩ => stopped = true
  | _ => False

/-- The readings that a release of `anchor` rests on, in their order: the anchor was selected
before its phase, the clocks were read one after the other, the wait for the phase ended, and
neither a stop nor the deadline came first. -/
def Ready (assignment : Assignment) (anchor : Anchor) (history : List Reply) : Prop :=
  ∃ (started now monotonic wall last : ℤ) (rows : List StreamRow) (pause : Reply),
    selectAnchor rows assignment.targetUID assignment.after assignment.offset =
        .ok (some anchor) ∧
      now < anchor.plannedOnsetUnix ∧
      Paused (min (monotonic + anchor.plannedOnsetUnix - wall) (started + assignment.timeout))
        pause ∧
      last < started + assignment.timeout ∧
      Seen (Just (Ever [⟨.monotonic, .ok started⟩, ⟨.readObservations, .ok rows⟩,
          ⟨.time, .ok now⟩]) [⟨.monotonic, .ok monotonic⟩, ⟨.time, .ok wall⟩])
        [pause, ⟨.stopIsSet, .ok false⟩, ⟨.monotonic, .ok last⟩] history

/-- The attempt was written down, where there is a file for it. -/
def Attempted (attemptPath : Option File) (anchor : Anchor) (history : List Reply) : Prop :=
  ∀ path ∈ attemptPath, ∃ startedAt,
    ⟨.exclusiveJson path (.gate
      { Gate.ofAnchor anchor with releaseRequestStartedAt := some startedAt }), .ok ()⟩ ∈ history

/-- One release was requested, for an anchor that was ready, and answered by `response`. -/
def Patched (assignment : Assignment) (attemptPath : Option File) (anchor : Anchor)
    (response : Except PyError Json) (history : List Reply) : Prop :=
  ∃ before url after, history = before ++ ⟨.k6 .patch url, response⟩ :: after ∧
    Unpatched before ∧ Unpatched after ∧ Ready assignment anchor before ∧
    Attempted attemptPath anchor before

def ReleasedOnce (assignment : Assignment) (attemptPath : Option File) (history : List Reply) :
    Prop :=
  Unpatched history ∨ ∃ anchor response, Patched assignment attemptPath anchor response history

/-- The release that a gate document tells of was acknowledged. -/
def Released (assignment : Assignment) (attemptPath : Option File) (gate : Gate)
    (history : List Reply) : Prop :=
  ∃ response, gate.releaseResponse = some response ∧ acknowledged response = .ok true ∧
    Patched assignment attemptPath gate.anchor (.ok response) history

theorem valueError_ok {α : Type} {r : Except String α} {a : α} (h : valueError r = .ok a) :
    r = .ok a := by
  cases r with
  | error text => cases h
  | ok b =>
    cases h
    rfl

section Release

variable {assignment : Assignment} {attemptPath : Option File} {anchor : Anchor}
  {response : Except PyError Json} {history : List Reply} {σ : Type}

theorem Patched.concat (h : Patched assignment attemptPath anchor response history)
    {reply : Reply} (hreply : reply.op.isPatch = false) :
    Patched assignment attemptPath anchor response (history ++ [reply]) := by
  obtain ⟨before, url, after, rfl, hbefore, hafter, hready⟩ := h
  refine ⟨before, url, after ++ [reply], ?_, hbefore, hafter.concat hreply, hready⟩
  rw [List.append_assoc, List.cons_append]

variable (assignment attemptPath anchor response) in
theorem kept_patched : Kept Op.Discreet fun history (_ : σ) =>
    Patched assignment attemptPath anchor response history :=
  fun _ _ _ _ hop h => h.concat hop.not_patch

variable (assignment anchor) in
theorem kept_ready : Kept Op.Discreet fun history (_ : σ) => Ready assignment anchor history := by
  rintro history s op r - ⟨started, now, monotonic, wall, last, rows, pause, h1, h2, h3, h4, h5⟩
  exact ⟨started, now, monotonic, wall, last, rows, pause, h1, h2, h3, h4,
    h5.append _⟩

variable (attemptPath anchor) in
theorem kept_attempted : Kept Op.Discreet fun history (_ : σ) =>
    Attempted attemptPath anchor history := by
  intro history s op r _ h path hpath
  obtain ⟨startedAt, hmem⟩ := h path hpath
  exact ⟨startedAt, List.mem_append_left _ hmem⟩

variable (parsers : Parsers) (url : String) (turns : ℕ) {past : List Reply → Prop}
  {replies : List Reply} {I J : List Reply → Supervisor → Prop}

theorem kept_calm (hI : Kept Op.Releasing I) :
    Kept Op.Discreet fun history s => I history s ∧ Unpatched history :=
  (hI.mono fun _ => .inr).and kept_unpatched

variable (assignment attemptPath) in
/-- An exception before the release. -/
theorem calm_raise (_ : PyError) (history : List Reply) (s : Supervisor)
    (h : I history s ∧ Unpatched history) :
    I history s ∧ ReleasedOnce assignment attemptPath history := ⟨h.1, .inl h.2⟩

theorem triple_goOn {α : Type} {Q : α → List Reply → Supervisor → Prop}
    {E : PyError → List Reply → Supervisor → Prop} (hJ : Kept Op.Discreet J)
    (hE : ∀ error history s, J history s → E error history s) : Triple J goOn Q E :=
  (harmless_perform id).then hJ hE fun never => nomatch never

theorem triple_gateExpired {α : Type} {Q : α → List Reply → Supervisor → Prop}
    {E : PyError → List Reply → Supervisor → Prop} (hJ : Kept Op.Discreet J)
    (hE : ∀ error history s, J history s → E error history s) : Triple J gateExpired Q E :=
  (harmless_perform id).then hJ hE fun _ => (harmless_raiseIf _).then hJ hE fun _ =>
    triple_throw fun _ _ => hE _ _ _

theorem triple_runningUntil (hJ : Kept Op.Discreet J) (deadline : ℤ) :
    Triple (fun history s => J history s ∧ Seen past replies history) (runningUntil deadline)
      (fun running history s => (J history s ∧ Seen past replies history) ∧
        (running = false → ∃ pause, Paused deadline pause ∧ Seen past (replies ++ [pause]) history))
      (fun _ => J) := by
  refine triple_see hJ id (fun _ _ _ => id) fun stopped =>
    triple_ite (fun hstopped => ?_) fun _ => ?_
  · exact triple_pure fun history s h => ⟨⟨h.1, h.2.of_concat⟩, fun _ =>
      ⟨⟨.stopIsSet, .ok stopped⟩, hstopped, h.2⟩⟩
  · have hseen : Triple
        (fun history s => J history s ∧ Seen past (replies ++ [⟨.stopIsSet, .ok stopped⟩]) history)
        (perform Op.monotonic)
        (fun now history s => (J history s ∧ Seen past replies history) ∧
          Seen past (replies ++ [⟨.monotonic, .ok now⟩]) history) (fun _ => J) := by
      refine triple_perform (fun history s h now => ?_) fun history s h _ => hJ _ _ _ _ id h.1
      have hreplies : Seen past replies history := h.2.of_concat
      exact ⟨⟨hJ _ _ _ _ id h.1, hreplies.append _⟩, hreplies.concat _⟩
    refine triple_bind hseen fun now => triple_pure fun history s h => ⟨h.1, fun hlate => ?_⟩
    exact ⟨⟨.monotonic, .ok now⟩, not_lt.mp (of_decide_eq_false hlate), h.2⟩

theorem triple_awaitPhase (hJ : Kept Op.Discreet J) (target deadline : ℤ) :
    Triple (fun history s => J history s ∧ Seen past replies history)
      (awaitPhase target deadline turns)
      (fun _ history s => ∃ pause, (J history s ∧ Seen past (replies ++ [pause]) history) ∧
        Paused (min target deadline) pause) (fun _ => J) := by
  have hseen : Kept Op.Discreet fun history s => J history s ∧ Seen past replies history :=
    hJ.and (kept_seen past replies)
  refine triple_loop (I := fun _ history s => J history s ∧ Seen past replies history)
    (fun _ => triple_goOn hseen fun _ _ _ h => h.1) (fun _ => ?_) turns ()
  refine triple_bind (triple_runningUntil hJ _) fun running => ?_
  cases running with
  | true =>
    refine (Triple.of_imp ?_ fun _ _ h => h.1)
    refine (harmless_perform id).then hseen (fun _ _ _ h => h.1) fun now => ?_
    refine (harmless_perform id).then hseen (fun _ _ _ h => h.1) fun _ => ?_
    exact triple_pure fun _ _ => id
  | false =>
    refine triple_pure fun history s h => ?_
    obtain ⟨pause, hpause, hpaused⟩ := h.2 rfl
    exact ⟨pause, ⟨h.1.1, hpaused⟩, hpause⟩

theorem triple_writeAttempt (hJ : Kept Op.Discreet J)
    (hpath : ∀ path ∈ attemptPath, ∀ document, (Op.exclusiveJson path document).Discreet)
    (startedAt : String) :
    Triple J
      (writeAttempt { Gate.ofAnchor anchor with releaseRequestStartedAt := some startedAt }
        attemptPath)
      (fun _ history s => J history s ∧ Attempted attemptPath anchor history) (fun _ => J) := by
  cases attemptPath with
  | none => exact triple_pure fun history s h => ⟨h, fun _ hpath => nomatch hpath⟩
  | some path =>
    have hdiscreet := hpath path rfl
    refine triple_perform (fun history s h r => ⟨hJ _ _ _ _ (hdiscreet _) h, ?_⟩)
      fun history s h _ => hJ _ _ _ _ (hdiscreet _) h
    rintro _ ⟨⟩
    exact ⟨startedAt, List.mem_append_right _ List.mem_cons_self⟩

theorem triple_requestRelease (hI : Kept Op.Releasing I)
    (hpath : ∀ path ∈ attemptPath, ∀ document, (Op.exclusiveJson path document).Discreet) :
    Triple (fun history s => (I history s ∧ Unpatched history) ∧ Ready assignment anchor history)
      (requestRelease parsers url attemptPath (.ofAnchor anchor))
      (fun gate history s => I history s ∧ Released assignment attemptPath gate history)
      (fun _ history s => I history s ∧ ReleasedOnce assignment attemptPath history) := by
  have hdiscreet : Kept Op.Discreet I := hI.mono fun _ => .inr
  have hready := (hdiscreet.and kept_unpatched).and (kept_ready assignment anchor)
  refine (harmless_perform id).then hready (fun _ _ _ h => ⟨h.1.1, .inl h.1.2⟩)
    fun startedAt => ?_
  refine triple_bind ((triple_writeAttempt hready hpath startedAt).weaken (fun _ _ => id)
    (fun _ _ _ => id) fun _ _ _ h => ⟨h.1.1, .inl h.1.2⟩) fun _ => ?_
  have hattempted := hready.and (kept_attempted attemptPath anchor)
  have hpatch : Triple (fun history s => ((I history s ∧ Unpatched history) ∧
        Ready assignment anchor history) ∧ Attempted attemptPath anchor history)
      (k6Request parsers url .patch)
      (fun response history s => I history s ∧
        Patched assignment attemptPath anchor (.ok response) history)
      (fun _ history s => I history s ∧ ReleasedOnce assignment attemptPath history) := by
    refine (harmless_ofExcept _).then hattempted (fun _ _ _ h => ⟨h.1.1.1, .inl h.1.1.2⟩)
      fun parts => ?_
    refine (harmless_raiseIf _).then hattempted (fun _ _ _ h => ⟨h.1.1.1, .inl h.1.1.2⟩)
      fun _ => ?_
    refine triple_perform (fun history s h response => ?_) fun history s h error => ?_
    · refine ⟨hI _ _ _ _ (.inl rfl) h.1.1.1, history, url, [], rfl, h.1.1.2, ?_, h.1.2, h.2⟩
      exact fun _ hmem => nomatch hmem
    · refine ⟨hI _ _ _ _ (.inl rfl) h.1.1.1, .inr ⟨anchor, .error error, history, url, [], rfl,
        h.1.1.2, ?_, h.1.2, h.2⟩⟩
      exact fun _ hmem => nomatch hmem
  refine triple_bind hpatch fun response => ?_
  have hpatched := hdiscreet.and (kept_patched assignment attemptPath anchor (.ok response))
  refine (harmless_perform id).then hpatched (fun _ _ _ h => ⟨h.1, .inr ⟨_, _, h.2⟩⟩)
    fun finishedAt => ?_
  refine triple_bind (triple_parse fun _ _ _ h => ⟨h.1, .inr ⟨_, _, h.2⟩⟩) fun running => ?_
  refine triple_bind (triple_unless fun _ _ _ h => ⟨h.1.1, .inr ⟨_, _, h.1.2⟩⟩) fun _ => ?_
  refine triple_pure fun history s h => ⟨h.1.1.1, response, rfl, ?_, h.1.1.2⟩
  rw [h.1.2, Bool.eq_true_of_not_eq_false h.2]

variable (hI : Kept Op.Releasing I)
  (hpath : ∀ path ∈ attemptPath, ∀ document, (Op.exclusiveJson path document).Discreet)

include hI hpath

theorem triple_releaseAt {check : Gate → LaunchM Unit}
    (hcheck : ∀ gate, Harmless Op.Discreet (check gate)) {started : ℤ} {rows : List StreamRow}
    (hselect : selectAnchor rows assignment.targetUID assignment.after assignment.offset =
      .ok (some anchor)) :
    Triple (fun history s => (I history s ∧ Unpatched history) ∧
        Ever [⟨.monotonic, .ok started⟩, ⟨.readObservations, .ok rows⟩] history)
      (releaseAt parsers url (started + assignment.timeout) check attemptPath turns anchor)
      (fun gate history s => I history s ∧ Released assignment attemptPath gate history)
      (fun _ history s => I history s ∧ ReleasedOnce assignment attemptPath history) := by
  have hcalm := kept_calm hI
  have hraise := calm_raise (I := I) assignment attemptPath
  -- What was seen grows with each step that the release rests on.
  refine triple_see hcalm id hraise fun now => ?_
  refine triple_bind (triple_unless fun error history s h => hraise error history s h.1)
    fun _ => triple_given fun hnow => ?_
  refine Triple.of_imp (triple_just hcalm id hraise fun monotonic => ?_)
    fun _ _ h => ⟨h.1, just_nil h.2⟩
  refine triple_just hcalm id hraise fun wall => ?_
  refine triple_bind ((triple_awaitPhase turns hcalm _ _).weaken
    (fun _ _ h => ⟨h.1, seen_nil h.2⟩) (fun _ _ _ => id) hraise)
    fun _ => triple_exists fun pause => triple_given fun hpause => ?_
  refine triple_see hcalm id hraise fun stopped => triple_ite (fun _ => ?_) fun hstopped => ?_
  · exact triple_gateExpired (hcalm.and (kept_seen _ _)) fun error history s h =>
      hraise error history s h.1
  · refine triple_see hcalm id hraise fun last => ?_
    refine triple_bind (triple_unless fun error history s h => hraise error history s h.1)
      fun _ => triple_given fun hlast => ?_
    refine (hcheck _).then (hcalm.and (kept_seen _ _)) (fun error history s h =>
      hraise error history s h.1) fun _ => ?_
    refine (triple_requestRelease parsers url hI hpath).of_imp fun history s h => ⟨h.1, ?_⟩
    exact ⟨started, now, monotonic, wall, last, rows, pause, hselect, not_le.mp hnow, hpause,
      not_le.mp hlast, Bool.eq_false_of_not_eq_true hstopped ▸ h.2⟩

theorem triple_gateTurn {check : Option Gate → LaunchM Unit}
    (hcheck : ∀ gate, Harmless Op.Discreet (check gate)) (started : ℤ) :
    Triple (fun history s => (I history s ∧ Unpatched history) ∧
        Ever [⟨.monotonic, .ok started⟩] history)
      (gateTurn parsers assignment url (started + assignment.timeout) check attemptPath turns)
      (fun r => Sum.elim
        (fun _ history s => (I history s ∧ Unpatched history) ∧
          Ever [⟨.monotonic, .ok started⟩] history)
        (fun gate history s => I history s ∧ Released assignment attemptPath gate history) r)
      (fun _ history s => I history s ∧ ReleasedOnce assignment attemptPath history) := by
  have hcalm := kept_calm hI
  have hraise := calm_raise (I := I) assignment attemptPath
  have hseen := hcalm.and (kept_seen (fun _ => True) [⟨.monotonic, .ok started⟩])
  refine (discreet_runningUntil _).then hseen (fun error history s h => hraise error history s h.1)
    fun running => triple_ite (fun _ => ?_) fun _ => ?_
  · refine (hcheck none).then hseen (fun error history s h => hraise error history s h.1)
      fun _ => ?_
    refine triple_see hcalm id hraise fun rows => ?_
    refine triple_bind (triple_parse fun error history s h => hraise error history s h.1)
      fun selected => triple_given fun hselected => ?_
    cases selected with
    | none =>
      refine (harmless_perform id).then (hcalm.and (kept_seen _ _)) (fun error history s h =>
        hraise error history s h.1) fun _ => ?_
      exact triple_pure fun history s h => ⟨h.1, h.2.of_concat⟩
    | some anchor =>
      have hselect := valueError_ok hselected
      exact triple_bind (triple_releaseAt parsers url turns hI hpath (fun gate => hcheck _) hselect)
        fun gate => triple_pure fun _ _ => id
  · exact triple_gateExpired hseen fun error history s h => hraise error history s h.1

theorem triple_releaseGate {check : Option Gate → LaunchM Unit}
    (hcheck : ∀ gate, Harmless Op.Discreet (check gate)) :
    Triple (fun history s => I history s ∧ Unpatched history)
      (releaseGate parsers assignment url check attemptPath turns)
      (fun gate history s => I history s ∧ Released assignment attemptPath gate history)
      (fun _ history s => I history s ∧ ReleasedOnce assignment attemptPath history) := by
  have hcalm := kept_calm hI
  have hraise := calm_raise (I := I) assignment attemptPath
  refine triple_seeFirst hcalm id hraise fun started => ?_
  have hseen := hcalm.and (kept_seen (fun _ => True) [⟨.monotonic, .ok started⟩])
  have hlate : ∀ (error : PyError) history s, (I history s ∧ Unpatched history) ∧
      Ever [⟨.monotonic, .ok started⟩] history →
        I history s ∧ ReleasedOnce assignment attemptPath history :=
    fun error history s h => hraise error history s h.1
  refine (discreet_get parsers url).then hseen hlate fun response => ?_
  refine (harmless_ofExcept _).then hseen hlate fun ready => ?_
  refine (harmless_raiseIf _).then hseen hlate fun _ => ?_
  exact triple_loop (I := fun _ history s => (I history s ∧ Unpatched history) ∧
      Ever [⟨.monotonic, .ok started⟩] history)
    (fun _ => triple_goOn hseen hlate)
    (fun _ => triple_gateTurn parsers url turns hI hpath hcheck started) turns ()

end Release

end Autoscaler.CadenceLaunch
