import Autoscaler.Analysis.StateReads
import Autoscaler.Library.EffectTimeline

/-! The observed requests against the logged chain of Scale writes. A write takes effect at some
instant of its interval, which the log does not tell. -/
namespace Autoscaler.Analysis

structure ScaleWrite (T : Type*) where
  started : T
  finished : T
  before : ℤ
  after : ℤ
  deriving DecidableEq, Repr

structure ReplicaChecks where
  checked : ℕ
  overlappingWriteIntervals : ℕ
  deriving DecidableEq, Repr

/-- Python's equality of a decoded value with an integer. -/
def JsonValue.equals : JsonValue → ℤ → Bool
  | .boolean value, n => decide (n = if value then 1 else 0)
  | .number (.finite value), n => decide (value = n)
  | _, _ => false

section Check

variable {T : Type*} [LinearOrder T]

def preceding (initial : ℤ) (writes : List (ScaleWrite T)) (start : T) : ℤ :=
  writes.foldl (fun preceding write =>
    if write.finished < start then write.after else preceding) initial

def overlaps (writes : List (ScaleWrite T)) (start finish : T) : List (ScaleWrite T) :=
  writes.filter fun write => decide (write.started ≤ finish) && decide (start ≤ write.finished)

def candidates (initial : ℤ) (writes : List (ScaleWrite T)) (start finish : T) : List ℤ :=
  preceding initial writes start ::
    (overlaps writes start finish).flatMap fun write => [write.before, write.after]

def checkRead (writes : List (ScaleWrite T)) (initial : ℤ) (row : StateRow T)
    (lastStart : Option T) : Except String (T × Bool) :=
  match readInterval row "deployment" with
  | .error err => .error err
  | .ok (start, finish) =>
    if (∃ last ∈ lastStart, start < last) ∨ finish < start then
      .error "API read intervals are reversed or out of order"
    else
      match row.response.lookup "deployment" with
      | none => .error "KeyError: deployment"
      | some obj =>
        if (candidates initial writes start finish).any obj.replicas.equals then
          .ok (start, !(overlaps writes start finish).isEmpty)
        else .error "Observed requested replicas disagree with successful write chain"

def StateRow.isRead (row : StateRow T) : Bool := row.kind == "state" && row.status == "success"

def checkRequestedObservations.loop (writes : List (ScaleWrite T)) (initial : ℤ) :
    List (StateRow T) → Option T → ReplicaChecks → Except String ReplicaChecks
  | [], _, checks => .ok checks
  | row :: rest, lastStart, checks =>
    if !row.isRead then loop writes initial rest lastStart checks
    else
      match checkRead writes initial row lastStart with
      | .error err => .error err
      | .ok (start, overlapped) =>
        loop writes initial rest (some start)
          ⟨checks.checked + 1, checks.overlappingWriteIntervals + if overlapped then 1 else 0⟩

def checkRequestedObservations (states : List (StateRow T)) (writes : List (ScaleWrite T))
    (initial : ℤ) : Except String ReplicaChecks :=
  checkRequestedObservations.loop writes initial states none ⟨0, 0⟩

end Check

/-! How `prepare` builds the chain from the logged cycles. -/

structure ScaleDecision where
  skipReason : String
  finalDesired : ℤ
  currentReplicas : ℤ
  deriving DecidableEq, Repr

structure ScaleEvent (T : Type*) where
  scaled : Bool
  previousDesiredReplicas : ℤ
  finalDesired : ℤ
  currentReplicas : ℤ
  scaleWriteStartedAt : T
  scaleWriteFinishedAt : T
  deriving DecidableEq, Repr

structure ScaleCycle (T : Type*) where
  decision : Option ScaleDecision
  scale : Option (ScaleEvent T)
  deriving DecidableEq, Repr

section Chain

variable {T : Type*} [LinearOrder T]

/-- The logged write disagrees with the cycle's decision or with the write before it. -/
def ScaleEvent.disagrees (scale : ScaleEvent T) (decision : Option ScaleDecision)
    (requested : ℤ) : Bool :=
  match decision with
  | none => true
  | some decision => decision.skipReason != "" || !scale.scaled ||
      scale.previousDesiredReplicas != requested ||
      scale.finalDesired != decision.finalDesired ||
      scale.currentReplicas != decision.currentReplicas

def prepareWrites : ℤ → List (ScaleCycle T) → Except String (List (ScaleWrite T))
  | _, [] => .ok []
  | requested, cycle :: rest =>
    match cycle.scale with
    | none => prepareWrites requested rest
    | some scale =>
      if scale.disagrees cycle.decision requested then
        .error "Successful Scale write chain disagrees with recorded decision"
      else
        (prepareWrites scale.finalDesired rest).map fun writes =>
          ⟨scale.scaleWriteStartedAt, scale.scaleWriteFinishedAt, scale.previousDesiredReplicas,
            scale.finalDesired⟩ :: writes

/-- The first write starts from the initial request, each later one from the one before it. -/
def Linked : ℤ → List (ScaleWrite T) → Prop
  | _, [] => True
  | requested, write :: rest => write.before = requested ∧ Linked write.after rest

omit [LinearOrder T] in
/-- The collected writes are linked from the initial request on. -/
theorem prepareWrites_linked {requested : ℤ} {cycles : List (ScaleCycle T)}
    {writes : List (ScaleWrite T)} (h : prepareWrites requested cycles = .ok writes) :
    Linked requested writes := by
  induction cycles generalizing requested writes with
  | nil =>
    cases h
    trivial
  | cons cycle rest ih =>
    rw [prepareWrites] at h
    cases hscale : cycle.scale with
    | none =>
      rw [hscale] at h
      exact ih h
    | some scale =>
      rw [hscale] at h
      dsimp only at h
      split_ifs at h with hdisagrees
      cases hdecision : cycle.decision with
      | none => simp [ScaleEvent.disagrees, hdecision] at hdisagrees
      | some decision =>
        cases hrest : prepareWrites scale.finalDesired rest with
        | error err =>
          rw [hrest] at h
          cases h
        | ok tail =>
          rw [hrest] at h
          cases h
          have hbefore : scale.previousDesiredReplicas = requested := by
            simp only [ScaleEvent.disagrees, hdecision, Bool.or_eq_true, not_or, bne_iff_ne,
              ne_eq, not_not] at hdisagrees
            exact hdisagrees.1.1.2
          exact ⟨hbefore, ih hrest⟩

structure WriteChain (initial : ℤ) (writes : List (ScaleWrite T)) : Prop where
  ordered : EffectTimeline.Ordered ScaleWrite.started ScaleWrite.finished writes
  linked : Linked initial writes

def requestedAfter (initial : ℤ) (writes : List (ScaleWrite T)) : ℤ :=
  writes.foldl (fun _ write => write.after) initial

abbrev WriteTimeline (writes : List (ScaleWrite T)) :=
  EffectTimeline.Timeline ScaleWrite.started ScaleWrite.finished writes

/-- The value is requested at instant `t` of the timeline. At an effect instant both the value just
before the write and the one just after it are. -/
def RequestedAt {writes : List (ScaleWrite T)} (timeline : WriteTimeline writes) (initial : ℤ)
    (t : T) (value : ℤ) : Prop :=
  ∃ before after, timeline.Cut t before after ∧ requestedAfter initial before = value

/-- Some timeline requests the value that the row read at an instant of its interval. -/
def Explained (initial : ℤ) (writes : List (ScaleWrite T)) (row : StateRow T) : Prop :=
  ∃ obj, row.response.lookup "deployment" = some obj ∧
    ∃ (timeline : WriteTimeline writes) (t : T) (value : ℤ),
      (row.timingOf "deployment").requestStartedAt ≤ t ∧
      t ≤ (row.timingOf "deployment").requestFinishedAt ∧
      RequestedAt timeline initial t value ∧ obj.replicas.equals value = true

def reads (states : List (StateRow T)) : List (StateRow T) := states.filter StateRow.isRead

structure OrderedReads (states : List (StateRow T)) : Prop where
  valid : ∀ row ∈ reads states, (row.timingOf "deployment").requestStartedAt ≤
    (row.timingOf "deployment").requestFinishedAt
  ordered : (reads states).Pairwise fun row later =>
    (row.timingOf "deployment").requestStartedAt ≤ (later.timingOf "deployment").requestStartedAt

/-- The value after the writes before some cut, none of which starts after the read, and all others
of which finish no earlier than it. -/
def Reachable (initial : ℤ) (writes : List (ScaleWrite T)) (start finish : T) (value : ℤ) : Prop :=
  ∃ before after, writes = before ++ after ∧ (∀ write ∈ before, write.started ≤ finish) ∧
    (∀ write ∈ after, start ≤ write.finished) ∧ requestedAfter initial before = value

variable {initial : ℤ} {writes : List (ScaleWrite T)} {start finish : T}

theorem reachable_nil (value : ℤ) :
    Reachable initial ([] : List (ScaleWrite T)) start finish value ↔ value = initial := by
  constructor
  · rintro ⟨before, after, hsplit, -, -, rfl⟩
    rw [(List.nil_eq_append_iff.mp hsplit).1]
    rfl
  · rintro rfl
    exact ⟨[], [], rfl, by simp, by simp, rfl⟩

/-- A first write is left out, or it is part of what has taken effect. -/
theorem reachable_cons (write : ScaleWrite T) (rest : List (ScaleWrite T)) (value : ℤ) :
    Reachable initial (write :: rest) start finish value ↔
      (value = initial ∧ ∀ later ∈ write :: rest, start ≤ later.finished) ∨
        write.started ≤ finish ∧ Reachable write.after rest start finish value := by
  constructor
  · rintro ⟨before, after, hsplit, hbefore, hafter, rfl⟩
    cases before with
    | nil =>
      rw [List.nil_append] at hsplit
      exact .inl ⟨rfl, by rwa [hsplit]⟩
    | cons first before =>
      rw [List.cons_append, List.cons.injEq] at hsplit
      obtain ⟨rfl, rfl⟩ := hsplit
      have ⟨hfirst, hbefore⟩ := List.forall_mem_cons.mp hbefore
      exact .inr ⟨hfirst, before, after, rfl, hbefore, hafter, rfl⟩
  · rintro (⟨rfl, hafter⟩ | ⟨hfirst, before, after, rfl, hbefore, hafter, rfl⟩)
    · exact ⟨[], write :: rest, rfl, by simp, hafter, rfl⟩
    · refine ⟨write :: before, after, rfl, ?_, hafter, rfl⟩
      exact List.forall_mem_cons.mpr ⟨hfirst, hbefore⟩

theorem mem_candidates {value : ℤ} :
    value ∈ candidates initial writes start finish ↔ value = preceding initial writes start ∨
      ∃ write ∈ writes, write.started ≤ finish ∧ start ≤ write.finished ∧
        (value = write.before ∨ value = write.after) := by
  simp [candidates, overlaps, and_assoc]

theorem preceding_of_not_finished (initial : ℤ) (h : ∀ write ∈ writes, start ≤ write.finished) :
    preceding initial writes start = initial := by
  induction writes with
  | nil => rfl
  | cons write rest ih =>
    obtain ⟨hwrite, hrest⟩ := List.forall_mem_cons.mp h
    unfold preceding
    rw [List.foldl_cons, if_neg hwrite.not_gt]
    exact ih hrest

/-- A write that is over before the read starts only moves the initial value. -/
theorem mem_candidates_cons_of_done {write : ScaleWrite T} (rest : List (ScaleWrite T))
    (hdone : write.finished < start) {value : ℤ} :
    value ∈ candidates initial (write :: rest) start finish ↔
      value ∈ candidates write.after rest start finish := by
  have hpreceding : preceding initial (write :: rest) start =
      preceding write.after rest start := by
    unfold preceding
    rw [List.foldl_cons, if_pos hdone]
  rw [mem_candidates, mem_candidates, hpreceding]
  simp [hdone.not_ge]

/-- A write that is not over when the read starts adds its value, if the read sees any of it. -/
theorem mem_candidates_cons_of_open {write : ScaleWrite T} {rest : List (ScaleWrite T)}
    (hbefore : write.before = initial) (hopen : ∀ later ∈ write :: rest, start ≤ later.finished)
    (hlater : ∀ later ∈ rest, write.started ≤ later.started) {value : ℤ} :
    value ∈ candidates initial (write :: rest) start finish ↔
      value = initial ∨
        write.started ≤ finish ∧ value ∈ candidates write.after rest start finish := by
  obtain ⟨hwrite, hrest⟩ := List.forall_mem_cons.mp hopen
  rw [mem_candidates, mem_candidates, preceding_of_not_finished initial hopen,
    preceding_of_not_finished write.after hrest]
  constructor
  · rintro (hvalue | ⟨later, hmem, hstarted, hfinish, hvalue⟩)
    · exact .inl hvalue
    · rcases List.mem_cons.mp hmem with rfl | hmem
      · rcases hvalue with hvalue | hvalue
        · exact .inl (hvalue.trans hbefore)
        · exact .inr ⟨hstarted, .inl hvalue⟩
      · have hfirst := (hlater later hmem).trans hstarted
        exact .inr ⟨hfirst, .inr ⟨later, hmem, hstarted, hfinish, hvalue⟩⟩
  · rintro (hvalue | ⟨hstarted, hvalue | ⟨later, hmem, hseen⟩⟩)
    · exact .inl hvalue
    · exact .inr ⟨write, List.mem_cons_self, hstarted, hwrite, .inr hvalue⟩
    · exact .inr ⟨later, List.mem_cons_of_mem _ hmem, hseen⟩

/-- The candidates are the values after the cuts that the read allows. -/
theorem candidates_iff (hchain : WriteChain initial writes) (hrange : start ≤ finish) (value : ℤ) :
    value ∈ candidates initial writes start finish ↔
      Reachable initial writes start finish value := by
  induction writes generalizing initial with
  | nil =>
    rw [reachable_nil, mem_candidates]
    simp [preceding]
  | cons write rest ih =>
    obtain ⟨hbefore, hlinked⟩ := hchain.linked
    have hrest : WriteChain write.after rest := ⟨hchain.ordered.tail, hlinked⟩
    have hvalid : write.started ≤ write.finished := hchain.ordered.valid write (by simp)
    have hlater : ∀ later ∈ rest, write.finished ≤ later.started :=
      (List.pairwise_cons.mp hchain.ordered.disjoint).1
    rw [reachable_cons, ← ih hrest]
    by_cases hdone : write.finished < start
    · have hstarted : write.started ≤ finish := hvalid.trans (hdone.le.trans hrange)
      rw [mem_candidates_cons_of_done rest hdone]
      simp [hdone.not_ge, hstarted]
    · -- from this write on all writes finish too late to precede the read
      have hopen : start ≤ write.finished := not_lt.mp hdone
      have hall : ∀ later ∈ write :: rest, start ≤ later.finished := by
        refine List.forall_mem_cons.mpr ⟨hopen, fun later hmem => ?_⟩
        have hfinished := hchain.ordered.valid later (List.mem_cons_of_mem _ hmem)
        exact (hopen.trans (hlater later hmem)).trans hfinished
      rw [mem_candidates_cons_of_open hbefore hall
        fun later hmem => hvalid.trans (hlater later hmem), and_iff_left hall]

theorem reachable_iff (hchain : WriteChain initial writes) (hrange : start ≤ finish) (value : ℤ) :
    Reachable initial writes start finish value ↔
      ∃ (timeline : WriteTimeline writes) (t : T), start ≤ t ∧ t ≤ finish ∧
        RequestedAt timeline initial t value := by
  constructor
  · rintro ⟨before, after, rfl, hbefore, hafter, hvalue⟩
    obtain ⟨timeline, t, hstart, hfinish, hcut⟩ :=
      (hchain.ordered.exists_cut_iff hrange).mpr ⟨hbefore, hafter⟩
    exact ⟨timeline, t, hstart, hfinish, before, after, hcut, hvalue⟩
  · rintro ⟨timeline, t, hstart, hfinish, before, after, hcut, hvalue⟩
    obtain ⟨hbefore, hafter⟩ := hcut.bounds hstart hfinish
    exact ⟨before, after, hcut.ops_eq, hbefore, hafter, hvalue⟩

/-- Some candidate equals the read value exactly when some timeline requests an equal one. -/
theorem candidates_any_iff (hchain : WriteChain initial writes) (hrange : start ≤ finish)
    (read : JsonValue) :
    (candidates initial writes start finish).any read.equals = true ↔
      ∃ (timeline : WriteTimeline writes) (t : T) (value : ℤ), start ≤ t ∧ t ≤ finish ∧
        RequestedAt timeline initial t value ∧ read.equals value = true := by
  rw [List.any_eq_true]
  constructor
  · rintro ⟨value, hmem, hequals⟩
    have hreach := (candidates_iff hchain hrange value).mp hmem
    obtain ⟨timeline, t, hstart, hfinish, hrequested⟩ :=
      (reachable_iff hchain hrange value).mp hreach
    exact ⟨timeline, t, value, hstart, hfinish, hrequested, hequals⟩
  · rintro ⟨timeline, t, value, hstart, hfinish, hrequested, hequals⟩
    have hreach := (reachable_iff hchain hrange value).mpr
      ⟨timeline, t, hstart, hfinish, hrequested⟩
    exact ⟨value, (candidates_iff hchain hrange value).mpr hreach, hequals⟩

/-- A read in order passes the check exactly when it is explained. -/
theorem checkRead_ok_iff (hchain : WriteChain initial writes) (row : StateRow T)
    {lastStart : Option T} (hvalid : (row.timingOf "deployment").requestStartedAt ≤
      (row.timingOf "deployment").requestFinishedAt)
    (hordered : ∀ last ∈ lastStart, last ≤ (row.timingOf "deployment").requestStartedAt) :
    (∃ overlapped, checkRead writes initial row lastStart =
        .ok ((row.timingOf "deployment").requestStartedAt, overlapped)) ↔
      Explained initial writes row := by
  have hnot : ¬ ((∃ last ∈ lastStart, (row.timingOf "deployment").requestStartedAt < last) ∨
      (row.timingOf "deployment").requestFinishedAt <
        (row.timingOf "deployment").requestStartedAt) := by
    rintro (⟨last, hlast, hlt⟩ | hlt)
    · exact hlt.not_ge (hordered last hlast)
    · exact hlt.not_ge hvalid
  unfold checkRead
  rw [readInterval_ok hvalid]
  dsimp only
  rw [if_neg hnot]
  unfold Explained
  cases hlookup : row.response.lookup "deployment" with
  | none => simp
  | some obj =>
    have hany := candidates_any_iff hchain hvalid obj.replicas
    dsimp only
    split_ifs with hcandidate
    · exact ⟨fun _ => ⟨obj, rfl, hany.mp hcandidate⟩, fun _ => ⟨_, rfl⟩⟩
    · constructor
      · rintro ⟨overlapped, hok⟩
        cases hok
      · rintro ⟨obj', hobj, hexplained⟩
        cases hobj
        exact absurd (hany.mpr hexplained) hcandidate

/-- A passed read starts when its request does. -/
theorem checkRead_start {row : StateRow T} {lastStart : Option T} {t : T} {overlapped : Bool}
    (h : checkRead writes initial row lastStart = .ok (t, overlapped)) :
    t = (row.timingOf "deployment").requestStartedAt := by
  unfold checkRead readInterval at h
  dsimp only at h
  split_ifs at h with hinterval
  dsimp only at h
  split_ifs at h with horder
  cases hlookup : row.response.lookup "deployment" with
  | none =>
    rw [hlookup] at h
    cases h
  | some obj =>
    rw [hlookup] at h
    dsimp only at h
    split_ifs at h with hcandidate
    cases h
    rfl

end Chain

section Run

variable {T : Type*} [LinearOrder T] {initial : ℤ} {writes : List (ScaleWrite T)}

omit [LinearOrder T] in
theorem reads_cons_of_read {row : StateRow T} (h : row.isRead = true) (rest : List (StateRow T)) :
    reads (row :: rest) = row :: reads rest :=
  List.filter_cons_of_pos h

omit [LinearOrder T] in
theorem reads_cons_of_not_read {row : StateRow T} (h : row.isRead = false)
    (rest : List (StateRow T)) : reads (row :: rest) = reads rest :=
  List.filter_cons_of_neg (by simp [h])

theorem OrderedReads.tail {row : StateRow T} {rest : List (StateRow T)}
    (h : OrderedReads (row :: rest)) : OrderedReads rest := by
  have hsub : (reads rest).Sublist (reads (row :: rest)) :=
    (List.sublist_cons_self row rest).filter _
  exact ⟨fun later hmem => h.valid later (hsub.subset hmem), h.ordered.sublist hsub⟩

theorem loop_of_not_read {row : StateRow T} (h : row.isRead = false) (rest : List (StateRow T))
    (lastStart : Option T) (checks : ReplicaChecks) :
    checkRequestedObservations.loop writes initial (row :: rest) lastStart checks =
      checkRequestedObservations.loop writes initial rest lastStart checks := by
  rw [checkRequestedObservations.loop, h]
  rfl

theorem loop_of_read {row : StateRow T} (h : row.isRead = true) (rest : List (StateRow T))
    (lastStart : Option T) (checks : ReplicaChecks) :
    checkRequestedObservations.loop writes initial (row :: rest) lastStart checks =
      match checkRead writes initial row lastStart with
      | .error err => .error err
      | .ok (start, overlapped) =>
        checkRequestedObservations.loop writes initial rest (some start) ⟨checks.checked + 1,
          checks.overlappingWriteIntervals + if overlapped then 1 else 0⟩ := by
  rw [checkRequestedObservations.loop, h]
  rfl

/-- A success has counted every read. -/
theorem loop_checked {states : List (StateRow T)} {lastStart : Option T}
    {checks result : ReplicaChecks}
    (h : checkRequestedObservations.loop writes initial states lastStart checks = .ok result) :
    result.checked = checks.checked + (reads states).length := by
  induction states generalizing lastStart checks with
  | nil =>
    cases h
    rfl
  | cons row rest ih =>
    cases hread : row.isRead with
    | false =>
      rw [loop_of_not_read hread] at h
      rw [reads_cons_of_not_read hread]
      exact ih h
    | true =>
      rw [loop_of_read hread] at h
      cases hcheck : checkRead writes initial row lastStart with
      | error err =>
        rw [hcheck] at h
        cases h
      | ok passed =>
        rw [hcheck] at h
        have hrest := ih h
        rw [reads_cons_of_read hread, hrest, List.length_cons]
        dsimp only
        omega

/-- The rest of the loop succeeds exactly when every read of it is explained. -/
theorem loop_ok_iff (hchain : WriteChain initial writes) {states : List (StateRow T)}
    (hreads : OrderedReads states) {lastStart : Option T}
    (hlast : ∀ row ∈ reads states, ∀ last ∈ lastStart,
      last ≤ (row.timingOf "deployment").requestStartedAt) (checks : ReplicaChecks) :
    (∃ result, checkRequestedObservations.loop writes initial states lastStart checks =
        .ok result) ↔ ∀ row ∈ reads states, Explained initial writes row := by
  induction states generalizing lastStart checks with
  | nil =>
    constructor
    · intro _ row hrow
      cases hrow
    · exact fun _ => ⟨checks, rfl⟩
  | cons row rest ih =>
    cases hread : row.isRead with
    | false =>
      rw [reads_cons_of_not_read hread] at hlast ⊢
      rw [loop_of_not_read hread]
      exact ih hreads.tail hlast checks
    | true =>
      have hordered := hreads.ordered
      have hvalid := hreads.valid row
      rw [reads_cons_of_read hread] at hlast hordered hvalid ⊢
      obtain ⟨hrow, hrest⟩ := List.forall_mem_cons.mp hlast
      have hcheck := checkRead_ok_iff hchain row (hvalid List.mem_cons_self) hrow
      have hnext : ∀ later ∈ reads rest, ∀ last ∈
          some (row.timingOf "deployment").requestStartedAt,
            last ≤ (later.timingOf "deployment").requestStartedAt := by
        intro later hlater last hmem
        rw [← Option.mem_some_iff.mp hmem]
        exact (List.pairwise_cons.mp hordered).1 later hlater
      rw [List.forall_mem_cons, ← hcheck, loop_of_read hread]
      cases hresult : checkRead writes initial row lastStart with
      | error err =>
        constructor
        · rintro ⟨result, hok⟩
          cases hok
        · rintro ⟨⟨overlapped, hok⟩, -⟩
          cases hok
      | ok passed =>
        obtain ⟨start, overlapped⟩ := passed
        have hstart := checkRead_start hresult
        subst hstart
        dsimp only
        rw [ih hreads.tail hnext]
        exact ⟨fun hall => ⟨⟨overlapped, rfl⟩, hall⟩, fun hall => hall.2⟩

end Run

/-- The check succeeds exactly when every read is explained by some timeline of the writes, and it
counts the reads. -/
theorem check_accepts_explained {T : Type*} [LinearOrder T] (initial : ℤ)
    (writes : List (ScaleWrite T)) (hchain : WriteChain initial writes)
    (states : List (StateRow T)) (hreads : OrderedReads states) :
    ((∃ checks, checkRequestedObservations states writes initial = .ok checks) ↔
      ∀ row ∈ reads states, Explained initial writes row) ∧
    ∀ checks, checkRequestedObservations states writes initial = .ok checks →
      checks.checked = (reads states).length := by
  constructor
  · exact loop_ok_iff hchain hreads (fun _ _ last hlast => by cases hlast) ⟨0, 0⟩
  · intro checks hchecks
    have hcount := loop_checked hchecks
    rwa [Nat.zero_add] at hcount

/-! Two touching writes and a read at the instant where they touch: it may see any of the three
values. -/

def touchingWrites : List (ScaleWrite ℤ) := [⟨10, 20, 1, 2⟩, ⟨20, 30, 2, 4⟩]

def deploymentRow (start finish replicas : ℤ) : StateRow ℤ where
  kind := "state"
  status := "success"
  timing := ⟨start, finish⟩
  requests := []
  response := [("deployment", ⟨some 1, .number (.finite replicas), none, []⟩)]

theorem touchingWrites_chain : WriteChain 1 touchingWrites where
  ordered := ⟨by decide, by decide⟩
  linked := ⟨rfl, rfl, trivial⟩

theorem check_accepts_explained_touching :
    Explained 1 touchingWrites (deploymentRow 20 20 2) ∧
      ¬ Explained 1 touchingWrites (deploymentRow 21 29 1) := by
  constructor
  · have hreads : OrderedReads [deploymentRow 20 20 2] := ⟨by decide, by decide⟩
    have hall := (check_accepts_explained 1 touchingWrites touchingWrites_chain _ hreads).1.mp
      ⟨⟨1, 1⟩, by decide +kernel⟩
    exact hall _ (by decide)
  · intro hexplained
    have hreads : OrderedReads [deploymentRow 21 29 1] := ⟨by decide, by decide⟩
    obtain ⟨checks, hok⟩ := (check_accepts_explained 1 touchingWrites touchingWrites_chain _
      hreads).1.mpr fun row hrow => by
        rw [List.mem_singleton.mp hrow]
        exact hexplained
    have hfail : checkRequestedObservations [deploymentRow 21 29 1] touchingWrites 1 = .error
        "Observed requested replicas disagree with successful write chain" := by decide +kernel
    rw [hfail] at hok
    cases hok

end Autoscaler.Analysis
