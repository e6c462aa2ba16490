import Autoscaler.Library.Gates
import Autoscaler.MetricsProvider.TargetCache

/-! Any number of concurrent calls on one provider, stepped in any order. A step is one read of a
call, or one operation on what the calls share: a gate, or the history under its mutex. What a call
reads is part of the call, so a cancellation at any point is one of the calls. -/
namespace Autoscaler.MetricsProvider

def fnv64a (bytes : List UInt8) : UInt64 :=
  bytes.foldl (fun hash byte => (hash ^^^ byte.toUInt64) * 1099511628211) 14695981039346656037

example : fnv64a [97] = 0xaf63dc4c8601ec8c := by decide

def queryGate (key : NamespacedName) : Fin 64 :=
  Fin.ofNat 64 (fnv64a (key.ns ++ "/" ++ key.name).toUTF8.toList).toNat

/-- What a call does next between its gate and its record, with what it has read so far. -/
inductive Stage where
  | checkWindow
  | readRoster
  | queryRates (roster : TargetRoster)
  | querySources (roster : TargetRoster) (rates : Vector)
  | aggregate (roster : TargetRoster) (rates sources : Vector)
  | readRosterAgain (roster : TargetRoster) (result : Utilization)
  | checkFreshness (result : Utilization)

namespace Stage

section

variable (maxSampleAge window : ℤ) (readings : Readings)

/-- What follows a stage: an error, the next stage, or the observation. -/
def next : Stage → Except Err (Stage ⊕ Observation)
  | .checkWindow =>
    if window < observationSpacing ∨ maxHistoryWindow < window then
      .error (.wrap .invalidData "history window must be between 15s and 1h")
    else .ok (.inl .readRoster)
  | .readRoster =>
    match readings.roster with
    | .error err => .error err
    | .ok roster => .ok (.inl (.queryRates roster))
  | .queryRates roster =>
    match query readings.rates with
    | .error err => .error err
    | .ok rates => .ok (.inl (.querySources roster rates))
  | .querySources roster rates =>
    match query readings.sources with
    | .error err => .error err
    | .ok sources => .ok (.inl (.aggregate roster rates sources))
  | .aggregate roster rates sources =>
    match utilization maxSampleAge roster rates sources
      (Time.truncate readings.now millisecond) with
    | .error err => .error err
    | .ok result => .ok (.inl (.readRosterAgain roster result))
  | .readRosterAgain roster result =>
    match readings.rosterAfter with
    | .error err => .error (.wrap .targetChanged ("post-query roster: " ++ err.message))
    | .ok after =>
      if !sameRoster roster after then .error (.ofSentinel .targetChanged)
      else .ok (.inl (.checkFreshness result))
  | .checkFreshness result =>
    if effectiveMaxSampleAge maxSampleAge < readings.nowAfter - result.oldest then
      .error (.ofSentinel .staleData)
    else
      .ok (.inr ⟨⟨Time.truncate readings.now millisecond, .finite result.value⟩, result.oldest,
        result.containers⟩)

def Reached (stage : Stage) : Prop :=
  let admissible := observationSpacing ≤ window ∧ window ≤ maxHistoryWindow
  match stage with
  | .checkWindow => True
  | .readRoster => admissible
  | .queryRates roster => admissible ∧ readings.roster = .ok roster
  | .querySources roster rates =>
    admissible ∧ readings.roster = .ok roster ∧ query readings.rates = .ok rates
  | .aggregate roster rates sources =>
    admissible ∧ readings.roster = .ok roster ∧ query readings.rates = .ok rates ∧
      query readings.sources = .ok sources
  | .readRosterAgain roster result =>
    admissible ∧ readings.roster = .ok roster ∧ ∃ rates sources,
      query readings.rates = .ok rates ∧ query readings.sources = .ok sources ∧
      utilization maxSampleAge roster rates sources (Time.truncate readings.now millisecond) =
        .ok result
  | .checkFreshness result =>
    admissible ∧ ∃ roster rates sources after, readings.roster = .ok roster ∧
      query readings.rates = .ok rates ∧ query readings.sources = .ok sources ∧
      utilization maxSampleAge roster rates sources (Time.truncate readings.now millisecond) =
        .ok result ∧
      readings.rosterAfter = .ok after ∧ sameRoster roster after = true

def rank : Stage → ℕ
  | .checkWindow => 6
  | .readRoster => 5
  | .queryRates _ => 4
  | .querySources _ _ => 3
  | .aggregate _ _ _ => 2
  | .readRosterAgain _ _ => 1
  | .checkFreshness _ => 0

end

/-- A reached stage fails as the whole observation does, leads to a further stage, or completes
the observation. -/
theorem next_cases (maxSampleAge window : ℤ) (readings : Readings) {stage : Stage}
    (h : stage.Reached maxSampleAge window readings) :
    (∃ err, stage.next maxSampleAge window readings = .error err ∧
      observe maxSampleAge window readings = .error err) ∨
    (∃ stage', stage.next maxSampleAge window readings = .ok (.inl stage') ∧
      stage'.Reached maxSampleAge window readings ∧ stage'.rank < stage.rank) ∨
    ∃ observation, stage.next maxSampleAge window readings = .ok (.inr observation) ∧
      observe maxSampleAge window readings = .ok observation := by
  have hwindow : observationSpacing ≤ window ∧ window ≤ maxHistoryWindow →
      ¬ (window < observationSpacing ∨ maxHistoryWindow < window) := by omega
  unfold observe
  cases stage with
  | checkWindow =>
    by_cases hw : window < observationSpacing ∨ maxHistoryWindow < window
    · exact .inl ⟨_, if_pos hw, if_pos hw⟩
    · exact .inr (.inl ⟨.readRoster, if_neg hw, by unfold Reached; omega, by decide⟩)
  | readRoster =>
    rw [if_neg (hwindow h)]
    cases hroster : readings.roster with
    | error err => exact .inl ⟨err, by simp only [next, hroster], rfl⟩
    | ok roster =>
      exact .inr (.inl ⟨.queryRates roster, by simp only [next, hroster], ⟨h, hroster⟩,
        Nat.lt_succ_self _⟩)
  | queryRates roster =>
    obtain ⟨hw, hroster⟩ := h
    rw [if_neg (hwindow hw), hroster]
    cases hrates : query readings.rates with
    | error err => exact .inl ⟨err, by simp only [next, hrates], rfl⟩
    | ok rates =>
      exact .inr (.inl ⟨.querySources roster rates, by simp only [next, hrates],
        ⟨hw, hroster, hrates⟩, Nat.lt_succ_self _⟩)
  | querySources roster rates =>
    obtain ⟨hw, hroster, hrates⟩ := h
    rw [if_neg (hwindow hw), hroster, hrates]
    cases hsources : query readings.sources with
    | error err => exact .inl ⟨err, by simp only [next, hsources], rfl⟩
    | ok sources =>
      exact .inr (.inl ⟨.aggregate roster rates sources, by simp only [next, hsources],
        ⟨hw, hroster, hrates, hsources⟩, Nat.lt_succ_self _⟩)
  | aggregate roster rates sources =>
    obtain ⟨hw, hroster, hrates, hsources⟩ := h
    rw [if_neg (hwindow hw), hroster, hrates, hsources]
    simp only [bind, Except.bind, pure, Except.pure]
    cases hresult : utilization maxSampleAge roster rates sources
        (Time.truncate readings.now millisecond) with
    | error err => exact .inl ⟨err, by simp only [next, hresult], rfl⟩
    | ok result =>
      exact .inr (.inl ⟨.readRosterAgain roster result, by simp only [next, hresult],
        ⟨hw, hroster, rates, sources, hrates, hsources, hresult⟩, Nat.lt_succ_self _⟩)
  | readRosterAgain roster result =>
    obtain ⟨hw, hroster, rates, sources, hrates, hsources, hresult⟩ := h
    rw [if_neg (hwindow hw), hroster, hrates, hsources]
    simp only [bind, Except.bind, pure, Except.pure]
    rw [hresult]
    cases hafter : readings.rosterAfter with
    | error err => exact .inl ⟨_, by simp only [next, hafter], rfl⟩
    | ok after =>
      cases hsame : sameRoster roster after with
      | false =>
        exact .inl ⟨.ofSentinel .targetChanged, by simp [next, hafter, hsame],
          by simp [hsame, throw, throwThe, MonadExceptOf.throw]⟩
      | true =>
        exact .inr (.inl ⟨.checkFreshness result, by simp [next, hafter, hsame],
          ⟨hw, roster, rates, sources, after, hroster, hrates, hsources, hresult, hafter, hsame⟩,
          Nat.lt_succ_self _⟩)
  | checkFreshness result =>
    obtain ⟨hw, roster, rates, sources, after, hroster, hrates, hsources, hresult, hafter,
      hsame⟩ := h
    rw [if_neg (hwindow hw), hroster, hrates, hsources]
    simp only [bind, Except.bind, pure, Except.pure]
    rw [hresult, hafter]
    by_cases hstale : effectiveMaxSampleAge maxSampleAge < readings.nowAfter - result.oldest
    · exact .inl ⟨_, if_pos hstale, by simp [hsame, hstale, throw, throwThe, MonadExceptOf.throw]⟩
    · exact .inr (.inr ⟨_, if_neg hstale, by simp [hsame, hstale]⟩)

end Stage

/-- Where a call stands; from `deferred` on it returns the history and the error. -/
inductive PC where
  | start
  | context
  | waiting
  | observing (stage : Stage)
  | recording (observation : Observation)
  | deferred (history : CPUHistory ℚ) (err : Option Err) (gateHeld : Bool)
  | logging (history : CPUHistory ℚ) (err : Option Err) (gateHeld : Bool)
  | releasing (history : CPUHistory ℚ) (err : Option Err)
  | finished (history : CPUHistory ℚ) (err : Option Err) (gateHeld : Bool)

namespace PC

/-- The part of a call in the gates' protocol: it acts when it records, or when the deferred
function decides on discarding. -/
def phase : PC → Gates.Phase
  | .start | .context | .waiting => .outside
  | .observing _ | .recording _ => .entered
  | .deferred _ _ false | .logging _ _ false | .finished _ _ false => .outside
  | .deferred _ (some _) true => .entered
  | .deferred _ none true | .logging _ _ true | .releasing _ _ => .acted
  | .finished _ _ true => .left

def rank : PC → ℕ
  | .start => 14
  | .context => 13
  | .waiting => 12
  | .observing stage => 5 + stage.rank
  | .recording _ => 4
  | .deferred _ _ _ => 3
  | .logging _ _ _ => 2
  | .releasing _ _ => 1
  | .finished _ _ _ => 0

theorem rank_le {pc : PC} (h : pc.phase ≠ .outside) : pc.rank ≤ 11 := by
  cases pc with
  | start | context | waiting => exact absurd rfl h
  | observing stage => cases stage <;> simp [rank, Stage.rank]
  | recording | deferred | logging | releasing | finished => simp [rank]

theorem rank_eq_zero {pc : PC} (hout : pc.phase ≠ .outside) (hinside : pc.phase.inside ≠ true) :
    pc.rank = 0 := by
  cases pc with
  | start | context | waiting => exact absurd rfl hout
  | observing | recording | releasing => exact absurd rfl hinside
  | deferred _ err gateHeld =>
    cases gateHeld with
    | false => exact absurd rfl hout
    | true => cases err <;> exact absurd rfl hinside
  | logging _ _ gateHeld =>
    cases gateHeld with
    | false => exact absurd rfl hout
    | true => exact absurd rfl hinside
  | finished => rfl

end PC

/-- The shared parts of the provider and where its calls stand; the lists record the calls that
acquired a gate, decided on the history and released the gate, in order. -/
structure ProviderState (ι : Type*) where
  gates : Fin 64 → Bool
  history : History
  pc : ι → PC
  acquired : List ι
  performed : List ι
  released : List ι

namespace ProviderState

variable {ι : Type*}

def initial : ProviderState ι := ⟨fun _ => false, ∅, fun _ => .start, [], [], []⟩

def HoldsGate (s : ProviderState ι) (i : ι) : Prop := (s.pc i).phase.inside = true

def protocol (s : ProviderState ι) : Gates.State ι (Fin 64) where
  full := s.gates
  phase i := (s.pc i).phase
  entered := s.acquired
  acted := s.performed
  left := s.released

variable [DecidableEq ι]

def goto (s : ProviderState ι) (i : ι) (pc : PC) : ProviderState ι :=
  { s with pc := Function.update s.pc i pc }

end ProviderState

section Step

variable {ι : Type*} [DecidableEq ι] (maxSampleAge : ℤ) (calls : ι → Call)

def gateOf (i : ι) : Fin 64 :=
  match (calls i).target with
  | none => 0
  | some target => queryGate target.metadata.key

/-- The next step of a call. A call waits while its gate is full. -/
def step (s : ProviderState ι) (i : ι) : ProviderState ι :=
  let call := calls i
  match s.pc i with
  | .start =>
    let missing := PC.deferred .zero (some (.wrap .invalidData "target UID is required")) false
    match call.target with
    | none => s.goto i missing
    | some target => if target.metadata.uid = "" then s.goto i missing else s.goto i .context
  | .context =>
    match call.readings.contextErr with
    | some err => s.goto i (.deferred .zero (some err) false)
    | none => s.goto i .waiting
  | .waiting =>
    match call.readings.gateErr with
    | some err => s.goto i (.deferred .zero (some err) false)
    | none =>
      if s.gates (gateOf calls i) then s
      else
        { s with
          gates := Function.update s.gates (gateOf calls i) true
          pc := Function.update s.pc i (.observing .checkWindow)
          acquired := s.acquired ++ [i] }
  | .observing stage =>
    match stage.next maxSampleAge call.window call.readings with
    | .error err => s.goto i (.deferred .zero (some err) true)
    | .ok (.inl stage) => s.goto i (.observing stage)
    | .ok (.inr observation) => s.goto i (.recording observation)
  | .recording observation =>
    match call.target with
    | none => s
    | some target =>
      let (result, history) := record s.history call.order target call.window observation.sample
        observation.sourceAt
      { s with
        history := history
        pc := Function.update s.pc i (.deferred result none true)
        performed := s.performed ++ [i] }
  | .deferred history err gateHeld =>
    { s with
      history := deferredDiscard s.history call.target gateHeld err
      pc := Function.update s.pc i (.logging history err gateHeld)
      performed := if err.isSome && gateHeld then s.performed ++ [i] else s.performed }
  | .logging history err gateHeld =>
    if gateHeld then s.goto i (.releasing history err)
    else s.goto i (.finished history err false)
  | .releasing history err =>
    if s.gates (gateOf calls i) then
      { s with
        gates := Function.update s.gates (gateOf calls i) false
        pc := Function.update s.pc i (.finished history err true)
        released := s.released ++ [i] }
    else s
  | .finished _ _ _ => s

def runSchedule (s : ProviderState ι) (schedule : List ι) : ProviderState ι :=
  schedule.foldl (step maxSampleAge calls) s

end Step

def PC.Follows (maxSampleAge : ℤ) (call : Call) : PC → Prop
  | .start => True
  | .context => ∃ target, call.target = some target ∧ target.metadata.uid ≠ ""
  | .waiting => (∃ target, call.target = some target ∧ target.metadata.uid ≠ "") ∧
    call.readings.contextErr = none
  | .observing stage => (∃ target, call.target = some target ∧ target.metadata.uid ≠ "") ∧
    call.readings.contextErr = none ∧ call.readings.gateErr = none ∧
    stage.Reached maxSampleAge call.window call.readings
  | .recording observation => ∃ target, Accepts maxSampleAge call target observation
  | .deferred _ (some err) gateHeld => attempt maxSampleAge call = .error (err, gateHeld)
  | _ => True

section Moves

variable {ι : Type*} [DecidableEq ι] {maxSampleAge : ℤ} {calls : ι → Call}

inductive Moves (maxSampleAge : ℤ) (calls : ι → Call) (s : ProviderState ι) (i : ι) :
    ProviderState ι → Prop
  | stay : ((s.pc i).phase.inside = true → s.gates (gateOf calls i) = false) →
    Moves maxSampleAge calls s i s
  | goto {pc : PC} (pc' : PC) : s.pc i = pc → pc'.phase = pc.phase → pc'.rank < pc.rank →
    pc'.Follows maxSampleAge (calls i) → Moves maxSampleAge calls s i (s.goto i pc')
  | acquire {pc : PC} (pc' : PC) : s.pc i = pc → pc.phase = .outside → pc'.phase = .entered →
    pc'.rank < pc.rank → pc'.Follows maxSampleAge (calls i) → s.gates (gateOf calls i) = false →
    Moves maxSampleAge calls s i
      { s with
        gates := Function.update s.gates (gateOf calls i) true
        pc := Function.update s.pc i pc'
        acquired := s.acquired ++ [i] }
  | perform {pc : PC} (pc' : PC) : s.pc i = pc → pc.phase = .entered → pc'.phase = .acted →
    pc'.rank < pc.rank → pc'.Follows maxSampleAge (calls i) →
    Moves maxSampleAge calls s i
      { s with
        history := Isolation.run CacheOp.perform s.history ((calls i).cacheOps maxSampleAge)
        pc := Function.update s.pc i pc'
        performed := s.performed ++ [i] }
  | release {pc : PC} (pc' : PC) : s.pc i = pc → pc.phase = .acted → pc'.phase = .left →
    pc'.rank < pc.rank → pc'.Follows maxSampleAge (calls i) → s.gates (gateOf calls i) = true →
    Moves maxSampleAge calls s i
      { s with
        gates := Function.update s.gates (gateOf calls i) false
        pc := Function.update s.pc i pc'
        released := s.released ++ [i] }

/-- A step keeps to the gates' protocol, and changes the history only in its one act. -/
theorem step_moves (s : ProviderState ι) (i : ι) (h : (s.pc i).Follows maxSampleAge (calls i)) :
    Moves maxSampleAge calls s i (step maxSampleAge calls s i) := by
  unfold step
  cases hpc : s.pc i with
  | start =>
    dsimp only
    have hmissing : attempt maxSampleAge (calls i) =
        .error (.wrap .invalidData "target UID is required", false) →
        Moves maxSampleAge calls s i (s.goto i
          (.deferred .zero (some (.wrap .invalidData "target UID is required")) false)) :=
      fun hattempt => .goto _ hpc rfl (by simp [PC.rank]) hattempt
    cases htarget : (calls i).target with
    | none => exact hmissing (by rw [attempt, htarget])
    | some target =>
      dsimp only
      split_ifs with huid
      · exact hmissing (by rw [attempt, htarget]; exact if_pos huid)
      · exact .goto _ hpc rfl (Nat.lt_succ_self _) ⟨target, htarget, huid⟩
  | context =>
    rw [hpc] at h
    obtain ⟨target, htarget, huid⟩ := h
    dsimp only
    cases hctx : (calls i).readings.contextErr with
    | none => exact .goto _ hpc rfl (Nat.lt_succ_self _) ⟨⟨target, htarget, huid⟩, hctx⟩
    | some err =>
      refine .goto _ hpc rfl (by simp [PC.rank]) ?_
      change attempt maxSampleAge (calls i) = .error (err, false)
      simp only [attempt, htarget, if_neg huid, hctx]
  | waiting =>
    rw [hpc] at h
    obtain ⟨⟨target, htarget, huid⟩, hctx⟩ := h
    dsimp only
    cases hgate : (calls i).readings.gateErr with
    | some err =>
      refine .goto _ hpc rfl (by simp [PC.rank]) ?_
      change attempt maxSampleAge (calls i) = .error (err, false)
      simp only [attempt, htarget, if_neg huid, hctx, hgate]
    | none =>
      dsimp only
      split_ifs with hfull
      · exact .stay fun hinside => by rw [hpc] at hinside; cases hinside
      · exact .acquire _ hpc rfl rfl (Nat.lt_succ_self _)
          ⟨⟨target, htarget, huid⟩, hctx, hgate, trivial⟩ (Bool.eq_false_iff.mpr hfull)
  | observing stage =>
    rw [hpc] at h
    obtain ⟨⟨target, htarget, huid⟩, hctx, hgate, hreached⟩ := h
    dsimp only
    rcases Stage.next_cases _ _ _ hreached with ⟨err, hnext, hobserve⟩ |
      ⟨stage', hnext, hreached', hrank⟩ | ⟨observation, hnext, hobserve⟩
    · rw [hnext]
      refine .goto _ hpc rfl (by simp only [PC.rank]; omega) ?_
      change attempt maxSampleAge (calls i) = .error (err, true)
      simp only [attempt, htarget, if_neg huid, hctx, hgate, hobserve]
    · rw [hnext]
      exact .goto _ hpc rfl (Nat.add_lt_add_left hrank 5)
        ⟨⟨target, htarget, huid⟩, hctx, hgate, hreached'⟩
    · rw [hnext]
      exact .goto _ hpc rfl (by simp only [PC.rank]; omega)
        ⟨target, accepts_iff.mpr ⟨htarget, huid, hctx, hgate, hobserve⟩⟩
  | recording observation =>
    rw [hpc] at h
    obtain ⟨target, haccepts⟩ := h
    dsimp only
    rw [haccepts.target_eq.1]
    have hmove : Moves maxSampleAge calls s i _ :=
      .perform (.deferred (record s.history (calls i).order target (calls i).window
        observation.sample observation.sourceAt).1 none true) hpc rfl rfl (Nat.lt_succ_self _)
        trivial
    rw [cacheOps_of_accepts haccepts] at hmove
    exact hmove
  | deferred history err gateHeld =>
    rw [hpc] at h
    dsimp only
    cases gateHeld with
    | false =>
      rw [deferredDiscard_of_not_held, Bool.and_false]
      exact .goto (.logging history err false) hpc rfl (Nat.lt_succ_self _) trivial
    | true =>
      cases err with
      | none =>
        rw [deferredDiscard_of_kept rfl]
        exact .goto (.logging history none true) hpc rfl (Nat.lt_succ_self _) trivial
      | some err =>
        have hmove : Moves maxSampleAge calls s i _ :=
          .perform (.logging history (some err) true) hpc rfl rfl (Nat.lt_succ_self _) trivial
        rw [run_cacheOps_of_error h] at hmove
        exact hmove
  | logging history err gateHeld =>
    cases gateHeld with
    | true => exact .goto _ hpc rfl (Nat.lt_succ_self _) trivial
    | false => exact .goto _ hpc rfl (by simp [PC.rank]) trivial
  | releasing history err =>
    dsimp only
    split_ifs with hfull
    · exact .release _ hpc rfl rfl (Nat.lt_succ_self _) trivial hfull
    · exact .stay fun _ => Bool.eq_false_iff.mpr hfull
  | finished history err gateHeld =>
    refine .stay fun hinside => ?_
    rw [hpc] at hinside
    cases gateHeld with
    | true => cases hinside
    | false => cases hinside

end Moves

end Autoscaler.MetricsProvider
